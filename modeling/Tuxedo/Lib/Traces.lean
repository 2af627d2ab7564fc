import Mathlib.Data.List.Basic
import Mathlib.Data.List.Pairwise
import Mathlib.Tactic.Common

/-!
# Sequences up to the order of independent elements

Two sequences are one trace when they keep every element and the order of every two dependent
elements. What a swap of independent neighbours preserves is a property of the trace. Threads that do not
depend on each other and that each run alone run woven into one sequence in any way.
-/

namespace Traces
variable {α : Type}

open scoped Classical

/-- The occurrences of two elements. -/
noncomputable def pick (a b : α) (xs : List α) : List α := xs.filter fun x => x = a ∨ x = b

theorem pick_append (a b : α) (xs ys : List α) : pick a b (xs ++ ys) = pick a b xs ++ pick a b ys := by
  unfold pick
  exact List.filter_append xs ys

theorem pick_cons_of_mem {a b x : α} (named : x = a ∨ x = b) (xs : List α) : pick a b (x :: xs) = x :: pick a b xs := by
  unfold pick
  exact List.filter_cons_of_pos (decide_eq_true named)

theorem pick_cons_of_ne {a b x : α} (other : ¬(x = a ∨ x = b)) (xs : List α) : pick a b (x :: xs) = pick a b xs := by
  unfold pick
  exact List.filter_cons_of_neg (by simpa using other)

theorem mem_pick {a b x : α} {xs : List α} : x ∈ pick a b xs ↔ x ∈ xs ∧ (x = a ∨ x = b) := by
  unfold pick
  simp [List.mem_filter]

/-- The sequences agree on every element, and on the order of every two dependent ones. -/
def SameOrders (indep : α → α → Prop) (xs ys : List α) : Prop :=
  ∀ a b, a = b ∨ ¬indep a b → pick a b xs = pick a b ys

namespace SameOrders
variable {indep : α → α → Prop} {xs ys : List α}

theorem refl (xs : List α) : SameOrders indep xs xs := fun _ _ _ => rfl

theorem symm (same : SameOrders indep xs ys) : SameOrders indep ys xs := fun a b dependent => (same a b dependent).symm

theorem trans {zs : List α} (first : SameOrders indep xs ys) (second : SameOrders indep ys zs) :
    SameOrders indep xs zs := fun a b dependent => (first a b dependent).trans (second a b dependent)

/-- Fewer independent elements leave fewer sequences that are one trace. -/
theorem weaken {indep' : α → α → Prop} (implies : ∀ a b, indep a b → indep' a b) (same : SameOrders indep xs ys) :
    SameOrders indep' xs ys := by
  intro a b dependent
  exact same a b (dependent.imp_right fun bound apart => bound (implies a b apart))

theorem mem_iff (same : SameOrders indep xs ys) (a : α) : a ∈ xs ↔ a ∈ ys := by
  have here (zs : List α) : a ∈ zs ↔ a ∈ pick a a zs := by simp [mem_pick]
  rw [here xs, here ys, same a a (Or.inl rfl)]

/-- Swapping independent neighbours keeps the trace. -/
theorem swap [Std.Symm indep] {a b : α} (apart : indep a b) (different : a ≠ b)
    (front back : List α) : SameOrders indep (front ++ a :: b :: back) (front ++ b :: a :: back) := by
  intro c d dependent
  rw [pick_append, pick_append]
  congr 1
  by_cases first : a = c ∨ a = d
  · by_cases second : b = c ∨ b = d
    · rcases first with rfl | rfl <;> rcases second with rfl | rfl
      · exact absurd rfl different
      · exact (dependent.elim different fun bound => bound apart).elim
      · exact (dependent.elim (Ne.symm different) fun bound => bound (Std.Symm.symm _ _ apart)).elim
      · exact absurd rfl different
    · rw [pick_cons_of_mem first, pick_cons_of_ne second, pick_cons_of_ne second, pick_cons_of_mem first]
  · by_cases second : b = c ∨ b = d
    · rw [pick_cons_of_ne first, pick_cons_of_mem second, pick_cons_of_mem second, pick_cons_of_ne first]
    · rw [pick_cons_of_ne first, pick_cons_of_ne second, pick_cons_of_ne second, pick_cons_of_ne first]

/-- The head of one sequence stands in the other behind elements that are independent of it. -/
theorem head [Std.Symm indep] {y : α} (same : SameOrders indep xs (y :: ys)) :
    ∃ before after, xs = before ++ y :: after ∧ (∀ x ∈ before, indep x y) ∧
      SameOrders indep (before ++ after) ys := by
  have there : y ∈ xs := (same.mem_iff y).mpr List.mem_cons_self
  obtain ⟨before, after, rfl, first⟩ := List.eq_append_cons_of_mem there
  have apart : ∀ x ∈ before, indep x y := by
    intro x member
    by_contra bound
    -- Of the two the first sequence shows `x` first and the second `y`.
    have orders := same x y (Or.inr bound)
    rw [pick_append, pick_cons_of_mem (Or.inr rfl)] at orders
    cases early : pick x y before with
    | nil =>
      have found : x ∈ pick x y before := mem_pick.mpr ⟨member, Or.inl rfl⟩
      rw [early] at found
      cases found
    | cons z zs =>
      rw [early, pick_cons_of_mem (Or.inr rfl), List.cons_append] at orders
      obtain rfl : z = y := (List.cons.inj orders).1
      have found : z ∈ pick x z before := by
        rw [early]
        exact List.mem_cons_self
      exact first (mem_pick.mp found).1
  refine ⟨before, after, rfl, apart, ?_⟩
  intro a b dependent
  have orders := same a b dependent
  rw [pick_append] at orders ⊢
  by_cases named : y = a ∨ y = b
  · have absent : pick a b before = [] := by
      refine List.eq_nil_iff_forall_not_mem.mpr fun x found => ?_
      obtain ⟨member, which⟩ := mem_pick.mp found
      have other : x ≠ y := by
        rintro rfl
        exact first member
      rcases which with rfl | rfl <;> rcases named with rfl | rfl
      · exact other rfl
      · exact dependent.elim other fun bound => bound (apart x member)
      · exact dependent.elim (Ne.symm other) fun bound => bound (Std.Symm.symm _ _ (apart x member))
      · exact other rfl
    rw [pick_cons_of_mem named, pick_cons_of_mem named, absent] at orders
    rw [absent]
    exact (List.cons.inj orders).2
  · rwa [pick_cons_of_ne named, pick_cons_of_ne named] at orders

/-- What every swap of independent neighbours preserves holds of the whole trace. -/
theorem carries [Std.Symm indep] {P : List α → Prop}
    (swaps : ∀ front a b back, indep a b → P (front ++ a :: b :: back) → P (front ++ b :: a :: back))
    (same : SameOrders indep xs ys) (holds : P xs) : P ys := by
  have moves : ∀ before front y after, (∀ x ∈ before, indep x y) → P (front ++ (before ++ y :: after)) →
      P (front ++ y :: (before ++ after)) := by
    intro before
    induction before with
    | nil => exact fun _ _ _ _ there => there
    | cons x before ih =>
      intro front y after apart there
      obtain ⟨apart_x, apart⟩ := List.forall_mem_cons.mp apart
      have behind : P ((front ++ [x]) ++ (before ++ y :: after)) := by simpa using there
      exact swaps front x y (before ++ after) apart_x (by simpa using ih (front ++ [x]) y after apart behind)
  have onward : ∀ ys front xs, SameOrders indep xs ys → P (front ++ xs) → P (front ++ ys) := by
    intro ys
    induction ys with
    | nil =>
      intro front xs same there
      have empty : xs = [] := List.eq_nil_iff_forall_not_mem.mpr fun x member =>
        List.not_mem_nil ((same.mem_iff x).mp member)
      rwa [empty] at there
    | cons y ys ih =>
      intro front xs same there
      obtain ⟨before, after, rfl, apart, rest⟩ := same.head
      have moved := moves before front y after apart there
      have behind : P ((front ++ [y]) ++ (before ++ after)) := by simpa using moved
      simpa using ih (front ++ [y]) (before ++ after) rest behind
  exact onward ys [] xs same holds

theorem length_eq [Std.Symm indep] (same : SameOrders indep xs ys) : ys.length = xs.length := by
  refine same.carries (P := fun zs => zs.length = xs.length) ?_ rfl
  intro front a b back _ there
  rw [← there, List.length_append, List.length_append]
  rfl

theorem cons (x : α) (same : SameOrders indep xs ys) : SameOrders indep (x :: xs) (x :: ys) := by
  intro a b dependent
  by_cases named : x = a ∨ x = b
  · rw [pick_cons_of_mem named, pick_cons_of_mem named, same a b dependent]
  · rw [pick_cons_of_ne named, pick_cons_of_ne named, same a b dependent]

/-- An element may wait for others that are independent of it. -/
theorem wait [Std.Symm indep] {x : α} {before : List α} (apart : ∀ y ∈ before, indep x y) (after : List α) :
    SameOrders indep (x :: (before ++ after)) (before ++ x :: after) := by
  induction before with
  | nil => exact refl _
  | cons y before ih =>
    obtain ⟨apart_y, apart⟩ := List.forall_mem_cons.mp apart
    have behind := (ih apart).cons y
    by_cases equal : x = y
    · rw [equal] at behind ⊢
      exact behind
    · exact (swap apart_y equal [] (before ++ after)).trans behind

/-- Elements that are independent of each other may come in any order. -/
theorem of_perm [Std.Symm indep] (perm : xs.Perm ys) (apart : xs.Pairwise indep) : SameOrders indep xs ys := by
  intro a b dependent
  have same : (pick a b xs).Perm (pick a b ys) := perm.filter _
  -- Of two dependent elements only one can be there.
  have alike : ∃ c, ∀ x ∈ pick a b xs, x = c := by
    by_cases first : a ∈ xs
    · refine ⟨a, fun x found => ?_⟩
      obtain ⟨member, which⟩ := mem_pick.mp found
      rcases which with equal | equal
      · exact equal
      · rcases dependent with twin | bound
        · exact equal.trans twin.symm
        · by_contra other
          exact bound (apart.forall first (equal ▸ member) fun twin => other (equal.trans twin.symm))
    · refine ⟨b, fun x found => ?_⟩
      obtain ⟨member, which⟩ := mem_pick.mp found
      exact which.resolve_left fun equal => first (equal ▸ member)
  obtain ⟨c, alike⟩ := alike
  have alike' : ∀ x ∈ pick a b ys, x = c := fun x found => alike x (same.mem_iff.mpr found)
  rw [List.eq_replicate_of_mem alike, List.eq_replicate_of_mem alike', same.length_eq]

end SameOrders

/-! ### Threads -/

/-- The threads one after the other, or mixed in any way that keeps each in its order. -/
inductive Woven : List (List α) → List α → Prop
  | done {threads : List (List α)} (finished : ∀ xs ∈ threads, xs = []) : Woven threads []
  | next {before after : List (List α)} {x : α} {xs zs : List α} (later : Woven (before ++ xs :: after) zs) :
      Woven (before ++ (x :: xs) :: after) (x :: zs)

/-- No element of one thread depends on an element of the other. -/
def Unrelated (indep : α → α → Prop) (xs ys : List α) : Prop := ∀ x ∈ xs, ∀ y ∈ ys, indep x y

namespace Woven
variable {indep : α → α → Prop} {threads : List (List α)} {zs : List α}

/-- However the threads are woven, it is the trace of one after the other. -/
theorem sameOrders [Std.Symm indep] (woven : Woven threads zs) (apart : threads.Pairwise (Unrelated indep)) :
    SameOrders indep zs threads.flatten := by
  induction woven with
  | done finished =>
    rw [List.flatten_eq_nil_iff.mpr finished]
    exact SameOrders.refl []
  | @next before after x xs zs _ ih =>
    obtain ⟨front, back, across⟩ := List.pairwise_append.mp apart
    obtain ⟨first, back⟩ := List.pairwise_cons.mp back
    have shorter : (before ++ xs :: after).Pairwise (Unrelated indep) := by
      refine List.pairwise_append.mpr ⟨front, List.pairwise_cons.mpr ⟨?_, back⟩, ?_⟩
      · intro ys member y inside
        exact first ys member y (List.mem_cons_of_mem _ inside)
      · intro ys member ws which y inside w here
        rcases List.mem_cons.mp which with rfl | later
        · exact across ys member _ List.mem_cons_self y inside w (List.mem_cons_of_mem _ here)
        · exact across ys member ws (List.mem_cons_of_mem _ later) y inside w here
    have others : ∀ y ∈ before.flatten, indep x y := by
      intro y inside
      obtain ⟨ys, member, inside⟩ := List.mem_flatten.mp inside
      exact Std.Symm.symm _ _ (across ys member _ List.mem_cons_self y inside x List.mem_cons_self)
    have moved := SameOrders.wait others (xs ++ after.flatten)
    have onward := (ih shorter).cons x
    rw [List.flatten_append, List.flatten_cons] at onward ⊢
    exact onward.trans moved

end Woven

/-! ### Runs -/

section
variable {σ : Type} (step : σ → α → σ → Prop)

inductive Runs : σ → List α → σ → Prop
  | done (s : σ) : Runs s [] s
  | next {s s₁ s' : σ} {x : α} {xs : List α} (first : step s x s₁) (later : Runs s₁ xs s') : Runs s (x :: xs) s'

/-- Of two independent elements, each may go before the other, and neither is in the other's way. -/
structure Commutes (indep : α → α → Prop) : Prop where
  swap : ∀ {s s₁ s' : σ} {a b : α}, indep a b → step s a s₁ → step s₁ b s' → ∃ s₂, step s b s₂ ∧ step s₂ a s'
  beside : ∀ {s s₁ s₂ : σ} {a b : α}, indep a b → step s a s₁ → step s b s₂ → ∃ s', step s₁ b s' ∧ step s₂ a s'

variable {step} {indep : α → α → Prop} {s s₁ s₂ s' : σ} {xs ys : List α}

theorem runs_append : Runs step s (xs ++ ys) s' ↔ ∃ s₁, Runs step s xs s₁ ∧ Runs step s₁ ys s' := by
  constructor
  · intro run
    induction xs generalizing s with
    | nil => exact ⟨s, .done s, run⟩
    | cons x xs ih =>
      cases run with
      | next first later =>
        obtain ⟨s₁, middle, last⟩ := ih later
        exact ⟨s₁, .next first middle, last⟩
  · intro h
    obtain ⟨s₁, front, back⟩ := h
    induction front with
    | done s => exact back
    | next first _ ih => exact .next first (ih back)

namespace Commutes

/-- Another order of the same trace runs to the same state. -/
theorem reorder [Std.Symm indep] (commutes : Commutes step indep) (same : SameOrders indep xs ys)
    (run : Runs step s xs s') : Runs step s ys s' := by
  refine same.carries (P := fun zs => Runs step s zs s') ?_ run
  intro front a b back apart there
  obtain ⟨middle, before, after⟩ := runs_append.mp there
  refine runs_append.mpr ⟨middle, before, ?_⟩
  cases after with
  | next first later =>
    cases later with
    | next second rest =>
      obtain ⟨_, second', first'⟩ := commutes.swap apart first second
      exact .next second' (.next first' rest)

theorem strip (commutes : Commutes step indep) {x : α} (apart : ∀ y ∈ ys, indep x y) (first : step s x s₁)
    (run : Runs step s ys s₂) : ∃ s', Runs step s₁ ys s' ∧ step s₂ x s' := by
  induction run generalizing s₁ with
  | done s => exact ⟨s₁, .done s₁, first⟩
  | next second _ ih =>
    obtain ⟨apart_y, apart⟩ := List.forall_mem_cons.mp apart
    obtain ⟨middle, second', first'⟩ := commutes.beside apart_y first second
    obtain ⟨s', later, last⟩ := ih apart first'
    exact ⟨s', .next second' later, last⟩

/-- Two threads that run from one state run one after the other. -/
theorem beside_runs (commutes : Commutes step indep) (apart : Unrelated indep xs ys) (run : Runs step s xs s₁)
    (run' : Runs step s ys s₂) : ∃ s', Runs step s₁ ys s' := by
  induction run generalizing s₂ with
  | done s => exact ⟨s₂, run'⟩
  | next first _ ih =>
    obtain ⟨apart_x, apart⟩ := List.forall_mem_cons.mp apart
    obtain ⟨_, onward, _⟩ := commutes.strip apart_x first run'
    exact ih apart onward

theorem runs_flatten (commutes : Commutes step indep) {threads : List (List α)}
    (apart : threads.Pairwise (Unrelated indep)) (each : ∀ xs ∈ threads, ∃ s', Runs step s xs s') :
    ∃ s', Runs step s threads.flatten s' := by
  induction threads generalizing s with
  | nil => exact ⟨s, .done s⟩
  | cons xs threads ih =>
    obtain ⟨first, apart⟩ := List.pairwise_cons.mp apart
    obtain ⟨⟨s₁, run⟩, each⟩ := List.forall_mem_cons.mp each
    have onward : ∀ ys ∈ threads, ∃ s', Runs step s₁ ys s' := by
      intro ys member
      obtain ⟨s₂, run'⟩ := each ys member
      exact commutes.beside_runs (first ys member) run run'
    obtain ⟨s', later⟩ := ih apart onward
    exact ⟨s', runs_append.mpr ⟨s₁, run, later⟩⟩

/-- Threads that each run alone run however they are woven, and always to one state. -/
theorem runs_woven [Std.Symm indep] (commutes : Commutes step indep) {threads : List (List α)}
    (apart : threads.Pairwise (Unrelated indep)) (each : ∀ xs ∈ threads, ∃ s', Runs step s xs s') :
    ∃ s', ∀ zs, Woven threads zs → Runs step s zs s' := by
  obtain ⟨s', run⟩ := commutes.runs_flatten apart each
  exact ⟨s', fun zs woven => commutes.reorder (woven.sameOrders apart).symm run⟩

/-- Elements that may each come next may all come, in any order, and always lead to one state. -/
theorem runs_perm [Std.Symm indep] (commutes : Commutes step indep) (apart : xs.Pairwise indep)
    (each : ∀ x ∈ xs, ∃ s', step s x s') : ∃ s', ∀ ys, ys.Perm xs → Runs step s ys s' := by
  have singles : (xs.map fun x => [x]).Pairwise (Unrelated indep) := by
    refine List.pairwise_map.mpr (apart.imp fun bound x first y second => ?_)
    obtain rfl := List.mem_singleton.mp first
    obtain rfl := List.mem_singleton.mp second
    exact bound
  have alone : ∀ thread ∈ xs.map fun x => [x], ∃ s', Runs step s thread s' := by
    refine List.forall_mem_map.mpr fun x member => ?_
    obtain ⟨s', first⟩ := each x member
    exact ⟨s', .next first (.done s')⟩
  obtain ⟨s', run⟩ := commutes.runs_flatten singles alone
  have whole : (xs.map fun x => [x]).flatten = xs := by simp [← List.flatMap_def]
  rw [whole] at run
  exact ⟨s', fun ys perm => commutes.reorder (SameOrders.of_perm perm.symm apart) run⟩

end Commutes
end
end Traces
