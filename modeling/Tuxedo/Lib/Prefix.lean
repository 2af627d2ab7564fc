import Mathlib.Algebra.BigOperators.Group.List.Basic
import Mathlib.Algebra.GroupWithZero.Nat
import Mathlib.Algebra.Order.BigOperators.Group.List
import Mathlib.Algebra.Order.Group.Nat
import Mathlib.Data.List.Infix
import Mathlib.Tactic.Common

/-!
# The shortest prefix that passes a test

What a loop takes that adds the elements of a list one by one, and stops as soon as those it has
pass a test. For a bound on the sum of weights it finds a prefix exactly when the whole list passes.
-/

namespace Prefix
variable {α : Type}

/-- The prefix passes, and no shorter one does. -/
structure Shortest (test : List α → Prop) (xs p : List α) : Prop where
  isPrefix : p <+: xs
  passes : test p
  least : ∀ q, q <+: p → test q → q = p

def shortest? (test : List α → Prop) [DecidablePred test] (xs : List α) : Option (List α) :=
  xs.inits.find? fun p => test p

theorem Shortest.nil {test : List α → Prop} (passes : test []) (xs : List α) : Shortest test xs [] where
  isPrefix := List.nil_prefix
  passes := passes
  least _ inside _ := List.prefix_nil.mp inside

theorem Shortest.cons {test : List α → Prop} {x : α} {xs p : List α} (fails : ¬test [])
    (shortest : Shortest (fun q => test (x :: q)) xs p) : Shortest test (x :: xs) (x :: p) where
  isPrefix := (List.prefix_cons_inj x).mpr shortest.isPrefix
  passes := shortest.passes
  least := by
    intro q inside passes
    cases q with
    | nil => exact absurd passes fails
    | cons y q =>
      obtain ⟨same, within⟩ := List.cons_prefix_cons.mp inside
      subst same
      rw [shortest.least q within passes]

theorem Shortest.unique {test : List α → Prop} {xs p q : List α} (left : Shortest test xs p)
    (right : Shortest test xs q) : p = q := by
  rcases List.prefix_or_prefix_of_prefix left.isPrefix right.isPrefix with inside | inside
  · exact right.least p inside left.passes
  · exact (left.least q inside right.passes).symm

section
variable {test : List α → Prop} [DecidablePred test] {x : α} {xs p : List α}

theorem shortest?_congr {test' : List α → Prop} [DecidablePred test'] (same : ∀ p, test p ↔ test' p) (xs : List α) :
    shortest? test xs = shortest? test' xs := by
  simp only [shortest?, same]

theorem shortest?_of_passes (passes : test []) (xs : List α) : shortest? test xs = some [] := by
  cases xs <;> simp [shortest?, passes]

theorem shortest?_nil (fails : ¬test []) : shortest? test [] = none := by
  simp [shortest?, fails]

theorem shortest?_cons (fails : ¬test []) :
    shortest? test (x :: xs) = (shortest? (fun p => test (x :: p)) xs).map (x :: ·) := by
  unfold shortest?
  rw [List.inits_cons, List.find?_cons_of_neg (by simpa using fails), List.find?_map]
  rfl

theorem shortest?_eq_none_iff : shortest? test xs = none ↔ ∀ p, p <+: xs → ¬test p := by
  simp [shortest?, List.find?_eq_none]

theorem shortest_of_found (found : shortest? test xs = some p) : Shortest test xs p := by
  induction xs generalizing test p with
  | nil =>
    by_cases passes : test []
    · rw [shortest?_of_passes passes] at found
      cases found
      exact .nil passes []
    · rw [shortest?_nil passes] at found
      cases found
  | cons x xs ih =>
    by_cases passes : test []
    · rw [shortest?_of_passes passes] at found
      cases found
      exact .nil passes (x :: xs)
    · rw [shortest?_cons passes] at found
      obtain ⟨q, later, rfl⟩ := Option.map_eq_some_iff.mp found
      exact (ih later).cons passes

end

/-! ### A bound on the sum of weights -/

section
variable (weight : α → Nat)

def load (xs : List α) : Nat := (xs.map weight).sum

variable {weight} {xs p q : List α} {target : Nat}

@[simp] theorem load_nil : load weight [] = 0 := rfl

theorem load_cons (x : α) (xs : List α) : load weight (x :: xs) = weight x + load weight xs := by
  simp [load]

theorem load_append (xs ys : List α) : load weight (xs ++ ys) = load weight xs + load weight ys := by
  simp [load]

theorem load_mono (inside : p <+: q) : load weight p ≤ load weight q := by
  obtain ⟨rest, rfl⟩ := inside
  rw [load_append]
  omega

theorem load_le_of_subset (distinct : p.Nodup) (inside : p ⊆ q) : load weight p ≤ load weight q := by
  obtain ⟨zs, same, within⟩ := List.subperm_of_subset distinct inside
  calc load weight p = load weight zs := ((same.map weight).sum_eq).symm
    _ ≤ load weight q := (within.map weight).sum_le_sum fun _ _ => Nat.zero_le _

/-- The whole list passes exactly when a prefix does. -/
theorem shortest?_load_isSome : (shortest? (fun p => target ≤ load weight p) xs).isSome ↔ target ≤ load weight xs := by
  rw [Option.isSome_iff_ne_none, ne_eq, shortest?_eq_none_iff]
  constructor
  · intro found
    by_contra short
    exact found fun p inside passes => short (passes.trans (load_mono inside))
  · intro passes none
    exact none xs (List.prefix_refl xs) passes

/-- Without its last element the shortest prefix is below the bound. -/
theorem shortest_load_iff : Shortest (fun p => target ≤ load weight p) xs p ↔
    p <+: xs ∧ target ≤ load weight p ∧ ∀ front last, p = front ++ [last] → load weight front < target := by
  constructor
  · intro shortest
    refine ⟨shortest.isPrefix, shortest.passes, ?_⟩
    rintro front last rfl
    by_contra enough
    have same := shortest.least front (List.prefix_append front [last]) (by omega)
    simp at same
  · intro ⟨inside, passes, below⟩
    refine ⟨inside, passes, ?_⟩
    intro q within enough
    cases p using List.reverseRecOn with
    | nil => exact List.prefix_nil.mp within
    | append_singleton front last =>
      rcases List.prefix_concat_iff.mp within with whole | shorter
      · exact whole
      · have bound : load weight q ≤ load weight front := load_mono shorter
        have short := below front last rfl
        omega

end
end Prefix
