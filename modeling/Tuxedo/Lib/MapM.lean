import Mathlib.Tactic.Common

/-!
# Lists of partial results

`mapM` over a list with a function that may have no result.
-/

namespace List

theorem mapM_congr_mem {α : Type*} {β : Type} {f g : α → Option β} {xs : List α} (same : ∀ x ∈ xs, f x = g x) :
    xs.mapM f = xs.mapM g := by
  induction xs with
  | nil => rfl
  | cons x xs ih =>
    obtain ⟨first, rest⟩ := List.forall_mem_cons.mp same
    rw [List.mapM_cons, List.mapM_cons, first, ih rest]

theorem mapM_of_some {α : Type*} {β : Type} {f : α → Option β} {g : α → β} {xs : List α}
    (h : ∀ x ∈ xs, f x = some (g x)) : xs.mapM f = some (xs.map g) := by
  induction xs with
  | nil => rfl
  | cons x xs ih =>
    obtain ⟨first, rest⟩ := List.forall_mem_cons.mp h
    simp [List.mapM_cons, first, ih rest]

/-- There is no result when one of the items has none. -/
theorem mapM_eq_none_iff {α : Type*} {β : Type} {f : α → Option β} {xs : List α} :
    xs.mapM f = none ↔ ∃ x ∈ xs, f x = none := by
  induction xs with
  | nil => simp
  | cons x xs ih =>
    rw [mapM_cons]
    cases first : f x with
    | none => simp [first]
    | some y =>
      simp only [mem_cons, exists_eq_or_imp, first, reduceCtorEq, false_or, ← ih]
      cases xs.mapM f <;> simp

theorem exists_mem_of_mapM {α : Type*} {β : Type} {f : α → Option β} {xs : List α} {ys : List β}
    (h : xs.mapM f = some ys) : ∀ x ∈ xs, ∃ y ∈ ys, f x = some y := by
  induction xs generalizing ys with
  | nil => simp
  | cons x xs ih =>
    rw [mapM_cons] at h
    obtain ⟨y, first, h⟩ := Option.bind_eq_some_iff.mp h
    obtain ⟨ys, rest, h⟩ := Option.bind_eq_some_iff.mp h
    cases h
    refine forall_mem_cons.mpr ⟨⟨y, mem_cons_self, first⟩, fun x' member => ?_⟩
    obtain ⟨y', found, same⟩ := ih rest x' member
    exact ⟨y', mem_cons_of_mem y found, same⟩

theorem mapM_eq_singleton {α β : Type} {f : α → Option β} {xs : List α} {b : β} (h : xs.mapM f = some [b]) :
    ∃ a, xs = [a] ∧ f a = some b := by
  cases xs with
  | nil => cases h
  | cons a xs =>
    rw [List.mapM_cons] at h
    obtain ⟨b', first, h⟩ := Option.bind_eq_some_iff.mp h
    obtain ⟨bs, rest, h⟩ := Option.bind_eq_some_iff.mp h
    obtain ⟨rfl, rfl⟩ := List.cons.inj (Option.some.inj h)
    cases xs with
    | nil => exact ⟨a, rfl, first⟩
    | cons a' xs =>
      rw [List.mapM_cons] at rest
      obtain ⟨_, _, rest⟩ := Option.bind_eq_some_iff.mp rest
      obtain ⟨_, _, rest⟩ := Option.bind_eq_some_iff.mp rest
      cases rest

theorem mapM_map_right {α : Type*} {β γ : Type} (f : α → Option β) (g : β → γ) (xs : List α) :
    xs.mapM (fun x => (f x).map g) = (xs.mapM f).map (List.map g) := by
  induction xs with
  | nil => rfl
  | cons x xs ih =>
    rw [List.mapM_cons, List.mapM_cons, ih]
    cases f x with
    | none => rfl
    | some y => cases xs.mapM f <;> rfl

theorem mapM_filter_eq_filterMap {α β : Type} {f : α → Option β} {p : α → Bool} (matched : ∀ a, p a = (f a).isSome)
    (xs : List α) : (xs.filter p).mapM f = some (xs.filterMap f) := by
  induction xs with
  | nil => rfl
  | cons x xs ih =>
    cases found : f x with
    | none =>
      have dropped : p x = false := by rw [matched, found]; rfl
      rw [List.filter_cons_of_neg (by simp [dropped]), List.filterMap_cons_none found, ih]
    | some y =>
      have kept : p x = true := by rw [matched, found]; rfl
      rw [List.filter_cons_of_pos kept, List.filterMap_cons_some found, List.mapM_cons, found, ih]
      rfl

end List
