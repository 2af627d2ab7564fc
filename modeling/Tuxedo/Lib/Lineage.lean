import Mathlib.Tactic.Common

/-!
# Lines of descent

Items that name their parents, and lists in which every item but the first names the one before
it. Two such lists that meet are the same up to where they meet.
-/

namespace Lineage
variable {β : Type}

def Linked (parent : β → Option β) (xs : List β) : Prop := ∀ i b, xs[i + 1]? = some b → parent b = xs[i]?

variable {parent : β → Option β} {xs ys : List β}

theorem Linked.take (linked : Linked parent xs) (n : Nat) : Linked parent (xs.take n) := by
  intro i b found
  rw [List.getElem?_take] at found ⊢
  split at found
  · rename_i inside
    rw [if_pos (by omega)]
    exact linked i b found
  · cases found

theorem Linked.concat (linked : Linked parent xs) {b : β} (last : parent b = xs.getLast?) :
    Linked parent (xs ++ [b]) := by
  intro i c found
  by_cases inside : i + 1 < xs.length
  · rw [List.getElem?_append_left inside] at found
    rw [List.getElem?_append_left (by omega)]
    exact linked i c found
  · rw [List.getElem?_append_right (by omega), List.getElem?_singleton] at found
    split at found
    · rename_i first
      cases found
      rw [List.getElem?_append_left (by omega), last, List.getLast?_eq_getElem?]
      congr 1
      omega
    · cases found

theorem Linked.init {b : β} (linked : Linked parent (xs ++ [b])) : Linked parent xs := by
  have front := linked.take xs.length
  rwa [List.take_left] at front

/-- Below a common item the two lines are the same. -/
theorem Linked.agree_below (first : Linked parent xs) (second : Linked parent ys) {n : Nat} {b : β}
    (here : xs[n]? = some b) (there : ys[n]? = some b) : ∀ i ≤ n, xs[i]? = ys[i]? := by
  induction n generalizing b with
  | zero =>
    intro i below
    obtain rfl : i = 0 := by omega
    rw [here, there]
  | succ n ih =>
    intro i below
    by_cases same : i = n + 1
    · rw [same, here, there]
    · have named : xs[n]? = ys[n]? := (first n b here).symm.trans (second n b there)
      have inside : n < xs.length := by
        have := (List.getElem?_eq_some_iff.mp here).1
        omega
      exact ih (List.getElem?_eq_getElem inside) (named ▸ List.getElem?_eq_getElem inside) i (by omega)

theorem Linked.take_eq (first : Linked parent xs) (second : Linked parent ys) {n : Nat} {b : β}
    (here : xs[n]? = some b) (there : ys[n]? = some b) : xs.take (n + 1) = ys.take (n + 1) := by
  apply List.ext_getElem?
  intro i
  rw [List.getElem?_take, List.getElem?_take]
  split
  · exact first.agree_below second here there i (by omega)
  · rfl

end Lineage
