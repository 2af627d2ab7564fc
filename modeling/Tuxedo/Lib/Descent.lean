import Mathlib.Data.List.Induction
import Mathlib.Tactic.Common

/-!
# Descent by division

Individuals at places, and events that found some, divide others and leave the rest. The line of
an individual is the list of the divisions behind it, from its founding on. Places may be used
again, so a line belongs to a place at a point of the history.
-/

namespace Descent
variable {τ ρ α : Type*}

/-- Where the individual at a place comes from, after an event. -/
inductive Origin (ρ : Type*) where
  | founded
  | daughter (mother : ρ)
  | stays
  | absent
  deriving DecidableEq

/-- The lines after one more event. -/
def extend (origin : τ → ρ → Origin ρ) (lines : ρ → Option (List τ)) (t : τ) : ρ → Option (List τ) := fun r =>
  match origin t r with
  | .founded => some []
  | .daughter mother => (lines mother).map fun line => line ++ [t]
  | .stays => lines r
  | .absent => none

def lineage (origin : τ → ρ → Origin ρ) (ts : List τ) : ρ → Option (List τ) :=
  ts.foldl (extend origin) fun _ => none

variable {origin : τ → ρ → Origin ρ} {ts : List τ} {t : τ} {r : ρ}

theorem lineage_concat : lineage origin (ts ++ [t]) = extend origin (lineage origin ts) t := by
  simp [lineage]

theorem lineage_founded (here : origin t r = .founded) : lineage origin (ts ++ [t]) r = some [] := by
  rw [lineage_concat, extend, here]

theorem lineage_daughter {mother : ρ} (here : origin t r = .daughter mother) :
    lineage origin (ts ++ [t]) r = (lineage origin ts mother).map fun line => line ++ [t] := by
  rw [lineage_concat, extend, here]

theorem lineage_stays (here : origin t r = .stays) : lineage origin (ts ++ [t]) r = lineage origin ts r := by
  rw [lineage_concat, extend, here]

/-- A line holds events of the history, in their order. -/
theorem lineage_sublist {line : List τ} (found : lineage origin ts r = some line) : line.Sublist ts := by
  induction ts using List.reverseRecOn generalizing r line with
  | nil => cases found
  | append_singleton ts t ih =>
    rw [lineage_concat, extend] at found
    split at found
    · obtain rfl := Option.some.inj found
      exact List.nil_sublist _
    · obtain ⟨earlier, there, rfl⟩ := Option.map_eq_some_iff.mp found
      exact (ih there).append (List.Sublist.refl [t])
    · exact (ih found).trans (List.sublist_append_left ts [t])
    · cases found

/-! ### What a line says about an individual -/

/-- Everybody has a line, and the line is as `P` says. -/
def Traced (origin : τ → ρ → Origin ρ) (P : List τ → α → Prop) (ts : List τ) (h : ρ → Option α) : Prop :=
  ∀ r a, h r = some a → ∃ line, lineage origin ts r = some line ∧ P line a

/-- How an individual comes to a place, over those that were there before. -/
inductive Comes (eve : α → Prop) (heir : α → α → Prop) (h : ρ → Option α) (a : α) (r : ρ) : Origin ρ → Prop
  | founded (first : eve a) : Comes eve heir h a r .founded
  | daughter {q : ρ} {mother : α} (before : h q = some mother) (inherits : heir mother a) :
      Comes eve heir h a r (.daughter q)
  | stays (before : h r = some a) : Comes eve heir h a r .stays

theorem Traced.nil {P : List τ → α → Prop} {h : ρ → Option α} (empty : ∀ r, h r = none) : Traced origin P [] h := by
  intro r a present
  rw [empty r] at present
  cases present

/-- One event: what holds of who is founded, and passes from mother to daughter, holds of everybody. -/
theorem Traced.step {P : List τ → α → Prop} {eve : α → Prop} {heir : α → α → Prop} {h h' : ρ → Option α}
    (traced : Traced origin P ts h) (comes : ∀ r a, h' r = some a → Comes eve heir h a r (origin t r))
    (first : ∀ a, eve a → P [] a) (passes : ∀ line mother a, P line mother → heir mother a → P (line ++ [t]) a) :
    Traced origin P (ts ++ [t]) h' := by
  intro r a present
  have how := comes r a present
  cases here : origin t r with
  | founded =>
    rw [here] at how
    obtain ⟨new⟩ := how
    exact ⟨[], lineage_founded here, first a new⟩
  | daughter q =>
    rw [here] at how
    obtain _ | ⟨before, inherits⟩ := how
    obtain ⟨line, found, holds⟩ := traced q _ before
    exact ⟨line ++ [t], by rw [lineage_daughter here, found]; rfl, passes line _ a holds inherits⟩
  | stays =>
    rw [here] at how
    obtain _ | _ | before := how
    rw [lineage_stays here]
    exact traced r a before
  | absent =>
    rw [here] at how
    cases how

end Descent
