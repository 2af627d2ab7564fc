import Mathlib.Tactic.Common

/-!
# Steps over two tables, and back

A step adds a record to one table and then moves a record to the other. Going back undoes the
move first and drops what was added, whether or not the step added it. Everything is seen at one
key.
-/

namespace Rollback
variable {V : Type*}

/-- What the two tables hold at the key. -/
@[ext] structure Slot (V : Type*) where
  unspent : Option V
  spent : Option V

/-- What a step does at the key: it makes a record, or makes one that is not kept, and it spends
what is there. -/
structure Touch (V : Type*) where
  created : Option (Option V)
  consumed : Prop

namespace Slot

def create (s : Slot V) (record : Option V) : Slot V := ⟨record.or s.unspent, s.spent⟩

def spend (s : Slot V) : Slot V :=
  match s.unspent with
  | some record => ⟨none, some record⟩
  | none => s

def unspend (s : Slot V) : Slot V :=
  match s.spent with
  | some record => ⟨some record, none⟩
  | none => s

def remove (s : Slot V) : Slot V := ⟨none, s.spent⟩

theorem spend_spend (s : Slot V) : s.spend.spend = s.spend := by
  obtain ⟨unspent, spent⟩ := s
  cases unspent <;> rfl

theorem unspend_unspend (s : Slot V) : s.unspend.unspend = s.unspend := by
  obtain ⟨unspent, spent⟩ := s
  cases spent <;> rfl

theorem remove_remove (s : Slot V) : s.remove.remove = s.remove := rfl

theorem spend_unspent (s : Slot V) : s.spend.unspent = none := by
  obtain ⟨unspent, spent⟩ := s
  cases unspent <;> rfl

theorem unspend_spent (s : Slot V) : s.unspend.spent = none := by
  obtain ⟨unspent, spent⟩ := s
  cases spent <;> rfl

theorem unspend_spend {s : Slot V} (unmoved : s.spent = none) : s.spend.unspend = s := by
  obtain ⟨unspent, spent⟩ := s
  obtain rfl : spent = none := unmoved
  cases unspent <;> rfl

end Slot

namespace Touch

def make (t : Touch V) (s : Slot V) : Slot V :=
  match t.created with
  | some record => s.create record
  | none => s

def drop (t : Touch V) (s : Slot V) : Slot V :=
  match t.created with
  | some _ => s.remove
  | none => s

open Classical in
noncomputable def apply (t : Touch V) (s : Slot V) : Slot V :=
  if t.consumed then (t.make s).spend else t.make s

open Classical in
noncomputable def unapply (t : Touch V) (s : Slot V) : Slot V :=
  t.drop (if t.consumed then s.unspend else s)

noncomputable def applyAll (ts : List (Touch V)) (s : Slot V) : Slot V := ts.foldl (fun s t => t.apply s) s

noncomputable def unapplyAll (ts : List (Touch V)) (s : Slot V) : Slot V := ts.foldr (fun t s => t.unapply s) s

/-- The step leaves the key alone. -/
def Untouched (t : Touch V) : Prop := t.created = none ∧ ¬t.consumed

theorem apply_untouched {t : Touch V} (untouched : t.Untouched) (s : Slot V) : t.apply s = s := by
  obtain ⟨unmade, unspent⟩ := untouched
  simp [apply, make, unmade, unspent]

theorem unapply_untouched {t : Touch V} (untouched : t.Untouched) (s : Slot V) : t.unapply s = s := by
  obtain ⟨unmade, unspent⟩ := untouched
  simp [unapply, drop, unmade, unspent]

/-- Whatever the steps were, going back leaves nothing moved where nothing was. -/
theorem unapplyAll_applyAll_spent (ts : List (Touch V)) {s : Slot V} (unmoved : s.spent = none) :
    (unapplyAll ts (applyAll ts s)).spent = none := by
  induction ts generalizing s with
  | nil => exact unmoved
  | cons t ts ih =>
    change (t.unapply (unapplyAll ts (applyAll ts (t.apply s)))).spent = none
    by_cases consumed : t.consumed
    · have back := (unapplyAll ts (applyAll ts (t.apply s))).unspend_spent
      cases created : t.created with
      | none => simpa [unapply, drop, consumed, created] using back
      | some record => simpa [unapply, drop, consumed, created, Slot.remove] using back
    · cases created : t.created with
      | none =>
        rw [unapply_untouched ⟨created, consumed⟩, apply_untouched ⟨created, consumed⟩]
        exact ih unmoved
      | some record =>
        have back := ih (s := t.apply s) (by simpa [apply, make, consumed, created, Slot.create] using unmoved)
        simpa [unapply, drop, consumed, created, Slot.remove] using back

/-! ### Steps from nothing, and steps that make nothing -/

/-- Where nothing was at the start, nothing is left. -/
theorem unapplyAll_applyAll_empty (ts : List (Touch V)) : unapplyAll ts (applyAll ts ⟨none, none⟩) = ⟨none, none⟩ := by
  induction ts with
  | nil => rfl
  | cons t ts ih =>
    have unmoved := unapplyAll_applyAll_spent (t :: ts) (s := ⟨none, none⟩) rfl
    change t.unapply (unapplyAll ts (applyAll ts (t.apply ⟨none, none⟩))) = _
    cases created : t.created with
    | none =>
      have start : t.apply ⟨none, none⟩ = ⟨none, none⟩ := by simp [apply, make, created, Slot.spend]
      rw [start, ih]
      simp [unapply, drop, created, Slot.unspend]
    | some record =>
      refine Slot.ext ?_ unmoved
      simp [unapply, drop, created, Slot.remove]

theorem applyAll_of_unspent {ts : List (Touch V)} (uncreated : ∀ t ∈ ts, t.created = none) {s : Slot V}
    (gone : s.unspent = none) : applyAll ts s = s := by
  induction ts with
  | nil => rfl
  | cons t ts ih =>
    obtain ⟨head, tail⟩ := List.forall_mem_cons.mp uncreated
    have same : t.apply s = s := by simp [apply, make, head, Slot.spend, gone]
    change applyAll ts (t.apply s) = s
    rw [same]
    exact ih tail

theorem unspend_unapplyAll {ts : List (Touch V)} (uncreated : ∀ t ∈ ts, t.created = none) (s : Slot V) :
    (unapplyAll ts s).unspend = s.unspend := by
  induction ts with
  | nil => rfl
  | cons t ts ih =>
    obtain ⟨head, tail⟩ := List.forall_mem_cons.mp uncreated
    change (t.unapply (unapplyAll ts s)).unspend = s.unspend
    by_cases consumed : t.consumed
    · have back : t.unapply (unapplyAll ts s) = (unapplyAll ts s).unspend := by simp [unapply, drop, head, consumed]
      rw [back, Slot.unspend_unspend]
      exact ih tail
    · rw [unapply_untouched ⟨head, consumed⟩]
      exact ih tail

/-- The first step that spends moves the record, and the steps after it find none. -/
theorem unapplyAll_applyAll_of_uncreated {ts : List (Touch V)} (uncreated : ∀ t ∈ ts, t.created = none) {s : Slot V}
    (unmoved : (∃ t ∈ ts, ¬t.Untouched) → s.spent = none) : unapplyAll ts (applyAll ts s) = s := by
  induction ts with
  | nil => rfl
  | cons t ts ih =>
    obtain ⟨head, tail⟩ := List.forall_mem_cons.mp uncreated
    change t.unapply (unapplyAll ts (applyAll ts (t.apply s))) = s
    by_cases consumed : t.consumed
    · have moved : t.apply s = s.spend := by simp [apply, make, head, consumed]
      have back : ∀ s, t.unapply s = s.unspend := by simp [unapply, drop, head, consumed]
      have here : s.spent = none := unmoved ⟨t, List.mem_cons_self, fun untouched => untouched.2 consumed⟩
      rw [moved, back, applyAll_of_unspent tail s.spend_unspent, unspend_unapplyAll tail]
      exact Slot.unspend_spend here
    · have untouched : t.Untouched := ⟨head, consumed⟩
      rw [apply_untouched untouched, unapply_untouched untouched]
      exact ih tail fun ⟨t, member, touched⟩ => unmoved ⟨t, List.mem_cons_of_mem _ member, touched⟩

/-- Going back restores the slot, if nothing was moved at a key that a step touches, and nothing
was there at a key that a step creates. -/
theorem unapplyAll_applyAll {ts : List (Touch V)} {s : Slot V} (unmoved : (∃ t ∈ ts, ¬t.Untouched) → s.spent = none)
    (fresh : (∃ t ∈ ts, t.created ≠ none) → s.unspent = none) : unapplyAll ts (applyAll ts s) = s := by
  by_cases created : ∃ t ∈ ts, t.created ≠ none
  · obtain ⟨t, member, creates⟩ := created
    have start : s = ⟨none, none⟩ :=
      Slot.ext (fresh ⟨t, member, creates⟩) (unmoved ⟨t, member, fun untouched => creates untouched.1⟩)
    subst start
    exact unapplyAll_applyAll_empty ts
  · push Not at created
    exact unapplyAll_applyAll_of_uncreated created unmoved

/-! ### What steps from nothing leave -/

theorem apply_spent {t : Touch V} {s : Slot V} (moved : (t.apply s).spent ≠ none) : s.spent ≠ none ∨ t.consumed := by
  by_cases consumed : t.consumed
  · exact Or.inr consumed
  · cases created : t.created with
    | none => exact Or.inl (by rwa [apply_untouched ⟨created, consumed⟩] at moved)
    | some record => exact Or.inl (by simpa [apply, make, consumed, created, Slot.create] using moved)

theorem apply_unspent {t : Touch V} {s : Slot V} (there : (t.apply s).unspent ≠ none) :
    s.unspent ≠ none ∨ t.created ≠ none := by
  cases created : t.created with
  | some record => exact Or.inr (Option.some_ne_none record)
  | none =>
    by_cases consumed : t.consumed
    · refine absurd ?_ there
      simp [apply, make, consumed, created, Slot.spend_unspent]
    · exact Or.inl (by rwa [apply_untouched ⟨created, consumed⟩] at there)

theorem applyAll_spent {ts : List (Touch V)} {s : Slot V} (unmoved : s.spent = none)
    (moved : (applyAll ts s).spent ≠ none) : ∃ t ∈ ts, t.consumed := by
  induction ts generalizing s with
  | nil => exact absurd unmoved moved
  | cons t ts ih =>
    by_cases here : (t.apply s).spent = none
    · obtain ⟨t', member, consumed⟩ := ih here moved
      exact ⟨t', List.mem_cons_of_mem t member, consumed⟩
    · exact ⟨t, List.mem_cons_self, (apply_spent here).resolve_left (not_not_intro unmoved)⟩

theorem applyAll_unspent {ts : List (Touch V)} {s : Slot V} (absent : s.unspent = none)
    (there : (applyAll ts s).unspent ≠ none) : ∃ t ∈ ts, t.created ≠ none := by
  induction ts generalizing s with
  | nil => exact absurd absent there
  | cons t ts ih =>
    by_cases here : (t.apply s).unspent = none
    · obtain ⟨t', member, created⟩ := ih here there
      exact ⟨t', List.mem_cons_of_mem t member, created⟩
    · exact ⟨t, List.mem_cons_self, (apply_unspent here).resolve_left (not_not_intro absent)⟩

theorem applyAll_append (ts ts' : List (Touch V)) (s : Slot V) :
    applyAll (ts ++ ts') s = applyAll ts' (applyAll ts s) := List.foldl_append

end Touch
end Rollback
