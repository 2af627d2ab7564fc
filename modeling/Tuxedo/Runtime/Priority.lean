import Tuxedo.Runtime.Supply

/-!
# The priority in the pool

A checker returns a priority, and validation drops it.
-/

namespace Tuxedo.Template
open Scale Executive TransparentUtxoSet Money

/-- What a spend burns. -/
def burned [Host] (s : Storage) (t : Transaction) : Nat := inputValue s t - outputValue t

section
variable {V C : Type} [Host] [Verifier V] [Codec C] [ConstraintChecker V C]

/-- The answer of the constraint checker in a validation that calls it. -/
def checkerAnswer (t : Tuxedo.Transaction V C) :
    Exec Storage (ConstraintChecker.Error V C) UInt64 := fun s =>
  ConstraintChecker.check (V := V) t.checker
    ((redeemedRefs t.inputs.toList).filterMap (payloadAt V s))
    ((evictedRefs t.inputs.toList).filterMap (payloadAt V s))
    (t.peeks.toList.filterMap (payloadAt V s)) (outputData t) s

theorem validateTransaction_ok {t : Tuxedo.Transaction V C} {s s' : Storage} {valid : ValidTransaction}
    (h : validateTransaction t s = .ok valid s') (complete : valid.requires = []) :
    valid.priority = 0 ∧ ∃ priority, checkerAnswer t s = .ok priority s' := by
  unfold validateTransaction at h
  split at h
  · cases (Exec.lift_ok h).1
  · have validated := Exec.mapErr_ok.mp h
    obtain ⟨_, _, _, _, called⟩ := validate_ok validated
    exact ⟨validate_priority validated, called complete⟩

end

section
variable [Host] {t : Transaction} {s s' : Storage} {valid : ValidTransaction}

/-- The checker of a spend does return what is burned. -/
theorem spend_priority (spend : t.checker = .money .spend) {priority : UInt64}
    (call : checkerAnswer t s = .ok priority s') : priority.toNat = min (burned s t) (2 ^ 64 - 1) := by
  change OuterConstraintChecker.check t.checker _ _ _ _ _ = _ at call
  rw [spend] at call
  obtain ⟨passed, _⟩ := Exec.lift_ok (Exec.mapErr_ok.mp call)
  obtain ⟨spends, returned⟩ := check_spend_iff.mp passed
  rw [returned, redeemed_value spends.noEvictions]
  rfl

/-- The priority that reaches the pool is the checker's only where the checker returns zero, and
for a spend only where it burns nothing. -/
theorem fee_priority_iff :
    (∀ {V C : Type} [Verifier V] [Codec C] [ConstraintChecker V C] (t : Tuxedo.Transaction V C) (s s' : Storage)
      (valid : ValidTransaction), validateTransaction t s = .ok valid s' → valid.requires = [] →
      ∃ priority, checkerAnswer t s = .ok priority s' ∧ (valid.priority = priority ↔ priority = 0)) ∧
    ∀ (s s₁ s₂ : Storage) (t₁ t₂ : Transaction) (valid₁ valid₂ : ValidTransaction),
      t₁.checker = .money .spend → t₂.checker = .money .spend →
      validateTransaction t₁ s = .ok valid₁ s₁ → validateTransaction t₂ s = .ok valid₂ s₂ →
      valid₁.requires = [] → valid₂.requires = [] →
      (∃ p₁ p₂, checkerAnswer t₁ s = .ok p₁ s₁ ∧ checkerAnswer t₂ s = .ok p₂ s₂ ∧
        p₁.toNat = min (burned s t₁) (2 ^ 64 - 1) ∧ p₂.toNat = min (burned s t₂) (2 ^ 64 - 1)) ∧
      (valid₁.priority.toNat = min (burned s t₁) (2 ^ 64 - 1) ∧
          valid₂.priority.toNat = min (burned s t₂) (2 ^ 64 - 1) ↔
        burned s t₁ = 0 ∧ burned s t₂ = 0) := by
  constructor
  · intro V C _ _ _ t s s' valid validated complete
    obtain ⟨dropped, priority, call⟩ := validateTransaction_ok validated complete
    refine ⟨priority, call, ?_⟩
    rw [dropped]
    exact eq_comm
  · intro s s₁ s₂ t₁ t₂ valid₁ valid₂ spend₁ spend₂ validated₁ validated₂ complete₁ complete₂
    obtain ⟨dropped₁, p₁, call₁⟩ := validateTransaction_ok validated₁ complete₁
    obtain ⟨dropped₂, p₂, call₂⟩ := validateTransaction_ok validated₂ complete₂
    refine ⟨⟨p₁, p₂, call₁, call₂, spend_priority spend₁ call₁, spend_priority spend₂ call₂⟩, ?_⟩
    rw [dropped₁, dropped₂, UInt64.toNat_zero]
    omega

end

/-- Takes the coin of 100 and pays out a part of it. -/
def payOut (value : U128) : Transaction :=
  ⟨Vec.singleton (grabInput [] unpadded_small), Vec.empty, Vec.singleton (grabCoin value), .money .spend⟩

set_option maxRecDepth 4000 in
theorem payOut_validates :
    letI := Host.unsigned
    ((validateTransaction (payOut 100)).toOption grabStorage).any (fun answer => answer.1.requires = []) = true ∧
      ((validateTransaction (payOut 60)).toOption grabStorage).any (fun answer => answer.1.requires = []) = true :=
  ⟨by rfl, by rfl⟩

set_option maxRecDepth 4000 in
theorem fee_priority_even :
    letI := Host.unsigned
    ∃ valid s', validateTransaction (payOut 100) grabStorage = .ok valid s' ∧ burned grabStorage (payOut 100) = 0 ∧
      valid.priority.toNat = min (burned grabStorage (payOut 100)) (2 ^ 64 - 1) := by
  let := Host.unsigned
  obtain ⟨valid, s', validated, complete⟩ := Exec.exists_of_any payOut_validates.1
  have complete : valid.requires = [] := by simpa using complete
  have even : burned grabStorage (payOut 100) = 0 := rfl
  have passed := ((fee_priority_iff.2 grabStorage s' s' (payOut 100) (payOut 100) valid valid rfl rfl validated
    validated complete complete).2.mpr ⟨even, even⟩).1
  exact ⟨valid, s', validated, even, passed⟩

set_option maxRecDepth 4000 in
/-- Forty coins burned, and the priority is zero. -/
theorem fee_priority_lost :
    letI := Host.unsigned
    ∃ valid s', validateTransaction (payOut 60) grabStorage = .ok valid s' ∧ valid.requires = [] ∧
      checkerAnswer (payOut 60) grabStorage = .ok 40 s' ∧ burned grabStorage (payOut 60) = 40 ∧
      valid.priority.toNat ≠ min (burned grabStorage (payOut 60)) (2 ^ 64 - 1) := by
  let := Host.unsigned
  obtain ⟨valid, s', validated, complete⟩ := Exec.exists_of_any payOut_validates.2
  have complete : valid.requires = [] := by simpa using complete
  have spent : burned grabStorage (payOut 60) = 40 := rfl
  obtain ⟨dropped, priority, call⟩ := validateTransaction_ok validated complete
  have returned := spend_priority rfl call
  rw [spent] at returned
  obtain rfl : priority = 40 := UInt64.toNat_inj.mp returned
  refine ⟨valid, s', validated, complete, call, spent, ?_⟩
  rw [spent, dropped]
  decide

end Tuxedo.Template
