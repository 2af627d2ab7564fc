import Tuxedo.Executive.Authoring

/-!
# What validation and rejection leave

Validation writes what the constraint checker writes, and nothing when it does not come to call
it. A rejected transaction leaves what its checker left.
-/

namespace Tuxedo.Executive
open Scale TransparentUtxoSet

variable {V C : Type} [Host] [Verifier V] [Codec C]

/-- Validation comes to call the constraint checker. -/
structure Checkable (t : Transaction V C) (txHash : H256) (s : Storage) : Prop extends Prechecked t txHash s where
  inputsPresent : ∀ r ∈ inputRefs t, ∃ output, peekUtxo V s r = some output
  peeksPresent : ∀ r ∈ t.peeks.toList, ∃ output, peekUtxo V s r = some output

theorem checkable_iff {t : Transaction V C} {txHash : H256} {s : Storage} :
    Checkable t txHash s ↔ Prechecked t txHash s ∧ (preparedFor t txHash s).missingInputs = [] := by
  unfold preparedFor
  rw [List.append_eq_nil_iff, missingRefs_eq_nil, missingRefs_eq_nil]
  exact ⟨fun ⟨prechecked, inputs, peeks⟩ => ⟨prechecked, inputs, peeks⟩,
    fun ⟨prechecked, inputs, peeks⟩ => ⟨prechecked, inputs, peeks⟩⟩

variable [ConstraintChecker V C] {t : Transaction V C} {txHash : H256} {s s' : Storage}

/-- The call that validation makes. -/
def checkIn (t : Transaction V C) (s : Storage) : Exec Storage (ConstraintChecker.Error V C) UInt64 :=
  ConstraintChecker.check (V := V) t.checker ((redeemedRefs t.inputs.toList).filterMap (payloadAt V s))
    ((evictedRefs t.inputs.toList).filterMap (payloadAt V s)) (t.peeks.toList.filterMap (payloadAt V s)) (outputData t)

theorem validate_of_checkable (checkable : Checkable t txHash s) :
    validateTuxedoTransaction t s = (do
      let _ ← Exec.mapErr .constraintCheckerError (checkIn t s)
      return {
        requires := []
        provides := (t.outputRefs txHash).map encode
        priority := 0
        longevity := 18446744073709551615
        propagate := true } : Exec Storage (UtxoError (ConstraintChecker.Error V C)) ValidTransaction) s := by
  obtain ⟨prechecked, complete⟩ := checkable_iff.mp checkable
  have prepared := prepare_ok (E := ConstraintChecker.Error V C).mpr ⟨txHash, prechecked, rfl⟩
  refine (Exec.bind_of_ok (Exec.read_of_ok prepared)).trans ?_
  rw [if_pos (by simp [complete])]
  rfl

theorem after_validate_of_checkable (checkable : Checkable t txHash s) :
    (validateTuxedoTransaction t).after s = (checkIn t s).after s := by
  rw [Exec.after, validate_of_checkable checkable]
  exact (Exec.after_bind_of_reads (fun _ _ => rfl) s).trans (Exec.after_mapErr ..)

/-- Without a call of the checker, validation writes nothing. -/
theorem after_validate_of_not_checkable (uncalled : ∀ txHash, ¬Checkable t txHash s) :
    (validateTuxedoTransaction t).after s = s := by
  cases read : prepare (E := ConstraintChecker.Error V C) t s with
  | error e =>
    have stopped : validateTuxedoTransaction t s = .error e s := by
      change EStateM.bind (Exec.read (prepare t)) _ s = .error e s
      simp [EStateM.bind, Exec.read, read]
    exact Exec.after_of_error stopped
  | ok prepared =>
    obtain ⟨txHash, prechecked, rfl⟩ := prepare_ok.mp read
    have incomplete : (preparedFor t txHash s).missingInputs ≠ [] := fun complete =>
      uncalled txHash (checkable_iff.mpr ⟨prechecked, complete⟩)
    rw [Exec.after, validateTuxedoTransaction, Exec.bind_of_ok (Exec.read_of_ok read),
      if_neg (by simpa using incomplete)]
    rfl

/-- Validation leaves the storage as the call of the checker does, if it is made. -/
theorem after_validate_iff {P : Storage → Prop} (unchanged : P s) :
    P ((validateTuxedoTransaction t).after s) ↔ ∀ txHash, Checkable t txHash s → P ((checkIn t s).after s) := by
  by_cases called : ∃ txHash, Checkable t txHash s
  · obtain ⟨txHash, checkable⟩ := called
    rw [after_validate_of_checkable checkable]
    exact ⟨fun left _ _ => left, fun left => left txHash checkable⟩
  · rw [after_validate_of_not_checkable fun txHash checkable => called ⟨txHash, checkable⟩]
    exact ⟨fun _ txHash checkable => absurd ⟨txHash, checkable⟩ called, fun _ => unchanged⟩

/-! ### Rejection -/

theorem validate_failsCleanly (clean : Exec.FailsCleanly (checkIn t s))
    {e : Halt (UtxoError (ConstraintChecker.Error V C))} (h : validateTuxedoTransaction t s = .error e s') :
    s' = s := by
  rw [← Exec.after_of_error h, after_validate_iff (P := fun s' => s' = s) rfl]
  intro txHash checkable
  rw [validate_of_checkable checkable] at h
  rcases Exec.bind_error h with failed | ⟨_, _, _, returned⟩
  · obtain ⟨_, failed, _⟩ := Exec.mapErr_error failed
    rw [Exec.after_of_error failed]
    exact clean _ _ _ failed
  · cases returned

/-- Once the checker has passed, nothing else can fail. -/
theorem apply_failsCleanly (clean : Exec.FailsCleanly (checkIn t s))
    {e : Halt (UtxoError (ConstraintChecker.Error V C))} (h : applyTuxedoTransaction t s = .error e s') : s' = s := by
  rcases Exec.bind_error h with rejected | ⟨valid, s₁, validated, h⟩
  · exact validate_failsCleanly clean rejected
  · obtain ⟨txHash, prechecked, requires, _⟩ := validate_ok validated
    rcases Exec.bind_error h with incomplete | ⟨_, s₂, complete, h⟩
    · -- The checker has not been called.
      obtain ⟨failed, rfl⟩ := Exec.lift_error incomplete
      rw [← Exec.after_of_ok validated]
      refine after_validate_of_not_checkable fun txHash' checkable => ?_
      obtain rfl : txHash' = txHash := Option.some.inj (checkable.hash.symm.trans prechecked.hash)
      rw [Outcome.ensure_of _ (requires.trans (checkable_iff.mp checkable).2)] at failed
      cases failed
    · obtain ⟨_, rfl⟩ := Exec.lift_ok complete
      rcases Exec.bind_error h with read | ⟨_, s₃, current, h⟩
      · cases read
      · obtain ⟨rfl, rfl⟩ := Exec.get_ok current
        rw [updateStorage_eq prechecked.hash] at h
        rcases Exec.bind_error h with failed | ⟨_, _, _, written⟩
        · obtain ⟨failed, _⟩ := Exec.lift_error failed
          cases failed
        · cases written

/-- A rejected extrinsic stays in the list of the applied ones. -/
theorem applyExtrinsic_failed (clean : ∀ s, Exec.FailsCleanly (checkIn t s)) {e : InvalidTransaction}
    (h : applyExtrinsic t s = .error (.err e) s') : noteExtrinsic t s = some s' := by
  rcases Exec.bind_error h with read | ⟨_, _, current, h⟩
  · cases read
  · obtain ⟨rfl, rfl⟩ := Exec.get_ok current
    rcases Exec.bind_error h with unnoted | ⟨noted, _, found, h⟩
    · -- Encoding too much is a panic and no error.
      obtain ⟨failed, _⟩ := Exec.lift_error unnoted
      cases noting : noteExtrinsic t s <;> rw [noting] at failed <;> cases failed
    · obtain ⟨noting, rfl⟩ := Exec.lift_ok found
      rcases Exec.bind_error h with written | ⟨_, s₁, written, h⟩
      · cases written
      · obtain rfl := Exec.set_ok written
        obtain ⟨e', rejected, _⟩ := Exec.mapErr_error h
        rw [apply_failsCleanly (clean _) rejected]
        exact Outcome.expect_ok noting

end Tuxedo.Executive
