import Tuxedo.Runtime.Template
import Tuxedo.Executive.Authoring
import Tuxedo.Executive.Inputs

/-!
# The pieces of the template runtime

Every checker of a piece extracts each payload that it consumes or creates as a type of that
piece, so no transaction reaches the data of another.
-/

namespace Tuxedo.Template
open Scale Executive TransparentUtxoSet DynamicallyTypedData

inductive Piece where
  | money
  | kitties
  | amoeba
  | poe
  | timestamp
  | runtimeUpgrade
  deriving DecidableEq

/-- The payload carries the type of the piece and extracts as it. -/
def Piece.Owns : Piece → DynamicallyTypedData → Prop
  | money => Extracts (Money.Coin 0)
  | kitties => Extracts Kitties.KittyData
  | amoeba => Extracts Amoeba.AmoebaDetails
  | poe => Extracts Poe.ClaimData
  | timestamp => Extracts Time.Timestamp
  | runtimeUpgrade => Extracts Upgrade.RuntimeRef

def Piece.typeId : Piece → FixedBytes 4
  | money => UtxoData.typeId (Money.Coin 0)
  | kitties => UtxoData.typeId Kitties.KittyData
  | amoeba => UtxoData.typeId Amoeba.AmoebaDetails
  | poe => UtxoData.typeId Poe.ClaimData
  | timestamp => UtxoData.typeId Time.Timestamp
  | runtimeUpgrade => UtxoData.typeId Upgrade.RuntimeRef

theorem Piece.Owns.typeId {piece : Piece} {d : DynamicallyTypedData} (owns : piece.Owns d) :
    d.typeId = piece.typeId := by
  cases piece <;> exact Extracts.typeId owns

theorem Piece.typeId_injective : Function.Injective Piece.typeId := by
  intro p q same
  cases p <;> cases q <;> first | rfl | (exact absurd same (by decide))

theorem Piece.Owns.unique {p q : Piece} {d : DynamicallyTypedData} (first : p.Owns d) (second : q.Owns d) : p = q :=
  Piece.typeId_injective (first.typeId.symm.trans second.typeId)

namespace OuterConstraintChecker

def piece : OuterConstraintChecker → Piece
  | money _ => .money
  | freeKittyConstraintChecker _ => .kitties
  | amoebaMitosis _ => .amoeba
  | amoebaDeath _ => .amoeba
  | amoebaCreation _ => .amoeba
  | poeClaim _ => .poe
  | poeRevoke _ => .poe
  | poeDispute _ => .poe
  | setTimestamp _ => .timestamp
  | runtimeUpgrade _ => .runtimeUpgrade

variable [Host] {checker : OuterConstraintChecker}
  {inputs evicted peeks outputs : List DynamicallyTypedData} {priority : UInt64} {s s' : Storage}

/-- A checker handles the data of its piece, and writes nothing but new code. -/
theorem check_ok (h : check checker inputs evicted peeks outputs s = .ok priority s') :
    Handles checker.piece.Owns inputs evicted outputs ∧ (s' = s ∨ ∃ code, s' = s.set codeKey code) ∧
      (checker ≠ .poeDispute ⟨⟩ → evicted = []) := by
  cases checker with
  | money inner =>
    obtain ⟨passed, rfl⟩ := Exec.lift_ok (Exec.mapErr_ok.mp h)
    cases inner with
    | spend =>
      obtain ⟨none, handles, _⟩ := Money.check_spend_ok passed
      exact ⟨handles, Or.inl rfl, fun _ => none⟩
    | mint =>
      obtain ⟨_, none, handles⟩ := Money.check_mint_ok passed
      exact ⟨handles, Or.inl rfl, fun _ => none⟩
  | freeKittyConstraintChecker inner =>
    obtain ⟨passed, rfl⟩ := Exec.lift_ok (Exec.mapErr_ok.mp h)
    obtain ⟨none, handles⟩ := Kitties.check_ok passed
    exact ⟨handles, Or.inl rfl, fun _ => none⟩
  | amoebaMitosis inner =>
    obtain ⟨passed, rfl⟩ := Exec.lift_ok (Exec.mapErr_ok.mp h)
    obtain ⟨none, handles⟩ := Amoeba.AmoebaMitosis.check_ok passed
    exact ⟨handles, Or.inl rfl, fun _ => none⟩
  | amoebaDeath inner =>
    obtain ⟨passed, rfl⟩ := Exec.lift_ok (Exec.mapErr_ok.mp h)
    obtain ⟨none, handles⟩ := Amoeba.AmoebaDeath.check_ok passed
    exact ⟨handles, Or.inl rfl, fun _ => none⟩
  | amoebaCreation inner =>
    obtain ⟨passed, rfl⟩ := Exec.lift_ok (Exec.mapErr_ok.mp h)
    obtain ⟨none, handles⟩ := Amoeba.AmoebaCreation.check_ok passed
    exact ⟨handles, Or.inl rfl, fun _ => none⟩
  | poeClaim inner =>
    obtain ⟨passed, rfl⟩ := Exec.read_ok (Exec.mapErr_ok.mp h)
    obtain ⟨none, handles⟩ := Poe.PoeClaim.check_ok passed
    exact ⟨handles, Or.inl rfl, fun _ => none⟩
  | poeRevoke inner =>
    obtain ⟨passed, rfl⟩ := Exec.lift_ok (Exec.mapErr_ok.mp h)
    obtain ⟨none, handles⟩ := Poe.PoeRevoke.check_ok passed
    exact ⟨handles, Or.inl rfl, fun _ => none⟩
  | poeDispute inner =>
    obtain ⟨passed, rfl⟩ := Exec.lift_ok (Exec.mapErr_ok.mp h)
    exact ⟨Poe.PoeDispute.check_handles passed, Or.inl rfl, fun other => absurd rfl other⟩
  | setTimestamp inner =>
    obtain ⟨passed, rfl⟩ := Exec.read_ok (Exec.mapErr_ok.mp h)
    obtain ⟨noInputs, noEvictions, _, new, old, ⟨d, one, extracted⟩, _⟩ := Time.SetTimestamp.check_ok.mp passed
    exact ⟨⟨by simp [noInputs], by simp [noEvictions], by simpa [one] using ⟨new, extracted⟩⟩, Or.inl rfl,
      fun _ => noEvictions⟩
  | runtimeUpgrade inner =>
    obtain ⟨none, handles, rfl⟩ := Upgrade.check_ok (Exec.mapErr_ok.mp h)
    exact ⟨handles, Or.inr ⟨_, rfl⟩, fun _ => none⟩

/-- The checkers look at the height and the code only. -/
theorem check_respects {k : Bytes} (notHeight : k ≠ heightKey) (notCode : k ≠ codeKey)
    (checker : OuterConstraintChecker) (inputs evicted peeks outputs : List DynamicallyTypedData) :
    (check checker inputs evicted peeks outputs).Respects (Store.SameBut k) := by
  have height : ∀ s s₂ : Storage, s.SameBut k s₂ → blockHeight s₂ = blockHeight s :=
    fun _ _ => blockHeight_sameBut notHeight
  cases checker with
  | poeClaim inner =>
    refine (Exec.Respects.read fun s s₂ same => ?_).mapErr _
    exact congrArg (fun height => Poe.PoeClaim.check height inputs evicted peeks outputs) (height s s₂ same)
  | setTimestamp inner =>
    refine (Exec.Respects.read fun s s₂ same => ?_).mapErr _
    exact congrArg (fun height => Time.SetTimestamp.check Runtime height inputs evicted peeks outputs)
      (height s s₂ same)
  | runtimeUpgrade inner =>
    refine Exec.Respects.mapErr (.bind (.read fun s s₂ same => ?_) fun _ => .bind (.modify ?_) fun _ => .lift (.ok 0)) _
    · rw [same codeKey notCode.symm]
    · exact fun _ _ same => same.set _ _
  | money inner => exact (Exec.Respects.lift _).mapErr _
  | freeKittyConstraintChecker inner => exact (Exec.Respects.lift _).mapErr _
  | amoebaMitosis inner => exact (Exec.Respects.lift _).mapErr _
  | amoebaDeath inner => exact (Exec.Respects.lift _).mapErr _
  | amoebaCreation inner => exact (Exec.Respects.lift _).mapErr _
  | poeRevoke inner => exact (Exec.Respects.lift _).mapErr _
  | poeDispute inner => exact (Exec.Respects.lift _).mapErr _

theorem check_leaves (checker : OuterConstraintChecker) (inputs evicted peeks outputs : List DynamicallyTypedData) :
    LeavesBlock (check checker inputs evicted peeks outputs) := by
  refine ⟨fun same call => check_respects (by decide) (by decide) _ _ _ _ _ same call, fun call => ?_⟩
  obtain ⟨_, rfl | ⟨code, rfl⟩, _⟩ := check_ok call
  · exact ⟨rfl, rfl⟩
  · exact ⟨Store.get_set_ne _ _ (by decide), Store.get_set_ne _ _ (by decide)⟩

end OuterConstraintChecker

section
variable [Host]

instance : KeepsUtxos OuterVerifier OuterConstraintChecker where
  check_keeps h := by
    obtain ⟨_, rfl | ⟨code, rfl⟩, _⟩ := OuterConstraintChecker.check_ok h
    · exact .refl _
    · exact .set _ (by decide)

instance : LeavesTransient OuterVerifier OuterConstraintChecker := ⟨OuterConstraintChecker.check_leaves⟩

/-- Every payload extracts as the type that its id names. -/
def WellTyped (s : Storage) : Prop :=
  ∀ r output, peekUtxo OuterVerifier s r = some output → ∃ piece : Piece, piece.Owns output.payload

variable {t : Transaction} {txHash : H256} {s checked s' : Storage}

theorem accepted_handles (accepted : Accepted t txHash s checked s') :
    Handles t.checker.piece.Owns ((redeemedRefs t.inputs.toList).filterMap (payloadAt OuterVerifier s))
      ((evictedRefs t.inputs.toList).filterMap (payloadAt OuterVerifier s)) (outputData t) := by
  obtain ⟨priority, call⟩ := accepted.checks
  exact (OuterConstraintChecker.check_ok call).1

/-- The call of the checker that lets the transaction through. -/
theorem accepted_call (accepted : Accepted t txHash s checked s') {checker : OuterConstraintChecker}
    (shape : t.checker = checker) :
    ∃ priority, OuterConstraintChecker.check checker
      ((redeemedRefs t.inputs.toList).filterMap (payloadAt OuterVerifier s))
      ((evictedRefs t.inputs.toList).filterMap (payloadAt OuterVerifier s))
      (t.peeks.toList.filterMap (payloadAt OuterVerifier s)) (outputData t) s = .ok priority checked := by
  rw [← shape]
  exact accepted.checks

theorem consumed_owned (accepted : Accepted t txHash s checked s') {r : OutputRef} (input : r ∈ inputRefs t) :
    ∃ output, peekUtxo OuterVerifier s r = some output ∧ t.checker.piece.Owns output.payload :=
  accepted.consumed_handled (accepted_handles accepted) input

theorem created_owned (accepted : Accepted t txHash s checked s') {output : Output}
    (member : output ∈ t.outputs.toList) : t.checker.piece.Owns output.payload :=
  Accepted.created_handled (accepted_handles accepted) member

theorem wellTyped_apply (typed : WellTyped s) (applied : applyTuxedoTransaction t s = .ok () s') : WellTyped s' := by
  obtain ⟨txHash, checked, accepted⟩ := apply_ok.mp applied
  intro r output present
  rcases accepted.step.source present with made | ⟨_, before⟩
  · obtain ⟨_, at_r⟩ := creates_eq_some.mp made
    exact ⟨_, created_owned accepted (List.mem_of_getElem? at_r)⟩
  · exact typed r output before

theorem wellTyped_run {ts : List Transaction} (run : Run s ts s') (typed : WellTyped s) : WellTyped s' := by
  refine run.invariant (fun _ _ _ _ => wellTyped_apply) ?_ typed
  intro s s' typed same r output present
  rw [same.peek r] at present
  exact typed r output present

/-- An output that appears or disappears belongs to the piece of the transaction. -/
theorem changed_owned (accepted : Accepted t txHash s checked s') {r : OutputRef} {output : Output}
    (changed : (peekUtxo OuterVerifier s r = some output ∧ peekUtxo OuterVerifier s' r ≠ some output) ∨
      (peekUtxo OuterVerifier s r ≠ some output ∧ peekUtxo OuterVerifier s' r = some output)) :
    t.checker.piece.Owns output.payload := by
  rcases changed with ⟨before, after⟩ | ⟨before, after⟩
  · obtain ⟨_, present, owned⟩ := consumed_owned accepted (accepted.step.lost before after)
    rw [before] at present
    cases present
    exact owned
  · rcases accepted.step.source after with made | ⟨_, present⟩
    · obtain ⟨_, at_r⟩ := creates_eq_some.mp made
      exact created_owned accepted (List.mem_of_getElem? at_r)
    · exact absurd present before

/-- No transaction touches the data of another piece, and typing survives every run. -/
theorem pieces_isolated :
    (∀ (t : Transaction) (s s' : Storage), applyTuxedoTransaction t s = .ok () s' →
      (∀ r ∈ inputRefs t, ∃ output, peekUtxo OuterVerifier s r = some output ∧
        t.checker.piece.Owns output.payload) ∧
      (∀ output ∈ t.outputs.toList, t.checker.piece.Owns output.payload) ∧
      ∀ r output, (peekUtxo OuterVerifier s r = some output ∧ peekUtxo OuterVerifier s' r ≠ some output) ∨
          (peekUtxo OuterVerifier s r ≠ some output ∧ peekUtxo OuterVerifier s' r = some output) →
        ∀ piece : Piece, piece.Owns output.payload → t.checker.piece = piece) ∧
    ∀ (genesis s : Storage) (ts : List Transaction), WellTyped genesis → Run genesis ts s → WellTyped s := by
  refine ⟨?_, fun _ _ _ typed run => wellTyped_run run typed⟩
  intro t s s' applied
  obtain ⟨txHash, checked, accepted⟩ := apply_ok.mp applied
  refine ⟨fun _ => consumed_owned accepted, fun _ => created_owned accepted, ?_⟩
  intro r output changed piece owns
  exact (changed_owned accepted changed).unique owns

end

theorem pieces_isolated_grab :
    letI := Host.unsigned
    ∃ s', applyTuxedoTransaction (grabOnce (grabInput [] (by decide))) grabStorage = .ok () s' ∧
      WellTyped grabStorage ∧ WellTyped s' ∧ ∀ output ∈ (grabOnce (grabInput [] (by decide))).outputs.toList,
        Piece.money.Owns output.payload := by
  let := Host.unsigned
  obtain ⟨s', applied, _⟩ := grabOnce_applies
  obtain ⟨isolated, typed⟩ := pieces_isolated
  have before : WellTyped grabStorage := by
    intro r output present
    rw [grabStorage, peek_set, peek_height] at present
    split at present
    · cases present
      exact ⟨.money, ⟨100⟩, rfl⟩
    · cases present
  exact ⟨s', applied, before, typed _ _ _ before (.apply applied (.done _)), (isolated _ _ _ applied).2.1⟩

end Tuxedo.Template
