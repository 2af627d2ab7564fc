import Tuxedo.Runtime.Pieces
import Tuxedo.Executive.Inputs

/-!
# Who may remove an output

An output goes with the consent of its verifier. Only a disputed claim goes without.
-/

namespace Tuxedo.Template
open Scale Executive TransparentUtxoSet

section
variable [Host] {t : Transaction} {txHash : H256} {s checked s' : Storage}

/-- The redeemer of the input satisfies the verifier of the output. -/
def Consented (s : Storage) (t : Transaction) (input : Input) (output : Output) : Prop :=
  ∃ redeemer, input.redeemer = .redemption redeemer ∧
    Accepts OuterVerifier s (encode t.stripped) output.verifier redeemer

/-- The output is a claim that a dispute evicts in favour of an earlier one. -/
def Disputed (s : Storage) (t : Transaction) (input : Input) (output : Output) : Prop :=
  input.redeemer = .eviction ∧ t.checker = .poeDispute ⟨⟩ ∧
    ∃ r ∈ t.peeks.toList, ∃ peeked winner, peekUtxo OuterVerifier s r = some peeked ∧
      peeked.payload.extract Poe.ClaimData = .ok winner ∧ Poe.LosesTo winner output.payload

omit [Host] in
theorem evicted_mem {inputs : List Input} {input : Input} (member : input ∈ inputs)
    (evicted : input.redeemer = .eviction) : input.outputRef ∈ evictedRefs inputs :=
  List.mem_filterMap.mpr ⟨input, member, by simp [evicted]⟩

theorem evicted_disputed (accepted : Accepted t txHash s checked s') {input : Input}
    (member : input ∈ t.inputs.toList) (evicted : input.redeemer = .eviction) {output : Output}
    (present : peekUtxo OuterVerifier s input.outputRef = some output) : Disputed s t input output := by
  have handed : output.payload ∈ (evictedRefs t.inputs.toList).filterMap (payloadAt OuterVerifier s) :=
    List.mem_filterMap.mpr ⟨_, evicted_mem member evicted, by simp [payloadAt, present]⟩
  have dispute : t.checker = .poeDispute ⟨⟩ := by
    by_contra other
    obtain ⟨priority, call⟩ := accepted_call accepted rfl
    rw [(OuterConstraintChecker.check_ok call).2.2 other] at handed
    cases handed
  obtain ⟨priority, call⟩ := accepted_call accepted dispute
  obtain ⟨passed, _⟩ := Exec.lift_ok (Exec.mapErr_ok.mp call)
  obtain ⟨_, _, d, peekMember, winner, extracted, losers⟩ := Poe.PoeDispute.check_ok passed
  obtain ⟨r, peek, payload⟩ := List.mem_filterMap.mp peekMember
  obtain ⟨peeked, found, rfl⟩ := Option.map_eq_some_iff.mp payload
  exact ⟨evicted, dispute, r, peek, peeked, winner, found, extracted, losers _ handed⟩

theorem input_authorised (accepted : Accepted t txHash s checked s') {input : Input}
    (member : input ∈ t.inputs.toList) {output : Output}
    (present : peekUtxo OuterVerifier s input.outputRef = some output) :
    Consented s t input output ∨ Disputed s t input output := by
  cases strategy : input.redeemer with
  | redemption redeemer =>
    have authorised := accepted.authorised input member output present
    rw [strategy] at authorised
    exact Or.inl ⟨redeemer, strategy, authorised⟩
  | eviction => exact Or.inr (evicted_disputed accepted member strategy present)

omit [Host] in
theorem Disputed.typeId {input : Input} {output : Output} (disputed : Disputed s t input output) :
    output.payload.typeId = UtxoData.typeId Poe.ClaimData := by
  obtain ⟨_, _, _, _, _, _, _, _, _, extracted, _⟩ := disputed
  exact DynamicallyTypedData.extract_ok_typeId extracted

/-- Whatever was there and is not there unchanged was consumed by inputs that its verifier
consented to, or is a claim that lost a dispute. -/
theorem removal_authorised (t : Transaction) (s s' : Storage) (applied : applyTuxedoTransaction t s = .ok () s')
    (r : OutputRef) (output : Output) (present : peekUtxo OuterVerifier s r = some output)
    (lost : peekUtxo OuterVerifier s' r ≠ some output) :
    (∃ input ∈ t.inputs.toList, input.outputRef = r) ∧
    ∀ input ∈ t.inputs.toList, input.outputRef = r →
      (Consented s t input output ∨ Disputed s t input output) ∧
      (output.payload.typeId ≠ UtxoData.typeId Poe.ClaimData → Consented s t input output) := by
  obtain ⟨txHash, checked, accepted⟩ := apply_ok.mp applied
  refine ⟨List.mem_map.mp (accepted.step.lost present lost), ?_⟩
  rintro input member rfl
  have authorised := input_authorised accepted member present
  refine ⟨authorised, fun otherType => ?_⟩
  rcases authorised with consented | disputed
  · exact consented
  · exact absurd disputed.typeId otherType

end

theorem removal_authorised_grab :
    letI := Host.unsigned
    ∃ s', applyTuxedoTransaction (grabOnce (grabInput [] (by decide))) grabStorage = .ok () s' ∧
      ∃ input ∈ (grabOnce (grabInput [] (by decide))).inputs.toList, input.outputRef = grabRef ∧
        Consented grabStorage (grabOnce (grabInput [] (by decide))) input (grabCoin 100) := by
  let := Host.unsigned
  obtain ⟨s', applied, gone⟩ := grabOnce_applies
  have lost : peekUtxo OuterVerifier s' grabRef ≠ some (grabCoin 100) := by
    rw [gone]
    nofun
  obtain ⟨⟨input, member, same⟩, authorised⟩ := removal_authorised (grabOnce (grabInput [] (by decide))) grabStorage s'
    applied grabRef (grabCoin 100) rfl lost
  exact ⟨s', applied, input, member, same, (authorised input member same).2 (by decide)⟩

end Tuxedo.Template
