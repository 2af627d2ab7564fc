import Tuxedo.Runtime.Authorisation
import Tuxedo.Executive.Typed

/-!
# The first claim on a hash

A claim that no other claim on its hash precedes loses no dispute, and new claims come too late
to precede it. It goes when its owner revokes it.
-/

namespace Tuxedo.Template
open Scale Executive TransparentUtxoSet DynamicallyTypedData Poe

/-! ### Runs at growing heights -/

section
variable [Host]

/-- The stored height does not fall. -/
def Ages (s s' : Storage) : Prop :=
  ∀ height, blockHeight s = some height → ∃ later, blockHeight s' = some later ∧ height ≤ later

/-- The transactions applied in order at heights that do not fall. Between them anything else may
happen at other keys than those of output references. -/
inductive Aging : Storage → List Transaction → Storage → Prop
  | done (s : Storage) : Aging s [] s
  | apply {s s₁ s' : Storage} {t : Transaction} {ts : List Transaction}
      (applied : applyTuxedoTransaction t s = .ok () s₁) (later : Aging s₁ ts s') : Aging s (t :: ts) s'
  | keep {s s₁ s' : Storage} {ts : List Transaction} (same : SameUtxos s s₁) (ages : Ages s s₁)
      (later : Aging s₁ ts s') : Aging s ts s'

variable {t : Transaction} {txHash : H256} {s checked s' : Storage}

theorem accepted_height (accepted : Accepted t txHash s checked s') : blockHeight s' = blockHeight s := by
  obtain ⟨priority, call⟩ := accepted.checks
  have stored : s'.get heightKey = s.get heightKey := by
    rw [accepted.get_narrow (by decide)]
    obtain ⟨_, rfl | ⟨code, rfl⟩, _⟩ := OuterConstraintChecker.check_ok call
    · rfl
    · exact Store.get_set_ne _ _ (by decide)
  simp only [blockHeight, stored]

theorem Aging.trans {s₁ : Storage} {ts ts' : List Transaction} (first : Aging s ts s₁) (second : Aging s₁ ts' s') :
    Aging s (ts ++ ts') s' := by
  induction first with
  | done s => exact second
  | apply applied _ ih => exact .apply applied (ih second)
  | keep same ages _ ih => exact .keep same ages (ih second)

theorem applied_aging {ts : List Transaction} (applied : Applied s ts s') : Aging s ts s' := by
  induction applied with
  | done s => exact .done s
  | apply applied _ ih => exact .apply applied ih

/-- A block of a number that is not behind the storage is such a run. -/
theorem executeBlock_aging {block : Block} (executed : executeBlock block s = .ok () s')
    (number : ∀ height, blockHeight s = some height → height ≤ block.header.number) :
    Aging s block.extrinsics.toList s' := by
  obtain ⟨_, ⟨s₁, applied, rfl⟩, _⟩ := executeBlock_ok.mp executed
  rw [← List.append_nil block.extrinsics.toList]
  refine .keep (openBlock_same block.header s) ?_ ((applied_aging applied).trans ?_)
  · intro height stored
    exact ⟨_, openBlock_height block.header s, number height stored⟩
  · refine .keep (.clear (by decide)) ?_ (.done _)
    intro height stored
    refine ⟨height, ?_, UInt32.le_refl _⟩
    rw [← stored]
    exact congrArg (fun d => Option.bind d _) (Store.get_clear_ne _ (by decide))

/-! ### Claims -/

def claimAt (s : Storage) (r : OutputRef) : Option ClaimData := dataAt OuterVerifier ClaimData s r

/-- The output at `u` claims the hash for the height, and no claim on the hash has a lower one. -/
structure FirstClaim (s : Storage) (u : OutputRef) (output : Output) (hash : H256) (height : UInt32) : Prop where
  present : peekUtxo OuterVerifier s u = some output
  claims : output.payload.extract ClaimData = .ok ⟨hash, height⟩
  first : ∀ r claim, claimAt s r = some claim → claim.claim = hash → height ≤ claim.effectiveHeight

/-- The transaction revokes the claim, and each input that names it satisfies its verifier. -/
structure Revokes (t : Transaction) (s : Storage) (u : OutputRef) (output : Output) : Prop where
  checker : t.checker = .poeRevoke ⟨⟩
  consumes : u ∈ inputRefs t
  consented : ∀ input ∈ t.inputs.toList, input.outputRef = u → Consented s t input output

/-- A claim that a transaction creates is not behind the current height. -/
theorem created_current (accepted : Accepted t txHash s checked s') {output : Output}
    (member : output ∈ t.outputs.toList) {claim : ClaimData}
    (extracted : output.payload.extract ClaimData = .ok claim) :
    ∃ current, blockHeight s = some current ∧ current ≤ claim.effectiveHeight := by
  have payload : output.payload ∈ outputData t := List.mem_map_of_mem member
  have claims : Piece.poe.Owns output.payload := ⟨claim, extracted⟩
  have poe : t.checker.piece = .poe := (created_owned accepted member).unique claims
  cases checker : t.checker with
  | poeClaim inner =>
    obtain ⟨priority, call⟩ := accepted_call accepted checker
    obtain ⟨passed, _⟩ := Exec.read_ok (Exec.mapErr_ok.mp call)
    obtain ⟨_, current⟩ := PoeClaim.check_current passed
    obtain ⟨claim', current, extracted', stored, later⟩ := current _ payload
    rw [extracted] at extracted'
    cases extracted'
    exact ⟨current, stored, later⟩
  | poeRevoke inner =>
    obtain ⟨priority, call⟩ := accepted_call accepted checker
    obtain ⟨passed, _⟩ := Exec.lift_ok (Exec.mapErr_ok.mp call)
    rw [PoeRevoke.check_noOutputs passed] at payload
    cases payload
  | poeDispute inner =>
    obtain ⟨priority, call⟩ := accepted_call accepted checker
    obtain ⟨passed, _⟩ := Exec.lift_ok (Exec.mapErr_ok.mp call)
    rw [(PoeDispute.check_ok passed).2.1] at payload
    cases payload
  | _ => rw [checker] at poe; cases poe

/-- A claim that is redeemed is revoked. -/
theorem redeemed_revoked (accepted : Accepted t txHash s checked s') {input : Input} (member : input ∈ t.inputs.toList)
    {redeemer : Vec UInt8} (redeems : input.redeemer = .redemption redeemer) {output : Output}
    (present : peekUtxo OuterVerifier s input.outputRef = some output) {claim : ClaimData}
    (extracted : output.payload.extract ClaimData = .ok claim) : t.checker = .poeRevoke ⟨⟩ := by
  have handed : output.payload ∈ (redeemedRefs t.inputs.toList).filterMap (payloadAt OuterVerifier s) := by
    refine List.mem_filterMap.mpr ⟨input.outputRef, ?_, by simp [payloadAt, present]⟩
    exact List.mem_filterMap.mpr ⟨input, member, by simp [redeems]⟩
  have claims : Piece.poe.Owns output.payload := ⟨claim, extracted⟩
  have poe : t.checker.piece = .poe := ((accepted_handles accepted).inputs _ handed).unique claims
  cases checker : t.checker with
  | poeRevoke inner => rfl
  | poeClaim inner =>
    obtain ⟨priority, call⟩ := accepted_call accepted checker
    obtain ⟨passed, _⟩ := Exec.read_ok (Exec.mapErr_ok.mp call)
    rw [(PoeClaim.check_current passed).1] at handed
    cases handed
  | poeDispute inner =>
    obtain ⟨priority, call⟩ := accepted_call accepted checker
    obtain ⟨passed, _⟩ := Exec.lift_ok (Exec.mapErr_ok.mp call)
    rw [(PoeDispute.check_ok passed).1] at handed
    cases handed
  | _ => rw [checker] at poe; cases poe

variable {u : OutputRef} {output : Output} {hash : H256} {height : UInt32}

omit [Host] in
theorem FirstClaim.same (first : FirstClaim s u output hash height) (same : SameUtxos s s') :
    FirstClaim s' u output hash height := by
  refine ⟨by rw [same.peek u, first.present], first.claims, fun r claim found => ?_⟩
  rw [claimAt, same.dataAt] at found
  exact first.first r claim found

omit [Host] in
/-- The claim that wins a dispute precedes the others, so the first one is not evicted. -/
theorem FirstClaim.not_disputed (first : FirstClaim s u output hash height) {input : Input} :
    ¬Disputed s t input output := by
  rintro ⟨_, _, r, _, peeked, winner, found, extracted, loser, lost, sameHash, earlier⟩
  rw [first.claims] at lost
  cases lost
  have notEarlier := first.first r winner (dataAt_eq_some.mpr ⟨peeked, found, extracted⟩) sameHash
  exact absurd earlier (UInt32.not_lt.mpr notEarlier)

theorem FirstClaim.step (first : FirstClaim s u output hash height) {current : BlockNumber}
    (stored : blockHeight s = some current) (late : height ≤ current) (accepted : Accepted t txHash s checked s') :
    FirstClaim s' u output hash height ∨ Revokes t s u output := by
  by_cases consumed : u ∈ inputRefs t
  · right
    have consented : ∀ input ∈ t.inputs.toList, input.outputRef = u → Consented s t input output := by
      rintro input member rfl
      exact (input_authorised accepted member first.present).resolve_right first.not_disputed
    obtain ⟨input, member, same⟩ := List.mem_map.mp consumed
    obtain ⟨redeemer, redeems, _⟩ := consented input member same
    have present : peekUtxo OuterVerifier s input.outputRef = some output := by rw [same, first.present]
    exact ⟨redeemed_revoked accepted member redeems present first.claims, consumed, consented⟩
  · left
    have step := accepted.step
    refine ⟨?_, first.claims, fun r claim found sameHash => ?_⟩
    · exact step.kept first.present consumed
    · obtain ⟨output', present, extracted⟩ := dataAt_eq_some.mp found
      rcases step.source present with made | ⟨_, before⟩
      · have member := List.mem_of_getElem? (creates_eq_some.mp made).2
        obtain ⟨current', stored', later⟩ := created_current accepted member extracted
        rw [stored] at stored'
        cases stored'
        exact UInt32.le_trans late later
      · exact first.first r claim (dataAt_eq_some.mpr ⟨output', before, extracted⟩) sameHash

theorem FirstClaim.run {ts : List Transaction} (run : Aging s ts s') (first : FirstClaim s u output hash height)
    {current : BlockNumber} (stored : blockHeight s = some current) (late : height ≤ current) :
    FirstClaim s' u output hash height ∨
      ∃ before t after s₁ s₂, ts = before ++ t :: after ∧ Aging s before s₁ ∧
        applyTuxedoTransaction t s₁ = .ok () s₂ ∧ Aging s₂ after s' ∧
        FirstClaim s₁ u output hash height ∧ Revokes t s₁ u output := by
  induction run generalizing current with
  | done s => exact Or.inl first
  | @apply s s₁ s' t ts applied later ih =>
    obtain ⟨txHash, checked, accepted⟩ := apply_ok.mp applied
    rcases first.step stored late accepted with first' | revokes
    · rcases ih first' ((accepted_height accepted).trans stored) late with done | found
      · exact Or.inl done
      · obtain ⟨before, x, after, s₂, s₃, split, reached, applied', rest, there, revokes⟩ := found
        exact Or.inr ⟨t :: before, x, after, s₂, s₃, by rw [split]; rfl, .apply applied reached, applied', rest, there,
          revokes⟩
    · exact Or.inr ⟨[], t, ts, s, s₁, rfl, .done s, applied, later, first, revokes⟩
  | @keep s s₁ s' ts same ages later ih =>
    obtain ⟨current', stored', grown⟩ := ages current stored
    rcases ih (first.same same) stored' (UInt32.le_trans late grown) with done | found
    · exact Or.inl done
    · obtain ⟨before, x, after, s₂, s₃, split, reached, rest⟩ := found
      exact Or.inr ⟨before, x, after, s₂, s₃, split, .keep same ages reached, rest⟩

/-- In a run of growing heights the first claim on a hash stays the first until its owner revokes
it. -/
theorem first_claim_survives (s s' : Storage) (ts : List Transaction) (u : OutputRef) (output : Output) (hash : H256)
    (height : UInt32) (current : BlockNumber) (run : Aging s ts s') (stored : blockHeight s = some current)
    (late : height ≤ current) (first : FirstClaim s u output hash height) :
    (FirstClaim s' u output hash height ∨
      ∃ before t after s₁ s₂, ts = before ++ t :: after ∧ Aging s before s₁ ∧
        applyTuxedoTransaction t s₁ = .ok () s₂ ∧ Aging s₂ after s' ∧
        FirstClaim s₁ u output hash height ∧ Revokes t s₁ u output) ∧
    ((∀ t ∈ ts, t.checker ≠ .poeRevoke ⟨⟩) → FirstClaim s' u output hash height) := by
  have outcome := first.run run stored late
  refine ⟨outcome, fun unrevoked => outcome.resolve_right ?_⟩
  rintro ⟨before, t, after, _, _, split, _, _, _, _, revokes⟩
  refine unrevoked t ?_ revokes.checker
  rw [split]
  exact List.mem_append_right before List.mem_cons_self

end

/-! A dispute evicts the second of two claims on a hash. -/

def claimRef (index : UInt32) : OutputRef := ⟨FixedBytes.zero 32, index⟩

def claimOutput (height : UInt32) : Output :=
  ⟨⟨⟨encode (FixedBytes.zero 32) ++ encode height, by simp [encode, FixedBytes.zero]⟩, UtxoData.typeId ClaimData⟩,
    .upForGrabs ⟨⟩⟩

def claimStorage : Storage :=
  ((Store.empty.set heightKey (encode (5 : UInt32))).set (encode (claimRef 0)) (encode (claimOutput 1))).set
    (encode (claimRef 1)) (encode (claimOutput 3))

def disputeSecond : Transaction :=
  ⟨Vec.singleton ⟨claimRef 1, .eviction⟩, Vec.singleton (claimRef 0), Vec.empty, .poeDispute ⟨⟩⟩

theorem firstClaim_claimStorage :
    FirstClaim claimStorage (claimRef 0) (claimOutput 1) (FixedBytes.zero 32) 1 := by
  refine ⟨rfl, rfl, fun r claim found _ => ?_⟩
  rw [claimAt, claimStorage, dataAt_set, dataAt_set, dataAt_height] at found
  split at found
  · obtain rfl : ⟨FixedBytes.zero 32, 3⟩ = claim := Option.some.inj found
    decide
  · split at found
    · obtain rfl : ⟨FixedBytes.zero 32, 1⟩ = claim := Option.some.inj found
      decide
    · cases found

theorem first_claim_survives_dispute :
    letI := Host.unsigned
    ∃ s', applyTuxedoTransaction disputeSecond claimStorage = .ok () s' ∧ claimAt s' (claimRef 1) = none ∧
      FirstClaim s' (claimRef 0) (claimOutput 1) (FixedBytes.zero 32) 1 := by
  let := Host.unsigned
  obtain ⟨_, s', applied, gone⟩ := Exec.exists_of_any (x := applyTuxedoTransaction disputeSecond) (s := claimStorage)
    (p := fun result => (claimAt result.2 (claimRef 1)).isNone) (by decide +kernel)
  have run : Aging claimStorage [disputeSecond] s' := .apply applied (.done s')
  obtain ⟨_, unrevoked⟩ := first_claim_survives claimStorage s' [disputeSecond] (claimRef 0) (claimOutput 1)
    (FixedBytes.zero 32) 1 5 run rfl (by decide) firstClaim_claimStorage
  exact ⟨s', applied, Option.isNone_iff_eq_none.mp gone, unrevoked (by simp [disputeSecond])⟩

end Tuxedo.Template
