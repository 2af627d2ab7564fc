import Tuxedo.Scale.Canonical
import Tuxedo.Core.MultiSignature
import Tuxedo.Executive.Transition

/-!
# Padded redeemers

A redeemer is decoded from the front of its bytes, and the verifiers do not see the bytes. Anyone
can append to them.
-/

namespace Tuxedo.Executive
open Scale TransparentUtxoSet

/-- The second transaction is the first with bytes appended to one redeemer, in `padded`. -/
structure PaddedBy {V C : Type} (padding : Bytes) (padded : Input) (t t' : Transaction V C) : Prop where
  inputs : ∃ before after redeemer redeemer', padded.redeemer = .redemption redeemer' ∧
    redeemer'.toList = redeemer.toList ++ padding ∧
    t.inputs.toList = before ++ ⟨padded.outputRef, .redemption redeemer⟩ :: after ∧
    t'.inputs.toList = before ++ padded :: after
  peeks : t'.peeks = t.peeks
  outputs : t'.outputs = t.outputs
  checker : t'.checker = t.checker

namespace PaddedBy
variable {V C : Type} {padding : Bytes} {padded : Input} {t t' : Transaction V C}

theorem redeemedRefs_eq (pad : PaddedBy padding padded t t') :
    redeemedRefs t'.inputs.toList = redeemedRefs t.inputs.toList := by
  obtain ⟨before, after, redeemer, redeemer', strategy, _, original, changed⟩ := pad.inputs
  rw [original, changed]
  simp [redeemedRefs, strategy]

theorem evictedRefs_eq (pad : PaddedBy padding padded t t') :
    evictedRefs t'.inputs.toList = evictedRefs t.inputs.toList := by
  obtain ⟨before, after, redeemer, redeemer', strategy, _, original, changed⟩ := pad.inputs
  rw [original, changed]
  simp [evictedRefs, strategy]

theorem inputRefs_eq (pad : PaddedBy padding padded t t') : inputRefs t' = inputRefs t := by
  obtain ⟨before, after, redeemer, redeemer', _, _, original, changed⟩ := pad.inputs
  unfold inputRefs
  rw [original, changed]
  simp

theorem stripped_eq (pad : PaddedBy padding padded t t') : t'.stripped = t.stripped := by
  obtain ⟨before, after, redeemer, redeemer', _, _, original, changed⟩ := pad.inputs
  have inputs : t'.inputs.map (fun input => { input with redeemer := .default }) =
      t.inputs.map fun input => { input with redeemer := .default } := by
    apply Vec.ext
    simp [original, changed]
  unfold Transaction.stripped
  rw [inputs, pad.peeks, pad.outputs, pad.checker]

/-- With no input twice before, there is none after unless the padded one was there already. -/
theorem nodup_iff (pad : PaddedBy padding padded t t') (nonempty : padding ≠ []) (unique : t.inputs.toList.Nodup) :
    t'.inputs.toList.Nodup ↔ padded ∉ t.inputs.toList := by
  obtain ⟨before, after, redeemer, redeemer', strategy, longer, original, changed⟩ := pad.inputs
  have different : padded ≠ ⟨padded.outputRef, .redemption redeemer⟩ := by
    intro same
    have equal := congrArg Input.redeemer same
    rw [strategy, RedemptionStrategy.redemption.injEq] at equal
    rw [equal] at longer
    exact nonempty (List.self_eq_append_right.mp longer)
  rw [original, List.nodup_middle, List.nodup_cons] at unique
  rw [original, changed, List.nodup_middle, List.nodup_cons]
  simp only [List.mem_append, List.mem_cons, different, false_or]
  exact ⟨fun h => by simpa using h.1, fun h => ⟨by simpa using h, unique.2⟩⟩

end PaddedBy

section
variable {V C : Type} [Host] [Verifier V] [Codec C] {padding : Bytes} {padded : Input} {t t' : Transaction V C}
  {txHash txHash' : H256} {s : Storage}

omit [Host] in
/-- A decoder leaves over what stands behind a redeemer. -/
theorem Accepts.append [Canonical (Verifier.Redeemer V)] {strippedEncoded : Bytes} {verifier : V}
    {redeemer redeemer' : Vec UInt8} (accepts : Accepts V s strippedEncoded verifier redeemer)
    (longer : redeemer'.toList = redeemer.toList ++ padding) : Accepts V s strippedEncoded verifier redeemer' := by
  obtain ⟨value, rest, height, read, stored, answer⟩ := accepts
  refine ⟨value, rest ++ padding, height, ?_, stored, answer⟩
  rw [longer, eq_encode read, List.append_assoc]
  exact decode_encode value (rest ++ padding)

theorem Prechecked.padded_iff [Canonical (Verifier.Redeemer V)] (prechecked : Prechecked t txHash s)
    (pad : PaddedBy padding padded t t') (nonempty : padding ≠ []) :
    Prechecked t' txHash' s ↔ padded ∉ t.inputs.toList ∧ t'.id? = some txHash' ∧
      ∀ r ∈ t'.outputRefs txHash', peekUtxo V s r = none := by
  constructor
  · rintro ⟨unique, _, hash, fresh⟩
    exact ⟨(pad.nodup_iff nonempty prechecked.unique).mp unique, hash, fresh⟩
  · rintro ⟨other, hash, fresh⟩
    refine ⟨(pad.nodup_iff nonempty prechecked.unique).mpr other, ?_, hash, fresh⟩
    intro input member output found
    rw [pad.stripped_eq]
    obtain ⟨before, after, redeemer, redeemer', strategy, longer, original, changed⟩ := pad.inputs
    have authorised := prechecked.authorised
    rw [original] at authorised
    rw [changed, List.mem_append, List.mem_cons] at member
    rcases member with member | rfl | member
    · exact authorised input (List.mem_append_left _ member) output found
    · have accepts := authorised _ (List.mem_append_right _ List.mem_cons_self) output found
      rw [strategy]
      exact Accepts.append accepts longer
    · exact authorised input (List.mem_append_right _ (List.mem_cons_of_mem _ member)) output found

variable [ConstraintChecker V C]

/-- A transaction with bytes appended to a redeemer is accepted like the one without, unless it
names the padded input twice, or is too long to be hashed, or its outputs are there already. -/
theorem padded_rejected_iff [Canonical (Verifier.Redeemer V)] {valid : ValidTransaction} {s' : Storage}
    (accepted : validateTuxedoTransaction t s = .ok valid s') (complete : valid.requires = [])
    (pad : PaddedBy padding padded t t') (nonempty : padding ≠ []) :
    (∀ valid' s'', validateTuxedoTransaction t' s ≠ .ok valid' s'') ↔
      padded ∈ t.inputs.toList ∨ 2 ^ 32 ≤ (encode t').length ∨
        ∃ txHash', t'.id? = some txHash' ∧ ∃ r ∈ t'.outputRefs txHash', peekUtxo V s r ≠ none := by
  obtain ⟨txHash, prechecked, requires, _, called⟩ := validate_ok accepted
  obtain ⟨priority, call⟩ := called complete
  rw [complete] at requires
  obtain ⟨noInput, noPeek⟩ := List.append_eq_nil_iff.mp requires.symm
  have inputsPresent := (missingRefs_eq_nil V).mp noInput
  have peeksPresent := (missingRefs_eq_nil V).mp noPeek
  constructor
  · intro rejected
    by_contra passes
    simp only [not_or, not_exists, not_and, Nat.not_le, not_not] at passes
    obtain ⟨other, small, fresh⟩ := passes
    obtain ⟨txHash', hash⟩ := (Transaction.id?_isSome_iff t').mpr small
    have prechecked' := (prechecked.padded_iff pad nonempty).mpr ⟨other, hash, fresh txHash' hash⟩
    have call' : ConstraintChecker.check (V := V) t'.checker ((redeemedRefs t'.inputs.toList).filterMap (payloadAt V s))
        ((evictedRefs t'.inputs.toList).filterMap (payloadAt V s)) (t'.peeks.toList.filterMap (payloadAt V s))
        (outputData t') s = .ok priority s' := by
      unfold outputData
      rw [pad.redeemedRefs_eq, pad.evictedRefs_eq, pad.peeks, pad.outputs, pad.checker]
      exact call
    rw [← pad.inputRefs_eq] at inputsPresent
    rw [← pad.peeks] at peeksPresent
    exact rejected _ _ (validate_of_call prechecked' inputsPresent peeksPresent call')
  · intro condition valid' s'' accepted'
    obtain ⟨txHash', prechecked', _⟩ := validate_ok accepted'
    obtain ⟨other, hash, fresh⟩ := (prechecked.padded_iff pad nonempty).mp prechecked'
    rcases condition with twice | long | ⟨hash', same, r, created, present⟩
    · exact other twice
    · have small := (Transaction.id?_isSome_iff t').mp ⟨txHash', hash⟩
      omega
    · cases hash.symm.trans same
      exact present (fresh r created)

end

/-! The zero key has signed for a coin, and a stranger appends a byte to the signature. -/

instance [Host] : Canonical (Verifier.Redeemer Sr25519Signature) := inferInstanceAs (Canonical (FixedBytes 64))

def lockedOutput (value : U128) : Output Sr25519Signature := ⟨(coinOutput value).payload, ⟨FixedBytes.zero 32⟩⟩

def lockedStorage : Storage :=
  (Store.empty.set heightKey (encode (1 : UInt32))).set (encode coinRef) (encode (lockedOutput 100))

def signedInput (padding : Bytes) (small : (encode ThresholdMultiSignature.zeroSignature ++ padding).length < 2 ^ 32) :
    Input :=
  ⟨coinRef, .redemption ⟨encode ThresholdMultiSignature.zeroSignature ++ padding, small⟩⟩

def spendLocked (inputs : List Input) (small : inputs.length < 2 ^ 32) :
    Transaction Sr25519Signature (Money.MoneyConstraintChecker 0) :=
  ⟨⟨inputs, small⟩, Vec.empty, Vec.singleton (lockedOutput 60), .spend⟩

/-- The one input that can be padded with no effect stands beside its padded copy. -/
theorem padded_rejected_twice :
    letI := ThresholdMultiSignature.signedByZero
    ¬∃ valid s', validateTuxedoTransaction
      (spendLocked [signedInput [0] (by decide), signedInput [0] (by decide)] (by decide)) lockedStorage =
        .ok valid s' := by
  let := ThresholdMultiSignature.signedByZero
  let t := spendLocked [signedInput [] (by decide), signedInput [0] (by decide)] (by decide)
  obtain ⟨valid, s', accepted, complete⟩ := Exec.exists_of_any (x := validateTuxedoTransaction t) (s := lockedStorage)
    (p := fun answer => answer.1.requires = []) (by decide +kernel)
  have pad : PaddedBy [0] (signedInput [0] (by decide)) t
      (spendLocked [signedInput [0] (by decide), signedInput [0] (by decide)] (by decide)) :=
    ⟨⟨[], [signedInput [0] (by decide)], ⟨encode ThresholdMultiSignature.zeroSignature, by decide⟩, _, rfl, rfl, rfl,
      rfl⟩, rfl, rfl, rfl⟩
  rintro ⟨valid', s'', padded⟩
  have rejected := (padded_rejected_iff accepted (by simpa using complete) pad (by simp)).mpr (Or.inl (by decide))
  exact rejected valid' s'' padded

theorem padded_accepted :
    letI := ThresholdMultiSignature.signedByZero
    let t := spendLocked [signedInput [] (by decide)] (by decide)
    let t' := spendLocked [signedInput [0] (by decide)] (by decide)
    Canonical (Verifier.Redeemer Sr25519Signature) ∧ PaddedBy [0] (signedInput [0] (by decide)) t t' ∧
      (∃ valid s', validateTuxedoTransaction t lockedStorage = .ok valid s' ∧ valid.requires = []) ∧
      (∃ valid s', validateTuxedoTransaction t' lockedStorage = .ok valid s' ∧ valid.requires = []) ∧
      t.id? ≠ t'.id? := by
  let := ThresholdMultiSignature.signedByZero
  intro t t'
  obtain ⟨valid, s', accepted, complete⟩ := Exec.exists_of_any (x := validateTuxedoTransaction t) (s := lockedStorage)
    (p := fun answer => answer.1.requires = []) (by decide +kernel)
  obtain ⟨valid', s'', accepted', complete'⟩ := Exec.exists_of_any (x := validateTuxedoTransaction t')
    (s := lockedStorage) (p := fun answer => answer.1.requires = []) (by decide +kernel)
  have pad : PaddedBy [0] (signedInput [0] (by decide)) t t' :=
    ⟨⟨[], [], ⟨encode ThresholdMultiSignature.zeroSignature, by decide⟩, _, rfl, rfl, rfl, rfl⟩, rfl, rfl, rfl⟩
  exact ⟨inferInstance, pad, ⟨valid, s', accepted, by simpa using complete⟩,
    ⟨valid', s'', accepted', by simpa using complete'⟩, by decide +kernel⟩

end Tuxedo.Executive
