import Tuxedo.Executive.Transition
import Tuxedo.Runtime.Template

/-!
# What validation makes of the inputs

The duplicate check compares whole inputs and the verifiers see no redemption strategy. Both
leave room: one output can be named twice, and a redemption can be turned into an eviction.
-/

namespace Tuxedo.Executive
open Scale TransparentUtxoSet

/-! ### Double use -/

/-- Two inputs name one output and redeem it differently. -/
def SharesRef (inputs : List Input) : Prop :=
  ∃ i ∈ inputs, ∃ j ∈ inputs, i.outputRef = j.outputRef ∧ i.redeemer ≠ j.redeemer

theorem refs_nodup_iff {inputs : List Input} (unique : inputs.Nodup) :
    (inputs.map fun input => input.outputRef).Nodup ↔ ¬SharesRef inputs := by
  constructor
  · rintro nodup ⟨i, iMember, j, jMember, same, different⟩
    have equal := List.inj_on_of_nodup_map nodup iMember jMember same
    exact different (equal ▸ rfl)
  · intro apart
    refine List.Nodup.map_on ?_ unique
    intro i iMember j jMember same
    by_contra different
    refine apart ⟨i, iMember, j, jMember, same, ?_⟩
    intro redeemers
    apply different
    cases i
    cases j
    cases same
    cases redeemers
    rfl

section
variable {V C : Type} [Host] [Verifier V] [Codec C]

variable [ConstraintChecker V C]

/-- In an empty storage every input is missing, so no verifier is asked. -/
theorem validate_empty {t : Transaction V C} {txHash : H256} (unique : t.inputs.toList.Nodup)
    (nonempty : t.inputs.toList ≠ []) (hash : t.id? = some txHash) :
    ∃ valid, validateTuxedoTransaction t Store.empty = .ok valid Store.empty := by
  have absent : ∀ r, peekUtxo V (Store.empty : Storage) r = none := by
    intro r
    simp [peekUtxo]
  have prechecked : Prechecked t txHash Store.empty := by
    refine ⟨unique, ?_, hash, fun r _ => absent r⟩
    intro input _ output present
    rw [absent] at present
    cases present
  have prepared := prepare_ok (E := ConstraintChecker.Error V C).mpr ⟨txHash, prechecked, rfl⟩
  have missing : ¬(preparedFor t txHash Store.empty).missingInputs.isEmpty = true := by
    simp [preparedFor, missingRefs, inputRefs, absent, nonempty]
  have validated : validateTuxedoTransaction t Store.empty = _ := Exec.bind_of_ok (Exec.read_of_ok prepared)
  rw [if_neg missing] at validated
  exact ⟨_, validated⟩

/-- Validation guards against double use exactly for the transactions that do not redeem one
output in two ways, or repeat a whole input, or cannot be hashed. -/
theorem validate_distinct_refs_iff (t : Transaction V C) :
    (∀ s valid s', validateTuxedoTransaction t s = .ok valid s' →
      (inputRefs t).Nodup ∧ (redeemedRefs t.inputs.toList ++ evictedRefs t.inputs.toList).Nodup) ↔
    (¬SharesRef t.inputs.toList ∨ ¬t.inputs.toList.Nodup ∨ 2 ^ 32 ≤ (encode t).length) := by
  constructor
  · intro distinct
    by_contra failing
    rw [not_or, not_or, not_not, not_not, Nat.not_le] at failing
    obtain ⟨shares, unique, small⟩ := failing
    obtain ⟨txHash, hash⟩ := (Transaction.id?_isSome_iff t).mpr small
    have nonempty : t.inputs.toList ≠ [] := by
      obtain ⟨i, member, _⟩ := shares
      exact List.ne_nil_of_mem member
    obtain ⟨valid, validated⟩ := validate_empty unique nonempty hash
    exact (refs_nodup_iff unique).mp (distinct _ _ _ validated).1 shares
  · intro condition s valid s' validated
    obtain ⟨txHash, prechecked, _⟩ := validate_ok validated
    have apart : ¬SharesRef t.inputs.toList := by
      rcases condition with apart | repeated | long
      · exact apart
      · exact absurd prechecked.unique repeated
      · have small := (Transaction.id?_isSome_iff t).mp ⟨txHash, prechecked.hash⟩
        omega
    have nodup := (refs_nodup_iff prechecked.unique).mpr apart
    exact ⟨nodup, (split_refs_perm t.inputs.toList).nodup_iff.mpr nodup⟩

end

section
open Template

def grabRef : OutputRef := ⟨FixedBytes.zero 32, 0⟩

/-- A coin of the template runtime that anyone may take. -/
def grabCoin (value : U128) : Template.Output :=
  ⟨⟨⟨encode (⟨value⟩ : Money.Coin 0), Money.encode_coin_small value⟩, UtxoData.typeId (Money.Coin 0)⟩, .upForGrabs ⟨⟩⟩

def grabStorage : Storage :=
  (Store.empty.set heightKey (encode (1 : UInt32))).set (encode grabRef) (encode (grabCoin 100))

/-- Redeemers decode from the front of their bytes, so both name the coin's owner: nobody. -/
def grabInput (padding : Bytes) (small : (1 :: padding).length < 2 ^ 32) : Input :=
  ⟨grabRef, .redemption ⟨1 :: padding, small⟩⟩

theorem unpadded_small : (1 :: ([] : Bytes)).length < 2 ^ 32 := by decide

/-- Names the one coin twice and pays out twice its value. -/
def spendTwice : Template.Transaction :=
  ⟨⟨[grabInput [] unpadded_small, grabInput [0] (by decide)], by decide⟩, Vec.empty, Vec.singleton (grabCoin 200),
    .money .spend⟩

theorem spendTwice_validates :
    letI := Host.unsigned
    ∃ valid s', validateTuxedoTransaction spendTwice grabStorage = .ok valid s' ∧ valid.requires = [] ∧
      ¬(inputRefs spendTwice).Nodup := by
  let := Host.unsigned
  obtain ⟨valid, s', validated, complete⟩ := Exec.exists_of_any (x := validateTuxedoTransaction spendTwice)
    (s := grabStorage) (p := fun result => result.1.requires = []) (by decide +kernel)
  exact ⟨valid, s', validated, by simpa using complete, by decide⟩

end

/-! ### Malleability -/

/-- The arguments of a call of the constraint checker. -/
structure CheckerCall (C : Type) where
  checker : C
  inputData : List DynamicallyTypedData
  evictedInputData : List DynamicallyTypedData
  peekData : List DynamicallyTypedData
  outputData : List DynamicallyTypedData
  deriving DecidableEq

section
variable (V : Type) [Codec V]

/-- The two storages hold outputs with the same verifiers at the same references. -/
def SameVerifiers (s s' : Storage) : Prop :=
  (∀ r, (peekUtxo V s' r).map (fun output => output.verifier) = (peekUtxo V s r).map fun output => output.verifier) ∧
    blockHeight s' = blockHeight s

variable {V}

theorem SameVerifiers.symm {s s' : Storage} (same : SameVerifiers V s s') : SameVerifiers V s' s :=
  ⟨fun r => (same.1 r).symm, same.2.symm⟩

theorem SameVerifiers.peek {s s' : Storage} (same : SameVerifiers V s s') {r : OutputRef} {output : Output V}
    (present : peekUtxo V s r = some output) :
    ∃ payload, peekUtxo V s' r = some ⟨payload, output.verifier⟩ := by
  have verifiers := same.1 r
  rw [present] at verifiers
  obtain ⟨⟨payload, verifier⟩, present', equal⟩ := Option.map_eq_some_iff.mp verifiers
  cases equal
  exact ⟨payload, present'⟩

/-- A payload that tells its reference. -/
def markedPayload (r : OutputRef) : DynamicallyTypedData := ⟨⟨encode r, by simp⟩, FixedBytes.zero 4⟩

theorem markedPayload_injective : Function.Injective markedPayload := by
  intro r r' same
  exact encode_injective (congrArg Vec.toList (DynamicallyTypedData.mk.inj same).1)

variable (V) in
def markedEntry (s : Storage) (r : OutputRef) : Option (Bytes × Bytes) :=
  (peekUtxo V s r).map fun output => (encode r, encode (⟨markedPayload r, output.verifier⟩ : Output V))

variable (V) in
/-- The storage with a marked payload at each of the references that is present. -/
def marked (refs : List OutputRef) (s : Storage) : Storage := s.setAll (refs.filterMap (markedEntry V s))

theorem get_marked_cases (refs : List OutputRef) (s : Storage) (k : Bytes) :
    (marked V refs s).get k = s.get k ∧ (∀ r ∈ refs, ∀ output, peekUtxo V s r = some output → k ≠ encode r) ∨
      ∃ r output, k = encode r ∧ peekUtxo V s r = some output ∧
        (marked V refs s).get k = some (encode (⟨markedPayload r, output.verifier⟩ : Output V)) := by
  rcases Store.get_setAll_cases s (refs.filterMap (markedEntry V s)) k with ⟨absent, read⟩ | ⟨d, entry, read⟩
  · refine Or.inl ⟨read, ?_⟩
    rintro r member output present rfl
    have entry : markedEntry V s r = some (encode r, encode (⟨markedPayload r, output.verifier⟩ : Output V)) := by
      simp [markedEntry, present]
    exact absent (List.mem_map.mpr ⟨_, List.mem_filterMap.mpr ⟨r, member, entry⟩, rfl⟩)
  · obtain ⟨r, _, found⟩ := List.mem_filterMap.mp entry
    obtain ⟨output, present, same⟩ := Option.map_eq_some_iff.mp found
    obtain ⟨rfl, rfl⟩ := Prod.mk.inj same
    exact Or.inr ⟨r, output, rfl, present, read⟩

theorem peek_marked_of_mem {refs : List OutputRef} {s : Storage} {r : OutputRef} {output : Output V}
    (member : r ∈ refs) (present : peekUtxo V s r = some output) :
    peekUtxo V (marked V refs s) r = some ⟨markedPayload r, output.verifier⟩ := by
  rcases get_marked_cases (V := V) refs s (encode r) with ⟨_, unmarked⟩ | ⟨r', output', sameRef, present', read⟩
  · exact absurd rfl (unmarked r member output present)
  · obtain rfl := encode_injective sameRef
    rw [present] at present'
    cases present'
    simp [peekUtxo, read]

theorem marked_sameVerifiers (refs : List OutputRef) (s : Storage) : SameVerifiers V s (marked V refs s) := by
  constructor
  · intro r
    rcases get_marked_cases (V := V) refs s (encode r) with ⟨read, _⟩ | ⟨r', output, sameRef, present, read⟩
    · simp [peekUtxo, read]
    · obtain rfl := encode_injective sameRef
      rw [present]
      simp [peekUtxo, read]
  · rcases get_marked_cases (V := V) refs s heightKey with ⟨read, _⟩ | ⟨r, output, sameKey, _⟩
    · simp [blockHeight, read]
    · have width := congrArg List.length sameKey
      rw [length_encode_outputRef] at width
      cases width

end

section
variable {V C : Type} [Host] [Verifier V] [Codec C]

/-- The call that validation comes to make, if it does. -/
def checkerCall (t : Transaction V C) (s : Storage) : Option (CheckerCall C) :=
  match prepare (E := Empty) t s with
  | .ok prepared =>
    if prepared.missingInputs.isEmpty then
      some ⟨t.checker, prepared.inputData, prepared.evictedInputData, prepared.peekData, outputData t⟩
    else none
  | .error _ => none

def callFor (t : Transaction V C) (s : Storage) : CheckerCall C where
  checker := t.checker
  inputData := (redeemedRefs t.inputs.toList).filterMap (payloadAt V s)
  evictedInputData := (evictedRefs t.inputs.toList).filterMap (payloadAt V s)
  peekData := t.peeks.toList.filterMap (payloadAt V s)
  outputData := outputData t

/-- What brings validation to the call. -/
structure Reaches (t : Transaction V C) (s : Storage) : Prop where
  prechecked : ∃ txHash, Prechecked t txHash s
  inputsPresent : ∀ r ∈ inputRefs t, ∃ output, peekUtxo V s r = some output
  peeksPresent : ∀ r ∈ t.peeks.toList, ∃ output, peekUtxo V s r = some output

theorem checkerCall_eq_some {t : Transaction V C} {s : Storage} {call : CheckerCall C} :
    checkerCall t s = some call ↔ Reaches t s ∧ call = callFor t s := by
  unfold checkerCall
  cases prepared : prepare (E := Empty) t s with
  | error halt =>
    constructor
    · intro h
      cases h
    · rintro ⟨reaches, _⟩
      obtain ⟨txHash, prechecked⟩ := reaches.prechecked
      rw [prepare_ok.mpr ⟨txHash, prechecked, rfl⟩] at prepared
      cases prepared
  | ok p =>
    obtain ⟨txHash, prechecked, rfl⟩ := prepare_ok.mp prepared
    have complete : (preparedFor t txHash s).missingInputs.isEmpty = true ↔
        (∀ r ∈ inputRefs t, ∃ output, peekUtxo V s r = some output) ∧
          ∀ r ∈ t.peeks.toList, ∃ output, peekUtxo V s r = some output := by
      simp only [preparedFor, List.isEmpty_iff, List.append_eq_nil_iff, missingRefs_eq_nil]
    by_cases whole : (preparedFor t txHash s).missingInputs.isEmpty = true
    · simp only [whole, if_true, Option.some.injEq]
      obtain ⟨inputsPresent, peeksPresent⟩ := complete.mp whole
      exact ⟨fun same => ⟨⟨⟨txHash, prechecked⟩, inputsPresent, peeksPresent⟩, same.symm⟩, fun h => h.2.symm⟩
    · simp only [whole]
      constructor
      · intro h
        cases h
      · rintro ⟨reaches, _⟩
        exact (whole (complete.mpr ⟨reaches.inputsPresent, reaches.peeksPresent⟩)).elim

theorem SameVerifiers.reaches {t : Transaction V C} {s s' : Storage} (same : SameVerifiers V s s')
    (reaches : Reaches t s) : Reaches t s' := by
  obtain ⟨⟨txHash, unique, authorised, hash, fresh⟩, inputsPresent, peeksPresent⟩ := reaches
  refine ⟨⟨txHash, unique, ?_, hash, ?_⟩, ?_, ?_⟩
  · intro input member output' present'
    obtain ⟨payload, present⟩ := same.symm.peek present'
    have before := authorised input member _ present
    unfold Authorised Accepts at before ⊢
    rw [same.2]
    exact before
  · intro r member
    cases present' : peekUtxo V s' r with
    | none => rfl
    | some output' =>
      obtain ⟨payload, present⟩ := same.symm.peek present'
      rw [fresh r member] at present
      cases present
  · intro r member
    obtain ⟨output, present⟩ := inputsPresent r member
    obtain ⟨payload, present'⟩ := same.peek present
    exact ⟨_, present'⟩
  · intro r member
    obtain ⟨output, present⟩ := peeksPresent r member
    obtain ⟨payload, present'⟩ := same.peek present
    exact ⟨_, present'⟩

omit [Host] in
theorem payloads_marked {refs : List OutputRef} {s : Storage}
    (present : ∀ r ∈ refs, ∃ output, peekUtxo V s r = some output) {chosen : List OutputRef}
    (within : ∀ r ∈ chosen, r ∈ refs) :
    chosen.filterMap (payloadAt V (marked V refs s)) = chosen.map markedPayload := by
  rw [← List.filterMap_eq_map]
  apply List.filterMap_congr
  intro r member
  obtain ⟨output, found⟩ := present r (within r member)
  simp [payloadAt, peek_marked_of_mem (within r member) found]

omit [Host] [Verifier V] [Codec C] in
theorem stripped_eq {t₁ t₂ : Transaction V C} (same : t₁.stripped = t₂.stripped) :
    inputRefs t₁ = inputRefs t₂ ∧ t₁.peeks = t₂.peeks ∧ t₁.outputs = t₂.outputs ∧ t₁.checker = t₂.checker := by
  obtain ⟨inputs, peeks, outputs, checker⟩ := Transaction.mk.inj same
  refine ⟨?_, peeks, outputs, checker⟩
  have refs := congrArg (fun v : Vec Input => v.toList.map fun input => input.outputRef) inputs
  simpa [inputRefs, Function.comp_def] using refs

/-- Of two transactions that the verifiers cannot tell apart, the checker is given the same
exactly when they redeem the same outputs and evict the same outputs. -/
theorem same_call_iff (t₁ t₂ : Transaction V C) (s : Storage)
    (same : encode t₁.stripped = encode t₂.stripped)
    (reached₁ : (checkerCall t₁ s).isSome = true) (reached₂ : (checkerCall t₂ s).isSome = true) :
    (∀ s', SameVerifiers V s s' → checkerCall t₁ s' = checkerCall t₂ s') ↔
      redeemedRefs t₁.inputs.toList = redeemedRefs t₂.inputs.toList ∧
        evictedRefs t₁.inputs.toList = evictedRefs t₂.inputs.toList := by
  obtain ⟨refs, peeks, outputs, checker⟩ := stripped_eq (encode_injective same)
  obtain ⟨call₁, found₁⟩ := Option.isSome_iff_exists.mp reached₁
  obtain ⟨call₂, found₂⟩ := Option.isSome_iff_exists.mp reached₂
  obtain ⟨reaches₁, _⟩ := checkerCall_eq_some.mp found₁
  obtain ⟨reaches₂, _⟩ := checkerCall_eq_some.mp found₂
  have calls : ∀ s', SameVerifiers V s s' →
      (checkerCall t₁ s' = checkerCall t₂ s' ↔ callFor t₁ s' = callFor t₂ s') := by
    intro s' verifiers
    rw [checkerCall_eq_some.mpr ⟨verifiers.reaches reaches₁, rfl⟩,
      checkerCall_eq_some.mpr ⟨verifiers.reaches reaches₂, rfl⟩, Option.some.injEq]
  constructor
  · intro always
    have verifiers := marked_sameVerifiers (V := V) (inputRefs t₁) s
    have equal := (calls _ verifiers).mp (always _ verifiers)
    have redeemed := congrArg CheckerCall.inputData equal
    have evicted := congrArg CheckerCall.evictedInputData equal
    simp only [callFor] at redeemed evicted
    rw [payloads_marked reaches₁.inputsPresent redeemed_mem_inputRefs,
      payloads_marked reaches₁.inputsPresent (refs ▸ redeemed_mem_inputRefs)] at redeemed
    rw [payloads_marked reaches₁.inputsPresent evicted_mem_inputRefs,
      payloads_marked reaches₁.inputsPresent (refs ▸ evicted_mem_inputRefs)] at evicted
    exact ⟨markedPayload_injective.list_map redeemed, markedPayload_injective.list_map evicted⟩
  · rintro ⟨redeemed, evicted⟩ s' verifiers
    apply (calls s' verifiers).mpr
    simp only [callFor, redeemed, evicted, peeks, checker, outputData, outputs]

end

section
open Template

def grabOnce (input : Input) : Template.Transaction :=
  ⟨Vec.singleton input, Vec.empty, Vec.singleton (grabCoin 100), .money .spend⟩

theorem grabOnce_applies :
    letI := Host.unsigned
    ∃ s', applyTuxedoTransaction (grabOnce (grabInput [] (by decide))) grabStorage = .ok () s' ∧
      peekUtxo OuterVerifier s' grabRef = none := by
  let := Host.unsigned
  obtain ⟨_, s', applied, gone⟩ := Exec.exists_of_any
    (x := applyTuxedoTransaction (grabOnce (grabInput [] (by decide)))) (s := grabStorage)
    (p := fun result => (peekUtxo OuterVerifier result.2 grabRef).isNone) (by decide +kernel)
  exact ⟨s', applied, Option.isNone_iff_eq_none.mp gone⟩

/-- Two spellings of one redeemer leave the call alone. -/
theorem same_call_spellings :
    letI := Host.unsigned
    checkerCall (grabOnce (grabInput [] (by decide))) grabStorage =
      checkerCall (grabOnce (grabInput [0] (by decide))) grabStorage := by
  let := Host.unsigned
  have same := (same_call_iff (grabOnce (grabInput [] (by decide))) (grabOnce (grabInput [0] (by decide))) grabStorage
    (by decide) (by decide +kernel) (by decide +kernel)).mpr ⟨rfl, rfl⟩
  exact same grabStorage ⟨fun _ => rfl, rfl⟩

/-- A redemption and an eviction of one coin look the same to the coin's verifier. -/
theorem eviction_changes_call :
    letI := Host.unsigned
    encode (grabOnce (grabInput [] (by decide))).stripped = encode (grabOnce ⟨grabRef, .eviction⟩).stripped ∧
      (checkerCall (grabOnce (grabInput [] (by decide))) grabStorage).isSome = true ∧
      (checkerCall (grabOnce ⟨grabRef, .eviction⟩) grabStorage).isSome = true ∧
      checkerCall (grabOnce (grabInput [] (by decide))) grabStorage ≠
        checkerCall (grabOnce ⟨grabRef, .eviction⟩) grabStorage := by
  decide +kernel

end

end Tuxedo.Executive
