import Tuxedo.Executive.Transition

/-!
# Two transactions

What one transaction leaves for another to see: transactions that refer to different outputs
commute, and the tags of the pool are those of the references that come and go.
-/

namespace Tuxedo.Executive
open Scale TransparentUtxoSet

/-- The two storages agree on everything that is no output. -/
def SameRest (s s₂ : Storage) : Prop := ∀ k : Bytes, k.length ≠ 36 → s₂.get k = s.get k

theorem SameRest.blockHeight {s s₂ : Storage} (same : SameRest s s₂) : blockHeight s₂ = blockHeight s := by
  unfold Executive.blockHeight
  rw [same heightKey (by decide)]

section
variable {V C : Type} [ConstraintChecker V C]

/-- The checker writes nothing, and sees of the outputs only the payloads that it is given. -/
structure SideEffectFree (V : Type) {C : Type} [ConstraintChecker V C] (c : C) : Prop where
  writesNothing : ∀ {inputs evicted peeks outputs s priority s₁},
    ConstraintChecker.check (V := V) c inputs evicted peeks outputs s = .ok priority s₁ → s₁ = s
  sameOutcome : ∀ {inputs evicted peeks outputs s s₂ priority}, SameRest s s₂ →
    ConstraintChecker.check (V := V) c inputs evicted peeks outputs s = .ok priority s →
    ConstraintChecker.check (V := V) c inputs evicted peeks outputs s₂ = .ok priority s₂

end

section
variable {V C : Type} [Host] [Verifier V] [Codec C] [ConstraintChecker V C]
  {t t₁ t₂ : Transaction V C} {txHash : H256} {s s₁ s₂ s' checked : Storage}

/-- Everything a transaction looks at reads the same. -/
structure SameFootprint (t : Transaction V C) (txHash : H256) (s s₂ : Storage) : Prop where
  inputs : ∀ r ∈ inputRefs t, s₂.get (encode r) = s.get (encode r)
  peeks : ∀ r ∈ t.peeks.toList, s₂.get (encode r) = s.get (encode r)
  outputs : ∀ r ∈ t.outputRefs txHash, s₂.get (encode r) = s.get (encode r)
  rest : SameRest s s₂

omit [Host] in
theorem peekUtxo_congr {r : OutputRef} (same : s₂.get (encode r) = s.get (encode r)) :
    peekUtxo V s₂ r = peekUtxo V s r := by
  unfold peekUtxo
  rw [same]

omit [Host] in
theorem payloadAt_congr {refs : List OutputRef} (same : ∀ r ∈ refs, s₂.get (encode r) = s.get (encode r)) :
    refs.filterMap (payloadAt V s₂) = refs.filterMap (payloadAt V s) := by
  refine List.filterMap_congr fun r member => ?_
  unfold payloadAt
  rw [peekUtxo_congr (same r member)]

omit [Host] in
theorem Authorised.congr {strippedEncoded : Bytes} {strategy : RedemptionStrategy} {output : Output V}
    (rest : SameRest s s₂) (authorised : Authorised V s strippedEncoded strategy output) :
    Authorised V s₂ strippedEncoded strategy output := by
  cases strategy with
  | redemption redeemer =>
    obtain ⟨value, bytes, height, read, stored, answer⟩ := authorised
    exact ⟨value, bytes, height, read, rest.blockHeight.trans stored, answer⟩
  | eviction => trivial

/-- A transaction is accepted wherever its footprint reads the same. -/
theorem Accepted.congr (free : SideEffectFree V t.checker) (accepted : Accepted t txHash s s s')
    (same : SameFootprint t txHash s s₂) :
    Accepted t txHash s₂ s₂ ((s₂.clearAll ((inputRefs t).map encode)).setAll (outputEntries t txHash)) := by
  have present : ∀ {r : OutputRef}, s₂.get (encode r) = s.get (encode r) →
      (∃ output, peekUtxo V s r = some output) → ∃ output, peekUtxo V s₂ r = some output := by
    rintro r read ⟨output, found⟩
    exact ⟨output, (peekUtxo_congr read).trans found⟩
  refine ⟨⟨accepted.unique, ?_, accepted.hash, ?_⟩, ?_, ?_, ?_, rfl⟩
  · intro input member output found
    rw [peekUtxo_congr (same.inputs _ (List.mem_map_of_mem member))] at found
    exact (accepted.authorised input member output found).congr same.rest
  · intro r member
    exact (peekUtxo_congr (same.outputs r member)).trans (accepted.fresh r member)
  · exact fun r member => present (same.inputs r member) (accepted.inputsPresent r member)
  · exact fun r member => present (same.peeks r member) (accepted.peeksPresent r member)
  · obtain ⟨priority, call⟩ := accepted.checks
    refine ⟨priority, ?_⟩
    rw [payloadAt_congr fun r member => same.inputs r (redeemed_mem_inputRefs r member),
      payloadAt_congr fun r member => same.inputs r (evicted_mem_inputRefs r member), payloadAt_congr same.peeks]
    exact free.sameOutcome same.rest call

theorem Accepted.rest (accepted : Accepted t txHash s s s') : SameRest s s' := fun _ width =>
  accepted.get_narrow width

theorem Accepted.get_ref (accepted : Accepted t txHash s s s') {r : OutputRef} (notInput : r ∉ inputRefs t)
    (notOutput : r ∉ t.outputRefs txHash) : s'.get (encode r) = s.get (encode r) := by
  apply accepted.get_other
  · rintro r' input same
    exact notInput (encode_injective same ▸ input)
  · rintro r' output same
    exact notOutput (encode_injective same ▸ output)

/-! ### Commutation -/

/-- No input and no peek of the first is an input of the second, or an output that it creates. -/
def Untouched (t₁ t₂ : Transaction V C) : Prop :=
  ∀ r ∈ inputRefs t₁ ++ t₁.peeks.toList, r ∉ inputRefs t₂ ∧ ∀ txHash, t₂.id? = some txHash → r ∉ t₂.outputRefs txHash

structure Independent (t₁ t₂ : Transaction V C) : Prop where
  untouched : Untouched t₁ t₂
  untouched' : Untouched t₂ t₁
  hashes : ∀ txHash, t₁.id? = some txHash → t₂.id? ≠ some txHash

omit [ConstraintChecker V C] in
theorem Independent.symm (independent : Independent t₁ t₂) : Independent t₂ t₁ :=
  ⟨independent.untouched', independent.untouched, fun txHash hash hash' => independent.hashes txHash hash' hash⟩

/-- An accepted transaction leaves the footprint of an independent one. -/
theorem Accepted.sameFootprint {hash₁ hash₂ : H256} (accepted : Accepted t₁ hash₁ s s s₁) (hash : t₂.id? = some hash₂)
    (independent : Independent t₁ t₂) : SameFootprint t₂ hash₂ s s₁ := by
  have referred : ∀ r ∈ inputRefs t₂ ++ t₂.peeks.toList, s₁.get (encode r) = s.get (encode r) := by
    intro r member
    obtain ⟨notInput, notOutput⟩ := independent.untouched' r member
    exact accepted.get_ref notInput (notOutput hash₁ accepted.hash)
  refine ⟨fun r member => referred r (List.mem_append_left _ member),
    fun r member => referred r (List.mem_append_right _ member), fun r member => ?_, accepted.rest⟩
  apply accepted.get_ref
  · intro input
    exact (independent.untouched r (List.mem_append_left _ input)).2 hash₂ hash member
  · intro output
    have same := (mem_outputRefs.mp output).1.symm.trans (mem_outputRefs.mp member).1
    exact independent.hashes hash₁ accepted.hash (same ▸ hash)

omit [Host] [Verifier V] [Codec C] [ConstraintChecker V C] in
theorem SameFootprint.symm (same : SameFootprint t txHash s s₂) : SameFootprint t txHash s₂ s :=
  ⟨fun r member => (same.inputs r member).symm, fun r member => (same.peeks r member).symm,
    fun r member => (same.outputs r member).symm, fun k width => (same.rest k width).symm⟩

omit [Host] [Codec C] [ConstraintChecker V C] in
theorem mem_entries_keys {k : Bytes} :
    k ∈ (outputEntries t txHash).map Prod.fst ↔ ∃ r ∈ t.outputRefs txHash, encode r = k := by
  rw [outputEntries_keys, List.mem_map]

theorem apply_swap (free₁ : SideEffectFree V t₁.checker) (free₂ : SideEffectFree V t₂.checker)
    (independent : Independent t₁ t₂) (first : applyTuxedoTransaction t₁ s = .ok () s₁)
    (second : applyTuxedoTransaction t₂ s₁ = .ok () s') :
    ∃ s₂, applyTuxedoTransaction t₂ s = .ok () s₂ ∧ applyTuxedoTransaction t₁ s₂ = .ok () s' := by
  obtain ⟨hash₁, checked₁, accepted₁⟩ := apply_ok.mp first
  obtain ⟨hash₂, checked₂, accepted₂⟩ := apply_ok.mp second
  obtain rfl : checked₁ = s := by
    obtain ⟨priority, call⟩ := accepted₁.checks
    exact free₁.writesNothing call
  obtain rfl : checked₂ = s₁ := by
    obtain ⟨priority, call⟩ := accepted₂.checks
    exact free₂.writesNothing call
  have early := accepted₂.congr free₂ (accepted₁.sameFootprint accepted₂.hash independent).symm
  have late := accepted₁.congr free₁ (early.sameFootprint accepted₁.hash independent.symm)
  have apart : ∀ {t t' : Transaction V C} {txHash : H256}, Untouched t' t → t.id? = some txHash →
      ∀ k ∈ (outputEntries t txHash).map Prod.fst, k ∉ (inputRefs t').map encode := by
    intro t t' txHash untouched hash k created consumed
    obtain ⟨r, output, rfl⟩ := mem_entries_keys.mp created
    obtain ⟨r', input, same⟩ := List.mem_map.mp consumed
    exact (untouched r' (List.mem_append_left _ input)).2 txHash hash (encode_injective same ▸ output)
  have disjoint : ∀ k ∈ (outputEntries t₂ hash₂).map Prod.fst, k ∉ (outputEntries t₁ hash₁).map Prod.fst := by
    intro k created₂ created₁
    obtain ⟨r, output, rfl⟩ := mem_entries_keys.mp created₂
    obtain ⟨r', output', same⟩ := mem_entries_keys.mp created₁
    have equal := (mem_outputRefs.mp output').1.symm.trans (encode_injective same ▸ (mem_outputRefs.mp output).1)
    exact independent.hashes hash₁ accepted₁.hash (equal ▸ accepted₂.hash)
  have orders := Store.setAll_clearAll_comm checked₁ (apart independent.untouched accepted₂.hash)
    (apart independent.untouched' accepted₁.hash) disjoint
  rw [orders, ← accepted₁.after, ← accepted₂.after] at late
  exact ⟨_, apply_ok.mpr ⟨hash₂, _, early⟩, apply_ok.mpr ⟨hash₁, _, late⟩⟩

/-- Two independent transactions that each apply apply one after the other. -/
theorem apply_beside (free₁ : SideEffectFree V t₁.checker) (free₂ : SideEffectFree V t₂.checker)
    (independent : Independent t₁ t₂) (first : applyTuxedoTransaction t₁ s = .ok () s₁)
    (second : applyTuxedoTransaction t₂ s = .ok () s₂) :
    ∃ s', applyTuxedoTransaction t₂ s₁ = .ok () s' ∧ applyTuxedoTransaction t₁ s₂ = .ok () s' := by
  obtain ⟨hash₁, checked₁, accepted₁⟩ := apply_ok.mp first
  obtain ⟨hash₂, checked₂, accepted₂⟩ := apply_ok.mp second
  obtain rfl : checked₁ = s := by
    obtain ⟨priority, call⟩ := accepted₁.checks
    exact free₁.writesNothing call
  obtain rfl : checked₂ = checked₁ := by
    obtain ⟨priority, call⟩ := accepted₂.checks
    exact free₂.writesNothing call
  have late := accepted₂.congr free₂ (accepted₁.sameFootprint accepted₂.hash independent)
  have applied := (apply_ok (u := ())).mpr ⟨hash₂, _, late⟩
  obtain ⟨s₃, early, after⟩ := apply_swap free₁ free₂ independent first applied
  cases second.symm.trans early
  exact ⟨_, applied, after⟩

/-! ### The tags of the pool -/

omit [Host] [Codec C] [ConstraintChecker V C] in
theorem mem_missing {tag : Bytes} : tag ∈ (preparedFor t txHash s).missingInputs ↔
    ∃ r ∈ inputRefs t ++ t.peeks.toList, peekUtxo V s r = none ∧ encode r = tag := by
  simp only [preparedFor, missingRefs, ← List.map_append, ← List.filter_append, List.mem_map, List.mem_filter,
    Option.isNone_iff_eq_none, and_assoc]

/-- The output at a reference after an accepted transaction that writes nothing else. -/
theorem Accepted.peek_eq_none (accepted : Accepted t txHash s s s') (r : OutputRef) :
    peekUtxo V s' r = none ↔ (peekUtxo V s r = none ∧ r ∉ t.outputRefs txHash) ∨ r ∈ inputRefs t := by
  by_cases input : r ∈ inputRefs t
  · have gone : peekUtxo V s' r = none := by
      unfold peekUtxo
      rw [accepted.get_consumed input]
      rfl
    exact ⟨fun _ => Or.inr input, fun _ => gone⟩
  · by_cases output : r ∈ t.outputRefs txHash
    · obtain ⟨i, at_i⟩ : ∃ i, t.outputs.toList[r.index.toNat]? = some i :=
        ⟨_, List.getElem?_eq_getElem (mem_outputRefs.mp output).2⟩
      have created : peekUtxo V s' r = some i := by
        unfold peekUtxo
        rw [outputRef_index output, accepted.get_created at_i]
        simp
      simp [created, output, input]
    · rw [peekUtxo_congr (accepted.get_ref input output)]
      simp [output, input]

/-- `provides` lists what the transaction creates. Another transaction requires afterwards what it
required and did not get, and what was taken from it. -/
theorem pool_tags_exact (t₁ t₂ : Transaction V C) (s s' checked checked₂ checked₂' : Storage)
    (provided required required' : ValidTransaction)
    (writesNothing : ∀ inputs evicted peeks outputs s priority s₁,
      ConstraintChecker.check (V := V) t₁.checker inputs evicted peeks outputs s = .ok priority s₁ → s₁ = s)
    (applied : applyTuxedoTransaction t₁ s = .ok () s')
    (validated : validateTuxedoTransaction t₁ s = .ok provided checked)
    (before : validateTuxedoTransaction t₂ s = .ok required checked₂)
    (after : validateTuxedoTransaction t₂ s' = .ok required' checked₂') :
    (∃ txHash, t₁.id? = some txHash ∧ provided.provides = (t₁.outputRefs txHash).map encode ∧
      provided.provides.length = t₁.outputs.toList.length ∧
      ∀ i output, t₁.outputs.toList[i]? = some output →
        provided.provides[i]? = some (encode (⟨txHash, UInt32.ofNat i⟩ : OutputRef)) ∧
        peekUtxo V s ⟨txHash, UInt32.ofNat i⟩ = none ∧
        s'.get (encode (⟨txHash, UInt32.ofNat i⟩ : OutputRef)) = some (encode output)) ∧
    (∀ k, s.get k = none → s'.get k ≠ none → k ∈ provided.provides) ∧
    (∀ tag, tag ∈ required'.requires ↔ (tag ∈ required.requires ∧ tag ∉ provided.provides) ∨
      ∃ r ∈ inputRefs t₂ ++ t₂.peeks.toList, r ∈ inputRefs t₁ ∧ encode r = tag) ∧
    ((∀ tag ∈ required.requires, tag ∈ provided.provides) →
      (∀ r ∈ inputRefs t₂ ++ t₂.peeks.toList, r ∉ inputRefs t₁) → required'.requires = []) := by
  obtain ⟨txHash, checked₁, accepted⟩ := apply_ok.mp applied
  obtain rfl : checked₁ = s := by
    obtain ⟨priority, call⟩ := accepted.checks
    exact writesNothing _ _ _ _ _ _ _ call
  obtain ⟨txHash', prechecked, _, provides, _⟩ := validate_ok validated
  obtain rfl : txHash' = txHash := Option.some.inj (prechecked.hash.symm.trans accepted.hash)
  obtain ⟨_, _, requires, _⟩ := validate_ok before
  obtain ⟨_, _, requires', _⟩ := validate_ok after
  have exact : ∀ tag, tag ∈ required'.requires ↔ (tag ∈ required.requires ∧ tag ∉ provided.provides) ∨
      ∃ r ∈ inputRefs t₂ ++ t₂.peeks.toList, r ∈ inputRefs t₁ ∧ encode r = tag := by
    intro tag
    rw [requires', requires, provides, mem_missing, mem_missing]
    constructor
    · rintro ⟨r, referred, absent, rfl⟩
      rcases (accepted.peek_eq_none r).mp absent with ⟨missing, other⟩ | taken
      · exact Or.inl ⟨⟨r, referred, missing, rfl⟩, by rwa [List.mem_map_of_injective encode_injective]⟩
      · exact Or.inr ⟨r, referred, taken, rfl⟩
    · rintro (⟨⟨r, referred, missing, rfl⟩, other⟩ | ⟨r, referred, taken, rfl⟩)
      · rw [List.mem_map_of_injective encode_injective] at other
        exact ⟨r, referred, (accepted.peek_eq_none r).mpr (Or.inl ⟨missing, other⟩), rfl⟩
      · exact ⟨r, referred, (accepted.peek_eq_none r).mpr (Or.inr taken), rfl⟩
  refine ⟨⟨txHash', accepted.hash, provides, ?_, ?_⟩, ?_, exact, ?_⟩
  · rw [provides, List.length_map, Transaction.outputRefs, List.length_map, List.length_zipIdx]
  · intro i output at_i
    obtain ⟨small, _⟩ := List.getElem?_eq_some_iff.mp at_i
    refine ⟨?_, accepted.fresh _ (outputRef_mem txHash' small), accepted.get_created at_i⟩
    simp [provides, Transaction.outputRefs, List.getElem?_zipIdx, at_i]
  · intro k absent appears
    by_contra other
    refine appears ?_
    by_cases input : ∃ r ∈ inputRefs t₁, k = encode r
    · obtain ⟨r, input, rfl⟩ := input
      exact accepted.get_consumed input
    · rw [accepted.get_other (fun r member same => input ⟨r, member, same⟩), absent]
      rintro r member rfl
      rw [provides, List.mem_map_of_injective encode_injective] at other
      exact other member
  · intro covered kept
    refine List.eq_nil_iff_forall_not_mem.mpr fun tag member => ?_
    rcases (exact tag).mp member with ⟨required, missed⟩ | ⟨r, referred, taken, _⟩
    · exact missed (covered tag required)
    · exact kept r referred taken

end

/-- Spends what `spendCoin` creates. -/
def spendNext : Transaction UpForGrabs (Money.MoneyConstraintChecker 0) :=
  let := Host.unsigned
  ⟨Vec.singleton ⟨⟨spendCoin.id?.getD (FixedBytes.zero 32), 0⟩, .redemption Vec.empty⟩, Vec.empty,
    Vec.singleton (coinOutput 30), .spend⟩

theorem pool_tags_exact_chained :
    letI := Host.unsigned
    ∃ s' checked required required', applyTuxedoTransaction spendCoin coinStorage = .ok () s' ∧
      validateTuxedoTransaction spendNext coinStorage = .ok required coinStorage ∧ required.requires ≠ [] ∧
      validateTuxedoTransaction spendNext s' = .ok required' checked ∧ required'.requires = [] := by
  let := Host.unsigned
  obtain ⟨required', checked, run, _⟩ := Exec.exists_of_any
    (x := do applyTuxedoTransaction spendCoin; validateTuxedoTransaction spendNext) (s := coinStorage)
    (p := fun _ => true) (by decide +kernel)
  obtain ⟨_, s', applied, after⟩ := Exec.bind_ok run
  obtain ⟨provided, _, validated, tags⟩ := Exec.exists_of_any (x := validateTuxedoTransaction spendCoin)
    (s := coinStorage) (p := fun result => result.1.provides = (inputRefs spendNext).map encode) (by decide +kernel)
  obtain ⟨required, _, before, missing⟩ := Exec.exists_of_any (x := validateTuxedoTransaction spendNext)
    (s := coinStorage)
    (p := fun result => result.2 = coinStorage ∧ result.1.requires = (inputRefs spendNext).map encode)
    (by decide +kernel)
  obtain ⟨rfl, requires⟩ := of_decide_eq_true missing
  have provides := of_decide_eq_true tags
  obtain ⟨_, _, _, settled⟩ := pool_tags_exact spendCoin spendNext coinStorage s' _ _ _ provided required required'
    (fun _ _ _ _ _ _ _ call => (Exec.lift_ok call).2.symm) applied validated before after
  refine ⟨s', checked, required, required', applied, before, ?_, after, settled ?_ (by decide +kernel)⟩
  · rw [requires]
    decide
  · rw [requires, provides]
    exact fun _ member => member

end Tuxedo.Executive
