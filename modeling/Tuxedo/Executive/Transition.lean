import Tuxedo.Executive.Validation
import Tuxedo.Wardrobe.Money

/-!
# The state transition

What an accepted transaction leaves at each key, and at each output reference.
-/

namespace Tuxedo.Executive
open Scale TransparentUtxoSet

/-- The two storages agree on the keys of output references. -/
def SameUtxos (s s' : Storage) : Prop := ∀ k : Bytes, k.length = 36 → s'.get k = s.get k

namespace SameUtxos

theorem refl (s : Storage) : SameUtxos s s := fun _ _ => rfl

theorem trans {s s₁ s₂ : Storage} (first : SameUtxos s s₁) (second : SameUtxos s₁ s₂) : SameUtxos s s₂ :=
  fun k width => (second k width).trans (first k width)

theorem set {s : Storage} {k : Bytes} (v : Bytes) (width : k.length ≠ 36) : SameUtxos s (s.set k v) :=
  fun _ width' => Store.get_set_ne s v fun same => width (same ▸ width')

theorem clear {s : Storage} {k : Bytes} (width : k.length ≠ 36) : SameUtxos s (s.clear k) :=
  fun _ width' => Store.get_clear_ne s fun same => width (same ▸ width')

theorem get_ref {s s' : Storage} (same : SameUtxos s s') (r : OutputRef) :
    s'.get (encode r) = s.get (encode r) := same _ (length_encode_outputRef r)

theorem peek {V : Type} [Codec V] {s s' : Storage} (same : SameUtxos s s') (r : OutputRef) :
    peekUtxo V s' r = peekUtxo V s r := by
  simp [peekUtxo, same.get_ref r]

end SameUtxos

theorem openBlock_same (header : Header) (s : Storage) : SameUtxos s (openBlock header s) :=
  (SameUtxos.set _ (by decide)).trans (SameUtxos.set _ (by decide))

theorem openBlock_height (header : Header) (s : Storage) : blockHeight (openBlock header s) = some header.number := by
  simp [blockHeight, openBlock]

theorem peek_set {V : Type} [Codec V] (s : Storage) (r r' : OutputRef) (output : Output V) :
    peekUtxo V (s.set (encode r) (encode output)) r' = if r' = r then some output else peekUtxo V s r' := by
  by_cases same : r' = r
  · simp [peekUtxo, same]
  · rw [if_neg same, peekUtxo, Store.get_set_ne _ _ (encode_injective.ne same), peekUtxo]

theorem peek_height {V : Type} [Codec V] (height : Bytes) (r : OutputRef) :
    peekUtxo V (Store.empty.set heightKey height) r = none := by
  have same : SameUtxos Store.empty (Store.empty.set heightKey height) := .set height (by decide)
  rw [same.peek, peekUtxo, Store.get_empty]
  rfl

/-- Each value at the key of an output reference is an output. -/
def Decodable (V : Type) [Codec V] (s : Storage) : Prop :=
  ∀ (k d : Bytes), k.length = 36 → s.get k = some d → ∃ output rest, decode (α := Output V) d = some (output, rest)

theorem Decodable.get_eq_none {V : Type} [Codec V] {s : Storage} (decodable : Decodable V s) {r : OutputRef}
    (absent : peekUtxo V s r = none) : s.get (encode r) = none := by
  cases stored : s.get (encode r) with
  | none => rfl
  | some d =>
    obtain ⟨output, rest, read⟩ := decodable _ d (length_encode_outputRef r) stored
    simp [peekUtxo, stored, read] at absent

theorem get_isSome_of_peek {V : Type} [Codec V] {s : Storage} {r : OutputRef} {output : Output V}
    (present : peekUtxo V s r = some output) : ∃ d, s.get (encode r) = some d := by
  obtain ⟨d, stored, _⟩ := Option.bind_eq_some_iff.mp present
  exact ⟨d, stored⟩

section
variable {V C : Type}

/-! ### The references of the outputs -/

theorem mem_outputRefs {t : Transaction V C} {txHash : H256} {r : OutputRef} :
    r ∈ t.outputRefs txHash ↔ r.txHash = txHash ∧ r.index.toNat < t.outputs.toList.length := by
  have bound := t.outputs.length_lt
  constructor
  · intro member
    obtain ⟨⟨output, i⟩, inside, rfl⟩ := List.mem_map.mp member
    have small : i < t.outputs.toList.length := by
      simpa using (List.mem_zipIdx inside).2.1
    exact ⟨rfl, by simpa [Nat.mod_eq_of_lt (show i < 4294967296 by omega)] using small⟩
  · rintro ⟨rfl, small⟩
    refine List.mem_map.mpr ⟨(t.outputs.toList[r.index.toNat], r.index.toNat), ?_, ?_⟩
    · exact List.mk_mem_zipIdx_iff_getElem?.mpr (List.getElem?_eq_getElem small)
    · cases r
      simp

theorem outputRef_mem {t : Transaction V C} (txHash : H256) {i : Nat} (small : i < t.outputs.toList.length) :
    (⟨txHash, UInt32.ofNat i⟩ : OutputRef) ∈ t.outputRefs txHash := by
  have bound := t.outputs.length_lt
  exact mem_outputRefs.mpr ⟨rfl, by simpa [Nat.mod_eq_of_lt (show i < 4294967296 by omega)] using small⟩

theorem outputRef_index {t : Transaction V C} {txHash : H256} {r : OutputRef} (member : r ∈ t.outputRefs txHash) :
    r = ⟨txHash, UInt32.ofNat r.index.toNat⟩ := by
  obtain ⟨rfl, _⟩ := mem_outputRefs.mp member
  cases r
  simp

theorem outputRefs_eq_range (t : Transaction V C) (txHash : H256) :
    t.outputRefs txHash = (List.range t.outputs.toList.length).map fun i => ⟨txHash, UInt32.ofNat i⟩ := by
  rw [← List.zipIdx_map_snd 0 t.outputs.toList |>.trans List.range_eq_range'.symm, List.map_map]
  rfl

theorem outputRefs_nodup (t : Transaction V C) (txHash : H256) : (t.outputRefs txHash).Nodup := by
  have bound := t.outputs.length_lt
  rw [outputRefs_eq_range]
  refine List.Nodup.map_on ?_ List.nodup_range
  intro i iSmall j jSmall same
  rw [List.mem_range] at iSmall jSmall
  have equal := congrArg UInt32.toNat (OutputRef.mk.inj same).2
  simp only [UInt32.toNat_ofNat'] at equal
  omega

variable [Codec V]

theorem outputEntries_keys (t : Transaction V C) (txHash : H256) :
    (outputEntries t txHash).map Prod.fst = (t.outputRefs txHash).map encode := by
  simp [outputEntries, Transaction.outputRefs, Function.comp_def]

theorem outputEntries_nodup (t : Transaction V C) (txHash : H256) :
    ((outputEntries t txHash).map Prod.fst).Nodup := by
  rw [outputEntries_keys, List.nodup_map_iff encode_injective]
  exact outputRefs_nodup t txHash

theorem mem_outputEntries {t : Transaction V C} (txHash : H256) {i : Nat} {output : Output V}
    (at_i : t.outputs.toList[i]? = some output) :
    (encode (⟨txHash, UInt32.ofNat i⟩ : OutputRef), encode output) ∈ outputEntries t txHash :=
  List.mem_map.mpr ⟨(output, i), List.mk_mem_zipIdx_iff_getElem?.mpr at_i, rfl⟩

theorem exists_of_mem_outputEntries {t : Transaction V C} {txHash : H256} {k d : Bytes}
    (member : (k, d) ∈ outputEntries t txHash) :
    ∃ i output, t.outputs.toList[i]? = some output ∧ k = encode (⟨txHash, UInt32.ofNat i⟩ : OutputRef) ∧
      d = encode output := by
  obtain ⟨⟨output, i⟩, inside, same⟩ := List.mem_map.mp member
  obtain ⟨rfl, rfl⟩ := Prod.mk.inj same
  exact ⟨i, output, List.mk_mem_zipIdx_iff_getElem?.mp inside, rfl, rfl⟩

end

/-! ### What is left at each key -/

section
variable {V C : Type} [Host] [Verifier V] [Codec C] [ConstraintChecker V C]
  {t : Transaction V C} {txHash : H256} {s checked s' : Storage}

namespace Accepted

theorem get_created (accepted : Accepted t txHash s checked s') {i : Nat} {output : Output V}
    (at_i : t.outputs.toList[i]? = some output) :
    s'.get (encode (⟨txHash, UInt32.ofNat i⟩ : OutputRef)) = some (encode output) := by
  rw [accepted.after]
  exact Store.get_setAll_of_mem (outputEntries_nodup t txHash) (mem_outputEntries txHash at_i)

/-- An input is present and an output is not, so no reference is both. -/
theorem input_not_output (accepted : Accepted t txHash s checked s') {r : OutputRef} (input : r ∈ inputRefs t) :
    r ∉ t.outputRefs txHash := by
  intro output
  obtain ⟨_, present⟩ := accepted.inputsPresent r input
  rw [accepted.fresh r output] at present
  cases present

theorem get_consumed (accepted : Accepted t txHash s checked s') {r : OutputRef} (input : r ∈ inputRefs t) :
    s'.get (encode r) = none := by
  have apart : encode r ∉ (outputEntries t txHash).map Prod.fst := by
    rw [outputEntries_keys, List.mem_map_of_injective encode_injective]
    exact accepted.input_not_output input
  rw [accepted.after, Store.get_setAll_of_notMem apart, Store.get_clearAll, if_pos (List.mem_map_of_mem input)]

theorem get_other (accepted : Accepted t txHash s checked s') {k : Bytes}
    (notInput : ∀ r ∈ inputRefs t, k ≠ encode r) (notOutput : ∀ r ∈ t.outputRefs txHash, k ≠ encode r) :
    s'.get k = checked.get k := by
  have apart : k ∉ (outputEntries t txHash).map Prod.fst := by
    rw [outputEntries_keys]
    intro member
    obtain ⟨r, output, same⟩ := List.mem_map.mp member
    exact notOutput r output same.symm
  have unspent : k ∉ (inputRefs t).map encode := by
    intro member
    obtain ⟨r, input, same⟩ := List.mem_map.mp member
    exact notInput r input same.symm
  rw [accepted.after, Store.get_setAll_of_notMem apart, Store.get_clearAll, if_neg unspent]

theorem get_narrow (accepted : Accepted t txHash s checked s') {k : Bytes} (width : k.length ≠ 36) :
    s'.get k = checked.get k := by
  apply accepted.get_other
  · rintro r _ rfl
    exact width (length_encode_outputRef r)
  · rintro r _ rfl
    exact width (length_encode_outputRef r)

section
variable {P : DynamicallyTypedData → Prop}
  (handles : Handles P ((redeemedRefs t.inputs.toList).filterMap (payloadAt V s))
    ((evictedRefs t.inputs.toList).filterMap (payloadAt V s)) (outputData t))
include handles

theorem consumed_handled (accepted : Accepted t txHash s checked s') {r : OutputRef} (input : r ∈ inputRefs t) :
    ∃ output, peekUtxo V s r = some output ∧ P output.payload := by
  obtain ⟨output, present⟩ := accepted.inputsPresent r input
  have payload : payloadAt V s r = some output.payload := by simp [payloadAt, present]
  rcases List.mem_append.mp ((split_refs_perm t.inputs.toList).symm.subset input) with redeemed | evicted
  · exact ⟨output, present, handles.inputs _ (List.mem_filterMap.mpr ⟨r, redeemed, payload⟩)⟩
  · exact ⟨output, present, handles.evicted _ (List.mem_filterMap.mpr ⟨r, evicted, payload⟩)⟩

omit [Host] [Codec C] [ConstraintChecker V C] in
theorem created_handled {output : Output V} (member : output ∈ t.outputs.toList) : P output.payload :=
  handles.outputs _ (List.mem_map_of_mem member)

end

theorem decodable (accepted : Accepted t txHash s checked s') (before : Decodable V checked) : Decodable V s' := by
  intro k d width stored
  rw [accepted.after] at stored
  rcases Store.get_setAll_cases (checked.clearAll ((inputRefs t).map encode)) (outputEntries t txHash) k with
    ⟨_, read⟩ | ⟨v, member, read⟩
  · rw [read, Store.get_clearAll] at stored
    split at stored
    · cases stored
    · exact before k d width stored
  · obtain ⟨i, output, _, _, rfl⟩ := exists_of_mem_outputEntries member
    rw [read] at stored
    cases stored
    exact ⟨output, [], decode_encode_nil output⟩

end Accepted

/-- The exact effect of an accepted transaction whose checker does not write. -/
theorem apply_transition (t : Transaction V C) (s s' : Storage)
    (readsOnly : ∀ inputs evicted peeks outputs s priority s₁,
      ConstraintChecker.check (V := V) t.checker inputs evicted peeks outputs s = .ok priority s₁ → s₁ = s)
    (decodable : Decodable V s) (applied : applyTuxedoTransaction t s = .ok () s') :
    (∀ r ∈ inputRefs t, ∃ d, s.get (encode r) = some d) ∧
    (∀ r ∈ t.peeks.toList, ∃ d, s.get (encode r) = some d) ∧
    ∃ txHash, t.id? = some txHash ∧
      (∀ i < t.outputs.toList.length, s.get (encode (⟨txHash, UInt32.ofNat i⟩ : OutputRef)) = none) ∧
      (∀ i output, t.outputs.toList[i]? = some output →
        s'.get (encode (⟨txHash, UInt32.ofNat i⟩ : OutputRef)) = some (encode output)) ∧
      (∀ r ∈ inputRefs t, s'.get (encode r) = none) ∧
      (∀ k, (∀ r ∈ inputRefs t, k ≠ encode r) →
        (∀ i < t.outputs.toList.length, k ≠ encode (⟨txHash, UInt32.ofNat i⟩ : OutputRef)) → s'.get k = s.get k) ∧
      Decodable V s' := by
  obtain ⟨txHash, checked, accepted⟩ := apply_ok.mp applied
  obtain ⟨priority, call⟩ := accepted.checks
  obtain rfl := readsOnly _ _ _ _ _ _ _ call
  refine ⟨?_, ?_, txHash, accepted.hash, ?_, fun _ _ => accepted.get_created, fun _ => accepted.get_consumed, ?_,
    accepted.decodable decodable⟩
  · intro r input
    obtain ⟨output, present⟩ := accepted.inputsPresent r input
    exact get_isSome_of_peek present
  · intro r peek
    obtain ⟨output, present⟩ := accepted.peeksPresent r peek
    exact get_isSome_of_peek present
  · intro i small
    exact decodable.get_eq_none (accepted.fresh _ (outputRef_mem txHash small))
  · intro k notInput notOutput
    apply accepted.get_other notInput
    intro r output
    rw [outputRef_index output]
    exact notOutput _ (mem_outputRefs.mp output).2

end

/-! A runtime of one piece with one verifier spends a coin. -/

def coinOutput (value : U128) : Output UpForGrabs :=
  ⟨⟨⟨encode (⟨value⟩ : Money.Coin 0), Money.encode_coin_small value⟩, UtxoData.typeId (Money.Coin 0)⟩, ⟨⟩⟩

def coinRef : OutputRef := ⟨FixedBytes.zero 32, 0⟩

def spendCoin : Transaction UpForGrabs (Money.MoneyConstraintChecker 0) :=
  ⟨Vec.singleton ⟨coinRef, .redemption Vec.empty⟩, Vec.empty, Vec.singleton (coinOutput 60), .spend⟩

def coinStorage : Storage :=
  (Store.empty.set heightKey (encode (1 : UInt32))).set (encode coinRef) (encode (coinOutput 100))

theorem coinStorage_decodable : Decodable UpForGrabs coinStorage := by
  intro k d width stored
  unfold coinStorage at stored
  rw [Store.get_set] at stored
  split at stored
  · cases stored
    exact ⟨coinOutput 100, [], decode_encode_nil _⟩
  · rw [Store.get_set] at stored
    split at stored
    · rename_i same
      subst same
      cases width
    · simp at stored

theorem apply_transition_spendCoin :
    letI := Host.unsigned
    ∃ s', applyTuxedoTransaction spendCoin coinStorage = .ok () s' ∧ s'.get (encode coinRef) = none ∧
      ∃ txHash, spendCoin.id? = some txHash ∧
        s'.get (encode (⟨txHash, 0⟩ : OutputRef)) = some (encode (coinOutput 60)) := by
  let := Host.unsigned
  obtain ⟨_, s', applied, _⟩ := Exec.exists_of_any (x := applyTuxedoTransaction spendCoin) (s := coinStorage)
    (p := fun _ => true) (by decide +kernel)
  obtain ⟨_, _, txHash, hash, _, created, consumed, _⟩ := apply_transition spendCoin coinStorage s'
    (fun _ _ _ _ _ _ _ call => (Exec.lift_ok call).2.symm) coinStorage_decodable applied
  exact ⟨s', applied, consumed coinRef List.mem_cons_self, txHash, hash, created 0 (coinOutput 60) rfl⟩

end Tuxedo.Executive
