import Tuxedo.Executive.Opaque
import Tuxedo.Runtime.ParachainInfo
import Tuxedo.Wallet.Database

/-!
# The unspent table

The wallet reads the blocks of the chain on its own, and its table of unspent outputs is a view
of the ledger that the chain keeps.
-/

namespace Tuxedo.Wallet
open Scale Executive TransparentUtxoSet DynamicallyTypedData Template

/-- A payload that extracts as a coin or as a timestamp when its id names one. -/
structure WellFormed (d : DynamicallyTypedData) : Prop where
  coin : d.typeId = UtxoData.typeId (Money.Coin 0) → Extracts (Money.Coin 0) d
  timestamp : d.typeId = UtxoData.typeId Time.Timestamp → Extracts Time.Timestamp d

/-- The owner and the value of a coin that the filter accepts. -/
def trackedCoin (filter : OuterVerifier → Bool) (output : Template.Output) : Option (H256 × U128) :=
  match output.payload.extract (Money.Coin 0), output.verifier with
  | .ok coin, .sr25519Signature owner =>
    if filter output.verifier then some (owner.ownerPubkey, coin.value) else none
  | _, _ => none

/-- The table holds the coins of a ledger that the wallet tracks, and nothing else. -/
structure Tracks (filter : OuterVerifier → Bool) (utxos : OutputRef → Option Template.Output) (unspent : Tree) :
    Prop where
  get_ref : ∀ r : OutputRef, unspent.get (encode r) = (Ledger.view (trackedCoin filter) utxos r).map encode
  refs : ∀ k v, unspent.get k = some v → ∃ r : OutputRef, k = encode r

/-- Only signature verifiers pass. -/
def OnlySignatures (filter : OuterVerifier → Bool) : Prop :=
  ∀ verifier, filter verifier = true → ∃ owner, verifier = .sr25519Signature owner

/-! ### One output -/

theorem extractPayload_of_ok {T : Type} [UtxoData T] {d : DynamicallyTypedData} {value : T}
    (h : d.extract T = .ok value) : extractPayload T d = .ok value := by
  rw [extractPayload, h]

theorem extractPayload_ok {T : Type} [UtxoData T] {d : DynamicallyTypedData} {value : T}
    (h : extractPayload T d = .ok value) : d.extract T = .ok value := by
  unfold extractPayload at h
  split at h
  · rename_i found
    cases h
    exact found
  · cases h

/-- The entry of an output in the unspent table. -/
def coinEntry (filter : OuterVerifier → Bool) (txHash : H256) (output : Template.Output × Nat) :
    Option (Bytes × Bytes) :=
  (trackedCoin filter output.1).map fun coin =>
    (encode (⟨txHash, UInt32.ofNat output.2⟩ : OutputRef), encode coin)

variable {filter : OuterVerifier → Bool}

theorem trackedCoin_of_coin (only : OnlySignatures filter) {output : Template.Output} {coin : Money.Coin 0}
    (extracted : output.payload.extract (Money.Coin 0) = .ok coin) (accepted : filter output.verifier = true) :
    ∃ owner, output.verifier = .sr25519Signature owner ∧
      trackedCoin filter output = some (owner.ownerPubkey, coin.value) := by
  obtain ⟨owner, signed⟩ := only _ accepted
  refine ⟨owner, signed, ?_⟩
  rw [signed] at accepted
  simp [trackedCoin, extracted, signed, accepted]

theorem trackedCoin_of_refused {output : Template.Output} (refused : filter output.verifier = false) :
    trackedCoin filter output = none := by
  unfold trackedCoin
  split
  · simp [refused]
  · rfl

theorem trackedCoin_of_other {output : Template.Output}
    (other : output.payload.typeId ≠ UtxoData.typeId (Money.Coin 0)) : trackedCoin filter output = none := by
  simp [trackedCoin, extract, other]

theorem coinEntry_of_refused {txHash : H256} {output : Template.Output × Nat}
    (refused : filter output.1.verifier = false) : coinEntry filter txHash output = none := by
  rw [coinEntry, trackedCoin_of_refused refused]
  rfl

theorem coinEntry_of_other {txHash : H256} {output : Template.Output × Nat}
    (other : output.1.payload.typeId ≠ UtxoData.typeId (Money.Coin 0)) : coinEntry filter txHash output = none := by
  rw [coinEntry, trackedCoin_of_other other]
  rfl

/-- A well-formed output is applied, and its coin is added when it is tracked. -/
theorem applyOutput_ok (only : OnlySignatures filter) {output : Template.Output × Nat}
    (formed : WellFormed output.1.payload) (txHash : H256) (db : Db) :
    ∃ db', applyOutput filter txHash (UInt32.ofNat output.2) output.1 db = .ok () db' ∧
      db'.unspent = db.unspent.setAll (coinEntry filter txHash output).toList := by
  unfold applyOutput
  split
  · rename_i coinType
    split
    · rename_i accepted
      obtain ⟨coin, extracted⟩ := formed.coin coinType
      obtain ⟨owner, signed, tracked⟩ := trackedCoin_of_coin only extracted accepted
      have applied : applyCoin txHash (UInt32.ofNat output.2) output.1 db =
          addUnspentOutput ⟨txHash, UInt32.ofNat output.2⟩ owner.ownerPubkey coin.value db := by
        refine (Exec.bind_of_ok (Exec.lift_of_ok (extractPayload_of_ok extracted) db)).trans ?_
        rw [signed]
      refine ⟨_, applied.trans (Exec.modify_of _ db), ?_⟩
      rw [coinEntry, tracked]
      rfl
    · rename_i refused
      refine ⟨db, rfl, ?_⟩
      rw [coinEntry_of_refused (by simpa using refused)]
      rfl
  · rename_i other
    rw [coinEntry_of_other other]
    split
    · rename_i timestampType
      obtain ⟨timestamp, extracted⟩ := formed.timestamp timestampType
      refine ⟨{ db with timestamp := db.timestamp.set [0] (encode timestamp.time) }, ?_, rfl⟩
      exact Exec.bind_of_ok (Exec.lift_of_ok (extractPayload_of_ok extracted) db)
    · exact ⟨db, rfl, rfl⟩

theorem applyOutputs_ok (only : OnlySignatures filter) {outputs : List (Template.Output × Nat)}
    (formed : ∀ output ∈ outputs, WellFormed output.1.payload) (txHash : H256) (db : Db) :
    ∃ db', outputs.forM (fun output => applyOutput filter txHash (UInt32.ofNat output.2) output.1) db = .ok () db' ∧
      db'.unspent = db.unspent.setAll (outputs.filterMap (coinEntry filter txHash)) := by
  induction outputs generalizing db with
  | nil => exact ⟨db, rfl, rfl⟩
  | cons output outputs ih =>
    obtain ⟨first, rest⟩ := List.forall_mem_cons.mp formed
    obtain ⟨db₁, applied, added⟩ := applyOutput_ok only first txHash db
    obtain ⟨db', later, after⟩ := ih rest db₁
    refine ⟨db', (Exec.bind_of_ok applied).trans later, ?_⟩
    rw [after, added, Store.setAll_filterMap_cons]

/-! ### One input -/

/-- Every record of the table decodes. -/
def Records (unspent : Tree) : Prop := ∀ k v, unspent.get k = some v → ∃ record : H256 × U128, v = encode record

theorem Tracks.records {utxos : OutputRef → Option Template.Output} {unspent : Tree}
    (tracks : Tracks filter utxos unspent) : Records unspent := by
  intro k v stored
  obtain ⟨r, rfl⟩ := tracks.refs k v stored
  rw [tracks.get_ref r] at stored
  obtain ⟨record, _, rfl⟩ := Option.map_eq_some_iff.mp stored
  exact ⟨record, rfl⟩

theorem Records.clear {unspent : Tree} (records : Records unspent) (k : Bytes) : Records (unspent.clear k) := by
  intro k' v stored
  rw [Store.get_clear] at stored
  split at stored
  · cases stored
  · exact records k' v stored

theorem Records.setAll {unspent : Tree} (records : Records unspent) {entries : List (Bytes × Bytes)}
    (decodes : ∀ entry ∈ entries, ∃ record : H256 × U128, entry.2 = encode record) :
    Records (unspent.setAll entries) := by
  intro k v stored
  rcases Store.get_setAll_cases unspent entries k with ⟨_, read⟩ | ⟨w, member, read⟩
  · exact records k v (read ▸ stored)
  · rw [read] at stored
    cases stored
    exact decodes _ member

theorem decodeValue_encode {α : Type} [Codec α] (a : α) : decodeValue (encode a) = .ok a := by
  simp [decodeValue, okOr]

theorem spendOutput_of_none {db : Db} {r : OutputRef} (absent : db.unspent.get (encode r) = none) :
    spendOutput r db = .ok () db := by
  refine (Exec.bind_of_ok (Exec.get_of db)).trans ?_
  rw [absent]
  rfl

theorem spendOutput_of_some {db : Db} {r : OutputRef} {record : H256 × U128}
    (stored : db.unspent.get (encode r) = some (encode record)) : spendOutput r db = .ok () { db with
      unspent := db.unspent.clear (encode r)
      spent := db.spent.set (encode r) (encode record) } := by
  refine (Exec.bind_of_ok (Exec.get_of db)).trans ?_
  rw [stored]
  refine (Exec.bind_of_ok (Exec.modify_of _ db)).trans ?_
  exact Exec.bind_of_ok (Exec.lift_of_ok (decodeValue_encode record) _)

theorem spendOutput_ok {db : Db} (records : Records db.unspent) (r : OutputRef) :
    ∃ db', spendOutput r db = .ok () db' ∧ db'.unspent = db.unspent.clear (encode r) := by
  cases stored : db.unspent.get (encode r) with
  | none => exact ⟨db, spendOutput_of_none stored, (Store.clear_eq_self stored).symm⟩
  | some ivec =>
    obtain ⟨record, rfl⟩ := records _ ivec stored
    exact ⟨_, spendOutput_of_some stored, rfl⟩

theorem spendOutputs_ok {db : Db} (records : Records db.unspent) (inputs : List Input) :
    ∃ db', inputs.forM (fun input => spendOutput input.outputRef) db = .ok () db' ∧
      db'.unspent = db.unspent.clearAll (inputs.map fun input => encode input.outputRef) := by
  induction inputs generalizing db with
  | nil => exact ⟨db, rfl, rfl⟩
  | cons input inputs ih =>
    obtain ⟨db₁, applied, spent⟩ := spendOutput_ok records input.outputRef
    obtain ⟨db', later, after⟩ := ih (spent ▸ records.clear _)
    exact ⟨db', (Exec.bind_of_ok applied).trans later, by rw [after, spent]; rfl⟩

/-! ### One transaction -/

section
variable {C : Type} [Host] [Codec C] {t : Tuxedo.Transaction OuterVerifier C} {txHash : H256}

/-- The entries of the coins that a transaction creates. -/
def coinEntries (filter : OuterVerifier → Bool) (t : Tuxedo.Transaction OuterVerifier C) (txHash : H256) :
    List (Bytes × Bytes) := t.outputs.toList.zipIdx.filterMap (coinEntry filter txHash)

theorem mem_coinEntries (hash : t.id? = some txHash) {k v : Bytes} :
    (k, v) ∈ coinEntries filter t txHash ↔
      ∃ (r : OutputRef) (coin : H256 × U128), k = encode r ∧ v = encode coin ∧
        (creates t r).bind (trackedCoin filter) = some coin := by
  constructor
  · intro member
    obtain ⟨⟨output, i⟩, inside, entry⟩ := List.mem_filterMap.mp member
    obtain ⟨coin, tracked, same⟩ := Option.map_eq_some_iff.mp entry
    cases same
    have at_i := List.mk_mem_zipIdx_iff_getElem?.mp inside
    have small : i < 2 ^ 32 := (List.getElem?_eq_some_iff.mp at_i).1.trans t.outputs.length_lt
    refine ⟨⟨txHash, UInt32.ofNat i⟩, coin, rfl, rfl, ?_⟩
    have made : creates t ⟨txHash, UInt32.ofNat i⟩ = some output :=
      creates_eq_some.mpr ⟨hash, by simpa [Nat.mod_eq_of_lt (show i < 4294967296 from small)] using at_i⟩
    rw [made]
    exact tracked
  · rintro ⟨r, coin, rfl, rfl, found⟩
    obtain ⟨output, made, tracked⟩ := Option.bind_eq_some_iff.mp found
    obtain ⟨_, at_r⟩ := creates_eq_some.mp made
    refine List.mem_filterMap.mpr ⟨(output, r.index.toNat), List.mk_mem_zipIdx_iff_getElem?.mpr at_r, ?_⟩
    rw [coinEntry, tracked, ← outputRef_index (mem_outputRefs_of_creates hash made)]
    rfl

theorem get_coinEntries (hash : t.id? = some txHash) (unspent : Tree) (r : OutputRef) :
    (unspent.setAll (coinEntries filter t txHash)).get (encode r) =
      (((creates t r).bind (trackedCoin filter)).map encode).or (unspent.get (encode r)) := by
  rcases Store.get_setAll_cases unspent (coinEntries filter t txHash) (encode r) with ⟨absent, read⟩ | ⟨v, member, read⟩
  · rw [read]
    cases found : (creates t r).bind (trackedCoin filter) with
    | none => rfl
    | some coin =>
      have member := (mem_coinEntries hash).mpr ⟨r, coin, rfl, rfl, found⟩
      exact absurd (List.mem_map_of_mem member) absent
  · obtain ⟨r', coin, same, rfl, found⟩ := (mem_coinEntries hash).mp member
    obtain rfl := encode_injective same
    rw [read, found]
    rfl

/-- The wallet adds the coins of a transaction and then spends its inputs. -/
theorem applyTransaction_ok (only : OnlySignatures filter) (formed : ∀ output ∈ t.outputs.toList,
      WellFormed output.payload) {x : OpaqueExtrinsic} (canonical : encode x = encode t)
    (hash : t.id? = some txHash) {db : Db} (records : Records db.unspent) :
    ∃ db', applyTransaction C filter x db = .ok () db' ∧
      db'.unspent = (db.unspent.setAll (coinEntries filter t txHash)).clearAll
        (t.inputs.toList.map fun input => encode input.outputRef) := by
  have formedPairs : ∀ output ∈ t.outputs.toList.zipIdx, WellFormed output.1.payload := by
    rintro ⟨output, i⟩ inside
    exact formed output (List.mem_of_getElem? (List.mk_mem_zipIdx_iff_getElem?.mp inside))
  obtain ⟨db₁, outputs, added⟩ := applyOutputs_ok only formedPairs txHash db
  have recordsAfter : Records db₁.unspent := by
    rw [added]
    refine records.setAll fun entry member => ?_
    obtain ⟨_, coin, _, written, _⟩ := (mem_coinEntries hash).mp member
    exact ⟨coin, written⟩
  obtain ⟨db', inputs, spent⟩ := spendOutputs_ok recordsAfter t.inputs.toList
  refine ⟨db', ?_, by rw [spent, added]; rfl⟩
  unfold applyTransaction
  rw [canonical]
  have hashed : (Vec.ofList? (encode t)).map hashOf = some txHash := hash
  refine (Exec.bind_of_ok (Exec.lift_of_ok (by rw [hashed]; rfl) db)).trans ?_
  refine (Exec.bind_of_ok (Exec.lift_of_ok (decodeValue_encode t) db)).trans ?_
  exact (Exec.bind_of_ok outputs).trans inputs

/-- Applying a transaction keeps the table a view of the ledger. -/
theorem applyTransaction_tracks (only : OnlySignatures filter) (formed : ∀ output ∈ t.outputs.toList,
      WellFormed output.payload) {x : OpaqueExtrinsic} (canonical : encode x = encode t)
    (hash : t.id? = some txHash) {utxos utxos' : OutputRef → Option Template.Output}
    (update : Ledger.Update (consumes t) (creates t) utxos utxos') {db : Db} (tracks : Tracks filter utxos db.unspent) :
    ∃ db', applyTransaction C filter x db = .ok () db' ∧ Tracks filter utxos' db'.unspent := by
  obtain ⟨db', applied, after⟩ := applyTransaction_ok only formed canonical hash tracks.records
  refine ⟨db', applied, ?_, ?_⟩
  · let keep (output : Template.Output) : Option Bytes := (trackedCoin filter output).map encode
    have written (u : OutputRef → Option Template.Output) (r : OutputRef) :
        (Ledger.view (trackedCoin filter) u r).map encode = Ledger.view keep u r := Option.map_bind
    have before (r : OutputRef) : db.unspent.get (encode r) = Ledger.view keep utxos r := by
      rw [tracks.get_ref r, written]
    have dropped : ∀ r ∈ consumes t, db'.unspent.get (encode r) = none := by
      intro r spent
      obtain ⟨input, member, rfl⟩ := List.mem_map.mp spent
      rw [after, Store.get_clearAll, if_pos (List.mem_map_of_mem member)]
    have added : ∀ r ∉ consumes t, db'.unspent.get (encode r) =
        ((creates t r).bind keep).or (db.unspent.get (encode r)) := by
      intro r unspent
      have other : encode r ∉ t.inputs.toList.map fun input => encode input.outputRef := by
        intro member
        obtain ⟨input, inside, same⟩ := List.mem_map.mp member
        exact unspent (encode_injective same ▸ List.mem_map_of_mem inside)
      rw [after, Store.get_clearAll, if_neg other, get_coinEntries hash, Option.map_bind]
      rfl
    intro r
    rw [written]
    exact update.view_eq before dropped added r
  · intro k v stored
    rw [after, Store.get_clearAll] at stored
    split at stored
    · cases stored
    · rcases Store.get_setAll_cases db.unspent (coinEntries filter t txHash) k with ⟨_, read⟩ | ⟨w, member, _⟩
      · exact tracks.refs k v (read ▸ stored)
      · obtain ⟨r, _, same, _⟩ := (mem_coinEntries hash).mp member
        exact ⟨r, same⟩

end

/-! ### Blocks -/

/-- A runtime whose accepted transactions create well-formed outputs only. -/
class FormsOutputs (C : Type) [Host] [Codec C] [ConstraintChecker OuterVerifier C] : Prop where
  formed : ∀ {t : Tuxedo.Transaction OuterVerifier C} {s s' : Storage}, applyTuxedoTransaction t s = .ok () s' →
    ∀ output ∈ t.outputs.toList, WellFormed output.payload

/-- The opaque block holds the canonical encodings of the transactions. -/
structure Carries {C : Type} [Codec C] (b : OpaqueBlock) (block : Tuxedo.Block OuterVerifier C) : Prop where
  header : b.header = block.header
  extrinsics : b.extrinsics.toList.map encode = block.extrinsics.toList.map encode

section
variable {C : Type} [Host] [Codec C] [ConstraintChecker OuterVerifier C]

omit [Host] in
theorem Tracks.same {s s' : Storage} {unspent : Tree} (tracks : Tracks filter (peekUtxo OuterVerifier s) unspent)
    (same : SameUtxos s s') : Tracks filter (peekUtxo OuterVerifier s') unspent := by
  have unchanged : peekUtxo OuterVerifier s' = peekUtxo OuterVerifier s := funext same.peek
  rw [unchanged]
  exact tracks

theorem applyExtrinsics_tracks [KeepsUtxos OuterVerifier C] [FormsOutputs C] (only : OnlySignatures filter)
    {s s' : Storage} {ts : List (Tuxedo.Transaction OuterVerifier C)} (applied : Applied s ts s')
    {xs : List OpaqueExtrinsic} (canonical : xs.map encode = ts.map encode) {db : Db}
    (tracks : Tracks filter (peekUtxo OuterVerifier s) db.unspent) :
    ∃ db', xs.forM (applyTransaction C filter) db = .ok () db' ∧
      Tracks filter (peekUtxo OuterVerifier s') db'.unspent := by
  induction applied generalizing xs db with
  | done s =>
    obtain rfl := List.map_eq_nil_iff.mp canonical
    exact ⟨db, rfl, tracks⟩
  | @apply s s₁ s' t ts applied _ ih =>
    obtain ⟨x, xs, rfl, same, canonical⟩ := List.map_eq_cons_iff.mp canonical
    obtain ⟨txHash, _, accepted⟩ := apply_ok.mp applied
    obtain ⟨db₁, first, between⟩ := applyTransaction_tracks only (FormsOutputs.formed applied) same accepted.hash
      accepted.step.update tracks
    obtain ⟨db', later, after⟩ := ih canonical between
    exact ⟨db', (Exec.bind_of_ok first).trans later, after⟩

/-- A block that the chain executes, the wallet applies. -/
theorem applyBlock_tracks [KeepsUtxos OuterVerifier C] [FormsOutputs C] (only : OnlySignatures filter)
    {block : Tuxedo.Block OuterVerifier C} {s s' : Storage} (executed : executeBlock block s = .ok () s')
    {b : OpaqueBlock} (carries : Carries b block) (blockHash : H256) {db : Db}
    (tracks : Tracks filter (peekUtxo OuterVerifier s) db.unspent) :
    ∃ db', applyBlock C filter b blockHash db = .ok () db' ∧ Tracks filter (peekUtxo OuterVerifier s') db'.unspent := by
  obtain ⟨_, ⟨s₁, applied, rfl⟩, _⟩ := executeBlock_ok.mp executed
  let recorded : Db := ⟨db.blocks.set (encode blockHash) (encode b),
    db.blockHashes.set (encode b.header.number) (encode blockHash), db.unspent, db.spent, db.timestamp⟩
  have start : Tracks filter (peekUtxo OuterVerifier (openBlock block.header s)) recorded.unspent :=
    tracks.same (openBlock_same _ _)
  obtain ⟨db', applies, after⟩ := applyExtrinsics_tracks only applied carries.extrinsics start
  refine ⟨db', ?_, after.same (.clear (by decide))⟩
  exact (Exec.bind_of_ok (Exec.modify_of _ _)).trans ((Exec.bind_of_ok (Exec.modify_of _ _)).trans applies)

end

/-! ### The genesis -/

section
variable {C : Type} [Host] [Codec C] {t : Tuxedo.Transaction OuterVerifier C} {txHash : H256}

/-- Without collisions, a genesis transaction overwrites an output with itself only. -/
theorem storeOutputs_update (hash : t.id? = some txHash) (noInputs : t.inputs.toList = []) {s : Storage}
    (agrees : ∀ r output before, creates t r = some output → peekUtxo OuterVerifier s r = some before →
      before = output) :
    Ledger.Update (consumes t) (creates t) (peekUtxo OuterVerifier s)
      (peekUtxo OuterVerifier (TuxedoGenesisConfigBuilder.storeOutputs t txHash s)) := by
  have unspent : ∀ r, r ∉ consumes t := by
    intro r spent
    simp [consumes, inputRefs, noInputs] at spent
  refine ⟨fun r _ _ => unspent r, agrees, fun r output made => ?_, fun r spent => absurd spent (unspent r),
    fun r _ unmade => ?_⟩
  · rw [peek_storeOutputs hash, made, Option.some_or]
  · rw [peek_storeOutputs hash, unmade, Option.none_or]

theorem applyGenesis_tracks (only : OnlySignatures filter) {all ts : List (Tuxedo.Transaction OuterVerifier C)}
    (free : CollisionFree {t | t ∈ all}) (within : ∀ t ∈ ts, t ∈ all)
    (formed : ∀ t ∈ all, ∀ output ∈ t.outputs.toList, WellFormed output.payload)
    (noInputs : ∀ t ∈ ts, t.inputs.toList = []) (hashed : ∀ t ∈ ts, ∃ txHash, t.id? = some txHash) {s : Storage}
    (sourced : ∀ r output, peekUtxo OuterVerifier s r = some output → ∃ t ∈ all, creates t r = some output)
    {xs : List OpaqueExtrinsic} (canonical : xs.map encode = ts.map encode) {db : Db}
    (tracks : Tracks filter (peekUtxo OuterVerifier s) db.unspent) :
    ∃ db', xs.forM (applyTransaction C filter) db = .ok () db' ∧
      Tracks filter (peekUtxo OuterVerifier (storeAll ts s)) db'.unspent := by
  induction ts generalizing xs db s with
  | nil =>
    obtain rfl := List.map_eq_nil_iff.mp canonical
    exact ⟨db, rfl, tracks⟩
  | cons t ts ih =>
    obtain ⟨x, xs, rfl, same, canonical⟩ := List.map_eq_cons_iff.mp canonical
    obtain ⟨member, within⟩ := List.forall_mem_cons.mp within
    obtain ⟨bare, noInputs⟩ := List.forall_mem_cons.mp noInputs
    obtain ⟨⟨txHash, hash⟩, hashed⟩ := List.forall_mem_cons.mp hashed
    have agrees : ∀ r output before, creates t r = some output → peekUtxo OuterVerifier s r = some before →
        before = output := by
      intro r output before made present
      obtain ⟨t', member', made'⟩ := sourced r before present
      obtain rfl := free.apart t member t' member' r output before made made'
      exact Option.some.inj (made'.symm.trans made)
    have update := storeOutputs_update hash bare agrees
    obtain ⟨db₁, first, between⟩ := applyTransaction_tracks only (formed t member) same hash update tracks
    have sourced₁ : ∀ r output,
        peekUtxo OuterVerifier (TuxedoGenesisConfigBuilder.storeOutputs t txHash s) r = some output →
        ∃ t ∈ all, creates t r = some output := by
      intro r output present
      rw [peek_storeOutputs hash, Option.or_eq_some_iff] at present
      rcases present with made | ⟨_, before⟩
      · exact ⟨t, member, made⟩
      · exact sourced r output before
    obtain ⟨db', later, after⟩ := ih within noInputs hashed sourced₁ canonical between
    refine ⟨db', (Exec.bind_of_ok first).trans later, ?_⟩
    rw [storeAll, List.foldl_cons, hash]
    exact after

end

/-! ### Chains -/

section
variable (C : Type) [Host] [Codec C] [ConstraintChecker OuterVerifier C]
open TuxedoGenesisConfigBuilder TuxedoGenesisBlockBuilder

/-- The blocks that a node serves, with the hashes that it names them by, and the state of the
chain after the last of them. -/
inductive Served : List (OpaqueBlock × H256) → Storage → Prop
  | genesis {txs : Vec (Tuxedo.Transaction OuterVerifier C)} {base built : Storage} (version : StateVersion)
      (hash : H256) (bare : ∀ r, peekUtxo OuterVerifier base r = none) (builds : build txs base = .ok built)
      (formed : ∀ t ∈ txs.toList, ∀ output ∈ t.outputs.toList, WellFormed output.payload)
      (free : CollisionFree {t | t ∈ txs.toList}) :
      Served [((buildOpaqueGenesisBlock version built).1, hash)] (buildOpaqueGenesisBlock version built).2
  | next {served : List (OpaqueBlock × H256)} {s s' : Storage} {block : Tuxedo.Block OuterVerifier C}
      {b : OpaqueBlock} (hash : H256) (before : Served served s) (executed : executeBlock block s = .ok () s')
      (carries : Carries b block) : Served (served ++ [(b, hash)]) s'

variable {C}

omit [ConstraintChecker OuterVerifier C] in
theorem body_small_of_id? {t : Tuxedo.Transaction OuterVerifier C} {txHash : H256} (hash : t.id? = some txHash) :
    t.body.length < 2 ^ 32 := by
  have small := (t.id?_isSome_iff).mp ⟨txHash, hash⟩
  rw [Transaction.encode_eq, List.length_append] at small
  omega

omit [Host] in
theorem tracks_empty {s : Storage} (bare : ∀ r, peekUtxo OuterVerifier s r = none) :
    Tracks filter (peekUtxo OuterVerifier s) Db.empty.unspent := by
  refine ⟨fun r => ?_, fun k v stored => by cases stored⟩
  rw [Ledger.view, bare r]
  rfl

theorem Served.tracks [KeepsUtxos OuterVerifier C] [FormsOutputs C] (only : OnlySignatures filter)
    {served : List (OpaqueBlock × H256)} {s : Storage} (chain : Served C served s) :
    ∃ db, served.forM (fun b => applyBlock C filter b.1 b.2) Db.empty = .ok () db ∧
      Tracks filter (peekUtxo OuterVerifier s) db.unspent := by
  induction chain with
  | @genesis txs base built version hash bare builds formed free =>
    obtain ⟨start, same, whole⟩ := build_ok builds
    have small : ∀ t ∈ txs.toList, t.body.length < 2 ^ 32 := by
      intro t member
      obtain ⟨txHash, hash⟩ := whole.hashed t member
      exact body_small_of_id? hash
    obtain ⟨xs, bytes, canonical⟩ := Transaction.exists_opaque small
    have extrinsics : (buildOpaqueGenesisBlock version built).1.extrinsics = xs :=
      opaqueGenesisBlock_extrinsics (bytes ▸ build_extrinsics builds) version
    have bareStart : ∀ r, peekUtxo OuterVerifier start r = none := fun r => (same.peek r).trans (bare r)
    have sourced : ∀ r output, peekUtxo OuterVerifier start r = some output →
        ∃ t ∈ txs.toList, creates t r = some output := by
      intro r output present
      rw [bareStart r] at present
      cases present
    let block : OpaqueBlock := (buildOpaqueGenesisBlock version built).1
    let recorded : Db := ⟨Store.empty.set (encode hash) (encode block),
      Store.empty.set (encode block.header.number) (encode hash), Store.empty, Store.empty, Store.empty⟩
    have start : Tracks filter (peekUtxo OuterVerifier start) recorded.unspent := tracks_empty bareStart
    obtain ⟨db, applied, tracks⟩ := applyGenesis_tracks only free (fun _ member => member) formed
      (fun t member => (whole.noInputs t member).1) whole.hashed sourced canonical start
    refine ⟨db, ?_, ?_⟩
    · have applies : applyBlock C filter block hash Db.empty = .ok () db := by
        refine (Exec.bind_of_ok (Exec.modify_of _ _)).trans ((Exec.bind_of_ok (Exec.modify_of _ _)).trans ?_)
        rw [extrinsics]
        exact applied
      exact Exec.bind_of_ok applies
    · rw [← whole.after] at tracks
      exact tracks.same (.clear (by decide))
  | @next served s s' block b hash before executed carries ih =>
    obtain ⟨db, applied, tracks⟩ := ih
    obtain ⟨db', applies, after⟩ := applyBlock_tracks only executed carries hash tracks
    refine ⟨db', ?_, after⟩
    exact (Exec.forM_append_of_ok applied _).trans (Exec.bind_of_ok applies)

end

/-! ### The two runtimes -/

theorem wellFormed_of_owns {piece : Piece} {d : DynamicallyTypedData} (owns : piece.Owns d) : WellFormed d := by
  constructor
  · intro typed
    obtain rfl : piece = .money := Piece.typeId_injective (owns.typeId.symm.trans typed)
    exact owns
  · intro typed
    obtain rfl : piece = .timestamp := Piece.typeId_injective (owns.typeId.symm.trans typed)
    exact owns

instance [Host] : FormsOutputs OuterConstraintChecker where
  formed applied output member := by
    obtain ⟨_, _, accepted⟩ := apply_ok.mp applied
    exact wellFormed_of_owns (created_owned accepted member)

section
open ParachainRuntime
open Parachain (RelayChain ParachainInherentDataUtxo)

theorem wellFormed_of_info [RelayChain] {d : DynamicallyTypedData} (info : Extracts ParachainInherentDataUtxo d) :
    WellFormed d := by
  have named : d.typeId = ⟨[112, 97, 114, 97], rfl⟩ := info.typeId
  constructor
  · intro typed
    exact absurd (named.symm.trans typed) (by decide)
  · intro typed
    exact absurd (named.symm.trans typed) (by decide)

instance [Host] [RelayChain] : FormsOutputs ParachainConstraintChecker where
  formed {t s s'} applied output member := by
    obtain ⟨_, _, accepted⟩ := apply_ok.mp applied
    cases shape : t.checker with
    | inner checker =>
      obtain ⟨priority, call⟩ := accepted.checks
      rw [shape] at call
      exact wellFormed_of_owns (Accepted.created_handled (check_inner_ok call).1 member)
    | parachainInfo checker =>
      have info : isParachain t = true := by
        rw [isParachain, shape]
        rfl
      obtain ⟨_, _, current, moves⟩ := moves_info accepted info
      obtain ⟨one, single, extracted⟩ := moves.creates
      rw [single, List.mem_singleton] at member
      exact wellFormed_of_info ⟨current, member ▸ extracted⟩

/-- Along every chain the wallet applies every block, and then its unspent table holds exactly
the coins of the chain state that the filter accepts. -/
theorem unspent_refines_chain [Host] (filter : OuterVerifier → Bool) (only : OnlySignatures filter) :
    (∀ served s, Served OuterConstraintChecker served s →
      ∃ db, served.forM (fun b => applyBlock OuterConstraintChecker filter b.1 b.2) Db.empty = .ok () db ∧
        Tracks filter (peekUtxo OuterVerifier s) db.unspent) ∧
    ∀ [RelayChain], ∀ served s, Served ParachainConstraintChecker served s →
      ∃ db, served.forM (fun b => applyBlock ParachainConstraintChecker filter b.1 b.2) Db.empty = .ok () db ∧
        Tracks filter (peekUtxo OuterVerifier s) db.unspent :=
  ⟨fun _ _ chain => chain.tracks only, fun _ _ chain => chain.tracks only⟩

end

/-! The coin of the genesis becomes the wallet's in block 1. -/

def coinGenesisHash : H256 :=
  ⟨[233, 253, 36, 115, 163, 174, 49, 55, 82, 37, 14, 191, 59, 89, 221, 44, 96, 96, 4, 234, 197, 76, 199, 107, 96,
    161, 111, 158, 250, 168, 71, 16], rfl⟩

def coinGenesisRoot : H256 :=
  ⟨[128, 247, 244, 0, 58, 1, 240, 28, 81, 111, 159, 150, 8, 150, 129, 198, 5, 253, 61, 183, 226, 70, 8, 59, 165,
    189, 46, 174, 194, 62, 23, 159], rfl⟩

def coinGenesisExtrinsics : H256 :=
  ⟨[36, 162, 250, 212, 41, 37, 35, 174, 62, 218, 228, 252, 186, 238, 67, 216, 25, 194, 108, 247, 77, 132, 234, 36,
    152, 67, 93, 118, 174, 161, 127, 227], rfl⟩

def claimRoot : H256 :=
  ⟨[44, 82, 2, 90, 9, 189, 173, 123, 217, 193, 156, 252, 188, 135, 223, 243, 15, 56, 144, 25, 140, 158, 2, 67, 245,
    210, 149, 61, 36, 8, 61, 22], rfl⟩

def claimExtrinsics : H256 :=
  ⟨[106, 148, 33, 176, 108, 196, 226, 150, 226, 28, 160, 220, 198, 193, 178, 208, 53, 170, 129, 227, 76, 159, 17, 9,
    147, 182, 88, 101, 167, 106, 152, 184], rfl⟩

def claimHash : H256 :=
  ⟨[130, 42, 189, 25, 6, 22, 247, 224, 155, 19, 253, 63, 191, 82, 108, 111, 235, 36, 172, 164, 40, 26, 210, 232, 26,
    245, 47, 36, 223, 222, 204, 144], rfl⟩

def freeCoinTx : H256 :=
  ⟨[242, 87, 66, 89, 232, 140, 239, 229, 167, 20, 102, 23, 89, 127, 169, 160, 144, 208, 242, 229, 245, 209, 174, 99,
    6, 29, 244, 163, 61, 34, 130, 80], rfl⟩

def claimTx : H256 :=
  ⟨[59, 194, 184, 38, 138, 245, 183, 113, 105, 71, 141, 53, 57, 224, 69, 109, 101, 4, 194, 45, 12, 115, 83, 144,
    143, 75, 106, 145, 144, 16, 22, 245], rfl⟩

/-- The tries over the two states and over the bodies of the two blocks. -/
@[reducible] def walletHost : Host :=
  Host.native (fun _ _ _ => false)
    (fun _ s => if s.get heightKey = some (encode (0 : UInt32)) then coinGenesisRoot else claimRoot)
    (fun version _ => if version = .v1 then coinGenesisExtrinsics else claimExtrinsics)

def walletKey : H256 := ⟨List.replicate 32 7, rfl⟩

def walletFilter (verifier : OuterVerifier) : Bool := verifier = .sr25519Signature ⟨walletKey⟩

def walletCoin : Template.Output := ⟨(grabCoin 100).payload, .sr25519Signature ⟨walletKey⟩⟩

def claimCoin : Template.Transaction :=
  ⟨Vec.singleton ⟨⟨freeCoinTx, 0⟩, .redemption (Vec.singleton 1)⟩, Vec.empty, Vec.singleton walletCoin, .money .spend⟩

def claimBlock : Template.Block :=
  ⟨⟨coinGenesisHash, 1, claimRoot, claimExtrinsics, Vec.empty⟩, Vec.singleton claimCoin⟩

theorem claimCoin_small : claimCoin.body.length < 2 ^ 32 := by decide +kernel

def claimServed : OpaqueBlock :=
  ⟨claimBlock.header, Vec.singleton (claimCoin.toOpaque claimCoin_small)⟩

theorem onlySignatures_walletFilter : OnlySignatures walletFilter := by
  intro verifier accepted
  exact ⟨⟨walletKey⟩, by simpa [walletFilter] using accepted⟩

theorem coinGenesis_formed : ∀ t ∈ coinGenesis.toList, ∀ output ∈ t.outputs.toList, WellFormed output.payload := by
  intro t member output inside
  obtain rfl := List.mem_singleton.mp member
  obtain rfl := List.mem_singleton.mp inside
  have coin : Piece.money.Owns (grabCoin 100).payload := ⟨⟨100⟩, rfl⟩
  exact wellFormed_of_owns coin

theorem coinGenesis_free :
    letI := walletHost
    CollisionFree {t | t ∈ coinGenesis.toList} := by
  let := walletHost
  rintro _ ⟨t, member, rfl⟩ _ ⟨t', member', rfl⟩ _
  rw [List.mem_singleton.mp member, List.mem_singleton.mp member']

theorem unspent_refines_claim :
    letI := walletHost
    ∃ genesis s db, Served OuterConstraintChecker [(genesis, coinGenesisHash), (claimServed, claimHash)] s ∧
      [(genesis, coinGenesisHash), (claimServed, claimHash)].forM
        (fun b => applyBlock OuterConstraintChecker walletFilter b.1 b.2) Db.empty = .ok () db ∧
      Tracks walletFilter (peekUtxo OuterVerifier s) db.unspent ∧
      db.unspent.get (encode (⟨claimTx, 0⟩ : OutputRef)) = some (encode (walletKey, (100 : U128))) := by
  let := walletHost
  obtain ⟨built, builds, computed⟩ := Outcome.exists_of_any
    (x := TuxedoGenesisConfigBuilder.build coinGenesis Store.empty)
    (p := fun built => ((executeBlock claimBlock).toOption
      (TuxedoGenesisBlockBuilder.buildOpaqueGenesisBlock .v1 built).2).any
        fun answer => peekUtxo OuterVerifier answer.2 ⟨claimTx, 0⟩ = some walletCoin) (by decide +kernel)
  obtain ⟨_, s, executed, present⟩ := Exec.exists_of_any computed
  have start : Served OuterConstraintChecker [((TuxedoGenesisBlockBuilder.buildOpaqueGenesisBlock .v1 built).1,
      coinGenesisHash)] (TuxedoGenesisBlockBuilder.buildOpaqueGenesisBlock .v1 built).2 :=
    .genesis .v1 coinGenesisHash (fun r => by simp [peekUtxo]) builds coinGenesis_formed coinGenesis_free
  have carries : Carries claimServed claimBlock := ⟨rfl, by
    change [encode _] = [encode claimCoin]
    rw [Transaction.encode_toOpaque]⟩
  have served := start.next claimHash executed carries
  obtain ⟨db, applied, tracks⟩ := (unspent_refines_chain walletFilter onlySignatures_walletFilter).1 _ s served
  refine ⟨_, s, db, served, applied, tracks, ?_⟩
  rw [tracks.get_ref, Ledger.view, of_decide_eq_true present]
  decide +kernel

end Tuxedo.Wallet
