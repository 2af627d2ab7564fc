import Tuxedo.Lib.Rollback
import Tuxedo.Wallet.Reorgs

/-!
# Going back from a block

Unapplying the highest block undoes the block, whatever the filter keeps and however its
transactions spend each other's outputs.
-/

namespace Tuxedo.Wallet
open Scale Executive Template Rollback

/-- What the two tables of outputs hold at a key. -/
def slot (db : Db) (k : Bytes) : Slot Bytes := ⟨db.unspent.get k, db.spent.get k⟩

/-- What the wallet keeps of its tables: records that decode, and one block hash for each height up
to the top. -/
structure Kept (db : Db) : Prop where
  decodes : Decodes db
  heights : ∃ n ≤ 2 ^ 32, db.blockHashes.keys = heightKeys n

/-- The height names the highest of the keys. -/
theorem Kept.keys_eq {db : Db} (kept : Kept db) {top : UInt32} (highest : height db = some top) :
    db.blockHashes.keys = heightKeys (top.toNat + 1) := by
  obtain ⟨n, room, keys⟩ := kept.heights
  rcases Nat.eq_zero_or_pos n with rfl | positive
  · rw [height, keys, card_heightKeys room] at highest
    cases highest
  · rw [height_of_keys room positive keys] at highest
    cases highest
    rw [keys, toNat_ofNat_of_lt (by omega), Nat.sub_add_cancel positive]

/-- The next block is the highest. -/
theorem Kept.height_above {db db' : Db} (kept : Kept db) {top number : UInt32} {v : Bytes}
    (highest : height db = some top) (next : number.toNat = top.toNat + 1)
    (added : db'.blockHashes = db.blockHashes.set (encode number) v) : height db' = some number := by
  have keys : db'.blockHashes.keys = heightKeys (number.toNat + 1) := by
    rw [added, Store.keys_set, kept.keys_eq highest, ← next, heightKeys_succ]
  have read := height_of_keys number.toNat_lt (Nat.succ_pos _) keys
  rwa [Nat.succ_sub_one, UInt32.ofNat_toNat] at read

/-- The block tables are as they were, whatever the transactions did. -/
theorem closed_blocks (blocks blockHashes : Tree) :
    Closed fun db => db.blocks = blocks ∧ db.blockHashes = blockHashes where
  unspend _ _ _ same := same
  remove _ _ same := same
  spend _ _ _ same := same
  restore _ _ same := same
  stamp _ _ _ same := same

theorem Kept.closed : Closed Kept where
  unspend db k record kept := ⟨Decodes.closed.unspend db k record kept.decodes, kept.heights⟩
  remove db k kept := ⟨Decodes.closed.remove db k kept.decodes, kept.heights⟩
  spend db k record kept := ⟨Decodes.closed.spend db k record kept.decodes, kept.heights⟩
  restore db k kept := ⟨Decodes.closed.restore db k kept.decodes, kept.heights⟩
  stamp db k v kept := ⟨Decodes.closed.stamp db k v kept.decodes, kept.heights⟩

theorem Kept.empty : Kept Db.empty where
  decodes := ⟨fun k v stored => by simp [Db.empty] at stored, fun k v stored => by simp [Db.empty] at stored⟩
  heights := ⟨0, Nat.zero_le _, rfl⟩

/-- A database that has blocks is only looked at. -/
theorem openDb_after {db : Db} (genesisHash : H256) (genesis : OpaqueBlock) (opened : (height db).isSome) :
    (openDb genesisHash genesis).after db = db := by
  unfold openDb
  rw [Exec.after_bind_of_ok (Exec.get_of db), if_pos opened]
  have looks : (do
      let ivec ← Exec.lift (expect (db.blockHashes.get (encode (0 : UInt32))))
      let walletGenesisHash : H256 ← Exec.lift (decodeValue ivec)
      if genesisHash ≠ walletGenesisHash then
        Exec.lift (.error (.err (.differentGenesis walletGenesisHash genesisHash))) : Exec Db Error Unit).Maintains
      (· = db) := by
    refine .bind (.lift _) fun ivec => .bind (.lift _) fun walletGenesisHash => ?_
    split
    · exact .lift _
    · exact .pure ()
  exact looks db rfl

theorem Kept.openDb {db : Db} (kept : Kept db) (genesisHash : H256) (genesis : OpaqueBlock) :
    Kept ((openDb genesisHash genesis).after db) := by
  by_cases opened : (height db).isSome
  · rw [openDb_after genesisHash genesis opened]
    exact kept
  · unfold Wallet.openDb
    rw [Exec.after_bind_of_ok (Exec.get_of db), if_neg opened]
    obtain ⟨n, room, keys⟩ := kept.heights
    have none : n = 0 := by
      by_contra some
      rw [height_of_keys room (Nat.pos_of_ne_zero some) keys] at opened
      exact opened rfl
    subst none
    refine ⟨⟨kept.decodes.unspent, kept.decodes.spent⟩, 1, by omega, ?_⟩
    change (db.blockHashes.set (encode (0 : UInt32)) (encode genesisHash)).keys = heightKeys 1
    rw [Store.keys_set, keys]
    exact (heightKeys_succ 0).symm

/-! ### One output -/

/-- One key changes by the operation on its slot, and the others stay. -/
theorem slot_at {db db' : Db} {key : Bytes} {g : Slot Bytes → Slot Bytes} (here : slot db' key = g (slot db key))
    (there : ∀ k, k ≠ key → slot db' k = slot db k) (k : Bytes) :
    slot db' k = if k = key then g (slot db k) else slot db k := by
  split
  · rename_i same
    subst same
    exact here
  · rename_i other
    exact there k other

theorem spendOutput_slot {db : Db} (decodes : Decodes db) (r : OutputRef) :
    ∃ db', spendOutput r db = .ok () db' ∧
      ∀ k, slot db' k = if k = encode r then (slot db k).spend else slot db k := by
  cases stored : db.unspent.get (encode r) with
  | none =>
    refine ⟨db, spendOutput_of_none stored, slot_at ?_ fun k _ => rfl⟩
    simp [slot, Slot.spend, stored]
  | some ivec =>
    obtain ⟨record, rfl⟩ := decodes.unspent _ ivec stored
    refine ⟨_, spendOutput_of_some stored, slot_at ?_ fun k other => ?_⟩
    · simp [slot, Slot.spend, stored]
    · simp [slot, Store.get_clear_ne _ other, Store.get_set_ne _ _ other]

theorem unspendOutput_slot {db : Db} (decodes : Decodes db) (r : OutputRef) :
    ∃ db', unspendOutput r db = .ok () db' ∧
      ∀ k, slot db' k = if k = encode r then (slot db k).unspend else slot db k := by
  cases stored : db.spent.get (encode r) with
  | none =>
    refine ⟨db, unspendOutput_of_none stored, slot_at ?_ fun k _ => rfl⟩
    simp [slot, Slot.unspend, stored]
  | some ivec =>
    obtain ⟨record, rfl⟩ := decodes.spent _ ivec stored
    refine ⟨_, unspendOutput_of_some stored, slot_at ?_ fun k other => ?_⟩
    · simp [slot, Slot.unspend, stored]
    · simp [slot, Store.get_clear_ne _ other, Store.get_set_ne _ _ other]

theorem removeUnspentOutput_slot (r : OutputRef) (db : Db) :
    ∃ db', removeUnspentOutput r db = .ok () db' ∧
      ∀ k, slot db' k = if k = encode r then (slot db k).remove else slot db k := by
  refine ⟨_, Exec.modify_of _ db, slot_at ?_ fun k other => ?_⟩
  · simp [slot, Slot.remove]
  · simp [slot, Store.get_clear_ne _ other]

/-- A loop over references does the same at each of their keys, also when one comes up again. -/
theorem forM_slot {α : Type} {f : α → Exec Db Error Unit} {key : α → Bytes} {g : Slot Bytes → Slot Bytes}
    (again : ∀ s, g (g s) = g s) (keeps : ∀ a, (f a).Maintains Decodes)
    (each : ∀ a db, Decodes db → ∃ db', f a db = .ok () db' ∧
      ∀ k, slot db' k = if k = key a then g (slot db k) else slot db k)
    (as : List α) {db : Db} (decodes : Decodes db) :
    ∃ db', as.forM f db = .ok () db' ∧
      ∀ k, slot db' k = if k ∈ as.map key then g (slot db k) else slot db k := by
  induction as generalizing db with
  | nil => exact ⟨db, rfl, fun k => rfl⟩
  | cons a as ih =>
    obtain ⟨db₁, first, here⟩ := each a db decodes
    obtain ⟨db', rest, later⟩ := ih ((keeps a).of_ok first decodes)
    refine ⟨db', (Exec.bind_of_ok first).trans rest, fun k => ?_⟩
    rw [later, here]
    by_cases same : k = key a
    · have head : k ∈ (a :: as).map key := by simp [same]
      rw [if_pos same, if_pos head]
      split
      · exact again _
      · rfl
    · simp [same]

theorem spendOutputs_slot {db : Db} (decodes : Decodes db) (inputs : List Input) :
    ∃ db', inputs.forM (fun input => spendOutput input.outputRef) db = .ok () db' ∧ ∀ k, slot db' k =
      if k ∈ inputs.map fun input => encode input.outputRef then (slot db k).spend else slot db k := by
  refine forM_slot Slot.spend_spend (fun input => ?_) (fun input db decodes => ?_) inputs decodes
  · exact Decodes.closed.spendOutput input.outputRef
  · exact spendOutput_slot decodes input.outputRef

theorem unspendOutputs_slot {db : Db} (decodes : Decodes db) (inputs : List Input) :
    ∃ db', inputs.forM (fun input => unspendOutput input.outputRef) db = .ok () db' ∧ ∀ k, slot db' k =
      if k ∈ inputs.map fun input => encode input.outputRef then (slot db k).unspend else slot db k := by
  refine forM_slot Slot.unspend_unspend (fun input => ?_) (fun input db decodes => ?_) inputs decodes
  · exact Decodes.closed.unspendOutput input.outputRef
  · exact unspendOutput_slot decodes input.outputRef

theorem removeUnspentOutputs_slot {db : Db} (decodes : Decodes db) (txHash : H256) (n : Nat) :
    ∃ db', (List.range n).forM (fun i => removeUnspentOutput ⟨txHash, UInt32.ofNat i⟩) db = .ok () db' ∧
      ∀ k, slot db' k = if k ∈ (List.range n).map fun i => encode (⟨txHash, UInt32.ofNat i⟩ : OutputRef) then
        (slot db k).remove else slot db k := by
  refine forM_slot Slot.remove_remove (fun i => .modify ?_) (fun i db _ => ?_) (List.range n) decodes
  · exact fun db => Decodes.closed.remove db _
  · exact removeUnspentOutput_slot ⟨txHash, UInt32.ofNat i⟩ db

variable {filter : OuterVerifier → Bool}

/-- A coin that is applied is tracked, since anything but a signature fails. -/
theorem applyCoin_inv {output : Template.Output × Nat} {txHash : H256} {db db' : Db}
    (accepted : filter output.1.verifier = true)
    (applied : applyCoin txHash (UInt32.ofNat output.2) output.1 db = .ok () db') :
    db'.unspent = db.unspent.setAll (coinEntry filter txHash output).toList ∧ db'.spent = db.spent := by
  obtain ⟨coin, _, extraction, applied⟩ := Exec.bind_ok applied
  obtain ⟨extracted, rfl⟩ := Exec.lift_ok extraction
  have payload := extractPayload_ok extracted
  cases signed : output.1.verifier with
  | sr25519Signature owner =>
    rw [signed] at accepted applied
    obtain rfl := Exec.modify_ok applied
    have tracked : trackedCoin filter output.1 = some (owner.ownerPubkey, coin.value) := by
      simp [trackedCoin, payload, signed, accepted]
    refine ⟨?_, rfl⟩
    rw [coinEntry, tracked]
    rfl
  | _ =>
    rw [signed] at applied
    cases (Exec.lift_ok applied).1

/-- An output that is applied adds its coin when it is tracked, and moves nothing. -/
theorem applyOutput_inv {output : Template.Output × Nat} {txHash : H256} {db db' : Db}
    (applied : applyOutput filter txHash (UInt32.ofNat output.2) output.1 db = .ok () db') :
    db'.unspent = db.unspent.setAll (coinEntry filter txHash output).toList ∧ db'.spent = db.spent := by
  unfold applyOutput at applied
  split at applied
  · split at applied
    · rename_i accepted
      exact applyCoin_inv accepted applied
    · rename_i refused
      obtain ⟨_, rfl⟩ := Exec.pure_ok applied
      refine ⟨?_, rfl⟩
      rw [coinEntry_of_refused (by simpa using refused)]
      rfl
  · rename_i other
    rw [coinEntry_of_other other]
    split at applied
    · obtain ⟨timestamp, _, extraction, applied⟩ := Exec.bind_ok applied
      obtain ⟨_, rfl⟩ := Exec.lift_ok extraction
      obtain rfl := Exec.modify_ok applied
      exact ⟨rfl, rfl⟩
    · obtain ⟨_, rfl⟩ := Exec.pure_ok applied
      exact ⟨rfl, rfl⟩

theorem applyOutputs_inv {outputs : List (Template.Output × Nat)} {txHash : H256} {db db' : Db}
    (applied : outputs.forM (fun output => applyOutput filter txHash (UInt32.ofNat output.2) output.1) db =
      .ok () db') :
    db'.unspent = db.unspent.setAll (outputs.filterMap (coinEntry filter txHash)) ∧ db'.spent = db.spent := by
  induction outputs generalizing db with
  | nil =>
    obtain ⟨_, rfl⟩ := Exec.pure_ok applied
    exact ⟨rfl, rfl⟩
  | cons output outputs ih =>
    obtain ⟨_, db₁, first, later⟩ := Exec.bind_ok applied
    obtain ⟨added, same⟩ := applyOutput_inv first
    obtain ⟨after, same'⟩ := ih later
    refine ⟨?_, same'.trans same⟩
    rw [after, added, Store.setAll_filterMap_cons]

/-! ### One transaction -/

section
variable {C : Type} [Host] [Codec C]

/-- What a transaction does at a key. An output that the filter ignores is made and not kept. -/
def touch (filter : OuterVerifier → Bool) (k : Bytes) (t : Tuxedo.Transaction OuterVerifier C) : Touch Bytes where
  created := t.id?.bind fun txHash =>
    if k ∈ (t.outputRefs txHash).map encode then some ((Store.empty.setAll (coinEntries filter t txHash)).get k)
    else none
  consumed := k ∈ (inputRefs t).map encode

theorem touch_make {t : Tuxedo.Transaction OuterVerifier C} {txHash : H256} (hash : t.id? = some txHash) (db : Db)
    (k : Bytes) : (touch filter k t).make (slot db k) =
      ⟨(db.unspent.setAll (coinEntries filter t txHash)).get k, db.spent.get k⟩ := by
  by_cases member : k ∈ (t.outputRefs txHash).map encode
  · have made : (touch filter k t).created = some ((Store.empty.setAll (coinEntries filter t txHash)).get k) := by
      rw [touch, hash, Option.bind_some, if_pos member]
    rw [Touch.make, made, Store.get_setAll db.unspent]
    rfl
  · have unmade : (touch filter k t).created = none := by
      rw [touch, hash, Option.bind_some, if_neg member]
    have absent : k ∉ (coinEntries filter t txHash).map Prod.fst := by
      intro inside
      obtain ⟨⟨k', v⟩, entry, rfl⟩ := List.mem_map.mp inside
      obtain ⟨r, coin, rfl, _, found⟩ := (mem_coinEntries hash).mp entry
      obtain ⟨output, made, _⟩ := Option.bind_eq_some_iff.mp found
      exact member (List.mem_map_of_mem (mem_outputRefs_of_creates hash made))
    rw [Touch.make, unmade, Store.get_setAll_of_notMem absent]
    rfl

theorem touch_drop {t : Tuxedo.Transaction OuterVerifier C} {txHash : H256} (hash : t.id? = some txHash) (k : Bytes)
    (s : Slot Bytes) :
    (touch filter k t).drop s = if k ∈ (t.outputRefs txHash).map encode then s.remove else s := by
  unfold Touch.drop
  by_cases member : k ∈ (t.outputRefs txHash).map encode
  · rw [touch, hash, Option.bind_some, if_pos member, if_pos member]
  · rw [touch, hash, Option.bind_some, if_neg member, if_neg member]

theorem applyTransaction_slot {x : OpaqueExtrinsic} {t : Tuxedo.Transaction OuterVerifier C}
    (canonical : encode x = encode t) {db db' : Db} (decodes : Decodes db)
    (applied : applyTransaction C filter x db = .ok () db') :
    (∃ txHash, t.id? = some txHash) ∧ ∀ k, slot db' k = (touch filter k t).apply (slot db k) := by
  unfold applyTransaction at applied
  rw [canonical] at applied
  obtain ⟨txHash, _, hashing, applied⟩ := Exec.bind_ok applied
  obtain ⟨hashed, rfl⟩ := Exec.lift_ok hashing
  have hash : t.id? = some txHash := Outcome.expect_ok hashed
  obtain ⟨tx, _, decoding, applied⟩ := Exec.bind_ok applied
  obtain ⟨decoded, rfl⟩ := Exec.lift_ok decoding
  obtain rfl : t = tx := Except.ok.inj ((decodeValue_encode t).symm.trans decoded)
  obtain ⟨_, db₁, outputs, inputs⟩ := Exec.bind_ok applied
  obtain ⟨added, unmoved⟩ := applyOutputs_inv outputs
  have adds : (t.outputs.toList.zipIdx.forM fun output =>
      applyOutput filter txHash (UInt32.ofNat output.2) output.1).Maintains Decodes :=
    .forM fun output _ => Decodes.closed.applyOutput filter txHash _ output.1
  obtain ⟨_, spends, moved⟩ := spendOutputs_slot (adds.of_ok outputs decodes) t.inputs.toList
  cases spends.symm.trans inputs
  refine ⟨⟨txHash, hash⟩, fun k => ?_⟩
  have made : (touch filter k t).make (slot db k) = slot db₁ k := by
    rw [touch_make hash]
    exact Slot.ext (congrArg (Store.get · k) added).symm (congrArg (Store.get · k) unmoved).symm
  rw [moved, Touch.apply, made]
  simp [touch, inputRefs, Function.comp_def]

theorem unapplyTransaction_slot (filter : OuterVerifier → Bool) {x : OpaqueExtrinsic}
    {t : Tuxedo.Transaction OuterVerifier C} {txHash : H256} (canonical : encode x = encode t)
    (hash : t.id? = some txHash) {db : Db} (decodes : Decodes db) :
    ∃ db', unapplyTransaction C x db = .ok () db' ∧ ∀ k, slot db' k = (touch filter k t).unapply (slot db k) := by
  obtain ⟨db₁, inputs, unspent⟩ := unspendOutputs_slot decodes t.inputs.toList
  have unspends : (t.inputs.toList.forM fun input => unspendOutput input.outputRef).Maintains Decodes :=
    .forM fun input _ => Decodes.closed.unspendOutput input.outputRef
  obtain ⟨db', outputs, removed⟩ :=
    removeUnspentOutputs_slot (unspends.of_ok inputs decodes) txHash t.outputs.toList.length
  refine ⟨db', unapplyTransaction_of canonical hash inputs outputs, fun k => ?_⟩
  rw [removed, unspent, Touch.unapply, touch_drop hash, outputRefs_eq_range]
  simp [touch, inputRefs, Function.comp_def]

/-! ### The transactions of a block -/

theorem applyTransactions_slot {xs : List OpaqueExtrinsic} {ts : List (Tuxedo.Transaction OuterVerifier C)}
    (canonical : xs.map encode = ts.map encode) {db db' : Db} (decodes : Decodes db)
    (applied : xs.forM (applyTransaction C filter) db = .ok () db') :
    (∀ t ∈ ts, ∃ txHash, t.id? = some txHash) ∧
      ∀ k, slot db' k = Touch.applyAll (ts.map (touch filter k)) (slot db k) := by
  induction xs generalizing ts db with
  | nil =>
    obtain rfl := List.map_eq_nil_iff.mp canonical.symm
    obtain ⟨_, rfl⟩ := Exec.pure_ok applied
    exact ⟨by simp, fun k => rfl⟩
  | cons x xs ih =>
    obtain ⟨t, ts, rfl, same, rest⟩ := List.map_eq_cons_iff.mp canonical.symm
    obtain ⟨_, db₁, first, later⟩ := Exec.bind_ok applied
    obtain ⟨hash, here⟩ := applyTransaction_slot same.symm decodes first
    obtain ⟨hashes, there⟩ := ih rest.symm ((Decodes.closed.applyTransaction filter x).of_ok first decodes) later
    refine ⟨List.forall_mem_cons.mpr ⟨hash, hashes⟩, fun k => ?_⟩
    rw [there, here]
    rfl

theorem unapplyTransactions_slot (filter : OuterVerifier → Bool) {xs : List OpaqueExtrinsic}
    {ts : List (Tuxedo.Transaction OuterVerifier C)} (canonical : xs.map encode = ts.map encode)
    (hashes : ∀ t ∈ ts, ∃ txHash, t.id? = some txHash) {db : Db}
    (decodes : Decodes db) : ∃ db', xs.reverse.forM (unapplyTransaction C) db = .ok () db' ∧
      ∀ k, slot db' k = Touch.unapplyAll (ts.map (touch filter k)) (slot db k) := by
  induction xs generalizing ts with
  | nil =>
    obtain rfl := List.map_eq_nil_iff.mp canonical.symm
    exact ⟨db, rfl, fun k => rfl⟩
  | cons x xs ih =>
    obtain ⟨t, ts, rfl, same, rest⟩ := List.map_eq_cons_iff.mp canonical.symm
    obtain ⟨⟨txHash, hash⟩, hashes⟩ := List.forall_mem_cons.mp hashes
    obtain ⟨db₁, later, there⟩ := ih rest.symm hashes
    have unapplies : (xs.reverse.forM (unapplyTransaction C)).Maintains Decodes :=
      .forM fun x _ => Decodes.closed.unapplyTransaction x
    obtain ⟨db', first, here⟩ := unapplyTransaction_slot filter same.symm hash (unapplies.of_ok later decodes)
    refine ⟨db', ?_, fun k => ?_⟩
    · rw [List.reverse_cons, Exec.forM_append_of_ok later]
      exact (Exec.bind_of_ok first).trans rfl
    · rw [here, there]
      rfl

/-! ### The block -/

theorem applyBlock_slot {b : OpaqueBlock} {blockHash : H256} {ts : List (Tuxedo.Transaction OuterVerifier C)}
    (canonical : b.extrinsics.toList.map encode = ts.map encode) {db db' : Db} (decodes : Decodes db)
    (applied : applyBlock C filter b blockHash db = .ok () db') :
    Decodes db' ∧ (db'.blocks = db.blocks.set (encode blockHash) (encode b) ∧
      db'.blockHashes = db.blockHashes.set (encode b.header.number) (encode blockHash)) ∧
      (∀ t ∈ ts, ∃ txHash, t.id? = some txHash) ∧
      ∀ k, slot db' k = Touch.applyAll (ts.map (touch filter k)) (slot db k) := by
  let start : Db := { db with
    blockHashes := db.blockHashes.set (encode b.header.number) (encode blockHash)
    blocks := db.blocks.set (encode blockHash) (encode b) }
  have transactions : b.extrinsics.toList.forM (applyTransaction C filter) start = .ok () db' := applied
  have begins : Decodes start := ⟨decodes.unspent, decodes.spent⟩
  have keeps : ∀ {P}, Closed P → (b.extrinsics.toList.forM (applyTransaction C filter)).Maintains P :=
    fun closed => .forM fun x _ => closed.applyTransaction filter x
  obtain ⟨hashes, slots⟩ := applyTransactions_slot canonical begins transactions
  have same := (keeps (closed_blocks start.blocks start.blockHashes)).of_ok transactions ⟨rfl, rfl⟩
  exact ⟨(keeps Decodes.closed).of_ok transactions begins, same, hashes, slots⟩

theorem unapplyHighestBlock_slot (filter : OuterVerifier → Bool) {b : OpaqueBlock} {blockHash : H256}
    {ts : List (Tuxedo.Transaction OuterVerifier C)} (canonical : b.extrinsics.toList.map encode = ts.map encode)
    (hashes : ∀ t ∈ ts, ∃ txHash, t.id? = some txHash) {db : Db} {top : UInt32} (decodes : Decodes db)
    (highest : height db = some top) (storedHash : db.blockHashes.get (encode top) = some (encode blockHash))
    (stored : db.blocks.get (encode blockHash) = some (encode b)) :
    ∃ db', unapplyHighestBlock C db = .ok () db' ∧ (db'.blocks = db.blocks.clear (encode blockHash) ∧
      db'.blockHashes = db.blockHashes.clear (encode top)) ∧
      ∀ k, slot db' k = Touch.unapplyAll (ts.map (touch filter k)) (slot db k) := by
  let last : Db := { db with
    blockHashes := db.blockHashes.clear (encode top)
    blocks := db.blocks.clear (encode blockHash) }
  have begins : Decodes last := ⟨decodes.unspent, decodes.spent⟩
  obtain ⟨db', unapplied, slots⟩ := unapplyTransactions_slot filter canonical hashes begins
  have keeps : (b.extrinsics.toList.reverse.forM (unapplyTransaction C)).Maintains
      fun db => db.blocks = last.blocks ∧ db.blockHashes = last.blockHashes :=
    .forM fun x _ => (closed_blocks _ _).unapplyTransaction x
  refine ⟨db', ?_, keeps.of_ok unapplied ⟨rfl, rfl⟩, slots⟩
  rw [unapplyHighestBlock_of highest storedHash stored]
  exact unapplied

/-- The keys that the transactions touch are as new as going back needs them. -/
theorem touch_restores {ts : List (Tuxedo.Transaction OuterVerifier C)} {db : Db}
    (hashes : ∀ t ∈ ts, ∃ txHash, t.id? = some txHash)
    (fresh : ∀ t ∈ ts, ∀ r output, creates t r = some output →
      db.unspent.get (encode r) = none ∧ db.spent.get (encode r) = none)
    (unmoved : ∀ t ∈ ts, ∀ r ∈ inputRefs t, db.spent.get (encode r) = none) (k : Bytes) :
    Touch.unapplyAll (ts.map (touch filter k)) (Touch.applyAll (ts.map (touch filter k)) (slot db k)) = slot db k := by
  have made : ∀ t ∈ ts, (touch filter k t).created ≠ none → (slot db k).unspent = none ∧ (slot db k).spent = none := by
    intro t member creates
    obtain ⟨txHash, hash⟩ := hashes t member
    by_cases inside : k ∈ (t.outputRefs txHash).map encode
    · obtain ⟨r, mine, rfl⟩ := List.mem_map.mp inside
      obtain ⟨output, made⟩ := Option.ne_none_iff_exists'.mp (mt (creates_eq_none hash).mp (not_not_intro mine))
      exact fresh t member r output made
    · rw [touch, hash, Option.bind_some, if_neg inside] at creates
      exact absurd rfl creates
  apply Touch.unapplyAll_applyAll
  · rintro ⟨_, inside, touched⟩
    obtain ⟨t, member, rfl⟩ := List.mem_map.mp inside
    by_cases created : (touch filter k t).created = none
    · have consumed : (touch filter k t).consumed := by
        by_contra unconsumed
        exact touched ⟨created, unconsumed⟩
      obtain ⟨r, spent, rfl⟩ := List.mem_map.mp consumed
      exact unmoved t member r spent
    · exact (made t member created).2
  · rintro ⟨_, inside, created⟩
    obtain ⟨t, member, rfl⟩ := List.mem_map.mp inside
    exact (made t member created).1

/-! ### The databases that the wallet builds -/

theorem Kept.applyBlock {db : Db} (kept : Kept db) {top : UInt32} (highest : height db = some top) {b : OpaqueBlock}
    (next : b.header.number.toNat ≤ top.toNat + 1) (blockHash : H256) :
    Kept ((applyBlock C filter b blockHash).after db) := by
  have transactions : (b.extrinsics.toList.forM (applyTransaction C filter)).Maintains Kept :=
    .forM fun x _ => Kept.closed.applyTransaction filter x
  have keys := kept.keys_eq highest
  have heights : ∃ n ≤ 2 ^ 32,
      (db.blockHashes.set (encode b.header.number) (encode blockHash)).keys = heightKeys n := by
    rw [Store.keys_set, keys]
    rcases Nat.lt_or_eq_of_le next with again | above
    · have room := top.toNat_lt
      refine ⟨top.toNat + 1, room, Finset.insert_eq_of_mem ?_⟩
      exact (mem_heightKeys room).mpr again
    · rw [← above, ← heightKeys_succ]
      exact ⟨_, b.header.number.toNat_lt, rfl⟩
  exact transactions _ ⟨⟨kept.decodes.unspent, kept.decodes.spent⟩, heights⟩

theorem Kept.unapplyHighestBlock {db : Db} (kept : Kept db) : Kept ((unapplyHighestBlock C).after db) := by
  unfold Wallet.unapplyHighestBlock
  rw [Exec.after_bind_of_ok (Exec.get_of db)]
  cases highest : height db with
  | none => exact kept
  | some top =>
    rw [Exec.after_bind_of_ok (Exec.lift_of_ok (Outcome.okOr_some top _) db)]
    cases storedHash : db.blockHashes.get (encode top) with
    | none => exact kept
    | some ivec =>
      rw [Exec.after_bind_of_ok (Exec.lift_of_ok (Outcome.okOr_some ivec _) db),
        Exec.after_bind_of_ok (Exec.modify_of _ db)]
      have keys := kept.keys_eq highest
      have lower : Kept { db with blockHashes := db.blockHashes.clear (encode top) } := by
        refine ⟨⟨kept.decodes.unspent, kept.decodes.spent⟩, top.toNat, top.toNat_lt.le, ?_⟩
        have outside : encode top ∉ heightKeys top.toNat := by
          rw [mem_heightKeys top.toNat_lt.le]
          exact lt_irrefl _
        rw [Store.keys_clear, keys, heightKeys_succ, Finset.erase_insert outside]
      have rest : ∀ ivec : Bytes, (do
          let hash : H256 ← Exec.lift (decodeValue ivec)
          let ivec ← Exec.lift (okOr (db.blocks.get (encode hash))
            (.message "Block was not present in db but block hash was. DB is corrupted."))
          modify fun db => { db with blocks := db.blocks.clear (encode hash) }
          let block : OpaqueBlock ← Exec.lift (decodeValue ivec)
          block.extrinsics.toList.reverse.forM (unapplyTransaction C) : Exec Db Error Unit).Maintains Kept := by
        intro ivec
        refine .bind (.lift _) fun hash => .bind (.lift _) fun ivec => .bind (.modify ?_) fun _ =>
          .bind (.lift _) fun block => .forM fun x _ => Kept.closed.unapplyTransaction x
        exact fun db kept => ⟨⟨kept.decodes.unspent, kept.decodes.spent⟩, kept.heights⟩
      exact rest ivec _ lower

/-- The databases that come from opening, applying blocks up to one above the height, and going
back, however each of the calls ends. -/
inductive Built (C : Type) [Host] [Codec C] : Db → Prop
  | empty : Built C Db.empty
  | opened {db : Db} (genesisHash : H256) (genesis : OpaqueBlock) (built : Built C db) :
      Built C ((openDb genesisHash genesis).after db)
  | applied {db : Db} {top : UInt32} {b : OpaqueBlock} (filter : OuterVerifier → Bool) (blockHash : H256)
      (built : Built C db) (highest : height db = some top) (next : b.header.number.toNat ≤ top.toNat + 1) :
      Built C ((applyBlock C filter b blockHash).after db)
  | unapplied {db : Db} (built : Built C db) : Built C ((unapplyHighestBlock C).after db)

theorem Built.kept {db : Db} (built : Built C db) : Kept db := by
  induction built with
  | empty => exact Kept.empty
  | opened genesisHash genesis _ kept => exact kept.openDb genesisHash genesis
  | applied filter blockHash _ highest next kept => exact kept.applyBlock highest next blockHash
  | unapplied _ kept => exact kept.unapplyHighestBlock

/-- Going back from a block restores the tables of outputs and the tables of blocks. -/
theorem rollback_undoes_apply {db db' : Db} {b : OpaqueBlock} {blockHash : H256} {top : UInt32}
    {ts : List (Tuxedo.Transaction OuterVerifier C)} (kept : Kept db) (highest : height db = some top)
    (next : b.header.number.toNat = top.toNat + 1) (new : db.blocks.get (encode blockHash) = none)
    (canonical : b.extrinsics.toList.map encode = ts.map encode)
    (fresh : ∀ t ∈ ts, ∀ r output, creates t r = some output →
      db.unspent.get (encode r) = none ∧ db.spent.get (encode r) = none)
    (unmoved : ∀ t ∈ ts, ∀ r ∈ inputRefs t, db.spent.get (encode r) = none)
    (applied : applyBlock C filter b blockHash db = .ok () db') :
    ∃ db₂, unapplyHighestBlock C db' = .ok () db₂ ∧ db₂.unspent = db.unspent ∧ db₂.spent = db.spent ∧
      db₂.blocks = db.blocks ∧ db₂.blockHashes = db.blockHashes := by
  have keys := kept.keys_eq highest
  rw [← next] at keys
  have unnumbered : db.blockHashes.get (encode b.header.number) = none := by
    rw [← Store.notMem_keys, keys, mem_heightKeys b.header.number.toNat_lt.le]
    exact lt_irrefl _
  obtain ⟨decodes, ⟨blocks, blockHashes⟩, hashes, forth⟩ := applyBlock_slot canonical kept.decodes applied
  -- The block is the highest now, so it is the one that is read back.
  have above := kept.height_above highest next blockHashes
  obtain ⟨db₂, unapplied, ⟨blocks₂, blockHashes₂⟩, back⟩ := unapplyHighestBlock_slot filter canonical hashes decodes
    above (by rw [blockHashes, Store.get_set_self]) (by rw [blocks, Store.get_set_self])
  have slots : ∀ k, slot db₂ k = slot db k := by
    intro k
    rw [back, forth]
    exact touch_restores hashes fresh unmoved k
  refine ⟨db₂, unapplied, ?_, ?_, ?_, ?_⟩
  · exact Store.ext fun k => congrArg Slot.unspent (slots k)
  · exact Store.ext fun k => congrArg Slot.spent (slots k)
  · rw [blocks₂, blocks, Store.clear_set, Store.clear_eq_self new]
  · rw [blockHashes₂, blockHashes, Store.clear_set, Store.clear_eq_self unnumbered]

end

/-! The wallet's coin is spent for a smaller one and for one that is not the wallet's, and the
smaller one is spent in the same block. -/

def changeCoin : Template.Output := ⟨(grabCoin 60).payload, .sr25519Signature ⟨walletKey⟩⟩

def changeTx : H256 :=
  ⟨[6, 21, 214, 114, 225, 154, 119, 144, 41, 68, 102, 252, 215, 114, 117, 222, 85, 90, 105, 116, 27, 206, 137, 139,
    25, 5, 230, 235, 99, 136, 62, 1], rfl⟩

def splitCoin : Template.Transaction :=
  ⟨Vec.singleton ⟨⟨claimTx, 0⟩, .redemption (Vec.singleton 1)⟩, Vec.empty, ⟨[changeCoin, grabCoin 30], by decide⟩,
    .money .spend⟩

def spendChange : Template.Transaction :=
  ⟨Vec.singleton ⟨⟨changeTx, 0⟩, .redemption (Vec.singleton 1)⟩, Vec.empty, Vec.singleton (grabCoin 50), .money .spend⟩

def spendingBlock : OpaqueBlock :=
  ⟨⟨claimHash, 2, claimRoot, claimExtrinsics, Vec.empty⟩,
    ⟨[splitCoin.toOpaque (by decide +kernel), spendChange.toOpaque (by decide +kernel)], by decide⟩⟩

/-- The database of the wallet with the coin of block 1. -/
def claimedWallet [Host] : Db :=
  (applyBlock OuterConstraintChecker walletFilter claimServed claimHash).after openedWallet

theorem claimedWallet_kept :
    letI := walletHost
    Kept claimedWallet := by
  let := walletHost
  have opened : Built OuterConstraintChecker openedWallet := by
    rw [openedWallet, Exec.after_bind_of_ok (openDb_empty coinGenesisBlock),
      ← Exec.after_of_ok (openDb_empty coinGenesisBlock)]
    exact .applied walletFilter coinGenesisHash (.opened coinGenesisHash coinGenesisBlock .empty) rfl (by decide)
  have highest : height openedWallet = some 0 := by decide +kernel
  have claimed : Built OuterConstraintChecker claimedWallet :=
    .applied walletFilter claimHash opened highest (by decide)
  exact claimed.kept

/-- The wallet has its coin again. -/
theorem rollback_undoes_spending :
    letI := walletHost
    ∃ db' db₂, applyBlock OuterConstraintChecker walletFilter spendingBlock firstEmptyHash claimedWallet = .ok () db' ∧
      db'.spent.get (encode (⟨changeTx, 0⟩ : OutputRef)) = some (encode (walletKey, (60 : U128))) ∧
      unapplyHighestBlock OuterConstraintChecker db' = .ok () db₂ ∧ db₂.unspent = claimedWallet.unspent ∧
      db₂.spent = claimedWallet.spent ∧ db₂.blocks = claimedWallet.blocks ∧
      db₂.blockHashes = claimedWallet.blockHashes := by
  let := walletHost
  obtain ⟨_, db', applied, moved⟩ := Exec.exists_of_any
    (x := applyBlock OuterConstraintChecker walletFilter spendingBlock firstEmptyHash) (s := claimedWallet)
    (p := fun answer => answer.2.spent.get (encode (⟨changeTx, 0⟩ : OutputRef)) =
      some (encode (walletKey, (60 : U128)))) (by decide +kernel)
  have unspent : claimedWallet.unspent =
      Store.empty.set (encode (⟨claimTx, 0⟩ : OutputRef)) (encode (walletKey, (100 : U128))) := by decide +kernel
  have spent : claimedWallet.spent = Store.empty := by decide +kernel
  have hashes : ∀ t ∈ [splitCoin, spendChange], t.id? ≠ some claimTx := by decide +kernel
  have highest : height claimedWallet = some 1 := by decide +kernel
  have canonical : spendingBlock.extrinsics.toList.map encode = [splitCoin, spendChange].map encode := by
    change [encode _, encode _] = [encode splitCoin, encode spendChange]
    rw [Transaction.encode_toOpaque, Transaction.encode_toOpaque]
  have fresh : ∀ t ∈ [splitCoin, spendChange], ∀ r output, creates t r = some output →
      claimedWallet.unspent.get (encode r) = none ∧ claimedWallet.spent.get (encode r) = none := by
    intro t member r output made
    have other : encode r ≠ encode (⟨claimTx, 0⟩ : OutputRef) := by
      intro same
      cases encode_injective same
      exact hashes t member (creates_eq_some.mp made).1
    rw [unspent, spent, Store.get_set_ne _ _ other, Store.get_empty]
    exact ⟨rfl, rfl⟩
  obtain ⟨db₂, back⟩ := rollback_undoes_apply claimedWallet_kept highest (by decide) (by decide +kernel) canonical fresh
    (fun t _ r _ => by rw [spent, Store.get_empty]) applied
  exact ⟨db', db₂, applied, of_decide_eq_true moved, back⟩

end Tuxedo.Wallet
