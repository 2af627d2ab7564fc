import Tuxedo.Wallet.Synchronize

/-!
# The recorded blocks

The two block tables hold a line of blocks from the genesis up, and applying and unapplying
lengthen and shorten it.
-/

namespace Tuxedo.Wallet
open Scale Template

/-- The tables hold these blocks, by height and by hash. -/
structure Recorded (blockOf : H256 → Option OpaqueBlock) (genesisHash : H256) (w : List H256) (db : Db) : Prop where
  room : w.length < 2 ^ 32
  starts : w[0]? = some genesisHash
  linked : Lineage.Linked (parentOf blockOf) w
  hashes : ∀ h : UInt32, db.blockHashes.get (encode h) = (w[h.toNat]?).map encode
  keys : ∀ k v, db.blockHashes.get k = some v → ∃ h : UInt32, k = encode h
  blocks : ∀ h hash, w[h]? = some hash →
    ∃ b, blockOf hash = some b ∧ b.header.number.toNat = h ∧ db.blocks.get (encode hash) = some (encode b)

variable {blockOf : H256 → Option OpaqueBlock} {genesisHash : H256}

theorem ne_of_number {hash hash' : H256} {b b' : OpaqueBlock} (named : blockOf hash = some b)
    (named' : blockOf hash' = some b') (other : b.header.number.toNat ≠ b'.header.number.toNat) : hash ≠ hash' := by
  rintro rfl
  cases named.symm.trans named'
  exact other rfl

/-! ### The keys of the heights -/

theorem toNat_ofNat_of_lt {h : Nat} (small : h < 2 ^ 32) : (UInt32.ofNat h).toNat = h := by
  rw [UInt32.toNat_ofNat', Nat.mod_eq_of_lt small]

/-- The keys of the heights below a bound. -/
def heightKeys (n : Nat) : Finset Bytes := (Finset.range n).image fun h => encode (UInt32.ofNat h)

theorem mem_heightKeys {n : Nat} (room : n ≤ 2 ^ 32) {h : UInt32} : encode h ∈ heightKeys n ↔ h.toNat < n := by
  constructor
  · intro member
    obtain ⟨h', inside, same⟩ := Finset.mem_image.mp member
    have below := Finset.mem_range.mp inside
    rw [← encode_injective same, toNat_ofNat_of_lt (by omega)]
    exact below
  · intro below
    refine Finset.mem_image.mpr ⟨h.toNat, Finset.mem_range.mpr below, ?_⟩
    rw [UInt32.ofNat_toNat]

theorem heightKeys_succ (number : UInt32) :
    heightKeys (number.toNat + 1) = insert (encode number) (heightKeys number.toNat) := by
  rw [heightKeys, Finset.range_add_one, Finset.image_insert, UInt32.ofNat_toNat]
  rfl

theorem card_heightKeys {n : Nat} (room : n ≤ 2 ^ 32) : (heightKeys n).card = n := by
  rw [heightKeys, Finset.card_image_of_injOn, Finset.card_range]
  intro h inside h' inside' same
  have below := Finset.mem_range.mp inside
  have below' := Finset.mem_range.mp inside'
  have equal := congrArg UInt32.toNat (encode_injective same)
  rwa [toNat_ofNat_of_lt (by omega), toNat_ofNat_of_lt (by omega)] at equal

theorem height_of_keys {n : Nat} (room : n ≤ 2 ^ 32) (positive : 0 < n) {db : Db}
    (keys : db.blockHashes.keys = heightKeys n) : height db = some (UInt32.ofNat (n - 1)) := by
  unfold height
  dsimp only
  rw [keys, card_heightKeys room, if_neg (by omega)]
  congr 1
  apply UInt32.toNat_inj.mp
  rw [UInt32.toNat_sub, UInt32.toNat_ofNat', toNat_ofNat_of_lt (by omega)]
  change (2 ^ 32 - 1 + n % 2 ^ 32) % 2 ^ 32 = n - 1
  omega

/-- The last block is read and cleared, and then its transactions are unapplied. -/
theorem unapplyHighestBlock_of {C : Type} [Host] [Codec C] {db : Db} {top : UInt32} {hash : H256} {b : OpaqueBlock}
    (highest : height db = some top) (storedHash : db.blockHashes.get (encode top) = some (encode hash))
    (stored : db.blocks.get (encode hash) = some (encode b)) :
    unapplyHighestBlock C db = b.extrinsics.toList.reverse.forM (unapplyTransaction C) { db with
      blockHashes := db.blockHashes.clear (encode top)
      blocks := db.blocks.clear (encode hash) } := by
  refine (Exec.bind_of_ok (Exec.get_of db)).trans ?_
  refine (Exec.bind_of_ok (Exec.lift_of_ok (by rw [highest]; rfl) db)).trans ?_
  refine (Exec.bind_of_ok (Exec.lift_of_ok (by rw [storedHash]; rfl) db)).trans ?_
  refine (Exec.bind_of_ok (Exec.modify_of _ db)).trans ?_
  refine (Exec.bind_of_ok (Exec.lift_of_ok (decodeValue_encode hash) _)).trans ?_
  refine (Exec.bind_of_ok (Exec.lift_of_ok (by rw [stored]; rfl) _)).trans ?_
  refine (Exec.bind_of_ok (Exec.modify_of _ _)).trans ?_
  exact Exec.bind_of_ok (Exec.lift_of_ok (decodeValue_encode b) _)

namespace Recorded
variable {w : List H256} {db db' : Db}

theorem same (recorded : Recorded blockOf genesisHash w db) (hashes : db'.blockHashes = db.blockHashes)
    (blocks : db'.blocks = db.blocks) : Recorded blockOf genesisHash w db' :=
  ⟨recorded.room, recorded.starts, recorded.linked, hashes ▸ recorded.hashes, hashes ▸ recorded.keys,
    blocks ▸ recorded.blocks⟩

theorem getBlockHash_eq (recorded : Recorded blockOf genesisHash w db) (h : UInt32) :
    getBlockHash h db = .ok w[h.toNat]? := by
  unfold getBlockHash
  rw [recorded.hashes h]
  cases w[h.toNat]? with
  | none => rfl
  | some hash =>
    rw [Option.map_some]
    simp only [decodeValue_encode]
    rfl

theorem nonempty (recorded : Recorded blockOf genesisHash w db) : 0 < w.length :=
  (List.getElem?_eq_some_iff.mp recorded.starts).1

theorem keys_eq (recorded : Recorded blockOf genesisHash w db) : db.blockHashes.keys = heightKeys w.length := by
  ext k
  rw [Store.mem_keys]
  constructor
  · rintro ⟨v, stored⟩
    obtain ⟨h, rfl⟩ := recorded.keys k v stored
    rw [recorded.hashes h] at stored
    obtain ⟨hash, found, _⟩ := Option.map_eq_some_iff.mp stored
    exact (mem_heightKeys recorded.room.le).mpr (List.getElem?_eq_some_iff.mp found).1
  · intro member
    obtain ⟨h, inside, rfl⟩ := Finset.mem_image.mp member
    have below := Finset.mem_range.mp inside
    rw [recorded.hashes, toNat_ofNat_of_lt (below.trans recorded.room), List.getElem?_eq_getElem below]
    exact ⟨_, rfl⟩

theorem height_eq (recorded : Recorded blockOf genesisHash w db) : height db = some (UInt32.ofNat (w.length - 1)) := by
  have positive := recorded.nonempty
  apply height_of_keys recorded.room.le positive recorded.keys_eq

theorem getElem?_concat_ne {hash : H256} {h : Nat} (other : h ≠ w.length) : (w ++ [hash])[h]? = w[h]? := by
  rcases Nat.lt_or_gt_of_ne other with below | above
  · exact List.getElem?_append_left below
  · have outside : (w ++ [hash]).length ≤ h := by
      rw [List.length_append, List.length_singleton]
      omega
    rw [List.getElem?_eq_none outside, List.getElem?_eq_none (by omega)]

/-- The next block is added to both tables. -/
theorem add (recorded : Recorded blockOf genesisHash w db) {hash : H256} {b : OpaqueBlock}
    (named : blockOf hash = some b) (next : b.header.number.toNat = w.length)
    (child : parentOf blockOf hash = w.getLast?) (room : w.length + 1 < 2 ^ 32) :
    Recorded blockOf genesisHash (w ++ [hash]) { db with
      blockHashes := db.blockHashes.set (encode b.header.number) (encode hash)
      blocks := db.blocks.set (encode hash) (encode b) } := by
  refine ⟨by simpa using room, ?_, recorded.linked.concat child, ?_, ?_, ?_⟩
  · rw [List.getElem?_append_left recorded.nonempty, recorded.starts]
  · intro h
    change (db.blockHashes.set _ _).get _ = _
    rw [Store.get_set]
    split
    · rename_i same
      rw [encode_injective same, next, List.getElem?_concat_length, Option.map_some]
    · rename_i other
      have different : h.toNat ≠ w.length := by
        intro same
        exact other (congrArg encode (UInt32.toNat_inj.mp (same.trans next.symm)))
      rw [recorded.hashes, getElem?_concat_ne different]
  · intro k v stored
    rcases eq_or_ne k (encode b.header.number) with same | other
    · exact ⟨_, same⟩
    · exact recorded.keys k v ((Store.get_set_ne _ _ other).symm.trans stored)
  · intro h hash' found
    change ∃ b', _ ∧ _ ∧ (db.blocks.set _ _).get _ = _
    by_cases inside : h < w.length
    · rw [List.getElem?_append_left inside] at found
      obtain ⟨b', named', number, stored⟩ := recorded.blocks h hash' found
      refine ⟨b', named', number, ?_⟩
      have different : hash' ≠ hash := ne_of_number named' named (by omega)
      rw [Store.get_set_ne _ _ fun same => different (encode_injective same), stored]
    · have last := (List.getElem?_eq_some_iff.mp found).1
      rw [List.length_append, List.length_singleton] at last
      obtain rfl : h = w.length := by omega
      rw [List.getElem?_concat_length] at found
      cases found
      exact ⟨b, named, next, Store.get_set_self _ _ _⟩

/-- The last block is cleared from both tables. -/
theorem drop {hash : H256} (recorded : Recorded blockOf genesisHash (w ++ [hash]) db) (left : 0 < w.length) :
    Recorded blockOf genesisHash w { db with
      blockHashes := db.blockHashes.clear (encode (UInt32.ofNat w.length))
      blocks := db.blocks.clear (encode hash) } := by
  have room : w.length + 1 < 2 ^ 32 := by simpa using recorded.room
  have cleared : (UInt32.ofNat w.length).toNat = w.length := toNat_ofNat_of_lt (by omega)
  refine ⟨by omega, ?_, recorded.linked.init, ?_, ?_, ?_⟩
  · rw [← recorded.starts, List.getElem?_append_left left]
  · intro h
    change (db.blockHashes.clear _).get _ = _
    rw [Store.get_clear]
    split
    · rename_i same
      rw [encode_injective same, cleared, List.getElem?_eq_none (Nat.le_refl _)]
      rfl
    · rename_i other
      have different : h.toNat ≠ w.length := by
        intro same
        exact other (congrArg encode (UInt32.toNat_inj.mp (same.trans cleared.symm)))
      rw [recorded.hashes, getElem?_concat_ne different]
  · intro k v stored
    rw [Store.get_clear] at stored
    split at stored
    · cases stored
    · exact recorded.keys k v stored
  · intro h hash' found
    have inside := (List.getElem?_eq_some_iff.mp found).1
    obtain ⟨b', named', number, stored⟩ := recorded.blocks h hash' (by rw [List.getElem?_append_left inside, found])
    obtain ⟨b, named, last, _⟩ := recorded.blocks w.length hash List.getElem?_concat_length
    refine ⟨b', named', number, ?_⟩
    have different : hash' ≠ hash := ne_of_number named' named (by omega)
    exact (Store.get_clear_ne _ fun same => different (encode_injective same)).trans stored

theorem closed (w : List H256) : Closed (Recorded blockOf genesisHash w) where
  unspend _ _ _ recorded := recorded.same rfl rfl
  remove _ _ recorded := recorded.same rfl rfl
  spend _ _ _ recorded := recorded.same rfl rfl
  restore _ _ recorded := recorded.same rfl rfl
  stamp _ _ _ recorded := recorded.same rfl rfl

variable {C : Type} [Host] [Codec C] {filter : OuterVerifier → Bool}

theorem applyBlock (recorded : Recorded blockOf genesisHash w db) {hash : H256} {b : OpaqueBlock}
    (named : blockOf hash = some b) (next : b.header.number.toNat = w.length)
    (child : parentOf blockOf hash = w.getLast?) (room : w.length + 1 < 2 ^ 32) :
    Recorded blockOf genesisHash (w ++ [hash]) ((applyBlock C filter b hash).after db) := by
  have transactions : (b.extrinsics.toList.forM (applyTransaction C filter)).Maintains
      (Recorded blockOf genesisHash (w ++ [hash])) := .forM fun x _ => (closed _).applyTransaction filter x
  exact transactions _ (recorded.add named next child room)

theorem unapplyHighestBlock_eq {hash : H256} (recorded : Recorded blockOf genesisHash (w ++ [hash]) db) :
    ∃ b, blockOf hash = some b ∧
      unapplyHighestBlock C db = b.extrinsics.toList.reverse.forM (unapplyTransaction C) { db with
        blockHashes := db.blockHashes.clear (encode (UInt32.ofNat w.length))
        blocks := db.blocks.clear (encode hash) } := by
  have room : w.length + 1 < 2 ^ 32 := by simpa using recorded.room
  have top : height db = some (UInt32.ofNat w.length) := by simpa using recorded.height_eq
  have storedHash : db.blockHashes.get (encode (UInt32.ofNat w.length)) = some (encode hash) := by
    rw [recorded.hashes, toNat_ofNat_of_lt (by omega), List.getElem?_concat_length, Option.map_some]
  obtain ⟨b, named, _, stored⟩ := recorded.blocks w.length hash List.getElem?_concat_length
  exact ⟨b, named, unapplyHighestBlock_of top storedHash stored⟩

theorem unapplyHighestBlock {hash : H256} (recorded : Recorded blockOf genesisHash (w ++ [hash]) db)
    (left : 0 < w.length) : Recorded blockOf genesisHash w ((unapplyHighestBlock C).after db) := by
  obtain ⟨b, _, unapplied⟩ := recorded.unapplyHighestBlock_eq (C := C)
  have transactions : (b.extrinsics.toList.reverse.forM (unapplyTransaction C)).Maintains
      (Recorded blockOf genesisHash w) := .forM fun x _ => (closed w).unapplyTransaction x
  rw [Exec.after, unapplied]
  exact transactions _ (recorded.drop left)

end Recorded

/-! ### Blocks that apply -/

/-- Every record of the two tables of coins decodes. -/
structure Decodes (db : Db) : Prop where
  unspent : Records db.unspent
  spent : Records db.spent

theorem Records.set {tree : Tree} (records : Records tree) (k : Bytes) (record : H256 × U128) :
    Records (tree.set k (encode record)) := by
  intro k' v stored
  rw [Store.get_set] at stored
  split at stored
  · cases stored
    exact ⟨record, rfl⟩
  · exact records k' v stored

theorem Decodes.closed : Closed Decodes where
  unspend _ k record decodes := ⟨decodes.unspent.set k record, decodes.spent⟩
  remove _ k decodes := ⟨decodes.unspent.clear k, decodes.spent⟩
  spend _ k record decodes := ⟨decodes.unspent, decodes.spent.set k record⟩
  restore _ k decodes := ⟨decodes.unspent, decodes.spent.clear k⟩
  stamp _ _ _ decodes := ⟨decodes.unspent, decodes.spent⟩

theorem unspendOutput_of_none {db : Db} {r : OutputRef} (absent : db.spent.get (encode r) = none) :
    unspendOutput r db = .ok () db := by
  refine (Exec.bind_of_ok (Exec.get_of db)).trans ?_
  rw [absent]
  rfl

theorem unspendOutput_of_some {db : Db} {r : OutputRef} {record : H256 × U128}
    (stored : db.spent.get (encode r) = some (encode record)) : unspendOutput r db = .ok () { db with
      spent := db.spent.clear (encode r)
      unspent := db.unspent.set (encode r) (encode record) } := by
  refine (Exec.bind_of_ok (Exec.get_of db)).trans ?_
  rw [stored]
  refine (Exec.bind_of_ok (Exec.modify_of _ db)).trans ?_
  exact Exec.bind_of_ok (Exec.lift_of_ok (decodeValue_encode record) _)

theorem unspendOutput_ok {db : Db} (records : Records db.spent) (r : OutputRef) :
    ∃ db', unspendOutput r db = .ok () db' := by
  cases stored : db.spent.get (encode r) with
  | none => exact ⟨db, unspendOutput_of_none stored⟩
  | some ivec =>
    obtain ⟨record, rfl⟩ := records _ ivec stored
    exact ⟨_, unspendOutput_of_some stored⟩

section
variable (C : Type) [Host] [Codec C]

/-- The extrinsics are transactions, with payloads that extract. -/
def Applicable (b : OpaqueBlock) : Prop :=
  ∀ x ∈ b.extrinsics.toList, ∃ (t : Tuxedo.Transaction OuterVerifier C) (txHash : H256),
    encode x = encode t ∧ t.id? = some txHash ∧ ∀ output ∈ t.outputs.toList, WellFormed output.payload

variable {C} {filter : OuterVerifier → Bool}

theorem applyBlock_ok (only : OnlySignatures filter) {b : OpaqueBlock} (applicable : Applicable C b) (hash : H256)
    {db : Db} (decodes : Decodes db) : ∃ db', applyBlock C filter b hash db = .ok () db' ∧ Decodes db' := by
  have each : ∀ x ∈ b.extrinsics.toList, ∀ db, Decodes db →
      ∃ db', applyTransaction C filter x db = .ok () db' ∧ Decodes db' := by
    intro x member db decodes
    obtain ⟨t, txHash, canonical, hash, formed⟩ := applicable x member
    obtain ⟨db', applied, _⟩ := applyTransaction_ok only formed canonical hash decodes.unspent
    exact ⟨db', applied, (Decodes.closed.applyTransaction filter x).of_ok applied decodes⟩
  exact Exec.forM_of_ok each ⟨decodes.unspent, decodes.spent⟩

theorem unapplyTransaction_of {x : OpaqueExtrinsic} {t : Tuxedo.Transaction OuterVerifier C} {txHash : H256}
    (canonical : encode x = encode t) (hash : t.id? = some txHash) {db db₁ db' : Db}
    (inputs : (t.inputs.toList.forM fun input => unspendOutput input.outputRef) db = .ok () db₁)
    (outputs : ((List.range t.outputs.toList.length).forM fun i => removeUnspentOutput ⟨txHash, UInt32.ofNat i⟩) db₁ =
      .ok () db') : unapplyTransaction C x db = .ok () db' := by
  unfold unapplyTransaction
  rw [canonical]
  refine (Exec.bind_of_ok (Exec.lift_of_ok (decodeValue_encode t) db)).trans ?_
  refine (Exec.bind_of_ok inputs).trans ?_
  refine (Exec.bind_of_ok (Exec.lift_of_ok (by rw [hash]; rfl) db₁)).trans ?_
  exact outputs

theorem unapplyTransaction_ok {x : OpaqueExtrinsic} {t : Tuxedo.Transaction OuterVerifier C} {txHash : H256}
    (canonical : encode x = encode t) (hash : t.id? = some txHash) {db : Db} (decodes : Decodes db) :
    ∃ db', unapplyTransaction C x db = .ok () db' ∧ Decodes db' := by
  have unspends : ∀ input ∈ t.inputs.toList, ∀ db, Decodes db →
      ∃ db', unspendOutput input.outputRef db = .ok () db' ∧ Decodes db' := by
    intro input _ db decodes
    obtain ⟨db', unspent⟩ := unspendOutput_ok decodes.spent input.outputRef
    exact ⟨db', unspent, (Decodes.closed.unspendOutput _).of_ok unspent decodes⟩
  have removes : ∀ i ∈ List.range t.outputs.toList.length, ∀ db, Decodes db →
      ∃ db', removeUnspentOutput ⟨txHash, UInt32.ofNat i⟩ db = .ok () db' ∧ Decodes db' :=
    fun i _ db decodes => ⟨_, Exec.modify_of _ db, Decodes.closed.remove db _ decodes⟩
  obtain ⟨db₁, inputs, decodes₁⟩ := Exec.forM_of_ok unspends decodes
  obtain ⟨db', outputs, _⟩ := Exec.forM_of_ok removes decodes₁
  have unapplied := unapplyTransaction_of canonical hash inputs outputs
  exact ⟨db', unapplied, (Decodes.closed.unapplyTransaction x).of_ok unapplied decodes⟩

theorem unapplyHighestBlock_ok {w : List H256} {hash : H256} {db : Db} (decodes : Decodes db)
    (recorded : Recorded blockOf genesisHash (w ++ [hash]) db)
    (applicable : ∀ hash b, blockOf hash = some b → Applicable C b) :
    ∃ db', unapplyHighestBlock C db = .ok () db' ∧ Decodes db' := by
  obtain ⟨b, named, unapplied⟩ := recorded.unapplyHighestBlock_eq (C := C)
  rw [unapplied]
  refine Exec.forM_of_ok (fun x member db decodes => ?_) ⟨decodes.unspent, decodes.spent⟩
  obtain ⟨t, txHash, canonical, hash, _⟩ := applicable _ b named x (List.mem_reverse.mp member)
  exact unapplyTransaction_ok canonical hash decodes

end
end Tuxedo.Wallet
