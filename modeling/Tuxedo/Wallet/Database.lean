import Tuxedo.Core.Opaque
import Tuxedo.Runtime.Template

/-!
# The wallet's database

Tables of encoded keys and encoded values. Applying a block adds its coins and spends its
inputs, and unapplying it goes back.
-/

namespace Tuxedo.Wallet
open Scale Template

abbrev Tree := Store Bytes Bytes

/-- The block tables, the two tables of coins and the table with the last time. -/
structure Db where
  blocks : Tree
  blockHashes : Tree
  unspent : Tree
  spent : Tree
  timestamp : Tree

def Db.empty : Db := ⟨Store.empty, Store.empty, Store.empty, Store.empty, Store.empty⟩

inductive Error where
  | codec
  | dynamicTyping (error : DynamicTypingError)
  | message (text : String)
  /-- "Node reports a different genesis block than wallet." -/
  | differentGenesis (wallet expected : H256)
  deriving DecidableEq

/-- The value at the front of the bytes. -/
def decodeValue {α : Type} [Codec α] (bytes : Bytes) : Outcome Error α := okOr ((decode bytes).map Prod.fst) .codec

def extractPayload (T : Type) [UtxoData T] (d : DynamicallyTypedData) : Outcome Error T :=
  match d.extract T with
  | .ok value => .ok value
  | .error error => .error (.err (.dynamicTyping error))

/-! ### Blocks -/

/-- The number of block hashes is cast to `u32`. -/
def height (db : Db) : Option UInt32 :=
  let numBlocks := db.blockHashes.keys.card
  if numBlocks = 0 then none else some (UInt32.ofNat numBlocks - 1)

def getBlockHash (height : UInt32) (db : Db) : Outcome Error (Option H256) :=
  match db.blockHashes.get (encode height) with
  | none => return none
  | some ivec => do
    let hash ← decodeValue ivec
    return some hash

/-- A database with blocks must have the same genesis, an empty one gets it. -/
def openDb (expectedGenesisHash : H256) (expectedGenesisBlock : OpaqueBlock) : Exec Db Error Unit := do
  let db ← get
  if (height db).isSome then
    let ivec ← Exec.lift (expect (db.blockHashes.get (encode (0 : UInt32))))
    let walletGenesisHash : H256 ← Exec.lift (decodeValue ivec)
    if expectedGenesisHash ≠ walletGenesisHash then
      Exec.lift (.error (.err (.differentGenesis walletGenesisHash expectedGenesisHash)))
  else
    modify fun db => { db with blockHashes := db.blockHashes.set (encode (0 : UInt32)) (encode expectedGenesisHash) }
    modify fun db => { db with blocks := db.blocks.set (encode expectedGenesisHash) (encode expectedGenesisBlock) }

/-! ### Outputs -/

def addUnspentOutput (outputRef : OutputRef) (ownerPubkey : H256) (amount : U128) : Exec Db Error Unit :=
  modify fun db => { db with unspent := db.unspent.set (encode outputRef) (encode (ownerPubkey, amount)) }

def removeUnspentOutput (outputRef : OutputRef) : Exec Db Error Unit :=
  modify fun db => { db with unspent := db.unspent.clear (encode outputRef) }

/-- The record leaves the unspent table before it is decoded. -/
def spendOutput (outputRef : OutputRef) : Exec Db Error Unit := do
  let db ← get
  match db.unspent.get (encode outputRef) with
  | none => return
  | some ivec =>
    modify fun db => { db with unspent := db.unspent.clear (encode outputRef) }
    let record : H256 × U128 ← Exec.lift (decodeValue ivec)
    modify fun db => { db with spent := db.spent.set (encode outputRef) (encode record) }

def unspendOutput (outputRef : OutputRef) : Exec Db Error Unit := do
  let db ← get
  match db.spent.get (encode outputRef) with
  | none => return
  | some ivec =>
    modify fun db => { db with spent := db.spent.clear (encode outputRef) }
    let record : H256 × U128 ← Exec.lift (decodeValue ivec)
    modify fun db => { db with unspent := db.unspent.set (encode outputRef) (encode record) }

/-- `money::apply_transaction`. -/
def applyCoin (txHash : H256) (index : UInt32) (output : Template.Output) : Exec Db Error Unit := do
  let amount ← Exec.lift (extractPayload (Money.Coin 0) output.payload)
  match output.verifier with
  | .sr25519Signature owner => addUnspentOutput ⟨txHash, index⟩ owner.ownerPubkey amount.value
  | _ => Exec.lift (.error (.err (.message "()")))

/-- `timestamp::apply_transaction`. -/
def applyTimestamp (output : Template.Output) : Exec Db Error Unit := do
  let timestamp ← Exec.lift (extractPayload Time.Timestamp output.payload)
  modify fun db => { db with timestamp := db.timestamp.set [0] (encode timestamp.time) }

/-- Only coins and timestamps are kept. -/
def applyOutput (filter : OuterVerifier → Bool) (txHash : H256) (index : UInt32) (output : Template.Output) :
    Exec Db Error Unit :=
  if output.payload.typeId = UtxoData.typeId (Money.Coin 0) then
    if filter output.verifier then applyCoin txHash index output else return
  else if output.payload.typeId = UtxoData.typeId Time.Timestamp then applyTimestamp output
  else return

/-! ### Transactions and blocks -/

section
variable (C : Type) [Host] [Codec C]

/-- The extrinsic is decoded as a transaction, with its hash taken from the opaque bytes. -/
def applyTransaction (filter : OuterVerifier → Bool) (opaqueTx : OpaqueExtrinsic) : Exec Db Error Unit := do
  let encodedExtrinsic := encode opaqueTx
  let txHash ← Exec.lift (expect ((Vec.ofList? encodedExtrinsic).map hashOf))
  let tx : Tuxedo.Transaction OuterVerifier C ← Exec.lift (decodeValue encodedExtrinsic)
  tx.outputs.toList.zipIdx.forM fun output => applyOutput filter txHash (UInt32.ofNat output.2) output.1
  tx.inputs.toList.forM fun input => spendOutput input.outputRef

def applyBlock (filter : OuterVerifier → Bool) (b : OpaqueBlock) (blockHash : H256) : Exec Db Error Unit := do
  modify fun db => { db with blockHashes := db.blockHashes.set (encode b.header.number) (encode blockHash) }
  modify fun db => { db with blocks := db.blocks.set (encode blockHash) (encode b) }
  b.extrinsics.toList.forM (applyTransaction C filter)

def unapplyTransaction (opaqueTx : OpaqueExtrinsic) : Exec Db Error Unit := do
  let tx : Tuxedo.Transaction OuterVerifier C ← Exec.lift (decodeValue (encode opaqueTx))
  tx.inputs.toList.forM fun input => unspendOutput input.outputRef
  let txHash ← Exec.lift (expect tx.id?)
  (List.range tx.outputs.toList.length).forM fun i => removeUnspentOutput ⟨txHash, UInt32.ofNat i⟩

def unapplyHighestBlock : Exec Db Error Unit := do
  let db ← get
  let height ← Exec.lift (okOr (height db) (.message "Cannot unapply block from uninitialized database"))
  let ivec ← Exec.lift (okOr (db.blockHashes.get (encode height))
    (.message "No block hash found at height reported as best. DB is inconsistent."))
  modify fun db => { db with blockHashes := db.blockHashes.clear (encode height) }
  let hash : H256 ← Exec.lift (decodeValue ivec)
  let ivec ← Exec.lift (okOr (db.blocks.get (encode hash))
    (.message "Block was not present in db but block hash was. DB is corrupted."))
  modify fun db => { db with blocks := db.blocks.clear (encode hash) }
  let block : OpaqueBlock ← Exec.lift (decodeValue ivec)
  block.extrinsics.toList.reverse.forM (unapplyTransaction C)

end

/-! ### What applying and unapplying leave alone -/

/-- The records of the owners are written and cleared, and the last time is written. -/
structure Closed (P : Db → Prop) : Prop where
  unspend : ∀ db (k : Bytes) (record : H256 × U128), P db → P { db with unspent := db.unspent.set k (encode record) }
  remove : ∀ db (k : Bytes), P db → P { db with unspent := db.unspent.clear k }
  spend : ∀ db (k : Bytes) (record : H256 × U128), P db → P { db with spent := db.spent.set k (encode record) }
  restore : ∀ db (k : Bytes), P db → P { db with spent := db.spent.clear k }
  stamp : ∀ db (k v : Bytes), P db → P { db with timestamp := db.timestamp.set k v }

namespace Closed
variable {P : Db → Prop} (closed : Closed P)
include closed

theorem spendOutput (r : OutputRef) : (spendOutput r).Maintains P := by
  refine .bind .get fun db => ?_
  cases db.unspent.get (encode r) with
  | none => exact .pure ()
  | some ivec =>
    refine .bind (.modify fun db => closed.remove db _) fun _ => .bind (.lift _) fun record => ?_
    exact .modify fun db => closed.spend db _ record

theorem unspendOutput (r : OutputRef) : (unspendOutput r).Maintains P := by
  refine .bind .get fun db => ?_
  cases db.spent.get (encode r) with
  | none => exact .pure ()
  | some ivec =>
    refine .bind (.modify fun db => closed.restore db _) fun _ => .bind (.lift _) fun record => ?_
    exact .modify fun db => closed.unspend db _ record

theorem applyOutput (filter : OuterVerifier → Bool) (txHash : H256) (index : UInt32) (output : Template.Output) :
    (applyOutput filter txHash index output).Maintains P := by
  unfold Wallet.applyOutput
  split
  · split
    · refine .bind (.lift _) fun amount => ?_
      split
      · exact .modify fun db => closed.unspend db _ _
      · exact .lift _
    · exact .pure ()
  · split
    · exact .bind (.lift _) fun timestamp => .modify fun db => closed.stamp db _ _
    · exact .pure ()

variable {C : Type} [Host] [Codec C]

theorem applyTransaction (filter : OuterVerifier → Bool) (x : OpaqueExtrinsic) :
    (applyTransaction C filter x).Maintains P := by
  refine .bind (.lift _) fun txHash => .bind (.lift _) fun tx => .bind (.forM fun output _ => ?_) fun _ =>
    .forM fun input _ => closed.spendOutput input.outputRef
  exact closed.applyOutput filter txHash _ output.1

theorem unapplyTransaction (x : OpaqueExtrinsic) : (unapplyTransaction C x).Maintains P := by
  refine .bind (.lift _) fun tx => .bind (.forM fun input _ => closed.unspendOutput input.outputRef) fun _ =>
    .bind (.lift _) fun txHash => .forM fun i _ => ?_
  exact .modify fun db => closed.remove db _

end Closed

end Tuxedo.Wallet
