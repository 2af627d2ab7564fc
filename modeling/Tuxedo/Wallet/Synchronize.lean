import Tuxedo.Lib.Lineage
import Tuxedo.Wallet.Unspent

/-!
# Synchronizing with a node

The wallet asks the node for one thing at a time, and the node may change its best chain between
any two answers.
-/

namespace Tuxedo.Wallet
open Scale Template

/-- What the wallet asks for next. -/
inductive Stage where
  /-- The node's hash at the height of the wallet's newest block. -/
  | compare (height : UInt32) (walletHash : H256)
  /-- The node's hash at the first height that the wallet does not have. -/
  | advance (height : UInt32)
  /-- The block with a hash. -/
  | fetch (height : UInt32) (hash : H256)
  | done
  deriving DecidableEq

/-- `synchronize_helper` up to the first request. -/
def begin : Exec Db Error Stage := do
  let db ← get
  let height ← Exec.lift (okOr (height db) (.message "tried to sync an uninitialized database"))
  let walletHash ← Exec.read (getBlockHash height)
  let walletHash ← Exec.lift (expect walletHash)
  return .compare height walletHash

/-- The answers of the node at one moment. A hash names one block, the hash at a height names a block
with that number, and the hash at height 0 is the one that the database was opened with. -/
structure Peer (blockOf : H256 → Option OpaqueBlock) (genesisHash : H256) where
  chainGetBlockHash : UInt32 → Outcome Error (Option H256)
  chainGetBlock : H256 → Outcome Error (Option OpaqueBlock)
  starts : ∀ hash, chainGetBlockHash 0 = .ok hash → hash = some genesisHash
  numbered : ∀ height hash, chainGetBlockHash height = .ok (some hash) →
    ∃ b, blockOf hash = some b ∧ b.header.number = height
  served : ∀ hash b, chainGetBlock hash = .ok (some b) → blockOf hash = some b

variable {blockOf : H256 → Option OpaqueBlock} {genesisHash : H256}

namespace Peer

/-- `rpc::node_get_block`, which unwraps the answer. -/
def nodeGetBlock (peer : Peer blockOf genesisHash) (hash : H256) : Outcome Error (Option OpaqueBlock) := do
  let rpcResponse ← peer.chainGetBlock hash
  let opaqueBlock ← expect rpcResponse
  return some opaqueBlock

section
variable (C : Type) [Host] [Codec C] (filter : OuterVerifier → Bool)

/-- From one answer of the node to the next request. A request may fail. -/
def resume (peer : Peer blockOf genesisHash) : Stage → Exec Db Error Stage
  | .compare height walletHash => do
    let nodeHash ← Exec.lift (peer.chainGetBlockHash height)
    if some walletHash = nodeHash then return .advance (height + 1)
    unapplyHighestBlock C
    -- Below zero the height has no block hash, if it does not overflow first.
    let height ← Exec.lift (expect (if height = 0 then none else some (height - 1)))
    let walletHash ← Exec.read (getBlockHash height)
    let walletHash ← Exec.lift (expect walletHash)
    return .compare height walletHash
  | .advance height => do
    let nodeHash ← Exec.lift (peer.chainGetBlockHash height)
    match nodeHash with
    | none => return .done
    | some hash => return .fetch height hash
  | .fetch height hash => do
    let block ← Exec.lift (peer.nodeGetBlock hash)
    let block ← Exec.lift (expect block)
    applyBlock C filter block hash
    return .advance (height + 1)
  | .done => return .done

/-- The answers come from the nodes in turn. -/
def follow : Stage → List (Peer blockOf genesisHash) → Exec Db Error Stage
  | stage, [] => return stage
  | stage, peer :: peers => do
    let stage ← peer.resume C filter stage
    follow stage peers

/-- It returns when it is `done`. -/
def synchronizeHelper (peers : List (Peer blockOf genesisHash)) : Exec Db Error Stage := do
  let stage ← begin
  follow C filter stage peers

variable {C filter} {peer : Peer blockOf genesisHash} {height : UInt32} {hash : H256} {nodeHash : Option H256}
  {halt : Halt Error}

theorem follow_cons (stage : Stage) (peers : List (Peer blockOf genesisHash)) :
    follow C filter stage (peer :: peers) =
      peer.resume C filter stage >>= fun stage => follow C filter stage peers := rfl

theorem resume_of_agree (answer : peer.chainGetBlockHash height = .ok (some hash)) :
    peer.resume C filter (.compare height hash) = pure (.advance (height + 1)) := by
  rw [resume, answer]
  exact if_pos rfl

theorem resume_of_other (answer : peer.chainGetBlockHash height = .ok nodeHash) (other : some hash ≠ nodeHash) :
    peer.resume C filter (.compare height hash) = (do
      unapplyHighestBlock C
      let height ← Exec.lift (expect (if height = 0 then none else some (height - 1)))
      let walletHash ← Exec.read (getBlockHash height)
      let walletHash ← Exec.lift (expect walletHash)
      return .compare height walletHash) := by
  rw [resume, answer]
  exact if_neg other

theorem resume_of_past (answer : peer.chainGetBlockHash height = .ok none) :
    peer.resume C filter (.advance height) = pure .done := by
  rw [resume, answer]
  rfl

theorem resume_of_found (answer : peer.chainGetBlockHash height = .ok (some hash)) :
    peer.resume C filter (.advance height) = pure (.fetch height hash) := by
  rw [resume, answer]
  rfl

theorem resume_of_fetched {b : OpaqueBlock} (asked : peer.nodeGetBlock hash = .ok (some b)) :
    peer.resume C filter (.fetch height hash) =
      applyBlock C filter b hash >>= fun _ => pure (.advance (height + 1)) := by
  rw [resume, asked]
  rfl

/-! A request that fails ends the run there. -/

theorem resume_compare_of_error (answer : peer.chainGetBlockHash height = .error halt) (db : Db) :
    peer.resume C filter (.compare height hash) db = .error halt db := by
  rw [resume, answer]
  rfl

theorem resume_advance_of_error (answer : peer.chainGetBlockHash height = .error halt) (db : Db) :
    peer.resume C filter (.advance height) db = .error halt db := by
  rw [resume, answer]
  rfl

theorem resume_fetch_of_error (asked : peer.nodeGetBlock hash = .error halt) (db : Db) :
    peer.resume C filter (.fetch height hash) db = .error halt db := by
  rw [resume, asked]
  rfl

end
end Peer

/-! ### A node with a best chain -/

/-- The parent that the block with a hash names. -/
def parentOf (blockOf : H256 → Option OpaqueBlock) (hash : H256) : Option H256 :=
  (blockOf hash).map fun b => b.header.parentHash

/-- The node at one moment: the hashes of its best chain and the blocks that it can return. A hash
names one block, and the chains all start at one genesis. Block numbers are `u32`, with one left
for the next block. -/
structure Node (blockOf : H256 → Option OpaqueBlock) (genesisHash : H256) where
  best : List H256
  serves : H256 → Option OpaqueBlock
  room : best.length < 2 ^ 32
  starts : best[0]? = some genesisHash
  numbered : ∀ h hash, best[h]? = some hash → ∃ b, blockOf hash = some b ∧ b.header.number.toNat = h
  linked : Lineage.Linked (parentOf blockOf) best
  served : ∀ hash b, serves hash = some b → blockOf hash = some b
  servesBest : ∀ hash ∈ best, ∃ b, serves hash = some b

def Node.getBlockHash (node : Node blockOf genesisHash) (height : UInt32) : Option H256 := node.best[height.toNat]?

/-- Such a node answers every request. -/
def Node.peer (node : Node blockOf genesisHash) : Peer blockOf genesisHash where
  chainGetBlockHash height := .ok (node.getBlockHash height)
  chainGetBlock hash := .ok (node.serves hash)
  starts hash answer := (Except.ok.inj answer).symm.trans node.starts
  numbered height hash answer := by
    obtain ⟨b, named, number⟩ := node.numbered height.toNat hash (Except.ok.inj answer)
    exact ⟨b, named, UInt32.toNat_inj.mp number⟩
  served hash b answer := node.served hash b (Except.ok.inj answer)

section
variable (C : Type) [Host] [Codec C] (filter : OuterVerifier → Bool)

def resume (node : Node blockOf genesisHash) (stage : Stage) : Exec Db Error Stage := node.peer.resume C filter stage

def follow (stage : Stage) (nodes : List (Node blockOf genesisHash)) : Exec Db Error Stage :=
  Peer.follow C filter stage (nodes.map Node.peer)

def synchronizeHelper (nodes : List (Node blockOf genesisHash)) : Exec Db Error Stage :=
  Peer.synchronizeHelper C filter (nodes.map Node.peer)

variable {C filter} {node : Node blockOf genesisHash} {height : UInt32} {hash : H256}

theorem follow_cons (stage : Stage) (nodes : List (Node blockOf genesisHash)) :
    follow C filter stage (node :: nodes) =
      resume C filter node stage >>= fun stage => follow C filter stage nodes := rfl

theorem synchronizeHelper_eq (nodes : List (Node blockOf genesisHash)) :
    synchronizeHelper C filter nodes = begin >>= fun stage => follow C filter stage nodes := rfl

theorem resume_of_agree (same : some hash = node.getBlockHash height) :
    resume C filter node (.compare height hash) = pure (.advance (height + 1)) :=
  Peer.resume_of_agree (congrArg Except.ok same.symm)

theorem resume_of_other (other : some hash ≠ node.getBlockHash height) :
    resume C filter node (.compare height hash) = (do
      unapplyHighestBlock C
      let height ← Exec.lift (expect (if height = 0 then none else some (height - 1)))
      let walletHash ← Exec.read (getBlockHash height)
      let walletHash ← Exec.lift (expect walletHash)
      return .compare height walletHash) :=
  Peer.resume_of_other rfl other

theorem resume_of_past (past : node.getBlockHash height = none) :
    resume C filter node (.advance height) = pure .done :=
  Peer.resume_of_past (congrArg Except.ok past)

theorem resume_of_found (found : node.getBlockHash height = some hash) :
    resume C filter node (.advance height) = pure (.fetch height hash) :=
  Peer.resume_of_found (congrArg Except.ok found)

theorem resume_of_served {b : OpaqueBlock} (served : node.serves hash = some b) :
    resume C filter node (.fetch height hash) =
      applyBlock C filter b hash >>= fun _ => pure (.advance (height + 1)) := by
  have answer : node.peer.chainGetBlock hash = .ok (some b) := congrArg Except.ok served
  apply Peer.resume_of_fetched
  rw [Peer.nodeGetBlock, answer]
  rfl

/-- A block that the node cannot return is unwrapped all the same. -/
theorem resume_of_unserved (unserved : node.serves hash = none) (db : Db) :
    resume C filter node (.fetch height hash) db = .error .panic db := by
  have answer : node.peer.chainGetBlock hash = .ok none := congrArg Except.ok unserved
  apply Peer.resume_fetch_of_error
  rw [Peer.nodeGetBlock, answer]
  rfl

end
end Tuxedo.Wallet
