import Tuxedo.Core.Executive

/-!
# Genesis

The storage of the genesis block and the block itself, built from a list of transactions that
no checker or verifier sees.
-/

namespace Tuxedo
open Scale

namespace TuxedoGenesisConfigBuilder
variable {V C : Type} [Host] [Codec V] [Codec C] [ConstraintChecker V C]

inductive Error where
  | inherentAfterNonInherent
  | inputsOrPeeks
  deriving DecidableEq

/-- The outputs are written without looking at what is there. -/
def storeOutputs (t : Transaction V C) (txHash : H256) (s : Storage) : Storage :=
  t.outputs.toList.zipIdx.foldl
    (fun s output => s.set (encode (⟨txHash, UInt32.ofNat output.2⟩ : OutputRef)) (encode output.1)) s

def buildTransactions : Bool → List (Transaction V C) → Storage → Outcome Error Storage
  | _, [], s => return s
  | finishedWithOpeningInherents, tx :: txs, s => do
    let inherent := ConstraintChecker.isInherent (V := V) tx.checker
    ensure (¬(inherent = true ∧ finishedWithOpeningInherents = true)) .inherentAfterNonInherent
    ensure (tx.inputs.toList = [] ∧ tx.peeks.toList = []) .inputsOrPeeks
    let txHash ← expect tx.id?
    buildTransactions (finishedWithOpeningInherents || !inherent) txs (storeOutputs tx txHash s)

def build (genesisTransactions : Vec (Transaction V C)) (s : Storage) : Outcome Error Storage :=
  buildTransactions false genesisTransactions.toList
    ((s.set extrinsicKey (encode genesisTransactions)).set heightKey (encode (0 : UInt32)))

end TuxedoGenesisConfigBuilder

namespace TuxedoGenesisBlockBuilder
variable {V C : Type} [Host] [Codec V] [Codec C]

/-- The extrinsics leave the storage for the body of the block. -/
def buildGenesisBlock (stateVersion : StateVersion) (genesisStorage : Storage) : Block V C × Storage :=
  let extrinsics : Vec (Transaction V C) :=
    ((genesisStorage.get extrinsicKey).bind fun d => (decode d).map Prod.fst).getD Vec.empty
  let state := genesisStorage.clear extrinsicKey
  let header : Header := {
    parentHash := FixedBytes.zero 32
    number := 0
    stateRoot := Host.storageRoot stateVersion state
    extrinsicsRoot := Host.orderedTrieRoot stateVersion (extrinsics.toList.map encode)
    digest := Vec.empty }
  (⟨header, extrinsics⟩, state)

end TuxedoGenesisBlockBuilder
end Tuxedo
