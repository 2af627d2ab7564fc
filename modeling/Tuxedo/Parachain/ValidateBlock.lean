import Tuxedo.Core.Executive
import Tuxedo.Parachain.Inherent

/-!
# Validating a block for the relay chain

`none` is a panic, after which the relay chain rejects the block.
-/

namespace Tuxedo.Parachain
open Scale

structure MemoryOptimizedValidationParams where
  parentHead : Bytes
  blockData : Bytes
  relayParentNumber : UInt32
  relayParentStorageRoot : H256
  deriving DecidableEq

structure ParachainBlockData (V C : Type) where
  header : Header
  extrinsics : Vec (Transaction V C)
  storageProof : Vec (Vec UInt8)

instance {V C : Type} [Codec V] [Codec C] : Codec (ParachainBlockData V C) :=
  .ofFields (Header × Vec (Transaction V C) × Vec (Vec UInt8)) (fun b => (b.header, b.extrinsics, b.storageProof))
    (fun p => ⟨p.1, p.2.1, p.2.2⟩) (fun _ => rfl)

structure ValidationResult where
  headData : Bytes
  newValidationCode : Option (Vec UInt8)
  upwardMessages : List (Vec UInt8)
  horizontalMessages : List (Vec UInt8)
  processedDownwardMessages : UInt32
  hrmpWatermark : UInt32
  deriving DecidableEq

/-- The database that a compact proof unfolds to under a state root, `none` when it does not. -/
class ProofDatabase where
  toMemoryDb : H256 → Vec (Vec UInt8) → Option Storage

def validateValidationData (validationData : PersistedValidationData)
    (params : MemoryOptimizedValidationParams) : Bool :=
  params.parentHead = validationData.parentHead.toList ∧
    params.relayParentNumber = validationData.relayParentNumber ∧
    params.relayParentStorageRoot = validationData.relayParentStorageRoot

variable {V C : Type} [Host] [Verifier V] [Codec C] [ConstraintChecker V C] [ParachainConstraintChecker C]
  [RelayChain] [ProofDatabase]

/-- The data of the first parachain inherent of the block. -/
def blockInherentData (block : Block V C) : Option ParachainInherentData := do
  let inherent ← (Executive.openingInherents block).find?
    fun tx => ParachainConstraintChecker.isParachain tx.checker
  let output ← inherent.outputs.toList[0]?
  let utxo ← (output.payload.extract ParachainInherentDataUtxo).toOption
  return utxo.data

/-- The result, with the storage that the externalities hold at the end. -/
def validateBlock (params : MemoryOptimizedValidationParams) : Option (ValidationResult × Storage) := do
  let (blockData, _) ← decode (α := ParachainBlockData V C) params.blockData
  let (parentHeader, _) ← decode (α := Header) params.parentHead
  let block : Block V C := ⟨blockData.header, blockData.extrinsics⟩
  if parentHeader.hash ≠ block.header.parentHash then none
  let inherentData ← blockInherentData block
  if ¬validateValidationData inherentData.validationData params then none
  let db ← ProofDatabase.toMemoryDb parentHeader.stateRoot blockData.storageProof
  let ((), s) ← (Executive.executeBlock block).toOption db
  let hrmpWatermark ← RelayParentNumberStorage.get s
  return (
    { headData := encode block.header
      newValidationCode := none
      upwardMessages := []
      horizontalMessages := []
      processedDownwardMessages := 0
      hrmpWatermark }, s)

/-! ### What a validation that returns has done -/

/-- The params hold this block, over this state of its parent. -/
def Describes (params : MemoryOptimizedValidationParams) (block : Block V C) (parentState : Storage) : Prop :=
  ∃ (blockData : ParachainBlockData V C) (parentHeader : Header) (rest rest' : Bytes),
    decode params.blockData = some (blockData, rest) ∧ block = ⟨blockData.header, blockData.extrinsics⟩ ∧
    decode params.parentHead = some (parentHeader, rest') ∧
    ProofDatabase.toMemoryDb parentHeader.stateRoot blockData.storageProof = some parentState

theorem validateBlock_ok {params : MemoryOptimizedValidationParams} {result : ValidationResult} {post : Storage}
    {block : Block V C} {parentState : Storage} (describes : Describes params block parentState)
    (h : validateBlock (V := V) (C := C) params = some (result, post)) :
    ∃ inherentData, blockInherentData block = some inherentData ∧
      validateValidationData inherentData.validationData params = true ∧
      Executive.executeBlock block parentState = .ok () post ∧
      RelayParentNumberStorage.get post = some result.hrmpWatermark := by
  obtain ⟨blockData, parentHeader, rest, rest', read, rfl, readHead, database⟩ := describes
  unfold validateBlock at h
  rw [read, readHead] at h
  simp only [Option.bind_eq_bind, Option.bind_some] at h
  split at h
  · cases h
  · obtain ⟨inherentData, found, h⟩ := Option.bind_eq_some_iff.mp h
    split at h
    · cases h
    · rename_i compared
      rw [database, Option.bind_some] at h
      obtain ⟨⟨_, s⟩, executed, h⟩ := Option.bind_eq_some_iff.mp h
      obtain ⟨hrmpWatermark, stored, h⟩ := Option.bind_eq_some_iff.mp h
      cases h
      exact ⟨inherentData, found, not_not.mp compared, Exec.toOption_eq_some.mp executed, stored⟩

end Tuxedo.Parachain
