import Tuxedo.Parachain.ValidateBlock

/-!
# What the collator reports

The collator asks its own state after authoring, and the relay chain compares its answer with
that of the validators.
-/

namespace Tuxedo.Parachain
open Scale

structure CollationInfo where
  upwardMessages : List (Vec UInt8)
  horizontalMessages : List (Vec UInt8)
  newValidationCode : Option (Vec UInt8)
  processedDownwardMessages : UInt32
  hrmpWatermark : UInt32
  headData : Bytes
  deriving DecidableEq

/-- `none` is the panic of a state without a relay parent number. -/
def collectCollationInfo (header : Header) (s : Storage) : Option CollationInfo := do
  let hrmpWatermark ← RelayParentNumberStorage.get s
  return {
    upwardMessages := []
    horizontalMessages := []
    newValidationCode := none
    processedDownwardMessages := 0
    hrmpWatermark
    headData := encode header }

/-- The two say the same about a candidate, field by field. -/
structure Agree (result : ValidationResult) (info : CollationInfo) : Prop where
  headData : result.headData = info.headData
  hrmpWatermark : result.hrmpWatermark = info.hrmpWatermark
  newValidationCode : result.newValidationCode = info.newValidationCode
  upwardMessages : result.upwardMessages = info.upwardMessages
  horizontalMessages : result.horizontalMessages = info.horizontalMessages
  processedDownwardMessages : result.processedDownwardMessages = info.processedDownwardMessages

section
variable {V C : Type} [Host] [Verifier V] [Codec C] [ConstraintChecker V C] [ParachainConstraintChecker C]
  [RelayChain] [ProofDatabase]

/-- The params hold a block over the state of its parent, which the database reads like. -/
structure Presents (params : MemoryOptimizedValidationParams) (block : Block V C) (parentHeader : Header)
    (parentState : Storage) : Prop where
  parentHead : ∃ rest, decode params.parentHead = some (parentHeader, rest)
  blockData : ∃ storageProof rest,
    decode params.blockData = some ((⟨block.header, block.extrinsics, storageProof⟩ : ParachainBlockData V C), rest) ∧
    ∃ db, ProofDatabase.toMemoryDb parentHeader.stateRoot storageProof = some db ∧
      ∀ k, db.get k = parentState.get k

/-- Validation and collation read the same storage when the block executes to where its author
left it. -/
theorem Presents.agree {params : MemoryOptimizedValidationParams} {block : Block V C} {parentHeader : Header}
    {parentState post : Storage} (presents : Presents params block parentHeader parentState)
    (parentHash : block.header.parentHash = parentHeader.hash)
    {inherentData : ParachainInherentData} (found : blockInherentData block = some inherentData)
    (compared : validateValidationData inherentData.validationData params = true)
    (executed : Executive.executeBlock block parentState = .ok () post) {number : UInt32}
    (stored : RelayParentNumberStorage.get post = some number) :
    ∃ result info, validateBlock (V := V) (C := C) params = some (result, post) ∧
      collectCollationInfo block.header post = some info ∧ Agree result info := by
  obtain ⟨⟨rest, readHead⟩, storageProof, rest', readBlock, db, database, reads⟩ := presents
  obtain rfl : db = parentState := Store.ext reads
  refine ⟨⟨encode block.header, none, [], [], 0, number⟩, ⟨[], [], none, 0, number, encode block.header⟩, ?_, ?_,
    rfl, rfl, rfl, rfl, rfl, rfl⟩
  · unfold validateBlock
    rw [readBlock, readHead]
    simp only [Option.bind_eq_bind, Option.bind_some]
    rw [if_neg (not_not.mpr parentHash.symm), found, Option.bind_some, if_neg (not_not.mpr compared), database,
      Option.bind_some, Exec.toOption_eq_some.mpr executed, Option.bind_some, stored]
    rfl
  · rw [collectCollationInfo, stored]
    rfl

end
end Tuxedo.Parachain
