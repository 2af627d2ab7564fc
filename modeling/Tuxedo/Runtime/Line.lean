import Tuxedo.Parachain.Line
import Tuxedo.Runtime.Collation

/-!
# The parachain in line with the relay chain

With one info in the state, every block is built on a higher relay block than the block before it.
-/

namespace Tuxedo.ParachainRuntime
open Scale Executive TransparentUtxoSet Template Parachain

section
variable [Host] [RelayChain] {s s' : Storage} {number : UInt32}

/-- The state has one info, about the relay block with the number. -/
def OneInfo (s : Storage) (number : UInt32) : Prop :=
  ∃ r info, infoAt s r = some info ∧ relayParent info = number ∧ ∀ r' info', infoAt s r' = some info' → r' = r

omit [Host] in
theorem OneInfo.moved {t : Transaction} {txHash : H256} {evicted : OutputRef}
    {previous current : ParachainInherentDataUtxo} (one : OneInfo s number)
    (moves : MovesInfo t txHash s s' evicted previous current) :
    number < relayParent current ∧ OneInfo s' (relayParent current) := by
  obtain ⟨r, info, present, rfl, only⟩ := one
  obtain rfl := only evicted previous moves.before
  obtain rfl : info = previous := Option.some.inj (present.symm.trans moves.before)
  refine ⟨moves.higher, ⟨txHash, 0⟩, current, moves.new, rfl, ?_⟩
  intro r' info' present'
  rw [moves.after] at present'
  split at present'
  · assumption
  · rename_i other
    split at present'
    · cases present'
    · rename_i unspent
      exact absurd (only r' info' present') unspent

/-- Later inherents move the one info on, and the number of the relay parent with it. -/
theorem OneInfo.applied {xs : List Transaction} (applied : Applied s xs s') (one : OneInfo s number)
    (stored : RelayParentNumberStorage.get s = some number) :
    ∃ number', number ≤ number' ∧ OneInfo s' number' ∧ RelayParentNumberStorage.get s' = some number' := by
  induction applied generalizing number with
  | done s => exact ⟨number, UInt32.le_refl number, one, stored⟩
  | @apply s s₁ s' x xs applied _ ih =>
    obtain ⟨txHash, checked, accepted⟩ := apply_ok.mp applied
    cases parachain : isParachain x with
    | true =>
      obtain ⟨evicted, previous, current, moves⟩ := moves_info accepted parachain
      obtain ⟨higher, one⟩ := one.moved moves
      obtain ⟨number', above, rest⟩ := ih one moves.number
      exact ⟨number', UInt32.le_trans (UInt32.le_of_lt higher) above, rest⟩
    | false =>
      obtain ⟨infos, same⟩ := leaves_infos accepted parachain
      refine ih ?_ (same.trans stored)
      rwa [OneInfo, infos]

/-- A block with a parachain inherent is about a higher relay block than its parent, and reports at least
that. -/
theorem OneInfo.validated [ProofDatabase] {params : MemoryOptimizedValidationParams} {block : Block}
    {parentState post : Storage} {result : ValidationResult} (one : OneInfo parentState number)
    (describes : Describes params block parentState)
    (validated : validateBlock (V := OuterVerifier) (C := ParachainConstraintChecker) params = some (result, post)) :
    number < params.relayParentNumber ∧ params.relayParentNumber ≤ result.hrmpWatermark ∧
      OneInfo post result.hrmpWatermark := by
  obtain ⟨data, found, valid, executed, watermark⟩ := validateBlock_ok describes validated
  obtain ⟨inherent, first, _⟩ := Option.bind_eq_some_iff.mp found
  replace first : (openingInherents block).find? isParachain = some inherent := first
  obtain ⟨txHash, before, after, s, s', evicted, previous, current, around⟩ := executeBlock_around first executed
  obtain rfl : data = current.data := Option.some.inj (found.symm.trans (around.compared first))
  have compared : params.relayParentNumber = relayParent current := by
    simp only [validateValidationData, decide_eq_true_eq] at valid
    exact valid.2.1
  have start : OneInfo s number := by rwa [OneInfo, around.start]
  obtain ⟨higher, moved⟩ := start.moved around.moves
  obtain ⟨s₁, rest, infos, same⟩ := around.rest
  obtain ⟨number', above, left, stored⟩ := moved.applied rest around.moves.number
  obtain rfl : number' = result.hrmpWatermark := Option.some.inj (stored.symm.trans (same.symm.trans watermark))
  rw [compared]
  exact ⟨higher, above, by rwa [OneInfo, infos]⟩

variable [ProofDatabase] {c : Candidate OuterVerifier ParachainConstraintChecker}
  {cs : List (Candidate OuterVerifier ParachainConstraintChecker)}

theorem line_numbers (valid : ∀ x ∈ c :: cs, x.Valid) (line : List.IsChain Candidate.Extends (c :: cs))
    (one : OneInfo c.parentState number) :
    number < c.params.relayParentNumber ∧ (∀ x ∈ c :: cs, x.params.relayParentNumber ≤ x.result.hrmpWatermark) ∧
      List.IsChain (fun x y => x.result.hrmpWatermark < y.params.relayParentNumber) (c :: cs) := by
  induction cs generalizing c number with
  | nil =>
    have first := valid c List.mem_cons_self
    obtain ⟨higher, above, _⟩ := one.validated first.describes first.validated
    exact ⟨higher, List.forall_mem_singleton.mpr above, .singleton c⟩
  | cons c' cs ih =>
    have first := valid c List.mem_cons_self
    obtain ⟨higher, above, left⟩ := one.validated first.describes first.validated
    obtain ⟨extend, line⟩ := List.isChain_cons_cons.mp line
    rw [← extend.state] at left
    obtain ⟨rises, bounds, numbers⟩ := ih (fun x member => valid x (List.mem_cons_of_mem c member)) line left
    exact ⟨higher, List.forall_mem_cons.mpr ⟨above, bounds⟩, List.isChain_cons_cons.mpr ⟨rises, numbers⟩⟩

/-- The relay chain's line of heads is a run of the parachain on rising relay blocks. -/
theorem line_follows_relay_chain [LawfulProofs] (valid : ∀ x ∈ c :: cs, x.Valid)
    (line : List.IsChain Candidate.Follows (c :: cs)) (apart : RootsApart (c :: cs)) :
    Imported c.parentState ((c :: cs).map Candidate.block) ((c :: cs).getLast (List.cons_ne_nil c cs)).post ∧
      List.IsChain Candidate.Extends (c :: cs) ∧
      ∀ number, OneInfo c.parentState number →
        number < c.params.relayParentNumber ∧ (∀ x ∈ c :: cs, x.params.relayParentNumber ≤ x.result.hrmpWatermark) ∧
        List.IsChain (fun x y => x.result.hrmpWatermark < y.params.relayParentNumber) (c :: cs) := by
  have extended := line_extends valid line apart
  exact ⟨line_imports valid extended, extended, fun number one => line_numbers valid extended one⟩

end

/-! The collator goes on from its block on relay block 5 to one on relay block 8. -/

def movedHash : Bytes :=
  [195, 15, 7, 215, 35, 209, 230, 191, 252, 6, 5, 27, 127, 115, 133, 189, 63, 219, 138, 251, 163, 55, 122, 144, 143,
    179, 57, 134, 30, 10, 133, 92]

theorem movedHash_length : movedHash.length = 32 := rfl

def movedRef : OutputRef := ⟨⟨movedHash, movedHash_length⟩, 0⟩

def nextParent : Storage :=
  ((Store.empty.set heightKey (encode (2 : UInt32))).set relayParentNumberKey (encode (5 : UInt32))).set
    (encode movedRef) (encode (infoOutput ((Vec.ofList? (encode collationParentHeader)).getD Vec.empty) 5))

def nextMove : Transaction :=
  ⟨Vec.singleton ⟨movedRef, .eviction⟩, Vec.empty,
    Vec.singleton (infoOutput ((Vec.ofList? (encode singleBlock.header)).getD Vec.empty) 8), .parachainInfo ⟨⟨⟩⟩⟩

def nextBlock : Block :=
  ⟨{ parentHash := Blake2b.blake2b256 (encode singleBlock.header)
     number := 3
     stateRoot := FixedBytes.zero 32
     extrinsicsRoot := singleBlock.header.extrinsicsRoot
     digest := Vec.empty }, Vec.singleton nextMove⟩

def nextParams : MemoryOptimizedValidationParams where
  parentHead := encode singleBlock.header
  blockData := encode (⟨nextBlock.header, nextBlock.extrinsics, Vec.empty⟩ :
    ParachainBlockData OuterVerifier ParachainConstraintChecker)
  relayParentNumber := 8
  relayParentStorageRoot := FixedBytes.zero 32

@[reducible] def lineHost : Host :=
  Host.native (fun _ _ _ => false)
    (fun _ s =>
      if s.get relayParentNumberKey = some (encode (1 : UInt32)) then collationParentHeader.stateRoot
      else if s.get relayParentNumberKey = some (encode (5 : UInt32)) then singleBlock.header.stateRoot
      else FixedBytes.zero 32)
    (fun _ _ => singleBlock.header.extrinsicsRoot)

@[reducible] def lineDatabase : ProofDatabase where
  toMemoryDb root proof :=
    if root = collationParentHeader.stateRoot ∧ proof = collationProof then some collationParent
    else if root = singleBlock.header.stateRoot ∧ proof = Vec.empty then some nextParent
    else none

theorem oneInfo_collationParent :
    letI := plainRelay
    OneInfo collationParent 1 := by
  let := plainRelay
  have apart : ∀ r, r ≠ parentInfoRef → peekUtxo OuterVerifier collationParent r = none := by
    intro r other
    rw [collationParent, peek_set, if_neg other]
    have same : SameUtxos Store.empty ((Store.empty.set heightKey (encode (1 : UInt32))).set relayParentNumberKey
        (encode (1 : UInt32))) := (SameUtxos.set _ (by decide)).trans (.set _ (by decide))
    exact (same.peek r).trans rfl
  have extracted := infoOutput_extract Vec.empty 1 (by decide +kernel)
  refine ⟨parentInfoRef, plainInfo Vec.empty 1, dataAt_eq_some.mpr ⟨_, rfl, extracted⟩, rfl, fun r info present => ?_⟩
  by_contra other
  obtain ⟨output, there, _⟩ := dataAt_eq_some.mp present
  rw [apart r other] at there
  cases there

theorem lineDatabase_lawful :
    letI := lineHost
    letI := lineDatabase
    LawfulProofs := by
  let := lineHost
  let := lineDatabase
  refine ⟨fun {root proof db} unfolds => ?_⟩
  change (if root = collationParentHeader.stateRoot ∧ proof = collationProof then some collationParent
    else if root = singleBlock.header.stateRoot ∧ proof = Vec.empty then some nextParent else none) = some db at unfolds
  split at unfolds
  · rename_i first
    obtain rfl := Option.some.inj unfolds
    rw [first.1]
    decide +kernel
  · split at unfolds
    · rename_i second
      obtain rfl := Option.some.inj unfolds
      rw [second.1]
      decide +kernel
    · cases unfolds

theorem line_computed :
    letI := lineHost
    letI := plainRelay
    letI := lineDatabase
    ((validateBlock (V := OuterVerifier) (C := ParachainConstraintChecker) (collationParams singleBlock)).any
        fun answer => answer.1.headData = encode singleBlock.header ∧ answer.2 = nextParent) = true ∧
      ((validateBlock (V := OuterVerifier) (C := ParachainConstraintChecker) nextParams).any
        fun answer => Host.storageRoot .v1 answer.2 = FixedBytes.zero 32) = true := by
  decide +kernel

theorem line_follows_relay_chain_twice :
    letI := lineHost
    letI := plainRelay
    letI := lineDatabase
    ∃ c c' : Candidate OuterVerifier ParachainConstraintChecker, c.params = collationParams singleBlock ∧
      c'.params = nextParams ∧ Imported collationParent [singleBlock, nextBlock] c'.post ∧
      c.result.hrmpWatermark < 8 := by
  let := lineHost
  let := plainRelay
  let := lineDatabase
  have := lineDatabase_lawful
  obtain ⟨first, second⟩ := line_computed
  obtain ⟨⟨result, post⟩, validated, test⟩ := (Option.any_eq_true _ _).mp first
  obtain ⟨⟨result', post'⟩, validated', test'⟩ := (Option.any_eq_true _ _).mp second
  obtain ⟨head, rfl⟩ := of_decide_eq_true test
  have zero : Host.storageRoot .v1 post' = FixedBytes.zero 32 := of_decide_eq_true test'
  let c : Candidate OuterVerifier ParachainConstraintChecker :=
    ⟨collationParams singleBlock, result, singleBlock, collationParent, nextParent⟩
  let c' : Candidate OuterVerifier ParachainConstraintChecker := ⟨nextParams, result', nextBlock, nextParent, post'⟩
  have describes : Describes (collationParams singleBlock) singleBlock collationParent :=
    ⟨⟨singleBlock.header, singleBlock.extrinsics, collationProof⟩, collationParentHeader, [], [], decode_encode_nil _,
      rfl, decode_encode_nil _, if_pos ⟨rfl, rfl⟩⟩
  have describes' : Describes nextParams nextBlock nextParent :=
    ⟨⟨nextBlock.header, nextBlock.extrinsics, Vec.empty⟩, singleBlock.header, [], [], decode_encode_nil _, rfl,
      decode_encode_nil _, (if_neg (by decide)).trans (if_pos ⟨rfl, rfl⟩)⟩
  have valid : ∀ x ∈ [c, c'], x.Valid :=
    List.forall_mem_cons.mpr ⟨⟨describes, validated⟩, List.forall_mem_singleton.mpr ⟨describes', validated'⟩⟩
  have line : List.IsChain Candidate.Follows [c, c'] := .cons_cons head.symm (.singleton c')
  have apart : RootsApart [c, c'] := by
    have first : Host.storageRoot .v1 collationParent = collationParentHeader.stateRoot := by decide +kernel
    have second : Host.storageRoot .v1 nextParent = singleBlock.header.stateRoot := by decide +kernel
    refine List.forall_mem_cons.mpr ⟨?_, List.forall_mem_singleton.mpr ?_⟩
    · refine List.forall_mem_cons.mpr ⟨fun same => ?_, List.forall_mem_singleton.mpr fun _ => rfl⟩
      exact absurd (first.symm.trans (same.trans second)) (by decide)
    · refine List.forall_mem_cons.mpr ⟨fun same => ?_, List.forall_mem_singleton.mpr fun same => ?_⟩
      · exact absurd (first.symm.trans (same.trans zero)) (by decide)
      · exact absurd (second.symm.trans (same.trans zero)) (by decide)
  obtain ⟨run, _, numbers⟩ := line_follows_relay_chain valid line apart
  obtain ⟨_, _, rising⟩ := numbers 1 oneInfo_collationParent
  exact ⟨c, c', rfl, rfl, run, (List.isChain_cons_cons.mp rising).1⟩

end Tuxedo.ParachainRuntime
