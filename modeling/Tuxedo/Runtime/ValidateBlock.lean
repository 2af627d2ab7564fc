import Tuxedo.Runtime.ParachainInfo

/-!
# What a validated block reports

The data that is compared with the params comes from the first parachain inherent of the
block, the watermark and the info that is left from the last one.
-/

namespace Tuxedo.ParachainRuntime
open Scale Executive TransparentUtxoSet DynamicallyTypedData Template Parachain

section
variable [Host] [RelayChain]

/-- Some parachain inherent of the list creates the reference. -/
def MadeBy (xs : List Transaction) (r : OutputRef) : Prop :=
  ∃ t ∈ xs, isParachain t = true ∧ ∃ output, creates t r = some output

/-- The info that was compared is left where its inherent put it, and no parachain inherent of
the block has left another. -/
structure Left (block : Block) (parentState post : Storage) (inherent : Transaction) (txHash : H256)
    (compared : ParachainInherentData) : Prop where
  first : (openingInherents block).find? isParachain = some inherent
  hash : inherent.id? = some txHash
  data : blockInherentData block = some compared
  present : infoAt post ⟨txHash, 0⟩ = some ⟨compared⟩
  others : ∀ r info, infoAt post r = some info → r ≠ ⟨txHash, 0⟩ →
    infoAt parentState r = some info ∧ ¬MadeBy block.extrinsics.toList r

/-- The result and the state say what was compared with the params. -/
def Reports (params : MemoryOptimizedValidationParams) (block : Block) (parentState : Storage)
    (result : ValidationResult) (post : Storage) : Prop :=
  result.hrmpWatermark = params.relayParentNumber ∧
    ∃ inherent txHash compared, Left block parentState post inherent txHash compared

/-! ### Overtaken infos -/

variable {t : Transaction} {txHash : H256} {s s' : Storage} {xs : List Transaction} {first evicted : OutputRef}
  {info previous current : ParachainInherentDataUtxo}

/-- A later inherent has moved the info on, or has left an info beside it. -/
def Overtaken (xs : List Transaction) (first : OutputRef) (info : ParachainInherentDataUtxo) (s : Storage) : Prop :=
  (∃ r later, MadeBy xs r ∧ infoAt s r = some later ∧ relayParent info < relayParent later) ∨
    (infoAt s first = some info ∧ ∃ r later, MadeBy xs r ∧ r ≠ first ∧ infoAt s r = some later)

theorem MovesInfo.made (moves : MovesInfo t txHash s s' evicted previous current) (hash : t.id? = some txHash)
    (member : t ∈ xs) (parachain : isParachain t = true) : MadeBy xs ⟨txHash, 0⟩ := by
  obtain ⟨output, one, _⟩ := moves.creates
  exact ⟨t, member, parachain, output, creates_eq_some.mpr ⟨hash, by simp [one]⟩⟩

/-- A parachain inherent overtakes an info that is there. -/
theorem MovesInfo.overtakes (moves : MovesInfo t txHash s s' evicted previous current)
    (made : MadeBy xs ⟨txHash, 0⟩) (present : infoAt s first = some info) : Overtaken xs first info s' := by
  by_cases same : first = evicted
  · have equal : info = previous := by
      rw [same, moves.before] at present
      exact (Option.some.inj present).symm
    exact Or.inl ⟨_, current, made, moves.new, equal ▸ moves.higher⟩
  · obtain ⟨other, kept⟩ := moves.kept present same
    exact Or.inr ⟨kept, _, current, made, other.symm, moves.new⟩

theorem overtaken_moves (moves : MovesInfo t txHash s s' evicted previous current)
    (made : MadeBy xs ⟨txHash, 0⟩) (overtaken : Overtaken xs first info s) : Overtaken xs first info s' := by
  rcases overtaken with ⟨r, later, madeR, present, higher⟩ | ⟨present, _⟩
  · by_cases same : r = evicted
    · have equal : later = previous := by
        rw [same, moves.before] at present
        exact (Option.some.inj present).symm
      exact Or.inl ⟨_, current, made, moves.new, UInt32.lt_trans (equal ▸ higher) moves.higher⟩
    · exact Or.inl ⟨r, later, madeR, (moves.kept present same).2, higher⟩
  · exact moves.overtakes made present

theorem overtaken_run {ys : List Transaction} (applied : Applied s ys s') (within : ∀ y ∈ ys, y ∈ xs)
    (overtaken : Overtaken xs first info s) : Overtaken xs first info s' := by
  induction applied with
  | done s => exact overtaken
  | @apply s s₁ s' y ys applied _ ih =>
    obtain ⟨member, within⟩ := List.forall_mem_cons.mp within
    refine ih within ?_
    obtain ⟨_, _, accepted⟩ := apply_ok.mp applied
    cases parachain : isParachain y with
    | true =>
      obtain ⟨_, _, _, moves⟩ := moves_info accepted parachain
      exact overtaken_moves moves (moves.made accepted.hash member parachain) overtaken
    | false =>
      unfold Overtaken
      rw [(leaves_infos accepted parachain).1]
      exact overtaken

/-- With a second parachain inherent the info of the first is overtaken. -/
theorem overtaken_of_second {ys : List Transaction} (applied : Applied s ys s') (within : ∀ y ∈ ys, y ∈ xs)
    (present : infoAt s first = some info) (second : ∃ y ∈ ys, isParachain y = true) : Overtaken xs first info s' := by
  induction applied with
  | done s =>
    obtain ⟨_, member, _⟩ := second
    cases member
  | @apply s s₁ s' y ys applied rest ih =>
    obtain ⟨member, within⟩ := List.forall_mem_cons.mp within
    obtain ⟨_, _, accepted⟩ := apply_ok.mp applied
    cases parachain : isParachain y with
    | true =>
      obtain ⟨_, _, _, moves⟩ := moves_info accepted parachain
      exact overtaken_run rest within (moves.overtakes (moves.made accepted.hash member parachain) present)
    | false =>
      obtain ⟨z, among, info⟩ := second
      rcases List.mem_cons.mp among with rfl | among
      · rw [parachain] at info
        cases info
      · exact ih within (by rw [(leaves_infos accepted parachain).1]; exact present) ⟨z, among, info⟩

section
variable {block : Block} {parentState post : Storage} {inherent : Transaction} {before after : List Transaction}

theorem Left.not_overtaken {compared : ParachainInherentData}
    (left : Left block parentState post inherent txHash compared) :
    ¬Overtaken block.extrinsics.toList ⟨txHash, 0⟩ ⟨compared⟩ post := by
  rintro (⟨r, later, made, present, higher⟩ | ⟨_, r, later, made, other, present⟩)
  · by_cases same : r = ⟨txHash, 0⟩
    · rw [same, left.present] at present
      cases present
      exact UInt32.lt_irrefl _ higher
    · exact (left.others r later present same).2 made
  · exact (left.others r later present other).2 made

/-! ### One parachain inherent -/

theorem Around.compared
    (around : Around block parentState post inherent txHash before after s s' evicted previous current)
    (first : (openingInherents block).find? isParachain = some inherent) :
    blockInherentData block = some current.data := by
  obtain ⟨output, one, extracted⟩ := around.moves.creates
  exact blockInherentData_of_first first one extracted

/-- One parachain inherent makes one reference. -/
theorem Around.not_made
    (around : Around block parentState post inherent txHash before after s s' evicted previous current)
    (single : ∀ x ∈ after, isParachain x = false) {r : OutputRef} (other : r ≠ ⟨txHash, 0⟩) :
    ¬MadeBy block.extrinsics.toList r := by
  rintro ⟨t, member, parachain, output, made⟩
  rw [around.body] at member
  rcases List.mem_append.mp member with early | member
  · rw [around.none_before t early] at parachain
    cases parachain
  · rcases List.mem_cons.mp member with rfl | late
    · obtain ⟨output', one, _⟩ := around.moves.creates
      exact other (eq_of_creates_single one around.hash made)
    · rw [single t late] at parachain
      cases parachain

/-- The info of the first inherent is left only if no later one overtakes it. -/
theorem Around.single_of_left
    (around : Around block parentState post inherent txHash before after s s' evicted previous current)
    (left : Left block parentState post inherent txHash current.data) : ∀ x ∈ after, isParachain x = false := by
  intro x member
  by_contra parachain
  obtain ⟨s₁, rest, infos, _⟩ := around.rest
  have within : ∀ y ∈ after, y ∈ block.extrinsics.toList := by
    intro y inside
    rw [around.body]
    exact List.mem_append_right _ (List.mem_cons_of_mem _ inside)
  have overtaken := overtaken_of_second rest within around.moves.new ⟨x, member, by simpa using parachain⟩
  apply left.not_overtaken
  unfold Overtaken
  rw [infos]
  exact overtaken

theorem Around.left
    (around : Around block parentState post inherent txHash before after s s' evicted previous current)
    (first : (openingInherents block).find? isParachain = some inherent) (single : ∀ x ∈ after, isParachain x = false) :
    Left block parentState post inherent txHash current.data := by
  obtain ⟨s₁, rest, infos, _⟩ := around.rest
  rw [(others_leave_infos rest single).1] at infos
  refine ⟨first, around.hash, around.compared first, ?_, ?_⟩
  · rw [infos]
    exact around.moves.new
  · intro r info present other
    rw [infos, around.moves.after, if_neg other] at present
    split at present
    · cases present
    · rw [around.start] at present
      exact ⟨present, around.not_made single other⟩

end

/-- A block that validates is reported as it was compared exactly when it has one parachain
inherent. -/
theorem validateBlock_reports_iff [ProofDatabase] (params : MemoryOptimizedValidationParams) (block : Block)
    (parentState post : Storage) (result : ValidationResult) (describes : Describes params block parentState)
    (validated : validateBlock (V := OuterVerifier) (C := ParachainConstraintChecker) params = some (result, post)) :
    Reports params block parentState result post ↔ (block.extrinsics.toList.filter isParachain).length = 1 := by
  obtain ⟨data, found, valid, executed, watermark⟩ := validateBlock_ok describes validated
  obtain ⟨inherent, first, _⟩ := Option.bind_eq_some_iff.mp found
  replace first : (openingInherents block).find? isParachain = some inherent := first
  obtain ⟨txHash, before, after, s, s', evicted, previous, current, around⟩ := executeBlock_around first executed
  have compared := around.compared first
  rw [around.single_iff]
  constructor
  · rintro ⟨_, inherent', txHash', data', left⟩
    obtain rfl : inherent' = inherent := Option.some.inj (left.first.symm.trans first)
    obtain rfl : txHash' = txHash := Option.some.inj (left.hash.symm.trans around.hash)
    obtain rfl : data' = current.data := Option.some.inj (left.data.symm.trans compared)
    exact around.single_of_left left
  · intro single
    obtain ⟨s₁, rest, _, number⟩ := around.rest
    obtain rfl : data = current.data := Option.some.inj (found.symm.trans compared)
    have numbers : result.hrmpWatermark = relayParent current := by
      rw [number, (others_leave_infos rest single).2, around.moves.number] at watermark
      exact (Option.some.inj watermark).symm
    have same : params.relayParentNumber = relayParent current := by
      simp only [validateValidationData, decide_eq_true_eq] at valid
      exact valid.2.1
    exact ⟨numbers.trans same.symm, inherent, txHash, current.data, around.left first single⟩

end

/-! ### One and two parachain inherents

A collator that saw relay block 5 puts the info about it in its block. With a second info in the
block, about relay block 9, the first one is compared and the second one is reported. -/

def parentInfoRef : OutputRef := ⟨FixedBytes.zero 32, 0⟩

def collationParent : Storage :=
  ((Store.empty.set heightKey (encode (1 : UInt32))).set relayParentNumberKey (encode (1 : UInt32))).set
    (encode parentInfoRef) (encode (infoOutput Vec.empty 1))

def collationParentHeader : Header where
  parentHash := FixedBytes.zero 32
  number := 1
  stateRoot := ⟨[68, 66, 176, 133, 245, 17, 172, 137, 212, 9, 57, 192, 254, 162, 109, 73, 243, 134, 179, 36, 98, 239,
    113, 87, 119, 36, 170, 215, 184, 2, 114, 185], rfl⟩
  extrinsicsRoot := emptyTrieRoot
  digest := Vec.empty

/-- The nodes of the trie over the parent state: the root with the height and the number inline,
the leaf of the info and the value that the leaf refers to. -/
def collationProof : Vec (Vec UInt8) :=
  let vec (bytes : Bytes) : Vec UInt8 := (Vec.ofList? bytes).getD Vec.empty
  ⟨[vec ([128, 193, 0, 0, 48, 75, 8] ++ heightKey.tail ++ [16, 1, 0, 0, 0] ++
      [100, 101, 2] ++ relayParentNumberKey.tail ++ [16, 1, 0, 0, 0]),
    vec ([1, 127, 8] ++ List.replicate 36 0 ++ [0]),
    vec (encode (infoOutput Vec.empty 1))], by decide⟩

@[reducible] def collationDatabase : ProofDatabase where
  toMemoryDb root proof :=
    if root = collationParentHeader.stateRoot ∧ proof = collationProof then some collationParent else none

def moveInfo (evicted : OutputRef) (number : UInt32) : Transaction :=
  let parentHead := (Vec.ofList? (encode collationParentHeader)).getD Vec.empty
  ⟨Vec.singleton ⟨evicted, .eviction⟩, Vec.empty, Vec.singleton (infoOutput parentHead number), .parachainInfo ⟨⟨⟩⟩⟩

def firstMove : Transaction := moveInfo parentInfoRef 5

/-- The second one evicts the output of the first. -/
def secondMove : Transaction :=
  moveInfo ⟨⟨[195, 15, 7, 215, 35, 209, 230, 191, 252, 6, 5, 27, 127, 115, 133, 189, 63, 219, 138, 251, 163, 55, 122,
    144, 143, 179, 57, 134, 30, 10, 133, 92], rfl⟩, 0⟩ 9

def collationHeader (stateRoot extrinsicsRoot : H256) : Header where
  parentHash := ⟨[178, 158, 57, 224, 66, 40, 150, 238, 33, 160, 234, 125, 216, 236, 99, 47, 81, 45, 88, 150, 36, 92,
    227, 158, 253, 42, 132, 178, 176, 235, 61, 213], rfl⟩
  number := 2
  stateRoot
  extrinsicsRoot
  digest := Vec.empty

def collationParams (block : Block) : MemoryOptimizedValidationParams where
  parentHead := encode collationParentHeader
  blockData := encode (⟨block.header, block.extrinsics, collationProof⟩ :
    ParachainBlockData OuterVerifier ParachainConstraintChecker)
  relayParentNumber := 5
  relayParentStorageRoot := FixedBytes.zero 32

@[reducible] def collationHost (block : Block) : Host :=
  Host.native (fun _ _ _ => false) (fun _ _ => block.header.stateRoot) (fun _ _ => block.header.extrinsicsRoot)

def doubleBlock : Block :=
  ⟨collationHeader
    ⟨[32, 140, 121, 158, 39, 57, 66, 118, 230, 74, 100, 227, 23, 59, 195, 218, 235, 250, 35, 64, 67, 234, 196, 135, 103,
      22, 179, 153, 177, 11, 244, 196], rfl⟩
    ⟨[234, 133, 219, 216, 22, 216, 147, 131, 72, 2, 177, 4, 186, 166, 69, 73, 34, 219, 120, 56, 221, 231, 195, 118, 157,
      165, 173, 114, 55, 254, 124, 130], rfl⟩,
    ⟨[firstMove, secondMove], by decide⟩⟩

theorem collation_describes [Host] (block : Block) :
    letI := plainRelay
    letI := collationDatabase
    Describes (collationParams block) block collationParent := by
  refine ⟨⟨block.header, block.extrinsics, collationProof⟩, collationParentHeader, [], [], decode_encode_nil _, rfl,
    decode_encode_nil _, ?_⟩
  exact if_pos ⟨rfl, rfl⟩

/-- The two parachain inherents pass, and the watermark is that of the second. -/
theorem second_info_reported :
    letI := collationHost doubleBlock
    letI := plainRelay
    letI := collationDatabase
    Describes (collationParams doubleBlock) doubleBlock collationParent ∧
    ∃ result post, validateBlock (V := OuterVerifier) (C := ParachainConstraintChecker) (collationParams doubleBlock) =
        some (result, post) ∧
      result.hrmpWatermark = 9 ∧ ¬Reports (collationParams doubleBlock) doubleBlock collationParent result post := by
  let := collationHost doubleBlock
  let := plainRelay
  let := collationDatabase
  have computed : (validateBlock (V := OuterVerifier) (C := ParachainConstraintChecker)
      (collationParams doubleBlock)).any (fun answer => answer.1.hrmpWatermark = 9) = true := by decide +kernel
  obtain ⟨⟨result, post⟩, validated, watermark⟩ := (Option.any_eq_true _ _).mp computed
  have nine : result.hrmpWatermark = 9 := by simpa using watermark
  refine ⟨collation_describes doubleBlock, result, post, validated, nine, ?_⟩
  rintro ⟨same, _⟩
  rw [nine] at same
  exact absurd same (by decide)

def singleBlock : Block :=
  ⟨collationHeader
    ⟨[14, 87, 234, 42, 20, 249, 136, 133, 129, 148, 148, 31, 163, 20, 170, 58, 232, 62, 142, 39, 79, 98, 219, 57, 239,
      197, 18, 107, 118, 59, 178, 252], rfl⟩
    ⟨[235, 25, 210, 222, 42, 126, 7, 89, 144, 207, 94, 244, 186, 92, 12, 48, 24, 182, 255, 155, 168, 34, 179, 234, 92,
      122, 167, 142, 162, 193, 20, 49], rfl⟩,
    Vec.singleton firstMove⟩

theorem validateBlock_reports_single :
    letI := collationHost singleBlock
    letI := plainRelay
    letI := collationDatabase
    Describes (collationParams singleBlock) singleBlock collationParent ∧
    ∃ result post, validateBlock (V := OuterVerifier) (C := ParachainConstraintChecker) (collationParams singleBlock) =
        some (result, post) ∧ Reports (collationParams singleBlock) singleBlock collationParent result post := by
  let := collationHost singleBlock
  let := plainRelay
  let := collationDatabase
  have computed : (validateBlock (V := OuterVerifier) (C := ParachainConstraintChecker)
      (collationParams singleBlock)).isSome = true := by decide +kernel
  obtain ⟨⟨result, post⟩, validated⟩ := Option.isSome_iff_exists.mp computed
  have describes := collation_describes singleBlock
  exact ⟨describes, result, post, validated,
    (validateBlock_reports_iff _ _ _ _ _ describes validated).mpr rfl⟩

end Tuxedo.ParachainRuntime
