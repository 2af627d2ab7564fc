import Tuxedo.Parachain.Collation
import Tuxedo.Runtime.InfoHistory
import Tuxedo.Runtime.ValidateBlock

/-!
# The collator and the validators

What the collator reports about a block that it authored, the validators find as well.
-/

namespace Tuxedo.ParachainRuntime
open Scale Executive TransparentUtxoSet DynamicallyTypedData Template Parachain

section
variable [Host] [RelayChain]

/-- The first parachain inherent carries the data of the params. -/
def Carries (params : MemoryOptimizedValidationParams) (xs : List Transaction) : Prop :=
  ∃ inherent output info, xs.find? isParachain = some inherent ∧ inherent.outputs.toList[0]? = some output ∧
    output.payload.extract ParachainInherentDataUtxo = .ok info ∧
    info.data.validationData.parentHead.toList = params.parentHead ∧
    info.data.validationData.relayParentNumber = params.relayParentNumber ∧
    info.data.validationData.relayParentStorageRoot = params.relayParentStorageRoot

theorem apply_blind {k : Bytes} (width : k.length ≠ 36) (notHeight : k ≠ heightKey) (notCode : k ≠ codeKey)
    (t : Transaction) : (applyTuxedoTransaction t).Respects (Store.SameBut k) :=
  apply_respects width notHeight (check_respects notHeight notCode t.checker)

theorem find_opening {block : Block} (first : InherentsFirst OuterVerifier block.extrinsics.toList) :
    (openingInherents block).find? isParachain = block.extrinsics.toList.find? isParachain := by
  have opening : openingInherents block = block.extrinsics.toList.filter isInherent := takeWhile_eq_filter first
  rw [opening, List.find?_filter]
  congr 1
  funext t
  cases parachain : isParachain t with
  | false => simp
  | true => simp [info_inherent t parachain]

/-- A parachain inherent stores a number, and no extrinsic takes it away. -/
theorem number_stored {s s' : Storage} {xs : List Transaction} (applied : Applied s xs s')
    (storing : (∃ x ∈ xs, isParachain x = true) ∨ ∃ number, RelayParentNumberStorage.get s = some number) :
    ∃ number, RelayParentNumberStorage.get s' = some number := by
  induction applied with
  | done s =>
    rcases storing with ⟨_, member, _⟩ | stored
    · cases member
    · exact stored
  | @apply s s₁ s' x xs applied _ ih =>
    obtain ⟨_, _, accepted⟩ := apply_ok.mp applied
    apply ih
    cases parachain : isParachain x with
    | true =>
      obtain ⟨_, _, _, moves⟩ := moves_info accepted parachain
      exact Or.inr ⟨_, moves.number⟩
    | false =>
      rcases storing with ⟨y, member, found⟩ | ⟨number, stored⟩
      · refine Or.inl ⟨y, ?_, found⟩
        rcases List.mem_cons.mp member with rfl | later
        · rw [parachain] at found
          cases found
        · exact later
      · exact Or.inr ⟨number, (leaves_infos accepted parachain).2.trans stored⟩

/-- Validation returns for every block that was authored on the state of its parent, with what
the author's own state says about the block. -/
theorem collator_validator_agree [ProofDatabase] (parentState authored : Storage)
    (parentHeader header closed : Header) (xs : Vec Transaction) (params : MemoryOptimizedValidationParams)
    (state : BlockState OuterVerifier ParachainConstraintChecker parentState)
    (parentHash : header.parentHash = parentHeader.hash)
    (authors : authorBlock header xs.toList parentState = .ok closed authored)
    (inherentsFirst : InherentsFirst OuterVerifier xs.toList) (carries : Carries params xs.toList)
    (presents : Presents params (⟨closed, xs⟩ : Block) parentHeader parentState) :
    ∃ result post info,
      validateBlock (V := OuterVerifier) (C := ParachainConstraintChecker) params = some (result, post) ∧
      collectCollationInfo closed authored = some info ∧ Agree result info := by
  obtain ⟨executed, sameParent⟩ := executeBlock_of_authored (apply_blind (by decide) (by decide) (by decide))
    state.unnoted inherentsFirst authors
  obtain ⟨inherent, output, data, first, one, extracted, head, number, root⟩ := carries
  have found : blockInherentData (⟨closed, xs⟩ : Block) = some data.data := by
    have opening : (openingInherents (⟨closed, xs⟩ : Block)).find? isParachain = some inherent :=
      (find_opening inherentsFirst).trans first
    unfold blockInherentData
    change ((openingInherents (⟨closed, xs⟩ : Block)).find? isParachain).bind _ = _
    rw [opening]
    simp [one, toOption_extract.mpr extracted]
  have compared : validateValidationData data.data.validationData params = true := by
    simp [validateValidationData, head, number, root]
  obtain ⟨_, ⟨s₁, applied, rfl⟩, _⟩ := executeBlock_ok.mp executed
  have parachain : ∃ x ∈ xs.toList, isParachain x = true :=
    ⟨inherent, List.mem_of_find?_eq_some first, List.find?_some first⟩
  obtain ⟨watermark, stored⟩ := number_stored applied (Or.inl parachain)
  have kept : RelayParentNumberStorage.get (s₁.clear headerKey) = some watermark := by
    rw [RelayParentNumberStorage.get, Store.get_clear_ne _ (by decide)]
    exact stored
  obtain ⟨result, info, validated, collected, agree⟩ :=
    presents.agree (sameParent.trans parentHash) found compared executed kept
  exact ⟨result, _, info, validated, collected, agree⟩

end

/-! The collator that saw relay block 5 opens its block without roots. -/

def openedHeader : Header := collationHeader (FixedBytes.zero 32) (FixedBytes.zero 32)

theorem collationParent_state :
    letI := collationHost singleBlock
    letI := plainRelay
    BlockState OuterVerifier ParachainConstraintChecker collationParent := by
  let := collationHost singleBlock
  let := plainRelay
  have absent : collationParent.clear extrinsicKey = collationParent := by decide +kernel
  have state := BlockState.genesis (V := OuterVerifier) (C := ParachainConstraintChecker) .v1 collationParent
  exact absent ▸ state

def plainInfo (parentHead : Vec UInt8) (number : UInt32) :
    letI := plainRelay
    ParachainInherentDataUtxo :=
  letI := plainRelay
  ⟨⟨⟨parentHead, number, FixedBytes.zero 32, 0⟩, Vec.empty, Vec.empty, Vec.empty⟩⟩

theorem infoOutput_extract (parentHead : Vec UInt8) (number : UInt32) :
    letI := plainRelay
    (encode (plainInfo parentHead number)).length < 2 ^ 32 →
      (infoOutput parentHead number).payload.extract ParachainInherentDataUtxo = .ok (plainInfo parentHead number) := by
  let := plainRelay
  intro small
  obtain ⟨payload, stored⟩ := exists_into? (plainInfo parentHead number) small
  have whole : (infoOutput parentHead number).payload =
      (into? (plainInfo parentHead number)).getD ⟨Vec.empty, FixedBytes.zero 4⟩ := rfl
  rw [whole, stored, Option.getD_some]
  exact extract_into? stored

theorem firstMove_carries :
    letI := plainRelay
    Carries (collationParams singleBlock) singleBlock.extrinsics.toList := by
  let := plainRelay
  let parentHead : Vec UInt8 := (Vec.ofList? (encode collationParentHeader)).getD Vec.empty
  have head : parentHead.toList = encode collationParentHeader := by decide +kernel
  exact ⟨firstMove, infoOutput parentHead 5, plainInfo parentHead 5, rfl, rfl,
    infoOutput_extract parentHead 5 (by decide +kernel), head, rfl, rfl⟩

theorem collator_validator_agree_single :
    letI := collationHost singleBlock
    letI := plainRelay
    letI := collationDatabase
    ∃ result post info authored,
      authorBlock openedHeader singleBlock.extrinsics.toList collationParent = .ok singleBlock.header authored ∧
      validateBlock (V := OuterVerifier) (C := ParachainConstraintChecker) (collationParams singleBlock) =
        some (result, post) ∧
      collectCollationInfo singleBlock.header authored = some info ∧ Agree result info := by
  let := collationHost singleBlock
  let := plainRelay
  let := collationDatabase
  obtain ⟨closed, authored, authors, test⟩ := Exec.exists_of_any
    (x := authorBlock openedHeader singleBlock.extrinsics.toList) (s := collationParent)
    (p := fun answer => answer.1 = singleBlock.header) (by decide +kernel)
  obtain rfl : closed = singleBlock.header := by simpa using test
  have presents : Presents (collationParams singleBlock) singleBlock collationParentHeader collationParent :=
    ⟨⟨[], decode_encode_nil _⟩, collationProof, [], decode_encode_nil _, collationParent, if_pos ⟨rfl, rfl⟩,
      fun _ => rfl⟩
  have first : InherentsFirst OuterVerifier singleBlock.extrinsics.toList :=
    ⟨[firstMove], [], rfl, by simp; rfl, by simp⟩
  obtain ⟨result, post, info, validated, collected, agree⟩ := collator_validator_agree collationParent authored
    collationParentHeader openedHeader singleBlock.header singleBlock.extrinsics (collationParams singleBlock)
    collationParent_state (by decide +kernel) authors first firstMove_carries presents
  exact ⟨result, post, info, authored, authors, validated, collected, agree⟩

end Tuxedo.ParachainRuntime
