import Tuxedo.Executive.Typed
import Tuxedo.Runtime.Pieces
import Tuxedo.Runtime.Parachain

/-!
# Parachain infos and the relay parent number

Only the parachain inherent touches the infos and the number: it moves one info on to a higher
relay parent and stores the number of that. Every other extrinsic leaves both alone.
-/

namespace Tuxedo.ParachainRuntime
open Scale Executive TransparentUtxoSet DynamicallyTypedData Template Parachain

section
variable [RelayChain]

/-- No payload of a template piece is a parachain info. -/
theorem not_info_of_owns {piece : Piece} {d : DynamicallyTypedData} (owns : piece.Owns d) :
    ¬Extracts ParachainInherentDataUtxo d := by
  intro extracts
  have same : piece.typeId = ⟨[112, 97, 114, 97], rfl⟩ := owns.typeId.symm.trans extracts.typeId
  cases piece <;> exact absurd same (by decide)

/-- The relay parent that an info names. -/
def relayParent (info : ParachainInherentDataUtxo) : UInt32 := info.data.validationData.relayParentNumber

def infoAt (s : Storage) (r : OutputRef) : Option ParachainInherentDataUtxo :=
  dataAt OuterVerifier ParachainInherentDataUtxo s r

end

section
variable [Host] [RelayChain]

theorem check_info_ok {checker : InherentAdapter (SetParachainInfo RuntimeParachainConfig)}
    {inputs evicted peeks outputs : List DynamicallyTypedData} {priority : UInt64} {s s' : Storage}
    (h : ParachainConstraintChecker.check (.parachainInfo checker) inputs evicted peeks outputs s = .ok priority s') :
    inputs = [] ∧ ∃ previous current, Advances evicted outputs previous current ∧
      s' = RelayParentNumberStorage.set current.validationData.relayParentNumber s := by
  obtain ⟨noInputs, _, rest⟩ := SetParachainInfo.check_ok.mp (Exec.mapErr_ok.mp h)
  exact ⟨noInputs, rest⟩

theorem check_inner_ok {checker : OuterConstraintChecker}
    {inputs evicted peeks outputs : List DynamicallyTypedData} {priority : UInt64} {s s' : Storage}
    (h : ParachainConstraintChecker.check (.inner checker) inputs evicted peeks outputs s = .ok priority s') :
    Handles checker.piece.Owns inputs evicted outputs ∧ (s' = s ∨ ∃ code, s' = s.set codeKey code) := by
  obtain ⟨handles, writes, _⟩ := OuterConstraintChecker.check_ok (Exec.mapErr_ok.mp h)
  exact ⟨handles, writes⟩

instance : KeepsUtxos OuterVerifier ParachainConstraintChecker where
  check_keeps {checker inputs evicted peeks outputs s s' priority} h := by
    cases checker with
    | inner checker =>
      obtain ⟨_, rfl | ⟨code, rfl⟩⟩ := check_inner_ok h
      · exact .refl _
      · exact .set _ (by decide)
    | parachainInfo checker =>
      obtain ⟨_, _, current, _, rfl⟩ := check_info_ok h
      exact .set _ (by decide)

theorem check_respects {k : Bytes} (notHeight : k ≠ heightKey) (notCode : k ≠ codeKey)
    (checker : ParachainConstraintChecker) (inputs evicted peeks outputs : List DynamicallyTypedData) :
    (ParachainConstraintChecker.check checker inputs evicted peeks outputs).Respects (Store.SameBut k) := by
  cases checker with
  | inner checker =>
    exact (OuterConstraintChecker.check_respects notHeight notCode checker inputs evicted peeks outputs).mapErr _
  | parachainInfo checker =>
    refine Exec.Respects.mapErr
      (.bind (.lift _) fun _ => .bind (.modify ?_) fun _ => .bind (.lift _) fun _ => .lift (.ok 0)) _
    exact fun _ _ same => same.set _ _

instance : LeavesTransient OuterVerifier ParachainConstraintChecker where
  check_leaves checker inputs evicted peeks outputs := by
    refine ⟨fun same call => check_respects (by decide) (by decide) _ _ _ _ _ same call, fun {s s' priority} call => ?_⟩
    replace call : ParachainConstraintChecker.check checker inputs evicted peeks outputs s = .ok priority s' := call
    cases checker with
    | inner checker => exact (OuterConstraintChecker.check_leaves _ _ _ _ _).writes (Exec.mapErr_ok.mp call)
    | parachainInfo checker =>
      obtain ⟨_, _, current, _, rfl⟩ := check_info_ok call
      exact ⟨Store.get_set_ne _ _ (by decide), Store.get_set_ne _ _ (by decide)⟩

def isParachain (t : Transaction) : Bool := Parachain.ParachainConstraintChecker.isParachain t.checker

/-! ### One extrinsic -/

variable {t : Transaction} {txHash : H256} {s checked s' : Storage} {evicted : OutputRef}
  {previous current : ParachainInherentDataUtxo}

/-- The info that a parachain inherent moves on. -/
structure MovesInfo (t : Transaction) (txHash : H256) (s s' : Storage) (evicted : OutputRef)
    (previous current : ParachainInherentDataUtxo) : Prop where
  evicts : inputRefs t = [evicted]
  creates : ∃ output, t.outputs.toList = [output] ∧ output.payload.extract ParachainInherentDataUtxo = .ok current
  before : infoAt s evicted = some previous
  fresh : infoAt s ⟨txHash, 0⟩ = none
  higher : relayParent previous < relayParent current
  after : ∀ r, infoAt s' r = if r = ⟨txHash, 0⟩ then some current else if r = evicted then none else infoAt s r
  number : RelayParentNumberStorage.get s' = some (relayParent current)

theorem moves_info (accepted : Accepted t txHash s checked s')
    (info : isParachain t = true) :
    ∃ evicted previous current, MovesInfo t txHash s s' evicted previous current := by
  obtain ⟨priority, call⟩ := accepted.checks
  cases shape : t.checker with
  | inner checker =>
    rw [isParachain, shape] at info
    cases info
  | parachainInfo checker =>
    rw [shape] at call
    obtain ⟨noInputs, previous, current, ⟨⟨d, evicts, was⟩, ⟨d', makes, is⟩, higher⟩, rfl⟩ := check_info_ok call
    have redeemed := refs_nil accepted.redeemed_present noInputs
    have present := accepted.evicted_present
    obtain ⟨evicted, evictedOne, payload⟩ := refs_singleton present evicts
    have inputs : inputRefs t = [evicted] := by
      have split := split_refs_perm t.inputs.toList
      rw [redeemed, evictedOne] at split
      exact (List.singleton_perm.mp split).symm
    obtain ⟨output, one, rfl⟩ := List.map_eq_singleton_iff.mp makes
    have fresh : infoAt s ⟨txHash, 0⟩ = none :=
      dataAt_of_absent (accepted.fresh _ (mem_outputRefs.mpr ⟨rfl, by simp [one]⟩))
    refine ⟨evicted, ⟨previous⟩, ⟨current⟩, inputs, ⟨output, one, is⟩, dataAt_of_payload payload was, fresh, higher, ?_,
      ?_⟩
    · intro r
      have read := accepted.dataAt_single one is r
      simpa [inputs, infoAt] using read
    · rw [RelayParentNumberStorage.get, accepted.get_narrow (by decide)]
      exact RelayParentNumberStorage.get_set _ s

omit [Host] in
theorem MovesInfo.kept (moves : MovesInfo t txHash s s' evicted previous current) {r : OutputRef}
    {info : ParachainInherentDataUtxo} (present : infoAt s r = some info) (unspent : r ≠ evicted) :
    r ≠ ⟨txHash, 0⟩ ∧ infoAt s' r = some info := by
  have other : r ≠ ⟨txHash, 0⟩ := by
    intro same
    rw [same, moves.fresh] at present
    cases present
  exact ⟨other, by rw [moves.after, if_neg other, if_neg unspent, present]⟩

omit [Host] in
theorem MovesInfo.new (moves : MovesInfo t txHash s s' evicted previous current) :
    infoAt s' ⟨txHash, 0⟩ = some current := by
  rw [moves.after, if_pos rfl]

/-- Every other checker handles no info, and writes nothing but new code. -/
theorem others_handle (accepted : Accepted t txHash s checked s') (other : isParachain t = false) :
    Handles (fun d => ¬Extracts ParachainInherentDataUtxo d)
      ((redeemedRefs t.inputs.toList).filterMap (payloadAt OuterVerifier s))
      ((evictedRefs t.inputs.toList).filterMap (payloadAt OuterVerifier s)) (outputData t) ∧
    (checked = s ∨ ∃ code, checked = s.set codeKey code) := by
  obtain ⟨priority, call⟩ := accepted.checks
  cases shape : t.checker with
  | parachainInfo checker =>
    rw [isParachain, shape] at other
    cases other
  | inner checker =>
    rw [shape] at call
    obtain ⟨handles, writes⟩ := check_inner_ok call
    exact ⟨⟨fun d member => not_info_of_owns (handles.inputs d member),
      fun d member => not_info_of_owns (handles.evicted d member),
      fun d member => not_info_of_owns (handles.outputs d member)⟩, writes⟩

theorem leaves_infos (accepted : Accepted t txHash s checked s') (other : isParachain t = false) :
    infoAt s' = infoAt s ∧ RelayParentNumberStorage.get s' = RelayParentNumberStorage.get s := by
  obtain ⟨handles, writes⟩ := others_handle accepted other
  constructor
  · exact accepted.dataAt_unhandled handles
  · rw [RelayParentNumberStorage.get, accepted.get_narrow (by decide)]
    rcases writes with rfl | ⟨code, rfl⟩
    · rfl
    · rw [Store.get_set_ne _ _ (by decide)]
      rfl

/-! ### Runs of extrinsics -/

theorem others_leave_infos {xs : List Transaction} (applied : Applied s xs s')
    (others : ∀ x ∈ xs, isParachain x = false) :
    infoAt s' = infoAt s ∧ RelayParentNumberStorage.get s' = RelayParentNumberStorage.get s := by
  induction applied with
  | done s => exact ⟨rfl, rfl⟩
  | apply applied _ ih =>
    obtain ⟨other, others⟩ := List.forall_mem_cons.mp others
    obtain ⟨_, _, accepted⟩ := apply_ok.mp applied
    obtain ⟨infos, number⟩ := leaves_infos accepted other
    obtain ⟨laterInfos, laterNumber⟩ := ih others
    exact ⟨laterInfos.trans infos, laterNumber.trans number⟩

omit [Host] in
theorem infoAt_same (same : SameUtxos s s') : infoAt s' = infoAt s := same.dataAt

/-! ### The block around its first parachain inherent -/

/-- What executing a block does before, at and after its first parachain inherent. -/
structure Around (block : Block) (parentState post : Storage) (inherent : Transaction) (txHash : H256)
    (before after : List Transaction) (s s' : Storage) (evicted : OutputRef)
    (previous current : ParachainInherentDataUtxo) : Prop where
  body : block.extrinsics.toList = before ++ inherent :: after
  none_before : ∀ x ∈ before, isParachain x = false
  parachain : isParachain inherent = true
  hash : inherent.id? = some txHash
  start : infoAt s = infoAt parentState
  moves : MovesInfo inherent txHash s s' evicted previous current
  rest : ∃ s₁, Applied s' after s₁ ∧ infoAt post = infoAt s₁ ∧
    RelayParentNumberStorage.get post = RelayParentNumberStorage.get s₁

theorem executeBlock_around {block : Block} {parentState post : Storage} {inherent : Transaction}
    (first : (openingInherents block).find? isParachain = some inherent)
    (executed : executeBlock block parentState = .ok () post) :
    ∃ txHash before after s s' evicted previous current,
      Around block parentState post inherent txHash before after s s' evicted previous current := by
  obtain ⟨_, ⟨s₁, applied, rfl⟩, _⟩ := executeBlock_ok.mp executed
  obtain ⟨parachain, before, between, opening, earlier⟩ := List.find?_eq_some_iff_append.mp first
  have body : block.extrinsics.toList = before ++ inherent :: (between ++ block.extrinsics.toList.dropWhile
      fun tx => ConstraintChecker.isInherent (V := OuterVerifier) tx.checker) := by
    have whole := List.takeWhile_append_dropWhile (l := block.extrinsics.toList)
      (p := fun tx => ConstraintChecker.isInherent (V := OuterVerifier) tx.checker)
    rw [openingInherents] at opening
    rw [opening] at whole
    rw [← List.cons_append, ← List.append_assoc]
    exact whole.symm
  have none_before : ∀ x ∈ before, isParachain x = false := by
    intro x member
    simpa using earlier x member
  rw [body] at applied
  obtain ⟨s, leading, applied⟩ := applied_append.mp applied
  cases applied with
  | @apply _ s' _ _ _ applied rest =>
    obtain ⟨txHash, _, accepted⟩ := apply_ok.mp applied
    obtain ⟨evicted, previous, current, moves⟩ := moves_info accepted parachain
    refine ⟨txHash, before, _, s, s', evicted, previous, current, body, none_before, parachain, accepted.hash, ?_,
      moves, s₁, rest, infoAt_same (.clear (by decide)), ?_⟩
    · rw [(others_leave_infos leading none_before).1, infoAt_same (openBlock_same _ _)]
    · rw [RelayParentNumberStorage.get, Store.get_clear_ne _ (by decide)]
      rfl

/-- The first parachain inherent is the only one just when none comes later. -/
theorem Around.single_iff {block : Block} {parentState post : Storage} {inherent : Transaction}
    {before after : List Transaction}
    (around : Around block parentState post inherent txHash before after s s' evicted previous current) :
    (block.extrinsics.toList.filter isParachain).length = 1 ↔ ∀ x ∈ after, isParachain x = false := by
  have leading : before.filter isParachain = [] := by
    rw [List.filter_eq_nil_iff]
    intro x member
    simp [around.none_before x member]
  rw [around.body, List.filter_append, leading, List.filter_cons, if_pos around.parachain]
  simp [List.filter_eq_nil_iff]

theorem blockInherentData_of_first {block : Block} {inherent : Transaction} {output : Template.Output}
    {info : ParachainInherentDataUtxo} (first : (openingInherents block).find? isParachain = some inherent)
    (one : inherent.outputs.toList = [output])
    (extracted : output.payload.extract ParachainInherentDataUtxo = .ok info) :
    blockInherentData block = some info.data := by
  change (openingInherents block).find? (fun tx => Parachain.ParachainConstraintChecker.isParachain tx.checker) = _
    at first
  unfold blockInherentData
  rw [first]
  simp [one, toOption_extract.mpr extracted]

end
end Tuxedo.ParachainRuntime
