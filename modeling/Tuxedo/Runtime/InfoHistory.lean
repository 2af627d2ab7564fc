import Tuxedo.Lib.Ledger
import Tuxedo.Runtime.InfoInherent

/-!
# Infos along a chain

The infos are a ledger of their own, in which every transaction after the genesis that creates
an info evicts one. So no parachain inherent comes back, and the info of the last block is
there for the next one.
-/

namespace Tuxedo.ParachainRuntime
open Scale Executive TransparentUtxoSet DynamicallyTypedData Template Parachain

section
variable [Host] [RelayChain] {t : Transaction} {txHash : H256} {s checked s' : Storage}

/-! ### The ledger of infos -/

def evicts (t : Transaction) : Set OutputRef := {r | isParachain t = true ∧ r ∈ inputRefs t}

def createsInfo (t : Transaction) (r : OutputRef) : Option ParachainInherentDataUtxo :=
  (creates t r).bind fun output => (output.payload.extract ParachainInherentDataUtxo).toOption

theorem createsInfo_eq_some {r : OutputRef} {info : ParachainInherentDataUtxo} :
    createsInfo t r = some info ↔
      ∃ output, creates t r = some output ∧ output.payload.extract ParachainInherentDataUtxo = .ok info := by
  simp only [createsInfo, Option.bind_eq_some_iff, toOption_extract]

theorem createsInfo_apart {ts : Set Transaction} (free : CollisionFree ts) : Ledger.Apart createsInfo ts := by
  intro t member t' member' r info info' made made'
  obtain ⟨output, created, _⟩ := createsInfo_eq_some.mp made
  obtain ⟨output', created', _⟩ := createsInfo_eq_some.mp made'
  exact free.apart t member t' member' r output output' created created'

theorem MovesInfo.createsInfo_eq {evicted : OutputRef} {previous current : ParachainInherentDataUtxo}
    (moves : MovesInfo t txHash s s' evicted previous current) (hash : t.id? = some txHash) (r : OutputRef) :
    createsInfo t r = if r = ⟨txHash, 0⟩ then some current else none := by
  obtain ⟨output, one, extracted⟩ := moves.creates
  split
  · rename_i same
    subst same
    exact createsInfo_eq_some.mpr ⟨output, creates_eq_some.mpr ⟨hash, by simp [one]⟩, extracted⟩
  · rename_i other
    refine Option.eq_none_iff_forall_ne_some.mpr fun info made => other ?_
    obtain ⟨_, created, _⟩ := createsInfo_eq_some.mp made
    exact eq_of_creates_single one hash created

theorem others_create_none (accepted : Accepted t txHash s checked s') (other : isParachain t = false) (r : OutputRef) :
    createsInfo t r = none := by
  refine Option.eq_none_iff_forall_ne_some.mpr fun info made => ?_
  obtain ⟨output, created, extracted⟩ := createsInfo_eq_some.mp made
  have member := List.mem_of_getElem? (creates_eq_some.mp created).2
  exact Accepted.created_handled (others_handle accepted other).1 member ⟨info, extracted⟩

/-- An accepted transaction is a step of the ledger of infos. -/
theorem info_step (accepted : Accepted t txHash s checked s') :
    Ledger.Step (evicts t) (createsInfo t) (infoAt s) (infoAt s') := by
  cases parachain : isParachain t with
  | true =>
    obtain ⟨evicted, previous, current, moves⟩ := moves_info accepted parachain
    refine .move (fun r => ?_) (moves.createsInfo_eq accepted.hash) moves.before moves.fresh moves.after
    simp [evicts, parachain, moves.evicts]
  | false =>
    rw [(leaves_infos accepted parachain).1]
    refine .idle ?_ (others_create_none accepted parachain)
    rintro r ⟨claimed, _⟩
    rw [parachain] at claimed
    cases claimed

theorem evicts_of_creating (accepted : Accepted t txHash s checked s') (creating : Ledger.Creating createsInfo t) :
    ∃ r, r ∈ evicts t := by
  cases parachain : isParachain t with
  | true =>
    obtain ⟨evicted, _, _, moves⟩ := moves_info accepted parachain
    exact ⟨evicted, parachain, by simp [moves.evicts]⟩
  | false =>
    obtain ⟨r, info, created⟩ := creating
    rw [others_create_none accepted parachain] at created
    cases created

theorem applied_infos {xs : List Transaction} (applied : Applied s xs s') :
    Ledger.Run evicts createsInfo (infoAt s) xs (infoAt s') ∧
      ∀ x ∈ xs, Ledger.Creating createsInfo x → ∃ r, r ∈ evicts x := by
  induction applied with
  | done s => exact ⟨.done _, by simp⟩
  | apply applied _ ih =>
    obtain ⟨_, _, accepted⟩ := apply_ok.mp applied
    exact ⟨.step (info_step accepted) ih.1, List.forall_mem_cons.mpr ⟨evicts_of_creating accepted, ih.2⟩⟩

/-- The transactions of a chain are the history of its infos. -/
theorem info_history {past : List Transaction} {parent : Block} (chain : Chain past parent s)
    (free : CollisionFree {t | t ∈ past}) : Ledger.History evicts createsInfo {t | t ∈ past} (infoAt s) := by
  induction chain with
  | @genesis txs base built version bare builds inherents =>
    refine ⟨?_, ?_⟩
    · intro r info present
      obtain ⟨output, found, extracted⟩ := dataAt_eq_some.mp present
      obtain ⟨t, member, made⟩ := (Chain.genesis version bare builds inherents).sourced r output found
      exact ⟨t, member, info, createsInfo_eq_some.mpr ⟨output, made, extracted⟩⟩
    · rintro t member r ⟨_, input⟩
      rw [inputRefs, ((buildTransactions_ok builds).noInputs t member).1] at input
      cases input
  | @next past parent block s s' data result chain number checked okay executed ih =>
    have history := ih (free.mono fun t member => List.mem_append_left _ member)
    obtain ⟨_, ⟨s₁, applied, rfl⟩, _⟩ := executeBlock_ok.mp executed
    obtain ⟨run, creating⟩ := applied_infos applied
    rw [infoAt_same (openBlock_same _ _)] at run
    have cover : {t | t ∈ past ++ block.extrinsics.toList} = {t | t ∈ past} ∪ {t | t ∈ block.extrinsics.toList} := by
      ext t
      simp
    have apart := createsInfo_apart free
    rw [cover] at apart ⊢
    have unrepeated : ∀ t₀ : Transaction, ∀ t ∈ block.extrinsics.toList,
        Ledger.Unrepeated evicts createsInfo t₀ t := by
      intro t₀ t member creates inputless
      obtain ⟨r, evicted⟩ := creating t member creates
      exact absurd evicted (inputless r)
    have closed : infoAt (s₁.clear headerKey) = infoAt s₁ := infoAt_same (.clear (by decide))
    rw [closed]
    exact (run.unlike history apart (fun t₀ _ t member => unrepeated t₀ t member)
      (List.pairwise_iff_forall_sublist.mpr fun sublist => unrepeated _ _ (sublist.subset (by simp)))).2.2

/-! ### The info of the last block -/

variable {past : List Transaction} {parent : Block}

theorem infoLeaf_owns (x : Transaction) : infoLeaf.owns x = isParachain x := by
  unfold InherentLeaf.owns isParachain
  cases x.checker <;> rfl

theorem info_inherent (x : Transaction) (parachain : isParachain x = true) : isInherent x = true := by
  unfold isParachain at parachain
  unfold isInherent
  cases shape : x.checker with
  | inner checker =>
    rw [shape] at parachain
    cases parachain
  | parachainInfo checker => rfl

/-- The last block has one parachain inherent. -/
theorem one_info (chain : Chain past parent s) : ∃ m, parent.extrinsics.toList.filter isParachain = [m] := by
  refine chain.one_of_kind info_inherent ?_ ?_
  · intro txs genesis
    obtain ⟨payload, _, rfl⟩ := genesisTransactions_some genesis
    exact ⟨genesisInfo payload, rfl⟩
  · intro data xs result inherents checked okay
    obtain ⟨_, m, one⟩ := checkInherents_okay inherents checked okay
    exact ⟨m, (List.filter_congr fun y _ => (infoLeaf_owns y).symm).trans one⟩

/-- The info of the last block, noted by its inherent `m`, is still there. -/
structure LastInfo (past : List Transaction) (parent : Block) (s : Storage) (m : Transaction) (txHash : H256)
    (info : ParachainInherentDataUtxo) : Prop where
  one : (openingInherents parent).filter isParachain = [m]
  hash : m.id? = some txHash
  notes : ∃ output, m.outputs.toList = [output] ∧ output.payload.extract ParachainInherentDataUtxo = .ok info
  present : CollisionFree {t | t ∈ past} → infoAt s ⟨txHash, 0⟩ = some info

theorem LastInfo.first {m : Transaction} {info : ParachainInherentDataUtxo}
    (last : LastInfo past parent s m txHash info) : (openingInherents parent).find? isParachain = some m := by
  rw [← List.head?_filter, last.one]
  rfl

theorem LastInfo.data {m : Transaction} {info : ParachainInherentDataUtxo}
    (last : LastInfo past parent s m txHash info) : blockInherentData parent = some info.data := by
  obtain ⟨output, one, extracted⟩ := last.notes
  exact blockInherentData_of_first last.first one extracted

theorem last_info (chain : Chain past parent s) : ∃ m txHash info, LastInfo past parent s m txHash info := by
  obtain ⟨m, one⟩ := one_info chain
  obtain ⟨opening, member, _, txHash, hash⟩ := chain.opening_of_kind info_inherent one
  cases chain with
  | @genesis txs base built version bare builds inherents =>
    rw [genesisBlock_extrinsics version builds] at one member
    obtain ⟨payload, stored, shape⟩ := genesisTransactions_some inherents
    obtain rfl : genesisInfo payload = m := by
      rw [← filter_inherents info_inherent, shape] at one
      exact (List.cons.inj one).1
    refine ⟨_, txHash, _, opening, hash, ⟨_, rfl, extract_into? stored⟩, ?_⟩
    intro free
    have made : creates (genesisInfo payload) ⟨txHash, 0⟩ = some _ := creates_eq_some.mpr ⟨hash, rfl⟩
    exact dataAt_eq_some.mpr ⟨_, genesis_present version bare builds free member made, extract_into? stored⟩
  | next chain number checked okay executed =>
    have first : (openingInherents parent).find? isParachain = some m := by
      rw [← List.head?_filter, opening]
      rfl
    obtain ⟨txHash', before, after, s, s', evicted, previous, current, around⟩ := executeBlock_around first executed
    obtain rfl : txHash = txHash' := Option.some.inj (hash.symm.trans around.hash)
    obtain ⟨s₁, rest, infos, _⟩ := around.rest
    have single := around.single_iff.mp (by rw [one]; rfl)
    refine ⟨m, txHash, current, opening, hash, around.moves.creates, fun _ => ?_⟩
    rw [infos, (others_leave_infos rest single).1]
    exact around.moves.new

/-! ### The next info -/

theorem infoAfter_hashed (txHash : H256) {info : ParachainInherentData} {payload : DynamicallyTypedData}
    (stored : into? (⟨info⟩ : ParachainInherentDataUtxo) = some payload) (short : (encode info).length < 2 ^ 31) :
    ∃ hash, (infoAfter txHash payload).id? = some hash := by
  refine created_hashed ?_ (by decide) ?_ (by decide)
  · rw [length_encode_singleton]
    change (encode (⟨txHash, 0⟩ : OutputRef) ++ encode RedemptionStrategy.eviction).length + 1 < 64
    rw [List.length_append, length_encode_outputRef]
    decide
  · rw [into?_data stored]
    exact short

/-- The last info is there, so the inherent that evicts it has not been applied. -/
theorem infoAfter_not_past {m : Transaction} {previous : ParachainInherentDataUtxo} {payload : DynamicallyTypedData}
    (chain : Chain past parent s) (last : LastInfo past parent s m txHash previous)
    (free : CollisionFree {t | t ∈ past}) : infoAfter txHash payload ∉ past := by
  intro member
  have evicted : (⟨txHash, 0⟩ : OutputRef) ∈ evicts (infoAfter txHash payload) := ⟨rfl, List.mem_singleton_self _⟩
  have gone := ((info_history chain free).spent _ member _ evicted).1
  rw [last.present free] at gone
  cases gone

/-- The inherent that moves the info of the last block on applies after the timestamp. -/
theorem infoAfter_applies {m y : Transaction} {previous : ParachainInherentDataUtxo} {info : ParachainInherentData}
    {payload : DynamicallyTypedData} {header : Header} {stamped : Storage} (chain : Chain past parent s)
    (last : LastInfo past parent s m txHash previous)
    (stored : into? (⟨info⟩ : ParachainInherentDataUtxo) = some payload) (short : (encode info).length < 2 ^ 31)
    (free : CollisionFree {t | t ∈ y :: infoAfter txHash payload :: past}) (other : isParachain y = false)
    (applied : applyTuxedoTransaction y (openBlock header s) = .ok () stamped)
    (higher : relayParent previous < info.validationData.relayParentNumber) :
    ∃ s', applyTuxedoTransaction (infoAfter txHash payload) stamped = .ok () s' := by
  obtain ⟨hash, hashed⟩ := infoAfter_hashed txHash stored short
  obtain ⟨_, _, accepted⟩ := apply_ok.mp applied
  have freePast : CollisionFree {t | t ∈ past} :=
    free.mono fun t member => List.mem_cons_of_mem _ (List.mem_cons_of_mem _ member)
  have opened := openBlock_same header s
  have held : infoAt stamped ⟨txHash, 0⟩ = some previous := by
    rw [(leaves_infos accepted other).1, infoAt_same opened]
    exact last.present freePast
  obtain ⟨evicted, found, extracted⟩ := dataAt_eq_some.mp held
  have sourced : Sourced OuterVerifier (past ++ [y]) stamped :=
    (chain.sourced.same opened).run (.apply applied (.done _))
  have new : infoAfter txHash payload ∉ past ++ [y] := by
    intro member
    rcases List.mem_append.mp member with earlier | current
    · exact infoAfter_not_past chain last freePast earlier
    · rw [← List.mem_singleton.mp current] at other
      cases other
  have within : CollisionFree {t | t ∈ infoAfter txHash payload :: (past ++ [y])} := by
    refine free.mono fun t member => ?_
    rcases List.mem_cons.mp member with rfl | member
    · exact List.mem_cons_of_mem _ List.mem_cons_self
    · rcases List.mem_append.mp member with earlier | current
      · exact List.mem_cons_of_mem _ (List.mem_cons_of_mem _ earlier)
      · rw [List.mem_singleton.mp current]
        exact List.mem_cons_self
  refine ⟨_, apply_ok.mpr ⟨hash, RelayParentNumberStorage.set info.validationData.relayParentNumber stamped,
    ⟨⟨List.nodup_singleton _, ?_, hashed, sourced.fresh within new hashed⟩, ?_, by simp [infoAfter, Vec.empty],
      ⟨0, ?_⟩, rfl⟩⟩⟩
  · intro input member output _
    rw [List.mem_singleton.mp member]
    exact trivial
  · intro r member
    rw [List.mem_singleton.mp member]
    exact ⟨evicted, found⟩
  · refine Exec.mapErr_ok.mpr (SetParachainInfo.check_ok.mpr ⟨rfl, rfl, previous.data, info, ?_, rfl⟩)
    refine ⟨⟨evicted.payload, ?_, extracted⟩, ⟨payload, rfl, extract_into? stored⟩, higher⟩
    simp [infoAfter, Vec.singleton, evictedRefs, payloadAt, found]

end
end Tuxedo.ParachainRuntime
