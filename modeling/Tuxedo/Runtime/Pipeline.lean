import Tuxedo.Runtime.InfoHistory
import Tuxedo.Runtime.ValidateBlock

/-!
# The inherents of the next block

After every chain, the hooks build the inherents of the next block, and these apply.
-/

namespace Tuxedo.ParachainRuntime
open Scale Executive TransparentUtxoSet DynamicallyTypedData Template Parachain TuxedoGenesisConfigBuilder
open TuxedoGenesisBlockBuilder

section
variable {C : Type} [Host] [Codec C] [ConstraintChecker OuterVerifier C]

/-- The extrinsics are applied first in a block that has just been opened. -/
def AppliesFirst (header : Header) (s : Storage) (inherents : List (Tuxedo.Transaction OuterVerifier C)) : Prop :=
  ∃ s', inherents.forM applyExtrinsic (openBlock header s) = .ok () s'

/-- The time is late enough after the parent's, of which the genesis has none. -/
def LateEnough (parent : Tuxedo.Block OuterVerifier C) (old : Time.Timestamp) (time : UInt64) : Prop :=
  parent.header.number = 0 ∨
    old.time.toNat + (Time.TimestampConfig.minimumTimeInterval Runtime).toNat ≤ time.toNat

theorem appliesFirst_of_applied [LeavesTransient OuterVerifier C] {past : List (Tuxedo.Transaction OuterVerifier C)}
    {parent : Tuxedo.Block OuterVerifier C} {s s' : Storage} {header : Header}
    {inherents : List (Tuxedo.Transaction OuterVerifier C)} (chain : Chain past parent s)
    (few : inherents.length < 2 ^ 32) (applied : Applied (openBlock header s) inherents s') :
    AppliesFirst header s inherents := by
  obtain ⟨authored, authors, _⟩ :=
    authors_of_imports (alongside_openBlock header chain.unnoted) (by simpa using few) applied
  exact ⟨authored, authors⟩

omit [ConstraintChecker OuterVerifier C] in
/-- The one previous inherent of a kind comes with its hash. -/
theorem previous_one {previous : List (Tuxedo.Transaction OuterVerifier C × H256)}
    (kind : Tuxedo.Transaction OuterVerifier C → Bool) {x : Tuxedo.Transaction OuterVerifier C} {txHash : H256}
    (one : (previous.map Prod.fst).filter kind = [x]) (hashes : ∀ p ∈ previous, p.1.id? = some p.2)
    (hash : x.id? = some txHash) : previous.filter (fun p => kind p.1) = [(x, txHash)] := by
  rw [List.filter_map] at one
  obtain ⟨⟨x', txHash'⟩, single, rfl⟩ := List.map_eq_singleton_iff.mp one
  have member : (x', txHash') ∈ previous.filter fun p => kind p.1 := by
    change (x', txHash') ∈ previous.filter (kind ∘ Prod.fst)
    rw [single]
    exact List.mem_singleton_self _
  have same := (hashes _ (List.mem_of_mem_filter member)).symm.trans hash
  cases same
  exact single

end

section
variable [Host]

theorem template_creates {past : List Template.Transaction} {parent : Template.Block} {s : Storage} {header : Header}
    {data : InherentData} {time : UInt64} {x : Template.Transaction} {txHash : H256} {old : Time.Timestamp}
    {payload : DynamicallyTypedData} (chain : Chain past parent s) (last : LastTimestamp past parent s x txHash old)
    (holdsParent : data.Holds parentInherentIdentifier parent) (holdsTime : data.Holds Time.inherentIdentifier time)
    (stored : into? (⟨time, header.number⟩ : Time.Timestamp) = some payload) :
    inherentExtrinsics (openBlock header s) data = some [timestampAfter txHash payload] := by
  obtain ⟨previous, inherents, hashes, creates⟩ := chain.previous
  have one := last.one
  rw [← inherents] at one
  have owned : (previous.filter fun p => timestampLeaf.owns p.1) = [(x, txHash)] := by
    rw [← previous_one isTimestamp one hashes last.hash]
    apply List.filter_congr
    intro p _
    unfold InherentLeaf.owns isTimestamp
    cases p.1.checker <;> rfl
  have created := InherentLeaf.createInherent_one owned
    (setTimestamp_creates holdsTime (openBlock_height header s) stored txHash)
  rw [creates _ _ holdsParent, Template.tree.createInherents_eq, Template.inherentLeaves_tree, List.mapM_cons, created]
  rfl

/-- The template runtime builds one timestamp. -/
theorem template_next {past : List Template.Transaction} {parent : Template.Block} {s : Storage} {header : Header}
    {data : InherentData} {time : UInt64} (chain : Chain past parent s)
    (number : header.number.toNat = parent.header.number.toNat + 1)
    (holdsParent : data.Holds parentInherentIdentifier parent) (holdsTime : data.Holds Time.inherentIdentifier time) :
    ∃ tx old, inherentExtrinsics (openBlock header s) data = some [tx] ∧ tx.checker = .setTimestamp ⟨⟨⟩⟩ ∧
      recordedTimestamp parent = some old ∧
      (CollisionFree {t | t ∈ tx :: past} → LateEnough parent old time → AppliesFirst header s [tx]) := by
  obtain ⟨x, txHash, old, last⟩ := last_timestamp chain
  obtain ⟨payload, stored⟩ := into_timestamp ⟨time, header.number⟩
  refine ⟨timestampAfter txHash payload, old, template_creates chain last holdsParent holdsTime stored, rfl,
    last.recorded, ?_⟩
  intro free late
  obtain ⟨s', applied⟩ := (timestampAfter_next stored).applies chain last number rfl free late
  exact appliesFirst_of_applied chain (by simp) (.apply applied (.done _))

end

section
variable [Host] [RelayChain]

theorem parachain_creates {past : List Transaction} {parent : Block} {s : Storage} {header : Header}
    {data : InherentData} {time : UInt64} {info : ParachainInherentData} {x m : Transaction} {timeHash infoHash : H256}
    {old : Time.Timestamp} {previous : ParachainInherentDataUtxo} {payload infoPayload : DynamicallyTypedData}
    (chain : Chain past parent s) (lastTime : LastTimestamp past parent s x timeHash old)
    (lastInfo : LastInfo past parent s m infoHash previous) (holdsParent : data.Holds parentInherentIdentifier parent)
    (holdsTime : data.Holds Time.inherentIdentifier time) (holdsInfo : data.Holds Parachain.inherentIdentifier info)
    (stored : into? (⟨time, header.number⟩ : Time.Timestamp) = some payload)
    (infoStored : into? (⟨info⟩ : ParachainInherentDataUtxo) = some infoPayload) :
    inherentExtrinsics (openBlock header s) data =
      some [(timestampAfter timeHash payload).transform .inner, infoAfter infoHash infoPayload] := by
  obtain ⟨before, inherents, hashes, creates⟩ := chain.previous
  have oneTime := lastTime.one
  have oneInfo := lastInfo.one
  rw [← inherents] at oneTime oneInfo
  have ownedTime : (before.filter fun p => wrappedTimestampLeaf.owns p.1) = [(x, timeHash)] :=
    (List.filter_congr fun p _ => wrappedTimestampLeaf_owns p.1).trans
      (previous_one isTimestamp oneTime hashes lastTime.hash)
  have ownedInfo : (before.filter fun p => infoLeaf.owns p.1) = [(m, infoHash)] :=
    (List.filter_congr fun p _ => infoLeaf_owns p.1).trans (previous_one isParachain oneInfo hashes lastInfo.hash)
  have inner := InherentLeaf.createInherent_one ownedTime
    (setTimestamp_creates holdsTime (openBlock_height header s) stored timeHash)
  have outer := InherentLeaf.createInherent_one (s := openBlock header s) ownedInfo
    (setParachainInfo_creates holdsInfo infoStored infoHash)
  rw [creates _ _ holdsParent, tree.createInherents_eq, inherentLeaves_tree, List.mapM_cons, List.mapM_cons, inner,
    outer]
  rfl

/-- The parachain runtime builds one timestamp and then one info. -/
theorem parachain_next {past : List Transaction} {parent : Block} {s : Storage} {header : Header}
    {data : InherentData} {time : UInt64} {info : ParachainInherentData} (chain : Chain past parent s)
    (number : header.number.toNat = parent.header.number.toNat + 1)
    (holdsParent : data.Holds parentInherentIdentifier parent) (holdsTime : data.Holds Time.inherentIdentifier time)
    (holdsInfo : data.Holds Parachain.inherentIdentifier info) (short : (encode info).length < 2 ^ 31) :
    ∃ tx tx' old previous, inherentExtrinsics (openBlock header s) data = some [tx, tx'] ∧
      tx.checker = .inner (.setTimestamp ⟨⟨⟩⟩) ∧ tx'.checker = .parachainInfo ⟨⟨⟩⟩ ∧
      recordedTimestamp parent = some old ∧ blockInherentData parent = some previous ∧
      (CollisionFree {t | t ∈ tx :: tx' :: past} → LateEnough parent old time →
        previous.validationData.relayParentNumber < info.validationData.relayParentNumber →
        AppliesFirst header s [tx, tx']) := by
  obtain ⟨x, timeHash, old, lastTime⟩ := last_timestamp chain
  obtain ⟨m, infoHash, previous, lastInfo⟩ := last_info chain
  obtain ⟨payload, stored⟩ := into_timestamp ⟨time, header.number⟩
  obtain ⟨infoPayload, infoStored⟩ := exists_into? (⟨info⟩ : ParachainInherentDataUtxo)
    (Nat.lt_trans short (by decide))
  refine ⟨(timestampAfter timeHash payload).transform .inner, infoAfter infoHash infoPayload, old, previous.data,
    parachain_creates chain lastTime lastInfo holdsParent holdsTime holdsInfo stored infoStored, rfl, rfl,
    lastTime.recorded, lastInfo.data, ?_⟩
  intro free late higher
  have within : CollisionFree {t | t ∈ (timestampAfter timeHash payload).transform .inner :: past} := by
    refine free.mono fun t member => ?_
    rcases List.mem_cons.mp member with rfl | earlier
    · exact List.mem_cons_self
    · exact List.mem_cons_of_mem _ (List.mem_cons_of_mem _ earlier)
  obtain ⟨stamped, applied⟩ := (timestampAfter_inner stored).applies chain lastTime number rfl within late
  obtain ⟨s', moved⟩ := infoAfter_applies chain lastInfo infoStored short free rfl applied higher
  exact appliesFirst_of_applied chain (by simp) (.apply applied (.apply moved (.done _)))

/-- The hooks are never stuck, in either runtime. The inherents apply with a late enough time and,
in the parachain, a higher relay parent. Vectors of the runtime have fewer than `2 ^ 31` bytes. -/
theorem inherents_never_stuck :
    (∀ (past : List Template.Transaction) (parent : Template.Block) (s : Storage) (header : Header)
        (data : InherentData) (time : UInt64), Chain past parent s →
      header.number.toNat = parent.header.number.toNat + 1 → data.Holds parentInherentIdentifier parent →
      data.Holds Time.inherentIdentifier time →
      ∃ tx old, inherentExtrinsics (openBlock header s) data = some [tx] ∧ tx.checker = .setTimestamp ⟨⟨⟩⟩ ∧
        recordedTimestamp parent = some old ∧
        (CollisionFree {t | t ∈ tx :: past} → LateEnough parent old time → AppliesFirst header s [tx])) ∧
    ∀ (past : List Transaction) (parent : Block) (s : Storage) (header : Header) (data : InherentData)
        (time : UInt64) (info : ParachainInherentData), Chain past parent s →
      header.number.toNat = parent.header.number.toNat + 1 → data.Holds parentInherentIdentifier parent →
      data.Holds Time.inherentIdentifier time → data.Holds Parachain.inherentIdentifier info →
      (encode info).length < 2 ^ 31 →
      ∃ tx tx' old previous, inherentExtrinsics (openBlock header s) data = some [tx, tx'] ∧
        tx.checker = .inner (.setTimestamp ⟨⟨⟩⟩) ∧ tx'.checker = .parachainInfo ⟨⟨⟩⟩ ∧
        recordedTimestamp parent = some old ∧ blockInherentData parent = some previous ∧
        (CollisionFree {t | t ∈ tx :: tx' :: past} → LateEnough parent old time →
          previous.validationData.relayParentNumber < info.validationData.relayParentNumber →
          AppliesFirst header s [tx, tx']) := by
  refine ⟨?_, ?_⟩
  · intro past parent s header data time chain number holdsParent holdsTime
    exact template_next chain number holdsParent holdsTime
  · intro past parent s header data time info chain number holdsParent holdsTime holdsInfo short
    exact parachain_next chain number holdsParent holdsTime holdsInfo short

end

/-! ### The second block of the template, the first of the parachain -/

def stampedAt (previous : H256) (time : UInt64) (number : UInt32) : Template.Transaction :=
  timestampAfter previous ⟨(Vec.ofList? (encode (⟨time, number⟩ : Time.Timestamp))).getD Vec.empty,
    UtxoData.typeId Time.Timestamp⟩

def genesisTimestampHash : H256 :=
  ⟨[12, 13, 6, 153, 110, 95, 217, 3, 95, 189, 17, 62, 96, 156, 29, 41, 183, 93, 204, 178, 50, 219, 8, 40, 17, 129,
    55, 18, 218, 241, 116, 228], rfl⟩

def firstTimestampHash : H256 :=
  ⟨[105, 103, 163, 161, 68, 167, 106, 233, 67, 233, 204, 164, 176, 250, 163, 249, 235, 204, 6, 44, 122, 98, 210, 231,
    224, 96, 11, 141, 34, 186, 156, 224], rfl⟩

def firstTimestamp : Template.Transaction := stampedAt genesisTimestampHash 1700000000000 1

def secondTimestamp : Template.Transaction := stampedAt firstTimestampHash 1700000002000 2

def firstStateRoot : H256 :=
  ⟨[231, 205, 41, 250, 169, 209, 128, 182, 8, 114, 90, 100, 149, 75, 162, 180, 116, 134, 190, 28, 101, 54, 184, 225,
    177, 188, 251, 201, 198, 109, 248, 238], rfl⟩

def firstExtrinsicsRoot : H256 :=
  ⟨[235, 38, 201, 220, 60, 70, 6, 32, 45, 130, 242, 193, 37, 109, 147, 32, 37, 7, 108, 176, 224, 240, 204, 161, 212, 41,
    19, 23, 23, 112, 190, 101], rfl⟩

/-- The roots of the three states. -/
def pipelineStateRoot (s : Storage) : H256 :=
  if (s.get (encode (⟨firstTimestampHash, 0⟩ : OutputRef))).isSome then
    firstStateRoot
  else if (s.get (encode (⟨genesisTimestampHash, 0⟩ : OutputRef))).isSome then
    ⟨[248, 15, 27, 29, 178, 90, 28, 213, 97, 11, 194, 28, 20, 20, 111, 183, 180, 238, 16, 230, 230, 81, 7, 17, 185, 162,
      97, 180, 2, 59, 138, 67], rfl⟩
  else
    ⟨[37, 14, 188, 151, 244, 219, 109, 23, 104, 16, 116, 223, 36, 183, 49, 89, 28, 112, 46, 14, 164, 108, 217, 70, 34,
      141, 236, 123, 106, 98, 12, 234], rfl⟩

/-- The roots of the extrinsics of the two genesis blocks and of the first block. -/
def pipelineExtrinsicsRoot (version : StateVersion) (extrinsics : List Bytes) : H256 :=
  if extrinsics.length = 2 then
    ⟨[16, 78, 34, 192, 108, 191, 45, 9, 4, 239, 36, 3, 46, 176, 163, 120, 182, 184, 95, 3, 235, 132, 56, 114, 198, 161,
      28, 255, 108, 109, 89, 224], rfl⟩
  else if version = .v1 then
    ⟨[192, 192, 206, 19, 226, 127, 95, 199, 96, 139, 10, 133, 115, 99, 68, 3, 197, 68, 228, 136, 62, 194, 29, 248, 100,
      252, 185, 174, 143, 11, 104, 195], rfl⟩
  else
    firstExtrinsicsRoot

@[reducible] def pipelineHost : Host :=
  Host.native (fun _ _ _ => false) (fun _ s => pipelineStateRoot s) pipelineExtrinsicsRoot

def bareHeader (parentHash : H256) (number : UInt32) (stateRoot extrinsicsRoot : H256) : Header :=
  { parentHash, number, stateRoot, extrinsicsRoot, digest := Vec.empty }

def firstBlock : Template.Block :=
  ⟨bareHeader ⟨[213, 209, 109, 251, 16, 64, 255, 242, 141, 227, 8, 199, 101, 239, 244, 217, 165, 42, 177, 84, 29, 43,
      199, 250, 197, 226, 130, 80, 59, 83, 27, 20], rfl⟩ 1 firstStateRoot firstExtrinsicsRoot,
    Vec.singleton firstTimestamp⟩

def nextHeader (number : UInt32) : Header :=
  bareHeader (FixedBytes.zero 32) number (FixedBytes.zero 32) (FixedBytes.zero 32)

section
variable {C : Type} [Codec C]

/-- What the providers put for a block: its parent, the time, and the others before them. -/
def provided (parent : Tuxedo.Block OuterVerifier C) (small : (encode parent).length < 2 ^ 32) (time : UInt64)
    (others : InherentData) : InherentData :=
  (others.set parentInherentIdentifier ⟨encode parent, small⟩).set Time.inherentIdentifier
    ⟨encode time, by simp [encode]⟩

theorem provided_parent {parent : Tuxedo.Block OuterVerifier C} (small : (encode parent).length < 2 ^ 32)
    (time : UInt64) (others : InherentData) :
    (provided parent small time others).Holds parentInherentIdentifier parent :=
  ⟨⟨encode parent, small⟩, by rw [provided, Store.get_set_ne _ _ (by decide), Store.get_set_self], rfl⟩

theorem provided_time {parent : Tuxedo.Block OuterVerifier C} (small : (encode parent).length < 2 ^ 32) (time : UInt64)
    (others : InherentData) : (provided parent small time others).Holds Time.inherentIdentifier time :=
  ⟨_, Store.get_set_self _ _ _, rfl⟩

variable [Host] [ConstraintChecker OuterVerifier C]

/-- The genesis block and the storage after it. -/
def genesisOf (txs : Vec (Tuxedo.Transaction OuterVerifier C)) : Tuxedo.Block OuterVerifier C × Storage :=
  buildGenesisBlock .v1 ((build txs Store.empty).toOption.getD Store.empty)

theorem genesisOf_chain (txs : Vec (Tuxedo.Transaction OuterVerifier C))
    (succeeds : (build txs Store.empty).toOption.isSome = true)
    (inherents : ConstraintChecker.genesisTransactions = some (txs.toList.filter isInherent)) :
    Chain txs.toList (genesisOf txs).1 (genesisOf txs).2 := by
  unfold genesisOf
  cases outcome : build txs Store.empty with
  | ok built => exact .genesis .v1 (fun r => by simp [peekUtxo]) outcome inherents
  | error halt =>
    rw [outcome] at succeeds
    cases succeeds

end

def templateGenesis : Vec Template.Transaction := Vec.singleton genesisTimestamp

def parachainGenesis : Vec Transaction :=
  ⟨[genesisTimestamp.transform .inner, genesisInfo (infoOutput Vec.empty 0).payload], by decide⟩

theorem firstBlock_small : (encode firstBlock).length < 2 ^ 32 := by decide +kernel

theorem parachainGenesis_small :
    letI := pipelineHost
    letI := plainRelay
    (encode (genesisOf parachainGenesis).1).length < 2 ^ 32 := by decide +kernel

def firstInfo : @ParachainInherentData plainRelay :=
  let := plainRelay
  ⟨⟨Vec.empty, 5, FixedBytes.zero 32, 0⟩, Vec.empty, Vec.empty, Vec.empty⟩

def parachainProvided : InherentData :=
  letI := pipelineHost
  letI := plainRelay
  provided (genesisOf parachainGenesis).1 parachainGenesis_small 1700000000000
    (Store.empty.set Parachain.inherentIdentifier ⟨encode firstInfo, by decide +kernel⟩)

/-- The inherents after the parachain genesis. -/
def parachainInherents : List Transaction :=
  [(stampedAt ⟨[248, 98, 136, 255, 90, 227, 198, 120, 89, 130, 80, 235, 249, 66, 216, 137, 186, 124, 31, 194, 235, 137,
      149, 42, 158, 137, 214, 101, 217, 220, 33, 207], rfl⟩ 1700000000000 1).transform .inner,
    infoAfter ⟨[34, 213, 209, 37, 242, 157, 126, 118, 183, 199, 226, 25, 153, 82, 235, 157, 48, 163, 80, 66, 157, 30,
      12, 19, 188, 188, 130, 247, 204, 28, 167, 8], rfl⟩ (infoOutput Vec.empty 5).payload]

/-- The template runs its first block and creates the timestamp of the second. -/
theorem template_second :
    letI := pipelineHost
    ∃ s, Chain [genesisTimestamp, firstTimestamp] firstBlock s ∧
      inherentExtrinsics (openBlock (nextHeader 2) s) (provided firstBlock firstBlock_small 1700000002000 .empty) =
        some [secondTimestamp] := by
  let := pipelineHost
  have start := genesisOf_chain templateGenesis (by decide +kernel) rfl
  obtain ⟨_, s, executed, computed⟩ := Exec.exists_of_any (x := executeBlock firstBlock)
    (s := (genesisOf templateGenesis).2)
    (p := fun r => inherentExtrinsics (openBlock (nextHeader 2) r.2)
      (provided firstBlock firstBlock_small 1700000002000 .empty) = some [secondTimestamp]) (by decide +kernel)
  have checked : checkInherents firstBlock (provided firstBlock firstBlock_small 1700000000000 .empty) = some .new := by
    decide +kernel
  exact ⟨s, start.next rfl checked rfl executed, of_decide_eq_true computed⟩

theorem inherents_never_stuck_second :
    letI := pipelineHost
    letI := plainRelay
    (∃ s, Chain [genesisTimestamp, firstTimestamp] firstBlock s ∧
      inherentExtrinsics (openBlock (nextHeader 2) s) (provided firstBlock firstBlock_small 1700000002000 .empty) =
        some [secondTimestamp] ∧ AppliesFirst (nextHeader 2) s [secondTimestamp]) ∧
    inherentExtrinsics (openBlock (nextHeader 1) (genesisOf parachainGenesis).2) parachainProvided =
        some parachainInherents ∧
      AppliesFirst (nextHeader 1) (genesisOf parachainGenesis).2 parachainInherents := by
  let := pipelineHost
  let := plainRelay
  refine ⟨?_, ?_⟩
  · obtain ⟨s, chain, created⟩ := template_second
    obtain ⟨tx, old, creates, _, recorded, applies⟩ := inherents_never_stuck.1 _ _ _ (nextHeader 2) _ _ chain rfl
      (provided_parent firstBlock_small 1700000002000 .empty) (provided_time _ _ _)
    rw [created] at creates
    cases creates
    refine ⟨s, chain, created, applies ?_ ?_⟩
    · exact collisionFree_of_list (fun _ member => member) (by decide +kernel)
    · have noted : recordedTimestamp firstBlock = some ⟨1700000000000, 1⟩ := by decide +kernel
      rw [noted] at recorded
      cases recorded
      exact Or.inr (by decide)
  · have chain := genesisOf_chain parachainGenesis (by decide +kernel) (by decide +kernel)
    have created : inherentExtrinsics (openBlock (nextHeader 1) (genesisOf parachainGenesis).2) parachainProvided =
        some parachainInherents := by decide +kernel
    obtain ⟨tx, tx', old, previous, creates, _, _, _, before, applies⟩ :=
      inherents_never_stuck.2 _ _ _ (nextHeader 1) parachainProvided _ firstInfo chain rfl
        (provided_parent _ _ _) (provided_time _ _ _)
        ⟨_, by rw [parachainProvided, provided, Store.get_set_ne _ _ (by decide), Store.get_set_ne _ _ (by decide),
          Store.get_set_self], rfl⟩ (by decide +kernel)
    rw [created] at creates
    cases creates
    refine ⟨created, applies ?_ (Or.inl rfl) ?_⟩
    · exact collisionFree_of_list (fun _ member => member) (by decide +kernel)
    · have number : (blockInherentData (genesisOf parachainGenesis).1).map
          (fun info => info.validationData.relayParentNumber) = some 0 := by decide +kernel
      rw [before] at number
      have zero : previous.validationData.relayParentNumber = 0 := Option.some.inj number
      rw [zero]
      decide

end Tuxedo.ParachainRuntime
