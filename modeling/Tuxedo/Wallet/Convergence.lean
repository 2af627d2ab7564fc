import Tuxedo.Wallet.Rollback

/-!
# The coins after every synchronization

Where the nodes serve chains that execute, the wallet's two tables of coins are at all times those
of the line of blocks that it has recorded, whatever other lines it has gone back from.
-/

namespace Tuxedo.Wallet
open Scale Executive TransparentUtxoSet Template Rollback TuxedoGenesisConfigBuilder TuxedoGenesisBlockBuilder

/-! ### The transactions of opaque blocks -/

section
variable (C : Type) [Codec C]

def blockTransactions (b : OpaqueBlock) : List (Tuxedo.Transaction OuterVerifier C) :=
  b.extrinsics.toList.filterMap fun x => (decode (encode x)).map Prod.fst

def servedTransactions (served : List (OpaqueBlock × H256)) : List (Tuxedo.Transaction OuterVerifier C) :=
  served.flatMap fun b => blockTransactions C b.1

variable {C}

theorem blockTransactions_of {b : OpaqueBlock} {ts : List (Tuxedo.Transaction OuterVerifier C)}
    (canonical : b.extrinsics.toList.map encode = ts.map encode) : blockTransactions C b = ts := by
  have decodes : (b.extrinsics.toList.map encode).filterMap (fun bytes =>
      (decode bytes : Option (Tuxedo.Transaction OuterVerifier C × Bytes)).map Prod.fst) = ts := by
    rw [canonical, List.filterMap_map]
    simp
  rwa [List.filterMap_map] at decodes

theorem Applicable.canonical [Host] {b : OpaqueBlock} (applicable : Applicable C b) :
    b.extrinsics.toList.map encode = (blockTransactions C b).map encode := by
  have each : ∀ xs : List OpaqueExtrinsic, (∀ x ∈ xs, ∃ t : Tuxedo.Transaction OuterVerifier C, encode x = encode t) →
      xs.map encode = (xs.filterMap fun x =>
        (decode (encode x) : Option (Tuxedo.Transaction OuterVerifier C × Bytes)).map Prod.fst).map encode := by
    intro xs all
    induction xs with
    | nil => rfl
    | cons x xs ih =>
      obtain ⟨⟨t, same⟩, rest⟩ := List.forall_mem_cons.mp all
      simp [same, ih rest]
  refine each _ fun x member => ?_
  obtain ⟨t, _, same, _⟩ := applicable x member
  exact ⟨t, same⟩

theorem Applicable.hashed [Host] {b : OpaqueBlock} (applicable : Applicable C b) :
    ∀ t ∈ blockTransactions C b, ∃ txHash, t.id? = some txHash := by
  intro t member
  obtain ⟨x, inside, decoded⟩ := List.mem_filterMap.mp member
  obtain ⟨t', txHash, same, hash, _⟩ := applicable x inside
  rw [same, decode_encode_nil, Option.map_some, Option.some.injEq] at decoded
  exact ⟨txHash, decoded ▸ hash⟩

theorem servedTransactions_append (served served' : List (OpaqueBlock × H256)) :
    servedTransactions C (served ++ served') = servedTransactions C served ++ servedTransactions C served' :=
  List.flatMap_append

theorem servedTransactions_single (b : OpaqueBlock) (hash : H256) :
    servedTransactions C [(b, hash)] = blockTransactions C b := List.flatMap_singleton _ _

end

section
variable {C : Type} [Host] [Codec C] [ConstraintChecker OuterVerifier C] {filter : OuterVerifier → Bool}
  {served : List (OpaqueBlock × H256)} {s : Storage} {b : OpaqueBlock} {blockHash : H256}

omit [ConstraintChecker OuterVerifier C] in
theorem opaqueGenesisBlock_canonical {txs : Vec (Tuxedo.Transaction OuterVerifier C)} {built : Storage}
    (hashed : ∀ t ∈ txs.toList, ∃ txHash, t.id? = some txHash)
    (extrinsics : built.get extrinsicKey = some (encode txs)) (version : StateVersion) :
    (buildOpaqueGenesisBlock version built).1.extrinsics.toList.map encode = txs.toList.map encode := by
  have small : ∀ t ∈ txs.toList, t.body.length < 2 ^ 32 := by
    intro t member
    obtain ⟨txHash, hash⟩ := hashed t member
    exact body_small_of_id? hash
  obtain ⟨xs, bytes, canonical⟩ := Transaction.exists_opaque small
  rw [opaqueGenesisBlock_extrinsics (bytes ▸ extrinsics) version]
  exact canonical

theorem applied_formed [FormsOutputs C] {s' : Storage} {ts : List (Tuxedo.Transaction OuterVerifier C)}
    (applied : Applied s ts s') :
    ∀ t ∈ ts, (∃ txHash, t.id? = some txHash) ∧ ∀ output ∈ t.outputs.toList, WellFormed output.payload := by
  induction applied with
  | done s => simp
  | apply applied _ ih =>
    obtain ⟨txHash, _, accepted⟩ := apply_ok.mp applied
    exact List.forall_mem_cons.mpr ⟨⟨⟨txHash, accepted.hash⟩, FormsOutputs.formed applied⟩, ih⟩

theorem Served.applicable [FormsOutputs C] (chain : Served C served s) : ∀ b ∈ served, Applicable C b.1 := by
  induction chain with
  | genesis version hash bare builds formed free =>
    obtain ⟨_, _, whole⟩ := build_ok builds
    have canonical := opaqueGenesisBlock_canonical whole.hashed (build_extrinsics builds) version
    rw [List.forall_mem_singleton]
    intro x member
    obtain ⟨t, inside, same⟩ := List.mem_map.mp (canonical ▸ List.mem_map_of_mem  member)
    obtain ⟨txHash, hash⟩ := whole.hashed t inside
    exact ⟨t, txHash, same.symm, hash, formed t inside⟩
  | @next served s s' block b hash before executed carries ih =>
    intro b' member
    rcases List.mem_append.mp member with earlier | last
    · exact ih b' earlier
    · rw [List.mem_singleton.mp last]
      intro x member
      obtain ⟨t, inside, same⟩ := List.mem_map.mp (carries.extrinsics ▸ List.mem_map_of_mem  member)
      obtain ⟨_, ⟨_, applied, _⟩, _⟩ := executeBlock_ok.mp executed
      obtain ⟨⟨txHash, hash⟩, formed⟩ := applied_formed applied t inside
      exact ⟨t, txHash, same.symm, hash, formed⟩

/-- The transactions of the genesis, and those that were run since. -/
theorem Served.run (chain : Served C served s) :
    ∃ genesis later start, served = genesis :: later ∧
      Ledger.History consumes creates {t | t ∈ blockTransactions C genesis.1} (peekUtxo OuterVerifier start) ∧
      Run start (servedTransactions C later) s := by
  induction chain with
  | @genesis txs base built version hash bare builds formed free =>
    obtain ⟨_, _, whole⟩ := build_ok builds
    have canonical := opaqueGenesisBlock_canonical whole.hashed (build_extrinsics builds) version
    refine ⟨_, [], built, rfl, ?_, .keep (.clear (by decide)) (.done _)⟩
    rw [blockTransactions_of canonical]
    exact build_history bare builds
  | @next served s s' block b hash before executed carries ih =>
    obtain ⟨genesis, later, start, rfl, history, run⟩ := ih
    refine ⟨genesis, later ++ [(b, hash)], start, rfl, history, ?_⟩
    rw [servedTransactions_append, servedTransactions_single, blockTransactions_of carries.extrinsics]
    exact run.trans (executeBlock_run executed)

/-! ### What came before a block -/

variable (C) in
/-- On the chain, no transaction after the genesis that makes something out of nothing comes again. -/
def Unrepeating (served : List (OpaqueBlock × H256)) : Prop :=
  ∀ genesis later, served = genesis :: later →
    (∀ t₀ ∈ blockTransactions C genesis.1, ∀ t ∈ servedTransactions C later,
      Ledger.Unrepeated consumes creates t₀ t) ∧
    (servedTransactions C later).Pairwise (Ledger.Unrepeated consumes creates)

/-- The transactions of the last block do nothing over again that the blocks before it did. -/
theorem Served.unlike [KeepsUtxos OuterVerifier C] (chain : Served C (served ++ [(b, blockHash)]) s)
    (unrepeating : Unrepeating C (served ++ [(b, blockHash)])) (nonempty : served ≠ [])
    (free : CollisionFree {t | t ∈ servedTransactions C (served ++ [(b, blockHash)])}) :
    (∀ t₀ ∈ servedTransactions C served, ∀ t ∈ blockTransactions C b, Ledger.Unlike consumes creates t₀ t) ∧
      ∀ t₀ ∈ servedTransactions C served, ∀ r ∈ consumes t₀, ∃ t' ∈ servedTransactions C served, ∃ output,
        creates t' r = some output := by
  obtain ⟨genesis, later, start, split, history, run⟩ := chain.run
  obtain ⟨notPast, notTwice⟩ := unrepeating genesis later split
  obtain ⟨genesis, middle, rfl⟩ := List.exists_cons_of_ne_nil nonempty
  rw [List.cons_append] at split
  obtain ⟨rfl, rfl⟩ := List.cons.inj split
  rw [servedTransactions_append, servedTransactions_single] at run notPast notTwice
  obtain ⟨twiceBefore, twiceAfter, across⟩ := List.pairwise_append.mp notTwice
  obtain ⟨u₁, before, after⟩ := run.ledger.split
  have past : ∀ t, t ∈ servedTransactions C (genesis :: middle) ↔
      t ∈ {t | t ∈ blockTransactions C genesis.1} ∪ {t | t ∈ servedTransactions C middle} :=
    fun t => List.mem_append
  have apart : Ledger.Apart creates {t | t ∈ servedTransactions C (genesis :: middle ++ [(b, blockHash)])} := free.apart
  have whole : ∀ t, t ∈ servedTransactions C (genesis :: middle ++ [(b, blockHash)]) ↔
      t ∈ servedTransactions C (genesis :: middle) ∨ t ∈ blockTransactions C b := by
    intro t
    rw [servedTransactions_append, servedTransactions_single, List.mem_append]
  obtain ⟨_, _, settled⟩ := before.unlike history
    (fun t member t' member' => apart t ((whole t).mpr (Or.inl ((past t).mpr member))) t'
      ((whole t').mpr (Or.inl ((past t').mpr member'))))
    (fun t₀ earlier t member => notPast t₀ earlier t (List.mem_append_left _ member)) twiceBefore
  have notEarlier : ∀ t₀ ∈ {t | t ∈ blockTransactions C genesis.1} ∪ {t | t ∈ servedTransactions C middle},
      ∀ t ∈ blockTransactions C b, Ledger.Unrepeated consumes creates t₀ t := by
    intro t₀ earlier t member
    rcases earlier with genesis | middle
    · exact notPast t₀ genesis t (List.mem_append_right _ member)
    · exact across t₀ middle t member
  obtain ⟨unlike, _, _⟩ := after.unlike settled
    (fun t member t' member' => apart t ((whole t).mpr (member.imp_left (past t).mpr)) t'
      ((whole t').mpr (member'.imp_left (past t').mpr))) notEarlier twiceAfter
  refine ⟨fun t₀ earlier => unlike t₀ ((past t₀).mp earlier), fun t₀ earlier r spent => ?_⟩
  obtain ⟨_, t', member, made⟩ := settled.spent t₀ ((past t₀).mp earlier) r spent
  exact ⟨t', (past t').mpr member, made⟩

/-! ### The tables and the line -/

/-- At every key the two tables of coins hold what these transactions leave of nothing. -/
def Holding (filter : OuterVerifier → Bool) (ts : List (Tuxedo.Transaction OuterVerifier C)) (db : Db) : Prop :=
  ∀ k, slot db k = Touch.applyAll (ts.map (touch filter k)) ⟨none, none⟩

omit [ConstraintChecker OuterVerifier C] in
theorem touch_created {t : Tuxedo.Transaction OuterVerifier C} {k : Bytes} (made : (touch filter k t).created ≠ none) :
    ∃ r output, k = encode r ∧ creates t r = some output := by
  cases hash : t.id? with
  | none =>
    rw [touch, hash] at made
    exact absurd rfl made
  | some txHash =>
    by_cases member : k ∈ (t.outputRefs txHash).map encode
    · obtain ⟨r, mine, rfl⟩ := List.mem_map.mp member
      obtain ⟨output, creation⟩ := Option.ne_none_iff_exists'.mp (mt (creates_eq_none hash).mp (not_not_intro mine))
      exact ⟨r, output, rfl, creation⟩
    · rw [touch, hash, Option.bind_some, if_neg member] at made
      exact absurd rfl made

omit [ConstraintChecker OuterVerifier C] in
theorem Holding.extend {ts ts' : List (Tuxedo.Transaction OuterVerifier C)} {db db' : Db}
    (holding : Holding filter ts db)
    (slots : ∀ k, slot db' k = Touch.applyAll (ts'.map (touch filter k)) (slot db k)) :
    Holding filter (ts ++ ts') db' := by
  intro k
  rw [slots, holding, List.map_append, Touch.applyAll_append]

omit [ConstraintChecker OuterVerifier C] in
/-- Going back from transactions that do nothing over again leaves the tables of those before. -/
theorem Holding.retract {ts ts' : List (Tuxedo.Transaction OuterVerifier C)} {db db' : Db}
    (holding : Holding filter (ts ++ ts') db)
    (unlike : ∀ t₀ ∈ ts, ∀ t ∈ ts', Ledger.Unlike consumes creates t₀ t)
    (sourced : ∀ t₀ ∈ ts, ∀ r ∈ consumes t₀, ∃ t' ∈ ts, ∃ output, creates t' r = some output)
    (apart : Ledger.Apart creates {t | t ∈ ts ++ ts'})
    (slots : ∀ k, slot db' k = Touch.unapplyAll (ts'.map (touch filter k)) (slot db k)) :
    Holding filter ts db' := by
  have known : ∀ t' ∈ ts, ∀ t ∈ ts', ∀ r output output', creates t' r = some output → creates t r ≠ some output' := by
    intro t' earlier t member r output output' made made'
    have same := apart t' (List.mem_append_left _ earlier) t (List.mem_append_right _ member) r _ _ made made'
    exact (unlike t' earlier t member).1 ⟨r, output', made'⟩ same
  intro k
  rw [slots, holding, List.map_append, Touch.applyAll_append]
  apply Touch.unapplyAll_applyAll
  · rintro ⟨_, inside, touched⟩
    obtain ⟨t, member, rfl⟩ := List.mem_map.mp inside
    by_contra moved
    obtain ⟨_, inside₀, consumed₀⟩ := Touch.applyAll_spent rfl moved
    obtain ⟨t₀, earlier, rfl⟩ := List.mem_map.mp inside₀
    obtain ⟨r, spent, rfl⟩ := List.mem_map.mp consumed₀
    by_cases created : (touch filter (encode r) t).created = none
    · have consumed : (touch filter (encode r) t).consumed := by
        by_contra unconsumed
        exact touched ⟨created, unconsumed⟩
      obtain ⟨r', again, same⟩ := List.mem_map.mp consumed
      exact (unlike t₀ earlier t member).2 r spent (encode_injective same ▸ again)
    · obtain ⟨r', output', same, made'⟩ := touch_created created
      obtain ⟨t', source, output, made⟩ := sourced t₀ earlier r spent
      exact known t' source t member r output output' made (encode_injective same ▸ made')
  · rintro ⟨_, inside, created⟩
    obtain ⟨t, member, rfl⟩ := List.mem_map.mp inside
    obtain ⟨r, output', rfl, made'⟩ := touch_created created
    by_contra there
    obtain ⟨_, inside₀, created₀⟩ := Touch.applyAll_unspent rfl there
    obtain ⟨t₀, earlier, rfl⟩ := List.mem_map.mp inside₀
    obtain ⟨r₀, output, same, made⟩ := touch_created created₀
    exact known t₀ earlier t member r output output' (encode_injective same ▸ made) made'

omit [ConstraintChecker OuterVerifier C] in
theorem Holding.unspent_eq {ts : List (Tuxedo.Transaction OuterVerifier C)} {db db' : Db}
    (holding : Holding filter ts db) (holding' : Holding filter ts db') : db'.unspent = db.unspent := by
  ext1 k
  exact congrArg Slot.unspent ((holding' k).trans (holding k).symm)

omit [ConstraintChecker OuterVerifier C] in
/-- Applying blocks with canonical extrinsics adds up their transactions. -/
theorem Holding.applyBlocks {ts : List (Tuxedo.Transaction OuterVerifier C)}
    (applicable : ∀ b ∈ served, Applicable C b.1) {db db' : Db} (decodes : Decodes db) (holding : Holding filter ts db)
    (applied : served.forM (fun b => applyBlock C filter b.1 b.2) db = .ok () db') :
    Holding filter (ts ++ servedTransactions C served) db' := by
  induction served generalizing ts db with
  | nil =>
    obtain ⟨_, rfl⟩ := Exec.pure_ok applied
    rwa [servedTransactions, List.flatMap_nil, List.append_nil]
  | cons b served ih =>
    obtain ⟨here, applicable⟩ := List.forall_mem_cons.mp applicable
    obtain ⟨_, db₁, first, later⟩ := Exec.bind_ok applied
    obtain ⟨decodes₁, _, _, slots⟩ := applyBlock_slot here.canonical decodes first
    have after := ih applicable decodes₁ (holding.extend slots) later
    rwa [List.append_assoc] at after

omit [Host] [Codec C] [ConstraintChecker OuterVerifier C] in
theorem Decodes.empty : Decodes Db.empty := Kept.empty.decodes

omit [ConstraintChecker OuterVerifier C] in
theorem Holding.empty : Holding (C := C) filter [] Db.empty := fun _ => rfl

/-- Where the tables hold what the transactions of a chain leave, the unspent table holds its coins. -/
theorem Served.tracks_of_holding [KeepsUtxos OuterVerifier C] [FormsOutputs C] (only : OnlySignatures filter)
    (chain : Served C served s) {db : Db} (holding : Holding filter (servedTransactions C served) db) :
    Tracks filter (peekUtxo OuterVerifier s) db.unspent := by
  obtain ⟨fresh, applied, tracks⟩ := chain.tracks only
  have replayed := Holding.applyBlocks chain.applicable Decodes.empty Holding.empty applied
  rwa [replayed.unspent_eq holding]

end

/-! ### What the nodes know -/

section
variable {blockOf : H256 → Option OpaqueBlock} {genesisHash : H256}

/-- Blocks that follow each other from the genesis up. -/
structure Line (blockOf : H256 → Option OpaqueBlock) (genesisHash : H256) (w : List H256) : Prop where
  starts : w[0]? = some genesisHash
  linked : Lineage.Linked (parentOf blockOf) w
  numbered : ∀ h hash, w[h]? = some hash → ∃ b, blockOf hash = some b ∧ b.header.number.toNat = h

theorem Recorded.line {w : List H256} {db : Db} (recorded : Recorded blockOf genesisHash w db) :
    Line blockOf genesisHash w := by
  refine ⟨recorded.starts, recorded.linked, fun h hash found => ?_⟩
  obtain ⟨b, named, number, _⟩ := recorded.blocks h hash found
  exact ⟨b, named, number⟩

/-- The tables tell the line. -/
theorem Recorded.unique {w w' : List H256} {db : Db} (first : Recorded blockOf genesisHash w db)
    (second : Recorded blockOf genesisHash w' db) : w = w' := by
  apply List.ext_getElem?
  intro i
  by_cases room : i < 2 ^ 32
  · have read := first.getBlockHash_eq (UInt32.ofNat i)
    rw [second.getBlockHash_eq, toNat_ofNat_of_lt room] at read
    exact (Except.ok.inj read).symm
  · have small := first.room
    have small' := second.room
    rw [List.getElem?_eq_none (by omega), List.getElem?_eq_none (by omega)]

theorem Line.take {w : List H256} (line : Line blockOf genesisHash w) {n : Nat} (positive : 0 < n) :
    Line blockOf genesisHash (w.take n) := by
  refine ⟨?_, line.linked.take n, fun h hash found => ?_⟩
  · rw [List.getElem?_take_of_lt positive, line.starts]
  · rw [List.getElem?_take] at found
    split at found
    · exact line.numbered h hash found
    · cases found

theorem Node.line (node : Node blockOf genesisHash) : Line blockOf genesisHash node.best :=
  ⟨node.starts, node.linked, node.numbered⟩

variable (blockOf) in
def lineBlocks (w : List H256) : List (OpaqueBlock × H256) :=
  w.filterMap fun hash => (blockOf hash).map fun b => (b, hash)

theorem lineBlocks_concat {w : List H256} {hash : H256} {b : OpaqueBlock} (named : blockOf hash = some b) :
    lineBlocks blockOf (w ++ [hash]) = lineBlocks blockOf w ++ [(b, hash)] := by
  simp [lineBlocks, named]

theorem Line.lineBlocks_ne_nil {w : List H256} (line : Line blockOf genesisHash w) : lineBlocks blockOf w ≠ [] := by
  obtain ⟨b, named, _⟩ := line.numbered 0 genesisHash line.starts
  refine List.ne_nil_of_mem (a := (b, genesisHash)) (List.mem_filterMap.mpr ⟨genesisHash, ?_, ?_⟩)
  · exact List.mem_of_getElem? line.starts
  · rw [named]
    rfl

section
variable (C : Type) [Host] [Codec C] [ConstraintChecker OuterVerifier C]

/-- Every line of the known blocks is a chain that executes, on which nothing is made out of nothing
twice. -/
structure BlockTree (blockOf : H256 → Option OpaqueBlock) (genesisHash : H256) : Prop where
  rooted : ∀ hash b, blockOf hash = some b → ∃ w, Line blockOf genesisHash (w ++ [hash])
  served : ∀ w, Line blockOf genesisHash w → ∃ s, Served C (lineBlocks blockOf w) s
  unrepeating : ∀ w, Line blockOf genesisHash w → Unrepeating C (lineBlocks blockOf w)
  free : ∀ w, Line blockOf genesisHash w → CollisionFree {t | t ∈ servedTransactions C (lineBlocks blockOf w)}

/-- The recorded blocks are the line, and the tables of coins are its own. -/
structure Mirrored (blockOf : H256 → Option OpaqueBlock) (genesisHash : H256) (filter : OuterVerifier → Bool)
    (w : List H256) (db : Db) : Prop extends Recorded blockOf genesisHash w db where
  decodes : Decodes db
  holding : Holding filter (servedTransactions C (lineBlocks blockOf w)) db

end

variable {C : Type} [Host] [Codec C] [ConstraintChecker OuterVerifier C] {filter : OuterVerifier → Bool}
  {w : List H256} {db : Db} {node : Node blockOf genesisHash} {stage : Stage} {hash : H256} {b : OpaqueBlock}

theorem BlockTree.applicable [FormsOutputs C] (tree : BlockTree C blockOf genesisHash) (named : blockOf hash = some b) :
    Applicable C b := by
  obtain ⟨w, line⟩ := tree.rooted hash b named
  obtain ⟨s, chain⟩ := tree.served _ line
  rw [lineBlocks_concat named] at chain
  exact chain.applicable (b, hash) (List.mem_append_right _ (List.mem_singleton_self _))

/-! ### What one answer leaves of the coins -/

theorem Mirrored.unapplied [KeepsUtxos OuterVerifier C] [FormsOutputs C] (tree : BlockTree C blockOf genesisHash)
    (mirrored : Mirrored C blockOf genesisHash filter (w ++ [hash]) db) (left : 0 < w.length) :
    ∃ db', unapplyHighestBlock C db = .ok () db' ∧ Mirrored C blockOf genesisHash filter w db' := by
  have recorded := mirrored.toRecorded
  obtain ⟨b, named, unapplied⟩ := recorded.unapplyHighestBlock_eq (C := C)
  have shorter := recorded.unapplyHighestBlock (C := C) left
  have line := recorded.line
  obtain ⟨s, chain⟩ := tree.served _ line
  have unrepeating := tree.unrepeating _ line
  have free := tree.free _ line
  have holding := mirrored.holding
  rw [lineBlocks_concat named] at chain unrepeating free holding
  rw [servedTransactions_append, servedTransactions_single] at holding
  have applicable := tree.applicable named
  have nonempty := shorter.line.lineBlocks_ne_nil
  obtain ⟨unlike, sourced⟩ := chain.unlike unrepeating nonempty free
  have begins : Decodes { db with
      blockHashes := db.blockHashes.clear (encode (UInt32.ofNat w.length))
      blocks := db.blocks.clear (encode hash) } := ⟨mirrored.decodes.unspent, mirrored.decodes.spent⟩
  obtain ⟨db', transactions, slots⟩ :=
    unapplyTransactions_slot filter applicable.canonical applicable.hashed begins
  have returned := unapplied.trans transactions
  rw [Exec.after_of_ok returned] at shorter
  refine ⟨db', returned, shorter, Decodes.unapplyHighestBlock.of_ok returned mirrored.decodes, ?_⟩
  refine holding.retract unlike sourced ?_ slots
  rw [servedTransactions_append, servedTransactions_single] at free
  exact free.apart

theorem Mirrored.applied [FormsOutputs C] (only : OnlySignatures filter) (tree : BlockTree C blockOf genesisHash)
    (mirrored : Mirrored C blockOf genesisHash filter w db) (named : blockOf hash = some b)
    (next : b.header.number.toNat = w.length) (child : parentOf blockOf hash = w.getLast?)
    (room : w.length + 1 < 2 ^ 32) :
    ∃ db', applyBlock C filter b hash db = .ok () db' ∧ Mirrored C blockOf genesisHash filter (w ++ [hash]) db' := by
  have applicable := tree.applicable named
  have longer : Recorded blockOf genesisHash (w ++ [hash]) ((Wallet.applyBlock C filter b hash).after db) :=
    mirrored.toRecorded.applyBlock named next child room
  obtain ⟨db', applied, decodes⟩ := applyBlock_ok only applicable hash mirrored.decodes
  rw [Exec.after_of_ok applied] at longer
  obtain ⟨_, _, _, slots⟩ := applyBlock_slot applicable.canonical mirrored.decodes applied
  refine ⟨db', applied, longer, decodes, ?_⟩
  rw [lineBlocks_concat named, servedTransactions_append, servedTransactions_single]
  exact mirrored.holding.extend slots

variable (node) in
theorem Mirrored.resume [KeepsUtxos OuterVerifier C] [FormsOutputs C] (only : OnlySignatures filter)
    (tree : BlockTree C blockOf genesisHash) (mirrored : Mirrored C blockOf genesisHash filter w db)
    (placed : Placed blockOf w stage) :
    ∃ w', Mirrored C blockOf genesisHash filter w' ((resume C filter node stage).after db) ∧
      ∀ stage' db', Wallet.resume C filter node stage db = .ok stage' db' → Move node stage w stage' w' := by
  cases stage with
  | compare height hash =>
    by_cases same : some hash = node.getBlockHash height
    · rw [resume_of_agree same]
      refine ⟨w, mirrored, fun stage' db' h => ?_⟩
      obtain ⟨rfl, _⟩ := Exec.pure_ok h
      exact .agree same
    · obtain ⟨positive, v, rfl, length, left⟩ := placed.split mirrored.toRecorded same
      obtain ⟨db₁, unapplied, shorter⟩ := mirrored.unapplied tree left
      obtain ⟨last, newest, resumed⟩ := resume_of_unapplied same positive unapplied shorter.toRecorded length
      refine ⟨v, Exec.after_of_ok resumed ▸ shorter, fun stage' db' h => ?_⟩
      cases resumed.symm.trans h
      exact .revert positive newest
  | advance height =>
    cases answer : node.getBlockHash height with
    | none =>
      rw [resume_of_past answer]
      refine ⟨w, mirrored, fun stage' db' h => ?_⟩
      obtain ⟨rfl, _⟩ := Exec.pure_ok h
      exact .finish answer
    | some hash =>
      rw [resume_of_found answer]
      refine ⟨w, mirrored, fun stage' db' h => ?_⟩
      obtain ⟨rfl, _⟩ := Exec.pure_ok h
      exact .found answer
  | fetch height hash =>
    obtain ⟨length, room, child, b, named, number⟩ := placed
    cases served : node.serves hash with
    | none =>
      have lost : Wallet.resume C filter node (.fetch height hash) db = .error .panic db :=
        resume_of_unserved served db
      rw [Exec.after_of_error lost]
      exact ⟨w, mirrored, fun stage' db' h => by cases lost.symm.trans h⟩
    | some block =>
      obtain rfl := Option.some.inj ((node.served hash block served).symm.trans named)
      obtain ⟨db₁, applied, longer⟩ := mirrored.applied only tree named number child room
      have returned : (applyBlock C filter block hash >>= fun _ => pure (Stage.advance (height + 1))) db =
          .ok (Stage.advance (height + 1)) db₁ := Exec.bind_of_ok applied
      rw [resume_of_served served, Exec.after_of_ok returned]
      refine ⟨w ++ [hash], longer, fun stage' db' h => ?_⟩
      cases returned.symm.trans h
      exact .extend
  | done =>
    refine ⟨w, mirrored, fun stage' db' h => ?_⟩
    obtain ⟨rfl, _⟩ := Exec.pure_ok h
    exact .rest

/-! ### Runs -/

variable {nodes : List (Node blockOf genesisHash)} {best : List H256}

theorem Mirrored.follow [KeepsUtxos OuterVerifier C] [FormsOutputs C] (only : OnlySignatures filter)
    (tree : BlockTree C blockOf genesisHash) (mirrored : Mirrored C blockOf genesisHash filter w db)
    (placed : Placed blockOf w stage) (steady : Steady C filter stage nodes db) :
    ∃ w', Mirrored C blockOf genesisHash filter w' ((follow C filter stage nodes).after db) := by
  induction nodes generalizing stage w db with
  | nil => exact ⟨w, mirrored⟩
  | cons node nodes ih =>
    obtain ⟨holds, later⟩ := steady
    obtain ⟨w₁, between, moves⟩ := mirrored.resume node only tree placed
    cases resumed : Wallet.resume C filter node stage db with
    | ok stage₁ db₁ =>
      rw [Exec.after_of_ok resumed] at between
      have placed₁ := (moves stage₁ db₁ resumed).placed mirrored.toRecorded placed holds
      obtain ⟨w', after⟩ := ih between placed₁ (later _ _ resumed)
      refine ⟨w', ?_⟩
      rwa [follow_cons, Exec.after_bind_of_ok resumed]
    | error e db₁ =>
      rw [Exec.after_of_error resumed] at between
      exact ⟨w₁, Exec.after_of_error (Exec.bind_of_error resumed) ▸ between⟩

theorem mirrored_opened [FormsOutputs C] (only : OnlySignatures filter) (tree : BlockTree C blockOf genesisHash)
    (named : blockOf genesisHash = some b) (first : b.header.number = 0) :
    Mirrored C blockOf genesisHash filter [genesisHash]
      (Exec.after (do openDb genesisHash b; applyBlock C filter b genesisHash) Db.empty) := by
  have recorded : Recorded blockOf genesisHash [genesisHash]
      (Exec.after (do openDb genesisHash b; applyBlock C filter b genesisHash) Db.empty) :=
    recorded_opened named first
  have applicable := tree.applicable named
  have begins : Decodes (genesisDb genesisHash b) := ⟨Decodes.empty.unspent, Decodes.empty.spent⟩
  obtain ⟨db, applied, decodes⟩ := applyBlock_ok only applicable genesisHash begins
  obtain ⟨_, _, _, slots⟩ := applyBlock_slot applicable.canonical begins applied
  rw [Exec.after_bind_of_ok (openDb_empty b), Exec.after_of_ok applied] at recorded ⊢
  refine ⟨recorded, decodes, ?_⟩
  have single : lineBlocks blockOf [genesisHash] = [(b, genesisHash)] := lineBlocks_concat (w := []) named
  rw [single, servedTransactions_single]
  exact Holding.empty.extend slots

theorem Synced.mirrored [KeepsUtxos OuterVerifier C] [FormsOutputs C] (only : OnlySignatures filter)
    (tree : BlockTree C blockOf genesisHash) (synced : Synced blockOf genesisHash C filter db) :
    ∃ w, Mirrored C blockOf genesisHash filter w db := by
  induction synced with
  | opened named first => exact ⟨_, mirrored_opened only tree named first⟩
  | @synced db nodes before steady ih =>
    obtain ⟨w, mirrored⟩ := ih
    obtain ⟨hash, begun, placed⟩ := begin_ok mirrored.toRecorded
    have whole : (synchronizeHelper C filter nodes).after db =
        (Wallet.follow C filter (.compare (UInt32.ofNat (w.length - 1)) hash) nodes).after db := by
      rw [synchronizeHelper_eq, Exec.after_bind_of_ok begun]
    rw [whole]
    exact mirrored.follow only tree placed (steady _ begun)

theorem Mirrored.tracks [KeepsUtxos OuterVerifier C] [FormsOutputs C] (only : OnlySignatures filter)
    (mirrored : Mirrored C blockOf genesisHash filter w db) {s : Storage} (chain : Served C (lineBlocks blockOf w) s) :
    Tracks filter (peekUtxo OuterVerifier s) db.unspent := chain.tracks_of_holding only mirrored.holding

/-- At all times the unspent table holds the coins of the chain that the wallet has recorded, whatever
it has gone back from, and enough answers of a node whose chain stays bring it to the coins of
that chain. -/
theorem coins_follow_chain [KeepsUtxos OuterVerifier C] [FormsOutputs C] (only : OnlySignatures filter)
    (tree : BlockTree C blockOf genesisHash) (synced : Synced blockOf genesisHash C filter db) :
    (∃ w s, Recorded blockOf genesisHash w db ∧ Served C (lineBlocks blockOf w) s ∧
      Tracks filter (peekUtxo OuterVerifier s) db.unspent) ∧
    ∀ best : List H256, ∃ n, ∀ nodes : List (Node blockOf genesisHash), (∀ node ∈ nodes, node.best = best) →
      n ≤ nodes.length → ∃ db', synchronizeHelper C filter nodes db = .ok .done db' ∧
        (∃ s, Served C (lineBlocks blockOf best) s) ∧
        ∀ s, Served C (lineBlocks blockOf best) s → Tracks filter (peekUtxo OuterVerifier s) db'.unspent := by
  obtain ⟨w, mirrored⟩ := synced.mirrored only tree
  constructor
  · obtain ⟨s, chain⟩ := tree.served w mirrored.line
    exact ⟨w, s, mirrored.toRecorded, chain, mirrored.tracks only chain⟩
  · intro best
    obtain ⟨hash, begun, placed⟩ := begin_ok mirrored.toRecorded
    refine ⟨remaining best (.compare (UInt32.ofNat (w.length - 1)) hash), fun nodes still enough => ?_⟩
    obtain ⟨db', followed⟩ := follow_returns only (fun _ _ => tree.applicable) still mirrored.decodes
      mirrored.toRecorded placed trivial enough
    have returned : synchronizeHelper C filter nodes db = .ok .done db' := (Exec.bind_of_ok begun).trans followed
    refine ⟨db', returned, ?_, ?_⟩
    · obtain ⟨node, member⟩ := List.exists_mem_of_length_pos (Nat.lt_of_lt_of_le (by simp [remaining]) enough)
      exact tree.served best (still node member ▸ node.line)
    · intro s chain
      obtain ⟨v, after⟩ := (synced.still still).mirrored only tree
      rw [Exec.after_of_ok returned] at after
      obtain ⟨v', recorded, agrees⟩ := follow_agrees still mirrored.toRecorded placed trivial followed
      obtain rfl : v' = best := agrees
      obtain rfl := after.toRecorded.unique recorded
      exact after.tracks only chain

end

/-! The two branches over the genesis with a coin, with the tries over their states and bodies. -/

@[reducible] def branchHost : Host :=
  Host.native (fun _ _ _ => false)
    (fun _ s =>
      if s.get heightKey = some (encode (0 : UInt32)) then coinGenesisRoot
      else if s.get heightKey = some (encode (2 : UInt32)) then secondEmpty.header.stateRoot
      else if (s.get (encode (⟨claimTx, 0⟩ : OutputRef))).isSome then claimRoot
      else firstEmpty.header.stateRoot)
    (fun version xs =>
      if xs = [] then emptyTrieRoot else if version = .v1 then coinGenesisExtrinsics else claimExtrinsics)

theorem branches_of {hash : H256} {b : OpaqueBlock} (named : branches hash = some b) :
    (hash = coinGenesisHash ∧ b.header.number.toNat = 0) ∨ (hash = claimHash ∧ b.header.number.toNat = 1) ∨
      (hash = firstEmptyHash ∧ b.header.number.toNat = 1) ∨ (hash = secondEmptyHash ∧ b.header.number.toNat = 2) := by
  unfold branches at named
  split at named
  · cases named
    exact Or.inl ⟨‹_›, rfl⟩
  · split at named
    · cases named
      exact Or.inr (Or.inl ⟨‹_›, rfl⟩)
    · split at named
      · cases named
        exact Or.inr (Or.inr (Or.inl ⟨‹_›, rfl⟩))
      · split at named
        · cases named
          exact Or.inr (Or.inr (Or.inr ⟨‹_›, rfl⟩))
        · cases named

/-- The lines up to the ends of the two branches. -/
theorem line_branches {w : List H256} (line : Line branches coinGenesisHash w) :
    w = [coinGenesisHash] ∨ w = [coinGenesisHash, claimHash] ∨ w = [coinGenesisHash, firstEmptyHash] ∨
      w = [coinGenesisHash, firstEmptyHash, secondEmptyHash] := by
  have number : ∀ h hash, w[h]? = some hash → (hash = coinGenesisHash ∧ h = 0) ∨ (hash = claimHash ∧ h = 1) ∨
      (hash = firstEmptyHash ∧ h = 1) ∨ (hash = secondEmptyHash ∧ h = 2) := by
    intro h hash found
    obtain ⟨b, named, here⟩ := line.numbered h hash found
    have known := branches_of named
    rwa [here] at known
  have short : w.length ≤ 3 := by
    by_contra long
    have top := number 3 w[3] (List.getElem?_eq_getElem (by omega))
    simp at top
  have starts := line.starts
  match w, short with
  | [], _ => cases starts
  | [g], _ =>
    cases starts
    exact Or.inl rfl
  | [g, a], _ =>
    cases starts
    rcases number 1 a rfl with ⟨_, zero⟩ | ⟨rfl, _⟩ | ⟨rfl, _⟩ | ⟨_, two⟩
    · cases zero
    · exact Or.inr (Or.inl rfl)
    · exact Or.inr (Or.inr (Or.inl rfl))
    · cases two
  | [g, a, c], _ =>
    cases starts
    rcases number 2 c rfl with ⟨_, zero⟩ | ⟨_, one⟩ | ⟨_, one⟩ | ⟨rfl, _⟩
    · cases zero
    · cases one
    · cases one
    · have parent : some firstEmptyHash = some a := line.linked 1 secondEmptyHash rfl
      cases parent
      exact Or.inr (Or.inr (Or.inr rfl))

theorem branches_transactions :
    blockTransactions OuterConstraintChecker coinGenesisBlock = coinGenesis.toList ∧
      blockTransactions OuterConstraintChecker claimServed = [claimCoin] := by
  decide +kernel

def firstBlock : Template.Block := ⟨firstEmpty.header, Vec.empty⟩

def secondBlock : Template.Block := ⟨secondEmpty.header, Vec.empty⟩

/-- The blocks of both branches execute, and the two transactions have hashes of their own. -/
theorem branches_computed :
    letI := branchHost
    (∀ t ∈ claimCoin :: coinGenesis.toList, ∀ t' ∈ claimCoin :: coinGenesis.toList,
      Host.blake2_256 (preimage t) = Host.blake2_256 (preimage t') → preimage t = preimage t') ∧
    ((build coinGenesis Store.empty).toOption.any fun built =>
      (buildOpaqueGenesisBlock .v1 built).1 = coinGenesisBlock ∧
      ((executeBlock claimBlock).toOption (buildOpaqueGenesisBlock .v1 built).2).any (fun _ => true) ∧
      ((executeBlock firstBlock).toOption (buildOpaqueGenesisBlock .v1 built).2).any fun first =>
        ((executeBlock secondBlock).toOption first.2).any fun _ => true) = true := by
  decide +kernel

/-- Every line of the two branches is a chain. -/
theorem branches_served :
    letI := branchHost
    ∀ w, Line branches coinGenesisHash w → ∃ s, Served OuterConstraintChecker (lineBlocks branches w) s := by
  let := branchHost
  obtain ⟨built, builds, computed⟩ := Outcome.exists_of_any branches_computed.2
  obtain ⟨same, claims, empties⟩ := of_decide_eq_true computed
  obtain ⟨_, s₁, claimed, _⟩ := Exec.exists_of_any claims
  obtain ⟨_, s₂, first, empties⟩ := Exec.exists_of_any empties
  obtain ⟨_, s₃, second, _⟩ := Exec.exists_of_any empties
  have genesis := Served.genesis (C := OuterConstraintChecker) .v1 coinGenesisHash (fun r => by simp [peekUtxo]) builds
    coinGenesis_formed (collisionFree_of_list (fun t member => List.mem_cons_of_mem _ member) branches_computed.1)
  rw [same] at genesis
  have carries : Carries claimServed claimBlock := ⟨rfl, by
    change [encode _] = [encode claimCoin]
    rw [Transaction.encode_toOpaque]⟩
  have firstServed := genesis.next (b := firstEmpty) firstEmptyHash first ⟨rfl, rfl⟩
  intro w line
  rcases line_branches line with rfl | rfl | rfl | rfl
  · exact ⟨_, genesis⟩
  · exact ⟨_, genesis.next claimHash claimed carries⟩
  · exact ⟨_, firstServed⟩
  · exact ⟨_, firstServed.next (b := secondEmpty) secondEmptyHash second ⟨rfl, rfl⟩⟩

/-- The genesis, and at most the claim after it. -/
theorem branches_later {w : List H256} (line : Line branches coinGenesisHash w) :
    ∃ later, lineBlocks branches w = (coinGenesisBlock, coinGenesisHash) :: later ∧
      (servedTransactions OuterConstraintChecker later = [] ∨
        servedTransactions OuterConstraintChecker later = [claimCoin]) := by
  rcases line_branches line with rfl | rfl | rfl | rfl
  · exact ⟨[], rfl, Or.inl rfl⟩
  · refine ⟨[(claimServed, claimHash)], rfl, Or.inr ?_⟩
    rw [servedTransactions_single, branches_transactions.2]
  · exact ⟨[(firstEmpty, firstEmptyHash)], rfl, Or.inl rfl⟩
  · exact ⟨[(firstEmpty, firstEmptyHash), (secondEmpty, secondEmptyHash)], rfl, Or.inl rfl⟩

theorem branches_tree :
    letI := branchHost
    BlockTree OuterConstraintChecker branches coinGenesisHash := by
  let := branchHost
  refine ⟨fun hash b named => ?_, branches_served, fun w line => ?_, fun w line => ?_⟩
  · have claimLine := claimNode.line
    have emptyLine := emptyNode.line
    rcases branches_of named with ⟨rfl, _⟩ | ⟨rfl, _⟩ | ⟨rfl, _⟩ | ⟨rfl, _⟩
    · exact ⟨[], claimLine.take (Nat.succ_pos 0)⟩
    · exact ⟨[coinGenesisHash], claimLine⟩
    · exact ⟨[coinGenesisHash], emptyLine.take (Nat.succ_pos 1)⟩
    · exact ⟨[coinGenesisHash, firstEmptyHash], emptyLine⟩
  · obtain ⟨later, split, few⟩ := branches_later line
    intro genesis later' same
    obtain ⟨rfl, rfl⟩ := List.cons.inj (split.symm.trans same)
    have consuming : ∃ r, r ∈ consumes claimCoin := ⟨⟨freeCoinTx, 0⟩, List.mem_singleton_self _⟩
    rcases few with none | one
    · rw [none]
      exact ⟨fun _ _ _ member => (List.not_mem_nil member).elim, List.Pairwise.nil⟩
    · rw [one]
      refine ⟨fun t₀ _ t member _ inputless => ?_, List.pairwise_singleton _ _⟩
      rw [List.mem_singleton.mp member] at inputless
      exact absurd inputless (not_forall_not.mpr consuming)
  · obtain ⟨later, split, few⟩ := branches_later line
    refine collisionFree_of_list (fun t member => ?_) branches_computed.1
    have inside : t ∈ blockTransactions OuterConstraintChecker coinGenesisBlock ++
        servedTransactions OuterConstraintChecker later := by
      rw [split] at member
      exact member
    rw [branches_transactions.1] at inside
    rcases List.mem_append.mp inside with genesis | rest
    · exact List.mem_cons_of_mem _ genesis
    · rcases few with none | one
      · rw [none] at rest
        cases rest
      · rw [one] at rest
        exact List.mem_singleton.mp rest ▸ List.mem_cons_self

/-- The claim is recorded, the other branch takes over, and the coins are those of this branch. -/
theorem coins_follow_chain_reorg :
    letI := branchHost
    ∃ db db' s, ∃ nodes : List (Node branches coinGenesisHash),
      Synced branches coinGenesisHash OuterConstraintChecker walletFilter db ∧
      getBlockHash 1 db = .ok (some claimHash) ∧
      synchronizeHelper OuterConstraintChecker walletFilter nodes db = .ok .done db' ∧
      Served OuterConstraintChecker (lineBlocks branches emptyNode.best) s ∧
      Tracks walletFilter (peekUtxo OuterVerifier s) db'.unspent := by
  let := branchHost
  let db := (synchronizeHelper OuterConstraintChecker walletFilter (List.replicate 4 claimNode)).after openedWallet
  have opened : Synced branches coinGenesisHash OuterConstraintChecker walletFilter openedWallet :=
    .opened (b := coinGenesisBlock) rfl rfl
  have synced : Synced branches coinGenesisHash OuterConstraintChecker walletFilter db :=
    opened.still fun node member => congrArg Node.best (List.eq_of_mem_replicate member)
  have claimed : getBlockHash 1 db = .ok (some claimHash) := Outcome.toOption_eq_some.mp (by decide +kernel)
  obtain ⟨_, converges⟩ := coins_follow_chain onlySignatures_walletFilter branches_tree synced
  obtain ⟨n, enough⟩ := converges emptyNode.best
  obtain ⟨db', returned, ⟨s, served⟩, tracks⟩ := enough (List.replicate n emptyNode)
    (fun node member => congrArg Node.best (List.eq_of_mem_replicate member)) (by rw [List.length_replicate])
  exact ⟨db, db', s, _, synced, claimed, returned, served, tracks s served⟩

end Tuxedo.Wallet
