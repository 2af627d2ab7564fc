import Tuxedo.Runtime.TimestampInherent
import Tuxedo.Wallet.Writes

/-!
# The last time

The table with the last time is written when a block is applied, and going back from a block
leaves it as it is.
-/

namespace Tuxedo.Wallet
open Scale Template

/-- `timestamp::get_timestamp`. -/
def getTimestamp (db : Db) : Outcome Error UInt64 := do
  let timestamp ← okOr (db.timestamp.get [0]) (.message "Could not find timestamp in database.")
  orErr (decodeValue timestamp : Outcome Error UInt64) (.message "Could not decode timestamp from database.")

/-- The time of an output that is a timestamp. -/
def outputTime (output : Template.Output) : Option UInt64 :=
  (output.payload.extract Time.Timestamp).toOption.map Time.Timestamp.time

section
variable (C : Type) [Codec C]

def transactionTimes (x : OpaqueExtrinsic) : List UInt64 :=
  match (decodeValue (encode x) : Outcome Error (Tuxedo.Transaction OuterVerifier C)) with
  | .ok tx => tx.outputs.toList.filterMap outputTime
  | .error _ => []

/-- The times of the timestamps that a block creates. -/
def blockTimes (b : OpaqueBlock) : List UInt64 := b.extrinsics.toList.flatMap (transactionTimes C)

variable (blockOf : H256 → Option OpaqueBlock)

/-- The times of the timestamps along a line of blocks. -/
def lineTimes (w : List H256) : List UInt64 := w.flatMap fun hash => ((blockOf hash).map (blockTimes C)).getD []

/-- What `get_timestamp` says of the line when it follows it. -/
def timeOn (w : List H256) : Outcome Error UInt64 :=
  okOr (lineTimes C blockOf w).getLast? (.message "Could not find timestamp in database.")

variable (filter : OuterVerifier → Bool) [Host]

/-- The times that applying the blocks notes, up to what does not decode in each. -/
def notedTimes (blocks : List (OpaqueBlock × H256)) : List UInt64 :=
  blocks.flatMap fun b => (blockScript C filter b.1).writes.filterMap Write.time?

/-- The database after the blocks were applied, however each of the calls ended. -/
def applyAll (blocks : List (OpaqueBlock × H256)) (db : Db) : Db :=
  blocks.foldl (fun db b => (applyBlock C filter b.1 b.2).after db) db

end

theorem getTimestamp_congr {db db' : Db} (same : db'.timestamp = db.timestamp) :
    getTimestamp db' = getTimestamp db := by
  unfold getTimestamp
  rw [same]

theorem getTimestamp_noted {db db' : Db} {time : UInt64} (same : db'.timestamp = noted db.timestamp (some time)) :
    getTimestamp db' = .ok time := by
  unfold getTimestamp
  rw [same, noted, Store.get_set_self]
  exact (Outcome.bind_of_ok (Outcome.okOr_some _ _)).trans (Outcome.orErr_of_ok (decodeValue_encode time) _)

variable {filter : OuterVerifier → Bool}

/-! ### Applying notes the times of the block -/

theorem outputTime_of_other {output : Template.Output}
    (other : output.payload.typeId ≠ UtxoData.typeId Time.Timestamp) : outputTime output = none := by
  unfold outputTime DynamicallyTypedData.extract
  rw [if_neg other]
  rfl

theorem coinScript_times (txHash : H256) (index : UInt32) (output : Template.Output) :
    (coinScript txHash index output).writes.filterMap Write.time? = [] := by
  unfold coinScript
  cases extractPayload (Money.Coin 0) output.payload with
  | error halt => rfl
  | ok coin => cases output.verifier <;> rfl

theorem outputScript_times {txHash : H256} {index : UInt32} {output : Template.Output} {u : Unit}
    (ended : (outputScript filter txHash index output).ending = .ok u) :
    (outputScript filter txHash index output).writes.filterMap Write.time? = (outputTime output).toList := by
  unfold outputScript at ended ⊢
  split
  · rename_i coinType
    have distinct : UtxoData.typeId (Money.Coin 0) ≠ UtxoData.typeId Time.Timestamp := by decide
    rw [outputTime_of_other (coinType ▸ distinct)]
    split
    · exact coinScript_times txHash index output
    · rfl
  · rename_i other
    rw [if_neg other] at ended
    split
    · rename_i timestampType
      rw [if_pos timestampType] at ended
      obtain ⟨timestamp, extracted, _⟩ := Script.from?_ok ended
      have time : outputTime output = some timestamp.time := by
        rw [outputTime, extractPayload_ok extracted]
        rfl
      rw [time, extracted]
      rfl
    · rename_i neither
      rw [outputTime_of_other neither]
      rfl

section
variable {C : Type} [Host] [Codec C]

theorem transactionScript_times {x : OpaqueExtrinsic} {u : Unit}
    (ended : (transactionScript C filter x).ending = .ok u) :
    (transactionScript C filter x).writes.filterMap Write.time? = transactionTimes C x := by
  obtain ⟨txHash, hashed, ended⟩ := Script.from?_ok ended
  obtain ⟨tx, decoded, ended⟩ := Script.from?_ok ended
  obtain ⟨⟨_, outputs⟩, _, written⟩ := Script.andThen_ok ended
  obtain ⟨each, all⟩ := Script.all_ok outputs
  have spends : (tx.inputs.toList.map fun input => Write.spend input.outputRef).filterMap Write.time? = [] := by
    simp [List.filterMap_eq_nil_iff, Write.time?]
  rw [transactionTimes, decoded, transactionScript, hashed, Script.from?, decoded, Script.from?, written,
    List.filterMap_append, Script.write, spends, List.append_nil, all, List.filterMap_flatMap, List.flatMap_map]
  calc tx.outputs.toList.zipIdx.flatMap
        (fun output => (outputScript filter txHash (UInt32.ofNat output.2) output.1).writes.filterMap Write.time?)
      = tx.outputs.toList.zipIdx.flatMap (fun output => (outputTime output.1).toList) := by
        apply List.flatMap_congr
        intro output member
        obtain ⟨v, ended⟩ := each _ (List.mem_map_of_mem member)
        exact outputScript_times ended
    _ = (tx.outputs.toList.zipIdx.map Prod.fst).flatMap (fun output => (outputTime output).toList) := by
        rw [List.flatMap_map]
    _ = tx.outputs.toList.filterMap outputTime := by
        rw [List.zipIdx_map_fst, List.filterMap_eq_flatMap_toList]

theorem blockScript_times {b : OpaqueBlock} {u : Unit} (ended : (blockScript C filter b).ending = .ok u) :
    lastTime (blockScript C filter b).writes = (blockTimes C b).getLast? := by
  obtain ⟨each, all⟩ := Script.all_ok ended
  rw [lastTime, blockScript, all, List.filterMap_flatMap, List.flatMap_map, blockTimes]
  congr 1
  apply List.flatMap_congr
  intro x member
  obtain ⟨v, ended⟩ := each _ (List.mem_map_of_mem member)
  exact transactionScript_times ended

theorem applyBlock_times {b : OpaqueBlock} {blockHash : H256} {db db' : Db}
    (applied : applyBlock C filter b blockHash db = .ok () db') :
    db'.timestamp = noted db.timestamp (blockTimes C b).getLast? := by
  rw [applyBlock_eq] at applied
  obtain ⟨ended, ran⟩ := Script.run_ok applied
  rw [← blockScript_times ended]
  exact (writes_ok ran).2.1

/-- On a wallet's database every write is made, however the block ends. -/
theorem applyBlock_noted (b : OpaqueBlock) (blockHash : H256) {db : Db} (decodes : Decodes db) :
    ((applyBlock C filter b blockHash).after db).timestamp =
      noted db.timestamp (lastTime (blockScript C filter b).writes) := by
  let start : Db := { db with
    blockHashes := db.blockHashes.set (encode b.header.number) (encode blockHash)
    blocks := db.blocks.set (encode blockHash) (encode b) }
  have begins : Decodes start := ⟨decodes.unspent, decodes.spent⟩
  obtain ⟨db', ran⟩ := writes_run (blockScript C filter b).writes begins
  rw [Exec.after, applyBlock_eq, ← Exec.after, Script.run, Exec.after_bind_of_ok ran, Exec.lift, Exec.after_read]
  exact (writes_ok ran).2.1

/-! ### Going back does not touch it -/

variable {timestamp : Tree}

omit [Host] in
theorem unspendOutput_timestamp (r : OutputRef) : (unspendOutput r).Maintains fun db => db.timestamp = timestamp := by
  refine .bind .get fun db => ?_
  cases db.spent.get (encode r) with
  | none => exact .pure ()
  | some ivec =>
    exact .bind (.modify fun _ same => same) fun _ => .bind (.lift _) fun _ => .modify fun _ same => same

theorem unapplyTransaction_timestamp (x : OpaqueExtrinsic) :
    (unapplyTransaction C x).Maintains fun db => db.timestamp = timestamp := by
  refine .bind (.lift _) fun tx => .bind (.forM fun input _ => unspendOutput_timestamp input.outputRef) fun _ => ?_
  exact .bind (.lift _) fun txHash => .forM fun i _ => .modify fun _ same => same

theorem unapplyHighestBlock_timestamp :
    (unapplyHighestBlock C).Maintains fun db => db.timestamp = timestamp := by
  refine .bind .get fun _ => .bind (.lift _) fun _ => .bind (.lift _) fun _ => .bind (.modify fun _ same => same) ?_
  intro _
  refine .bind (.lift _) fun _ => .bind (.lift _) fun _ => .bind (.modify fun _ same => same) fun _ => ?_
  exact .bind (.lift _) fun _ => .forM fun x _ => unapplyTransaction_timestamp x

theorem applyAll_noted (blocks : List (OpaqueBlock × H256)) {db : Db} (decodes : Decodes db) :
    (applyAll C filter blocks db).timestamp = noted db.timestamp (notedTimes C filter blocks).getLast? := by
  induction blocks generalizing db with
  | nil => rfl
  | cons b blocks ih =>
    have first : ((applyBlock C filter b.1 b.2).after db).timestamp = noted db.timestamp _ :=
      applyBlock_noted b.1 b.2 decodes
    have decodes₁ : Decodes ((applyBlock C filter b.1 b.2).after db) := Decodes.applyBlock b.1 b.2 db decodes
    have split : notedTimes C filter (b :: blocks) =
        (blockScript C filter b.1).writes.filterMap Write.time? ++ notedTimes C filter blocks := List.flatMap_cons
    change (applyAll C filter blocks _).timestamp = _
    rw [ih decodes₁, first, noted_noted, split, List.getLast?_append]
    rfl

theorem unapplyAll_timestamp (n : Nat) (db : Db) :
    (((unapplyHighestBlock C).after)^[n] db).timestamp = db.timestamp := by
  induction n generalizing db with
  | zero => rfl
  | succ n ih =>
    rw [Function.iterate_succ_apply, ih]
    exact unapplyHighestBlock_timestamp db rfl

/-- Going back brings the time back exactly when none was noted, or the one from before again. -/
theorem rollback_timestamp_iff (blocks : List (OpaqueBlock × H256)) (n : Nat) {db : Db} (decodes : Decodes db) :
    getTimestamp (((unapplyHighestBlock C).after)^[n] (applyAll C filter blocks db)) = getTimestamp db ↔
      ∀ time, (notedTimes C filter blocks).getLast? = some time → getTimestamp db = .ok time := by
  have after := (unapplyAll_timestamp (C := C) n (applyAll C filter blocks db)).trans (applyAll_noted blocks decodes)
  cases last : (notedTimes C filter blocks).getLast? with
  | none =>
    rw [last] at after
    exact iff_of_true (getTimestamp_congr after) (by simp)
  | some time =>
    rw [last] at after
    rw [getTimestamp_noted after]
    exact ⟨fun same _ found => Option.some.inj found ▸ same.symm, fun all => (all time rfl).symm⟩

/-! ### Along the node's chain -/

variable {blockOf : H256 → Option OpaqueBlock} {genesisHash : H256}

/-- The block that the next answer adds. -/
def added : Stage → List H256
  | .fetch _ hash => [hash]
  | _ => []

theorem resume_timestamp {node : Node blockOf genesisHash} {stage stage' : Stage} {db db' : Db}
    (resumed : resume C filter node stage db = .ok stage' db') :
    db'.timestamp = noted db.timestamp (lineTimes C blockOf (added stage)).getLast? := by
  cases stage with
  | compare height hash =>
    change db'.timestamp = db.timestamp
    by_cases same : some hash = node.getBlockHash height
    · rw [resume_of_agree same] at resumed
      obtain ⟨_, rfl⟩ := Exec.pure_ok resumed
      rfl
    · obtain ⟨_, db₁, unapplied, resumed⟩ := Exec.bind_ok ((congrFun (resume_of_other same) db).symm.trans resumed)
      have kept := unapplyHighestBlock_timestamp.of_ok unapplied rfl
      obtain ⟨_, _, read, resumed⟩ := Exec.bind_ok resumed
      obtain ⟨_, rfl⟩ := Exec.lift_ok read
      obtain ⟨_, _, read, resumed⟩ := Exec.bind_ok resumed
      obtain ⟨_, rfl⟩ := Exec.read_ok read
      obtain ⟨_, _, read, resumed⟩ := Exec.bind_ok resumed
      obtain ⟨_, rfl⟩ := Exec.lift_ok read
      obtain ⟨_, rfl⟩ := Exec.pure_ok resumed
      exact kept
  | advance height =>
    change db'.timestamp = db.timestamp
    cases answer : node.getBlockHash height with
    | none =>
      rw [resume_of_past answer] at resumed
      obtain ⟨_, rfl⟩ := Exec.pure_ok resumed
      rfl
    | some hash =>
      rw [resume_of_found answer] at resumed
      obtain ⟨_, rfl⟩ := Exec.pure_ok resumed
      rfl
  | fetch height hash =>
    cases serves : node.serves hash with
    | none => cases (resume_of_unserved serves db).symm.trans resumed
    | some b =>
      rw [resume_of_served serves] at resumed
      obtain ⟨_, db₁, applied, resumed⟩ := Exec.bind_ok resumed
      obtain ⟨_, rfl⟩ := Exec.pure_ok resumed
      have times : lineTimes C blockOf [hash] = blockTimes C b := by
        rw [lineTimes, List.flatMap_singleton, node.served hash b serves]
        rfl
      rw [added, times]
      exact applyBlock_times applied
  | done =>
    obtain ⟨_, rfl⟩ := Exec.pure_ok resumed
    rfl

omit [Host] in
theorem lineTimes_append (w w' : List H256) :
    lineTimes C blockOf (w ++ w') = lineTimes C blockOf w ++ lineTimes C blockOf w' := List.flatMap_append

omit [Host] in
theorem lineTimes_eq_nil {w : List H256} :
    lineTimes C blockOf w = [] ↔ ∀ hash ∈ w, lineTimes C blockOf [hash] = [] := by
  simp only [lineTimes, List.flatMap_eq_nil_iff, List.flatMap_singleton]

variable (C blockOf) in
omit [Host] in
/-- How far a run has come: what is left of the line it started from, and the blocks above. -/
def Forked (best start : List H256) (timestamp : Tree) (stage : Stage) (w : List H256) (db : Db) : Prop :=
  ∃ common dropped above, start = common ++ dropped ∧ w = common ++ above ∧
    (∀ hash, dropped.head? = some hash → best[common.length]? ≠ some hash) ∧
    db.timestamp = noted timestamp (lineTimes C blockOf above).getLast? ∧
    ∀ height hash, stage = .compare height hash → above = []

theorem Forked.resume {node : Node blockOf genesisHash} {stage stage' : Stage} {start w w' : List H256}
    {timestamp : Tree} {db db' : Db} (forked : Forked C blockOf node.best start timestamp stage w db)
    (placed : Placed blockOf w stage) (resumed : resume C filter node stage db = .ok stage' db')
    (move : Move node stage w stage' w') : Forked C blockOf node.best start timestamp stage' w' db' := by
  obtain ⟨common, dropped, above, split, line, diverge, time, comparing⟩ := forked
  have after := resume_timestamp resumed
  cases move with
  | agree same => exact ⟨common, dropped, above, split, line, diverge, after.trans time, nofun⟩
  | @revert height hash last w' positive newest =>
    obtain rfl := comparing height hash rfl
    rw [List.append_nil] at line
    subst line
    have other : some hash ≠ node.getBlockHash height := by
      intro same
      rw [resume_of_agree same] at resumed
      cases (Exec.pure_ok resumed).1
    have length : w'.length = height.toNat := by simpa using placed.1
    refine ⟨w', hash :: dropped, [], by simp [split], by simp, fun first found => ?_, after.trans time, ?_⟩
    · cases found
      rw [length]
      exact fun same => other same.symm
    · exact fun _ _ _ => rfl
  | finish past => exact ⟨common, dropped, above, split, line, diverge, after.trans time, nofun⟩
  | found answer => exact ⟨common, dropped, above, split, line, diverge, after.trans time, nofun⟩
  | @extend height hash v =>
    refine ⟨common, dropped, above ++ [hash], split, by simp [line], diverge, ?_, nofun⟩
    rw [after, time, noted_noted, lineTimes_append, List.getLast?_append]
    rfl
  | rest => exact ⟨common, dropped, above, split, line, diverge, after.trans time, nofun⟩

omit [Host] in
/-- A block above the fork is not on the line that the run started from. -/
theorem not_mem_of_above {start common dropped above : List H256} {db : Db}
    (recorded : Recorded blockOf genesisHash start db) (node : Node blockOf genesisHash)
    (split : start = common ++ dropped) (line : node.best = common ++ above)
    (diverge : ∀ hash, dropped.head? = some hash → node.best[common.length]? ≠ some hash) {hash : H256}
    (member : hash ∈ above) : hash ∉ start := by
  intro inside
  obtain ⟨i, here⟩ := List.mem_iff_getElem?.mp inside
  obtain ⟨j, there⟩ := List.mem_iff_getElem?.mp member
  have above : node.best[common.length + j]? = some hash := by
    rw [line, List.getElem?_append_right (Nat.le_add_right _ _), Nat.add_sub_cancel_left, there]
  -- The number of the block is its height on both lines.
  have same : i = common.length + j := by
    obtain ⟨b, named, number, _⟩ := recorded.blocks i hash here
    obtain ⟨b', named', number'⟩ := node.numbered _ hash above
    obtain rfl := Option.some.inj (named.symm.trans named')
    exact number.symm.trans number'
  rw [same] at here
  have below := recorded.linked.agree_below node.linked here above common.length (Nat.le_add_right _ _)
  have first : start[common.length]? = dropped.head? := by
    rw [split, List.getElem?_append_right (Nat.le_refl _), Nat.sub_self, List.head?_eq_getElem?]
  rw [first] at below
  have length := (List.getElem?_eq_some_iff.mp here).1
  rw [split, List.length_append] at length
  cases dropped with
  | nil =>
    rw [List.length_nil] at length
    omega
  | cons head dropped => exact diverge head rfl below.symm

theorem sync_timestamp_iff {w best : List H256} {nodes : List (Node blockOf genesisHash)} {db db' : Db}
    (recorded : Recorded blockOf genesisHash w db) (still : ∀ node ∈ nodes, node.best = best)
    (returned : synchronizeHelper C filter nodes db = .ok .done db') :
    Recorded blockOf genesisHash best db' ∧
      (getTimestamp db' = timeOn C blockOf best ↔
        (∃ hash ∈ best, hash ∉ w ∧ lineTimes C blockOf [hash] ≠ []) ∨ getTimestamp db = timeOn C blockOf best) := by
  obtain ⟨hash, begun, placed⟩ := begin_ok recorded
  have followed := (Exec.bind_of_ok begun).symm.trans returned
  have start : Forked C blockOf best w db.timestamp (.compare (UInt32.ofNat (w.length - 1)) hash) w db :=
    ⟨w, [], [], by simp, by simp, by simp, rfl, fun _ _ _ => rfl⟩
  have keeps : ∀ node ∈ nodes, ∀ stage v db₁ stage' v' db₂, Placed blockOf v stage →
      Forked C blockOf best w db.timestamp stage v db₁ → resume C filter node stage db₁ = .ok stage' db₂ →
      Move node stage v stage' v' → Forked C blockOf best w db.timestamp stage' v' db₂ := by
    intro node member stage v db₁ stage' v' db₂ placed forked resumed move
    obtain rfl := still node member
    exact forked.resume placed resumed move
  obtain ⟨w', after, agrees, common, dropped, above, split, line, diverge, time, _⟩ :=
    follow_keeps still recorded placed trivial start keeps followed
  obtain rfl : w' = best := agrees
  refine ⟨after, ?_⟩
  obtain ⟨node, member⟩ : ∃ node, node ∈ nodes := by
    cases nodes with
    | nil => cases (Exec.pure_ok followed).1
    | cons node nodes => exact ⟨node, List.mem_cons_self⟩
  obtain rfl := still node member
  have whole : lineTimes C blockOf node.best = lineTimes C blockOf common ++ lineTimes C blockOf above := by
    rw [← lineTimes_append, ← line]
  cases last : (lineTimes C blockOf above).getLast? with
  | some t =>
    rw [last] at time
    have newest : timeOn C blockOf node.best = .ok t := by
      rw [timeOn, whole, List.getLast?_append, last]
      rfl
    have noting : ∃ hash ∈ above, lineTimes C blockOf [hash] ≠ [] := by
      by_contra none
      push Not at none
      rw [lineTimes_eq_nil.mpr none] at last
      cases last
    obtain ⟨hash, inside, notes⟩ := noting
    refine iff_of_true ((getTimestamp_noted time).trans newest.symm) (Or.inl ⟨hash, ?_, ?_, notes⟩)
    · rw [line]
      exact List.mem_append_right common inside
    · exact not_mem_of_above recorded node split line diverge inside
  | none =>
    rw [last] at time
    have silent := lineTimes_eq_nil.mp (List.getLast?_eq_none_iff.mp last)
    rw [getTimestamp_congr time]
    refine (or_iff_right ?_).symm
    rintro ⟨hash, member, outside, notes⟩
    rw [line] at member
    rcases List.mem_append.mp member with below | inside
    · exact outside (split ▸ List.mem_append_left dropped below)
    · exact notes (silent hash inside)

end

/-! ### Runs -/

/-- Runs from the genesis in which no time is taken away for good: the line without a block that goes
has the same time, and a synchronization adds a timestamp or ends with the time it began with. -/
inductive Timely (C : Type) [Host] [Codec C] (filter : OuterVerifier → Bool) (blockOf : H256 → Option OpaqueBlock)
    (genesisHash : H256) : List H256 → Db → Prop
  | opened {b : OpaqueBlock} {db : Db} (named : blockOf genesisHash = some b) (first : b.header.number = 0)
      (applied : (do openDb genesisHash b; applyBlock C filter b genesisHash) Db.empty = .ok () db) :
      Timely C filter blockOf genesisHash [genesisHash] db
  | applied {w : List H256} {hash : H256} {b : OpaqueBlock} {db db' : Db}
      (before : Timely C filter blockOf genesisHash w db) (named : blockOf hash = some b)
      (next : b.header.number.toNat = w.length) (child : parentOf blockOf hash = w.getLast?)
      (room : w.length + 1 < 2 ^ 32) (applied : applyBlock C filter b hash db = .ok () db') :
      Timely C filter blockOf genesisHash (w ++ [hash]) db'
  | unapplied {w : List H256} {hash : H256} {db db' : Db}
      (before : Timely C filter blockOf genesisHash (w ++ [hash]) db) (left : 0 < w.length)
      (same : timeOn C blockOf (w ++ [hash]) = timeOn C blockOf w)
      (unapplied : unapplyHighestBlock C db = .ok () db') : Timely C filter blockOf genesisHash w db'
  | synced {w best : List H256} {nodes : List (Node blockOf genesisHash)} {db db' : Db}
      (before : Timely C filter blockOf genesisHash w db) (still : ∀ node ∈ nodes, node.best = best)
      (renewed : (∃ hash ∈ best, hash ∉ w ∧ lineTimes C blockOf [hash] ≠ []) ∨
        timeOn C blockOf w = timeOn C blockOf best)
      (returned : synchronizeHelper C filter nodes db = .ok .done db') : Timely C filter blockOf genesisHash best db'

section
variable {C : Type} [Host] [Codec C] {blockOf : H256 → Option OpaqueBlock} {genesisHash : H256}

omit [Host] in
theorem getTimestamp_after {w : List H256} {hash : H256} {db db' : Db} (before : getTimestamp db = timeOn C blockOf w)
    (noted : db'.timestamp = noted db.timestamp (lineTimes C blockOf [hash]).getLast?) :
    getTimestamp db' = timeOn C blockOf (w ++ [hash]) := by
  unfold timeOn at before ⊢
  rw [lineTimes_append, List.getLast?_append]
  cases last : (lineTimes C blockOf [hash]).getLast? with
  | none =>
    rw [last] at noted
    rw [getTimestamp_congr noted, before]
    rfl
  | some time =>
    rw [last] at noted
    rw [getTimestamp_noted noted]
    rfl

omit [Host] in
theorem lineTimes_named {hash : H256} {b : OpaqueBlock} (named : blockOf hash = some b) :
    lineTimes C blockOf [hash] = blockTimes C b := by
  rw [lineTimes, List.flatMap_singleton, named]
  rfl

theorem Timely.timed {w : List H256} {db : Db} (timely : Timely C filter blockOf genesisHash w db) :
    Recorded blockOf genesisHash w db ∧ getTimestamp db = timeOn C blockOf w := by
  induction timely with
  | opened named first applied =>
    have recorded : Recorded blockOf genesisHash [genesisHash] (Exec.after (do
        openDb genesisHash _
        applyBlock C filter _ genesisHash) Db.empty) := recorded_opened named first
    rw [Exec.after_of_ok applied] at recorded
    have times := applyBlock_times ((Exec.bind_of_ok (openDb_empty _)).symm.trans applied)
    rw [← lineTimes_named named] at times
    exact ⟨recorded, getTimestamp_after (w := []) rfl times⟩
  | @applied w hash b db db' _ named next child room applied ih =>
    obtain ⟨recorded, timed⟩ := ih
    have longer : Recorded blockOf genesisHash (w ++ [hash]) ((applyBlock C filter b hash).after db) :=
      recorded.applyBlock named next child room
    rw [Exec.after_of_ok applied] at longer
    have times := applyBlock_times applied
    rw [← lineTimes_named named] at times
    exact ⟨longer, getTimestamp_after timed times⟩
  | unapplied _ left same unapplied ih =>
    obtain ⟨recorded, timed⟩ := ih
    have shorter := recorded.unapplyHighestBlock (C := C) left
    rw [Exec.after_of_ok unapplied] at shorter
    exact ⟨shorter, (getTimestamp_congr (unapplyHighestBlock_timestamp.of_ok unapplied rfl)).trans (timed.trans same)⟩
  | synced _ still renewed returned ih =>
    obtain ⟨recorded, timed⟩ := ih
    obtain ⟨after, iff⟩ := sync_timestamp_iff recorded still returned
    exact ⟨after, iff.mpr (renewed.imp_right timed.trans)⟩

end

/-- Going back keeps the time that the blocks noted, so it is the one from before only if they noted
none other. A synchronization ends with the time of the node's chain exactly when it adds a
timestamp or the time was right at the start, and runs of such steps always have the right time. -/
theorem timestamp_follows_reorgs_iff (C : Type) [Host] [Codec C] (filter : OuterVerifier → Bool)
    (blockOf : H256 → Option OpaqueBlock) (genesisHash : H256) :
    (∀ db, Built C db → ∀ blocks : List (OpaqueBlock × H256),
      (getTimestamp (((unapplyHighestBlock C).after)^[blocks.length] (applyAll C filter blocks db)) = getTimestamp db ↔
        ∀ time, (notedTimes C filter blocks).getLast? = some time → getTimestamp db = .ok time)) ∧
    (∀ w db, Recorded blockOf genesisHash w db → ∀ (best : List H256) (nodes : List (Node blockOf genesisHash)),
      (∀ node ∈ nodes, node.best = best) → ∀ db', synchronizeHelper C filter nodes db = .ok .done db' →
        (getTimestamp db' = timeOn C blockOf best ↔
          (∃ hash ∈ best, hash ∉ w ∧ lineTimes C blockOf [hash] ≠ []) ∨ getTimestamp db = timeOn C blockOf best)) ∧
    ∀ w db, Timely C filter blockOf genesisHash w db → getTimestamp db = timeOn C blockOf w :=
  ⟨fun _ built blocks => rollback_timestamp_iff blocks _ built.kept.decodes,
    fun _ _ recorded _ _ still _ returned => (sync_timestamp_iff recorded still returned).2,
    fun _ _ timely => timely.timed.2⟩

/-! The genesis has time 0, and on two branches there is a block with a time of its own. -/

def clockAt (time : UInt64) (number : UInt32) : Template.Transaction :=
  timestampAfter (FixedBytes.zero 32) (storedTimestamp ⟨time, number⟩)

def clockBlock (b : OpaqueBlock) : OpaqueBlock :=
  if b.header.number = 0 then ⟨b.header, Vec.singleton ((clockAt 0 0).toOpaque (by decide +kernel))⟩
  else if b.header = claimServed.header then ⟨b.header, Vec.singleton ((clockAt 1000 1).toOpaque (by decide +kernel))⟩
  else ⟨b.header, Vec.singleton ((clockAt 2000 1).toOpaque (by decide +kernel))⟩

theorem header_clockBlock (b : OpaqueBlock) : (clockBlock b).header = b.header := by
  unfold clockBlock
  split
  · rfl
  · split
    · rfl
    · rfl

/-- The node with other extrinsics under the same headers. -/
def Node.clock {blockOf : H256 → Option OpaqueBlock} {genesisHash : H256} (node : Node blockOf genesisHash) :
    Node (fun hash => (blockOf hash).map clockBlock) genesisHash where
  best := node.best
  serves hash := (node.serves hash).map clockBlock
  room := node.room
  starts := node.starts
  numbered h hash found := by
    obtain ⟨b, named, number⟩ := node.numbered h hash found
    exact ⟨clockBlock b, by rw [named]; rfl, by rw [header_clockBlock, number]⟩
  linked i hash found := by
    rw [← node.linked i hash found, parentOf, parentOf, Option.map_map]
    congr 1
    funext b
    exact congrArg Header.parentHash (header_clockBlock b)
  served hash b served := by
    obtain ⟨b', serves, rfl⟩ := Option.map_eq_some_iff.mp served
    rw [node.served hash b' serves]
    rfl
  servesBest hash member := by
    obtain ⟨b, serves⟩ := node.servesBest hash member
    exact ⟨clockBlock b, by rw [serves]; rfl⟩

def clocks (hash : H256) : Option OpaqueBlock := (branches hash).map clockBlock

def genesisNode : Node clocks coinGenesisHash :=
  (branchNode [coinGenesisHash] rfl (by decide) (by decide +kernel) (by decide +kernel)).clock

def otherNode : Node clocks coinGenesisHash :=
  (branchNode [coinGenesisHash, firstEmptyHash] rfl (by decide) (by decide +kernel) (by decide +kernel)).clock

/-- The wallet with the genesis. -/
def clockWallet [Host] : Db :=
  Exec.after (do openDb coinGenesisHash (clockBlock coinGenesisBlock)
                 applyBlock OuterConstraintChecker walletFilter (clockBlock coinGenesisBlock) coinGenesisHash) Db.empty

/-- The wallet with the block that has time 1000. -/
def lateWallet [Host] : Db :=
  (applyBlock OuterConstraintChecker walletFilter (clockBlock claimServed) claimHash).after clockWallet

theorem clockWallet_opened :
    letI := walletHost
    (do openDb coinGenesisHash (clockBlock coinGenesisBlock)
        applyBlock OuterConstraintChecker walletFilter (clockBlock coinGenesisBlock) coinGenesisHash) Db.empty =
      .ok () clockWallet := by
  let := walletHost
  obtain ⟨_, db, opened, _⟩ := Exec.exists_of_any (x := do
      openDb coinGenesisHash (clockBlock coinGenesisBlock)
      applyBlock OuterConstraintChecker walletFilter (clockBlock coinGenesisBlock) coinGenesisHash)
    (s := Db.empty) (p := fun _ => true) (by decide +kernel)
  rw [clockWallet, Exec.after_of_ok opened]
  exact opened

theorem lateWallet_applied :
    letI := walletHost
    applyBlock OuterConstraintChecker walletFilter (clockBlock claimServed) claimHash clockWallet =
      .ok () lateWallet := by
  let := walletHost
  obtain ⟨_, db, applied, _⟩ := Exec.exists_of_any
    (x := applyBlock OuterConstraintChecker walletFilter (clockBlock claimServed) claimHash) (s := clockWallet)
    (p := fun _ => true) (by decide +kernel)
  rw [lateWallet, Exec.after_of_ok applied]
  exact applied

theorem clockWallet_built :
    letI := walletHost
    Built OuterConstraintChecker clockWallet := by
  let := walletHost
  rw [clockWallet, Exec.after_bind_of_ok (openDb_empty _), ← Exec.after_of_ok (openDb_empty _)]
  exact .applied walletFilter coinGenesisHash (.opened coinGenesisHash (clockBlock coinGenesisBlock) .empty) rfl
    (by decide +kernel)

/-- The block with time 1000 goes, and the time stays, whether the wallet goes back from the block or
the node does. -/
theorem timestamp_kept_by_rollback :
    letI := walletHost
    ∃ db db₁ db₂ db₃, Built OuterConstraintChecker db ∧ getTimestamp db = .ok 0 ∧
      applyBlock OuterConstraintChecker walletFilter (clockBlock claimServed) claimHash db = .ok () db₁ ∧
      unapplyHighestBlock OuterConstraintChecker db₁ = .ok () db₂ ∧ getTimestamp db₂ = .ok 1000 ∧
      synchronizeHelper OuterConstraintChecker walletFilter (List.replicate 3 genesisNode) db₁ = .ok .done db₃ ∧
      height db₃ = some 0 ∧ timeOn OuterConstraintChecker clocks genesisNode.best = .ok 0 ∧
      getTimestamp db₃ = .ok 1000 := by
  let := walletHost
  have start : (getTimestamp clockWallet).toOption = some 0 := by decide +kernel
  have chain : (timeOn OuterConstraintChecker clocks genesisNode.best).toOption = some 0 := by decide +kernel
  obtain ⟨_, db₂, unapplied, late⟩ := Exec.exists_of_any (x := unapplyHighestBlock OuterConstraintChecker)
    (s := lateWallet) (p := fun back => (getTimestamp back.2).toOption = some 1000) (by decide +kernel)
  obtain ⟨stage, db₃, returned, computed⟩ := Exec.exists_of_any
    (x := synchronizeHelper OuterConstraintChecker walletFilter (List.replicate 3 genesisNode)) (s := lateWallet)
    (p := fun synced => synced.1 = .done ∧ height synced.2 = some 0 ∧ (getTimestamp synced.2).toOption = some 1000)
    (by decide +kernel)
  obtain ⟨finished, top, still⟩ := of_decide_eq_true computed
  dsimp only at finished
  subst finished
  exact ⟨clockWallet, lateWallet, db₂, db₃, clockWallet_built, Outcome.toOption_eq_some.mp start, lateWallet_applied,
    unapplied, Outcome.toOption_eq_some.mp (of_decide_eq_true late), returned, top, Outcome.toOption_eq_some.mp chain,
    Outcome.toOption_eq_some.mp still⟩

/-- A block without a timestamp comes and goes, and then a branch with another timestamp takes over. -/
theorem timestamp_follows_branch :
    letI := walletHost
    ∃ db, Timely OuterConstraintChecker walletFilter clocks coinGenesisHash [coinGenesisHash, claimHash] lateWallet ∧
      getTimestamp lateWallet = timeOn OuterConstraintChecker clocks [coinGenesisHash, claimHash] ∧
      getTimestamp ((unapplyHighestBlock OuterConstraintChecker).after
        (applyAll OuterConstraintChecker walletFilter [(secondEmpty, secondEmptyHash)] lateWallet)) =
          getTimestamp lateWallet ∧
      synchronizeHelper OuterConstraintChecker walletFilter (List.replicate 5 otherNode) lateWallet = .ok .done db ∧
      getTimestamp db = timeOn OuterConstraintChecker clocks otherNode.best := by
  let := walletHost
  have opened : Timely OuterConstraintChecker walletFilter clocks coinGenesisHash [coinGenesisHash] clockWallet :=
    .opened (b := clockBlock coinGenesisBlock) rfl rfl clockWallet_opened
  have named : clocks claimHash = some (clockBlock claimServed) := rfl
  have timely := opened.applied named rfl rfl (by decide) lateWallet_applied
  obtain ⟨stage, db, returned, finished⟩ := Exec.exists_of_any
    (x := synchronizeHelper OuterConstraintChecker walletFilter (List.replicate 5 otherNode)) (s := lateWallet)
    (p := fun synced => synced.1 = .done) (by decide +kernel)
  obtain rfl := of_decide_eq_true finished
  have lowest : height clockWallet = some 0 := by decide +kernel
  have built : Built OuterConstraintChecker lateWallet :=
    .applied walletFilter claimHash clockWallet_built lowest (by decide +kernel)
  have notes : firstEmptyHash ∈ otherNode.best ∧ firstEmptyHash ∉ [coinGenesisHash, claimHash] ∧
      lineTimes OuterConstraintChecker clocks [firstEmptyHash] ≠ [] := by decide +kernel
  have still : ∀ node ∈ List.replicate 5 otherNode, node.best = otherNode.best :=
    fun node member => congrArg Node.best (List.eq_of_mem_replicate member)
  obtain ⟨rollback, sync, runs⟩ :=
    timestamp_follows_reorgs_iff OuterConstraintChecker walletFilter clocks coinGenesisHash
  refine ⟨db, timely, runs _ _ timely, ?_, returned, ?_⟩
  · exact (rollback lateWallet built [(secondEmpty, secondEmptyHash)]).mpr fun time found => nomatch found
  · exact (sync _ _ timely.timed.1 otherNode.best _ still db returned).mpr (Or.inl ⟨firstEmptyHash, notes⟩)

end Tuxedo.Wallet
