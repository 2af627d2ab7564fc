import Tuxedo.Lib.Script
import Tuxedo.Wallet.Rollback
import Mathlib.Data.List.ReduceOption

/-!
# What applying a block writes

The outputs and the inputs of a block say what is written, up to the first thing that does not
decode. The tables decide no more than what each write does to them.
-/

namespace Tuxedo.Wallet
open Scale Template Rollback

/-- One write of `apply_block` behind the two block tables. -/
inductive Write where
  | record (r : OutputRef) (coin : H256 × U128)
  | spend (r : OutputRef)
  | note (time : UInt64)
  deriving DecidableEq

namespace Write

def perform : Write → Exec Db Error Unit
  | record r coin => addUnspentOutput r coin.1 coin.2
  | spend r => spendOutput r
  | note time => modify fun db => { db with timestamp := db.timestamp.set [0] (encode time) }

/-- The record is moved as it decodes, and one that does not decode is lost. -/
def moved (s : Slot Bytes) : Slot Bytes :=
  match s.unspent with
  | none => s
  | some ivec =>
    match (decodeValue ivec : Outcome Error (H256 × U128)) with
    | .ok coin => ⟨none, some (encode coin)⟩
    | .error _ => ⟨none, s.spent⟩

/-- What the write does at a key of the two tables of outputs. -/
def act (k : Bytes) (s : Slot Bytes) : Write → Slot Bytes
  | record r coin => if k = encode r then s.create (some (encode coin)) else s
  | spend r => if k = encode r then moved s else s
  | note _ => s

/-- What the write says of an output: the coin that is recorded for it, or none where it is spent. -/
def mark? (r : OutputRef) : Write → Option (Option (H256 × U128))
  | record written coin => if written = r then some (some coin) else none
  | spend taken => if taken = r then some none else none
  | note _ => none

/-- The time that the write notes. -/
def time? : Write → Option UInt64
  | note time => some time
  | _ => none

end Write

/-- What the writes do at a key. -/
def replayAt (k : Bytes) (writes : List Write) (s : Slot Bytes) : Slot Bytes := writes.foldl (Write.act k) s

/-- What the writes say of an output, one after the other. -/
def marksAt (r : OutputRef) (writes : List Write) : List (Option (H256 × U128)) := writes.filterMap (Write.mark? r)

/-- The last time that is written. -/
def lastTime (writes : List Write) : Option UInt64 := (writes.filterMap Write.time?).getLast?

def noted (timestamp : Tree) : Option UInt64 → Tree
  | some time => timestamp.set [0] (encode time)
  | none => timestamp

/-! ### The script of a block -/

def coinScript (txHash : H256) (index : UInt32) (output : Template.Output) : Script Write Error :=
  .from? (extractPayload (Money.Coin 0) output.payload) fun coin =>
    match output.verifier with
    | .sr25519Signature owner => .write [.record ⟨txHash, index⟩ (owner.ownerPubkey, coin.value)]
    | _ => .fail (.err (.message "()"))

def outputScript (filter : OuterVerifier → Bool) (txHash : H256) (index : UInt32) (output : Template.Output) :
    Script Write Error :=
  if output.payload.typeId = UtxoData.typeId (Money.Coin 0) then
    if filter output.verifier then coinScript txHash index output else .write []
  else if output.payload.typeId = UtxoData.typeId Time.Timestamp then
    .from? (extractPayload Time.Timestamp output.payload) fun timestamp => .write [.note timestamp.time]
  else .write []

section
variable (C : Type) [Host] [Codec C] (filter : OuterVerifier → Bool)

def transactionScript (x : OpaqueExtrinsic) : Script Write Error :=
  .from? (expect ((Vec.ofList? (encode x)).map hashOf)) fun txHash =>
    .from? (decodeValue (encode x)) fun (tx : Tuxedo.Transaction OuterVerifier C) =>
      (Script.all (tx.outputs.toList.zipIdx.map fun output =>
        outputScript filter txHash (UInt32.ofNat output.2) output.1)).andThen
      (.write (tx.inputs.toList.map fun input => .spend input.outputRef))

def blockScript (b : OpaqueBlock) : Script Write Error :=
  Script.all (b.extrinsics.toList.map (transactionScript C filter))

end

variable {filter : OuterVerifier → Bool}

theorem applyCoin_eq (txHash : H256) (index : UInt32) (output : Template.Output) :
    applyCoin txHash index output = (coinScript txHash index output).run Write.perform := by
  rw [coinScript, Script.run_from?]
  unfold applyCoin
  congr 1
  funext coin
  cases output.verifier <;> rfl

theorem applyOutput_eq (txHash : H256) (index : UInt32) (output : Template.Output) :
    applyOutput filter txHash index output = (outputScript filter txHash index output).run Write.perform := by
  unfold applyOutput outputScript
  split
  · split
    · exact applyCoin_eq txHash index output
    · rfl
  · split
    · rw [Script.run_from?]
      rfl
    · rfl

section
variable {C : Type} [Host] [Codec C]

theorem applyTransaction_eq (x : OpaqueExtrinsic) :
    applyTransaction C filter x = (transactionScript C filter x).run Write.perform := by
  rw [transactionScript, Script.run_from?]
  unfold applyTransaction
  dsimp only
  congr 1
  funext txHash
  rw [Script.run_from?]
  congr 1
  funext tx
  rw [Script.run_andThen, Script.run_write]
  congr 1
  · have each : ∀ output : Template.Output × Nat, applyOutput filter txHash (UInt32.ofNat output.2) output.1 =
        (outputScript filter txHash (UInt32.ofNat output.2) output.1).run Write.perform :=
      fun output => applyOutput_eq txHash (UInt32.ofNat output.2) output.1
    exact Script.run_all each _
  · funext u
    simp only [List.forM_eq_forM, List.forM_map]
    rfl

/-- Both block tables are written before anything that can fail. -/
theorem applyBlock_eq (b : OpaqueBlock) (blockHash : H256) (db : Db) :
    applyBlock C filter b blockHash db = (blockScript C filter b).run Write.perform { db with
      blockHashes := db.blockHashes.set (encode b.header.number) (encode blockHash)
      blocks := db.blocks.set (encode blockHash) (encode b) } := by
  have extrinsics : b.extrinsics.toList.forM (applyTransaction C filter) = (blockScript C filter b).run Write.perform :=
    Script.run_all applyTransaction_eq b.extrinsics.toList
  rw [← extrinsics]
  rfl

end

/-! ### What the writes leave -/

/-- The bytes are no record. -/
def Garbage (bytes : Bytes) : Prop := (decodeValue bytes : Outcome Error (H256 × U128)) = .error (.err .codec)

theorem decodes_or_garbage (bytes : Bytes) : (∃ coin : H256 × U128, decodeValue bytes = .ok coin) ∨ Garbage bytes := by
  unfold Garbage decodeValue
  cases (decode bytes : Option ((H256 × U128) × Bytes)) with
  | some found => exact Or.inl ⟨found.1, rfl⟩
  | none => exact Or.inr rfl

theorem not_garbage (coin : H256 × U128) : ¬Garbage (encode coin) := by
  intro garbage
  cases (decodeValue_encode coin).symm.trans garbage

theorem spendOutput_of_decoded {db : Db} {r : OutputRef} {ivec : Bytes} {coin : H256 × U128}
    (stored : db.unspent.get (encode r) = some ivec) (decoded : decodeValue ivec = .ok coin) :
    spendOutput r db = .ok () { db with
      unspent := db.unspent.clear (encode r)
      spent := db.spent.set (encode r) (encode coin) } := by
  refine (Exec.bind_of_ok (Exec.get_of db)).trans ?_
  rw [stored]
  refine (Exec.bind_of_ok (Exec.modify_of _ db)).trans ?_
  exact Exec.bind_of_ok (Exec.lift_of_ok decoded _)

theorem spendOutput_of_garbage {db : Db} {r : OutputRef} {ivec : Bytes}
    (stored : db.unspent.get (encode r) = some ivec) (garbage : Garbage ivec) :
    spendOutput r db = .error (.err .codec) { db with unspent := db.unspent.clear (encode r) } := by
  refine (Exec.bind_of_ok (Exec.get_of db)).trans ?_
  rw [stored]
  refine (Exec.bind_of_ok (Exec.modify_of _ db)).trans (Exec.bind_of_error ?_)
  rw [show decodeValue ivec = _ from garbage]
  rfl

namespace Write

theorem perform_slot (w : Write) (db : Db) (k : Bytes) : slot (w.perform.after db) k = w.act k (slot db k) := by
  cases w with
  | record r coin =>
    change slot { db with unspent := db.unspent.set (encode r) (encode coin) } k =
      if k = encode r then (slot db k).create (some (encode coin)) else slot db k
    refine slot_at (g := fun s => s.create (some (encode coin))) ?_ (fun k other => ?_) k
    · simp [slot, Slot.create]
    · simp [slot, Store.get_set_ne _ _ other]
  | note time => rfl
  | spend r =>
    change slot ((spendOutput r).after db) k = if k = encode r then moved (slot db k) else slot db k
    cases stored : db.unspent.get (encode r) with
    | none =>
      rw [Exec.after_of_ok (spendOutput_of_none stored)]
      refine slot_at ?_ (fun k _ => rfl) k
      simp [moved, slot, stored]
    | some ivec =>
      rcases decodes_or_garbage ivec with ⟨coin, decoded⟩ | garbage
      · rw [Exec.after_of_ok (spendOutput_of_decoded stored decoded)]
        refine slot_at ?_ (fun k other => ?_) k
        · simp [moved, slot, stored, decoded]
        · simp [slot, Store.get_clear_ne _ other, Store.get_set_ne _ _ other]
      · rw [Exec.after_of_error (spendOutput_of_garbage stored garbage)]
        rw [Garbage] at garbage
        refine slot_at ?_ (fun k other => ?_) k
        · simp [moved, slot, stored, garbage]
        · simp [slot, Store.get_clear_ne _ other]

/-- Only a spent record that does not decode stops the writes. -/
theorem perform_error {w : Write} {db db' : Db} {halt : Halt Error} (failed : w.perform db = .error halt db') :
    ∃ r ivec, w = .spend r ∧ db.unspent.get (encode r) = some ivec ∧ Garbage ivec ∧
      db' = { db with unspent := db.unspent.clear (encode r) } := by
  cases w with
  | record r coin => cases failed
  | note time => cases failed
  | spend r =>
    change spendOutput r db = _ at failed
    cases stored : db.unspent.get (encode r) with
    | none => cases (spendOutput_of_none stored).symm.trans failed
    | some ivec =>
      rcases decodes_or_garbage ivec with ⟨coin, decoded⟩ | garbage
      · cases (spendOutput_of_decoded stored decoded).symm.trans failed
      · cases (spendOutput_of_garbage stored garbage).symm.trans failed
        exact ⟨r, ivec, rfl, stored, garbage, rfl⟩

theorem perform_frame (w : Write) (db : Db) :
    (w.perform.after db).timestamp = noted db.timestamp w.time? ∧
      (w.perform.after db).blocks = db.blocks ∧ (w.perform.after db).blockHashes = db.blockHashes := by
  cases performed : w.perform db with
  | error halt db' =>
    obtain ⟨r, ivec, rfl, _, _, rfl⟩ := perform_error performed
    rw [Exec.after_of_error performed]
    exact ⟨rfl, rfl, rfl⟩
  | ok u db' =>
    rw [Exec.after_of_ok performed]
    cases w with
    | record r coin =>
      obtain rfl := Exec.modify_ok performed
      exact ⟨rfl, rfl, rfl⟩
    | note time =>
      obtain rfl := Exec.modify_ok performed
      exact ⟨rfl, rfl, rfl⟩
    | spend r =>
      change spendOutput r db = _ at performed
      cases stored : db.unspent.get (encode r) with
      | none =>
        cases (spendOutput_of_none stored).symm.trans performed
        exact ⟨rfl, rfl, rfl⟩
      | some ivec =>
        rcases decodes_or_garbage ivec with ⟨coin, decoded⟩ | garbage
        · cases (spendOutput_of_decoded stored decoded).symm.trans performed
          exact ⟨rfl, rfl, rfl⟩
        · cases (spendOutput_of_garbage stored garbage).symm.trans performed

theorem moved_unspent (s : Slot Bytes) : (moved s).unspent = none := by
  unfold moved
  split
  · assumption
  · split
    · rfl
    · rfl

/-- A write does not make garbage. -/
theorem garbage_of_act {w : Write} {k ivec : Bytes} {s : Slot Bytes} (garbage : Garbage ivec)
    (there : (w.act k s).unspent = some ivec) : s.unspent = some ivec := by
  cases w with
  | record r coin =>
    simp only [act] at there
    split at there
    · cases there
      exact absurd garbage (not_garbage coin)
    · exact there
  | spend r =>
    simp only [act] at there
    split at there
    · rw [moved_unspent] at there
      cases there
    · exact there
  | note time => exact there

end Write

theorem garbage_of_replayAt {writes : List Write} {k ivec : Bytes} {s : Slot Bytes} (garbage : Garbage ivec)
    (there : (replayAt k writes s).unspent = some ivec) : s.unspent = some ivec := by
  induction writes generalizing s with
  | nil => exact there
  | cons w writes ih => exact Write.garbage_of_act garbage (ih there)

theorem lastTime_cons (w : Write) (writes : List Write) :
    lastTime (w :: writes) = (lastTime writes).or w.time? := by
  cases w with
  | note time =>
    simp only [lastTime, List.filterMap_cons, Write.time?, List.getLast?_cons]
    cases (writes.filterMap Write.time?).getLast? <;> rfl
  | _ => simp [lastTime, Write.time?]

theorem noted_noted (timestamp : Tree) (first later : Option UInt64) :
    noted (noted timestamp first) later = noted timestamp (later.or first) := by
  cases later with
  | none => rfl
  | some time =>
    cases first with
    | none => rfl
    | some first => exact Store.set_set timestamp [0] (encode first) (encode time)

theorem writes_ok {writes : List Write} {db db' : Db} (ran : writes.forM Write.perform db = .ok () db') :
    (∀ k, slot db' k = replayAt k writes (slot db k)) ∧ db'.timestamp = noted db.timestamp (lastTime writes) ∧
      db'.blocks = db.blocks ∧ db'.blockHashes = db.blockHashes := by
  induction writes generalizing db with
  | nil =>
    obtain ⟨_, rfl⟩ := Exec.pure_ok ran
    exact ⟨fun k => rfl, rfl, rfl, rfl⟩
  | cons w writes ih =>
    obtain ⟨_, db₁, first, later⟩ := Exec.bind_ok ran
    obtain ⟨slots, timestamp, blocks, blockHashes⟩ := ih later
    have here := w.perform_slot db
    obtain ⟨timestamp₁, blocks₁, blockHashes₁⟩ := w.perform_frame db
    rw [Exec.after_of_ok first] at here timestamp₁ blocks₁ blockHashes₁
    refine ⟨fun k => ?_, ?_, blocks.trans blocks₁, blockHashes.trans blockHashes₁⟩
    · rw [slots, here]
      rfl
    · rw [timestamp, timestamp₁, noted_noted, lastTime_cons]

/-- Where a spent record does not decode, it is lost, and no later write brings it back. -/
theorem writes_error {writes : List Write} {db db' : Db} {halt : Halt Error}
    (failed : writes.forM Write.perform db = .error halt db') :
    ∃ k ivec, (slot db k).unspent = some ivec ∧ (slot db' k).unspent ≠ some ivec ∧
      (replayAt k writes (slot db k)).unspent ≠ some ivec := by
  suffices lost : ∃ k ivec, Garbage ivec ∧ (slot db k).unspent = some ivec ∧ (slot db' k).unspent ≠ some ivec ∧
      (replayAt k writes (slot db k)).unspent ≠ some ivec by
    obtain ⟨k, ivec, _, rest⟩ := lost
    exact ⟨k, ivec, rest⟩
  induction writes generalizing db with
  | nil => cases failed
  | cons w writes ih =>
    rcases Exec.bind_error failed with here | ⟨_, db₁, first, later⟩
    · obtain ⟨r, ivec, rfl, stored, garbage, rfl⟩ := Write.perform_error here
      refine ⟨encode r, ivec, garbage, stored, by simp [slot], fun there => ?_⟩
      have between : ((Write.spend r).act (encode r) (slot db (encode r))).unspent = none := by
        simp [Write.act, Write.moved_unspent]
      change (replayAt (encode r) writes _).unspent = _ at there
      cases between.symm.trans (garbage_of_replayAt garbage there)
    · obtain ⟨k, ivec, garbage, stored, gone, lost⟩ := ih later
      have here := w.perform_slot db k
      rw [Exec.after_of_ok first] at here
      rw [here] at stored lost
      exact ⟨k, ivec, garbage, Write.garbage_of_act garbage stored, gone, lost⟩

theorem Write.maintains {P : Db → Prop} (closed : Closed P) (w : Write) : w.perform.Maintains P := by
  cases w with
  | record r coin => exact .modify fun db => closed.unspend db _ coin
  | spend r => exact closed.spendOutput r
  | note time => exact .modify fun db => closed.stamp db _ _

/-- Where the records decode, all of the writes are made. -/
theorem writes_run (writes : List Write) {db : Db} (decodes : Decodes db) :
    ∃ db', writes.forM Write.perform db = .ok () db' := by
  have each : ∀ w ∈ writes, ∀ db, Decodes db → ∃ db', w.perform db = .ok () db' ∧ Decodes db' := by
    intro w _ db decodes
    cases performed : w.perform db with
    | ok u db' => exact ⟨db', rfl, (w.maintains Decodes.closed).of_ok performed decodes⟩
    | error halt db' =>
      obtain ⟨r, ivec, _, stored, garbage, _⟩ := Write.perform_error performed
      obtain ⟨coin, rfl⟩ := decodes.unspent _ ivec stored
      exact absurd garbage (not_garbage coin)
  obtain ⟨db', ran, _⟩ := Exec.forM_of_ok each decodes
  exact ⟨db', ran⟩

/-! ### What is asked of one output -/

/-- What a record or a spend of the output leaves. -/
def markSlot (s : Slot Bytes) : Option (H256 × U128) → Slot Bytes
  | some coin => s.create (some (encode coin))
  | none => Write.moved s

theorem replayAt_encode (r : OutputRef) (writes : List Write) (s : Slot Bytes) :
    replayAt (encode r) writes s = (marksAt r writes).foldl markSlot s := by
  unfold replayAt marksAt
  rw [List.foldl_filterMap]
  congr 1
  funext s w
  cases w with
  | note time => rfl
  | record written coin =>
    by_cases same : written = r
    · simp [Write.act, Write.mark?, markSlot, same]
    · simp [Write.act, Write.mark?, same, encode_injective.ne (Ne.symm same)]
  | spend taken =>
    by_cases same : taken = r
    · simp [Write.act, Write.mark?, markSlot, same]
    · simp [Write.act, Write.mark?, same, encode_injective.ne (Ne.symm same)]

/-- Only the keys of outputs are written. -/
theorem replayAt_other {k : Bytes} (other : ∀ r : OutputRef, k ≠ encode r) (writes : List Write) (s : Slot Bytes) :
    replayAt k writes s = s := by
  induction writes generalizing s with
  | nil => rfl
  | cons w writes ih =>
    have still : w.act k s = s := by cases w <;> simp [Write.act, other]
    unfold replayAt at ih ⊢
    rw [List.foldl_cons, still, ih]

theorem foldl_marks_unspent (marks : List (Option (H256 × U128))) (mark : Option (H256 × U128)) (s : Slot Bytes) :
    ((marks ++ [mark]).foldl markSlot s).unspent = mark.map encode := by
  rw [List.foldl_concat]
  cases mark with
  | none => exact Write.moved_unspent _
  | some coin => rfl

theorem foldl_records_spent {marks : List (Option (H256 × U128))} (records : none ∉ marks) (s : Slot Bytes) :
    (marks.foldl markSlot s).spent = s.spent := by
  induction marks generalizing s with
  | nil => rfl
  | cons mark marks ih =>
    cases mark with
    | none => exact absurd List.mem_cons_self records
    | some coin => exact ih (fun later => records (List.mem_cons_of_mem _ later)) _

/-- A spend moves the record before it. Another spend in between finds nothing. -/
theorem foldl_spend_spent (marks : List (Option (H256 × U128))) (s : Slot Bytes) :
    (Write.moved (marks.foldl markSlot s)).spent =
      (marks.reduceOption.getLast?.map encode).elim (Write.moved s).spent some := by
  induction marks using List.reverseRecOn with
  | nil => rfl
  | append_singleton marks mark ih =>
    rw [List.foldl_concat, List.reduceOption_append]
    cases mark with
    | none =>
      have nothing : (Write.moved (marks.foldl markSlot s)).unspent = none := Write.moved_unspent _
      have again : Write.moved (Write.moved (marks.foldl markSlot s)) = Write.moved (marks.foldl markSlot s) := by
        rw [Write.moved, nothing]
      simp only [markSlot, again, ih, List.reduceOption_cons_of_none, List.reduceOption_nil, List.append_nil]
    | some coin => simp [markSlot, Slot.create, Write.moved, decodeValue_encode]

theorem moved_record {s : Slot Bytes} {coin : H256 × U128} (record : s.unspent = some (encode coin)) :
    Write.moved s = ⟨none, some (encode coin)⟩ := by
  simp [Write.moved, record, decodeValue_encode]

theorem last_spend {marks : List (Option (H256 × U128))} (taken : none ∈ marks) :
    ∃ before after, marks = before ++ none :: after ∧ none ∉ after := by
  obtain ⟨after, before, split, records⟩ := List.eq_append_cons_of_mem (List.mem_reverse.mpr taken)
  refine ⟨before.reverse, after.reverse, ?_, fun later => records (List.mem_reverse.mp later)⟩
  rw [← marks.reverse_reverse, split]
  simp

/-- The writes leave an output as it is exactly when its slot holds the last mark, and what the
last spend moves. -/
theorem foldl_marks_eq_self_iff {marks : List (Option (H256 × U128))} {s : Slot Bytes} :
    marks.foldl markSlot s = s ↔ (∀ mark, marks.getLast? = some mark → s.unspent = mark.map encode) ∧
      ∀ (before after : List (Option (H256 × U128))) (coin : H256 × U128), marks = before ++ none :: after →
        none ∉ after → (before.reduceOption.getLast?.map encode).or s.unspent = some (encode coin) →
        s.spent = some (encode coin) := by
  have moves : ∀ before after : List (Option (H256 × U128)), marks = before ++ none :: after → none ∉ after →
      (marks.foldl markSlot s).spent =
        (before.reduceOption.getLast?.map encode).elim (Write.moved s).spent some := by
    intro before after split records
    rw [split, List.foldl_append, List.foldl_cons, foldl_records_spent records]
    exact foldl_spend_spent before s
  constructor
  · intro same
    refine ⟨fun mark final => ?_, fun before after coin split records found => ?_⟩
    · obtain ⟨earlier, rfl⟩ := List.getLast?_eq_some_iff.mp final
      exact (congrArg Slot.unspent same).symm.trans (foldl_marks_unspent earlier mark s)
    · refine (congrArg Slot.spent same).symm.trans ((moves before after split records).trans ?_)
      cases recorded : before.reduceOption.getLast? with
      | some coin' =>
        rw [recorded] at found
        exact found
      | none =>
        rw [recorded] at found
        rw [moved_record found]
        rfl
  · intro ⟨unspent, spent⟩
    apply Slot.ext
    · cases final : marks.getLast? with
      | none =>
        rw [List.getLast?_eq_none_iff.mp final]
        rfl
      | some mark =>
        rw [unspent mark final]
        obtain ⟨earlier, rfl⟩ := List.getLast?_eq_some_iff.mp final
        exact foldl_marks_unspent earlier mark s
    · by_cases taken : none ∈ marks
      · obtain ⟨before, after, split, records⟩ := last_spend taken
        rw [moves before after split records]
        cases recorded : before.reduceOption.getLast? with
        | some coin => exact (spent before after coin split records (by rw [recorded]; rfl)).symm
        | none =>
          -- The spend finds what the table holds, and the table holds the last mark.
          obtain ⟨mark, final⟩ := Option.ne_none_iff_exists'.mp
            (fun empty => List.ne_nil_of_mem taken (List.getLast?_eq_none_iff.mp empty))
          have held := unspent mark final
          cases mark with
          | none =>
            change (Write.moved s).spent = s.spent
            rw [Write.moved, held]
            rfl
          | some coin =>
            rw [moved_record held]
            exact (spent before after coin split records (by rw [recorded]; exact held)).symm
      · exact foldl_records_spent taken s

/-- The writes leave both tables of outputs as they are exactly when they leave every output. -/
theorem replayAt_eq_self_iff {writes : List Write} {db : Db} :
    (∀ k, replayAt k writes (slot db k) = slot db k) ↔
      ∀ r, (marksAt r writes).foldl markSlot (slot db (encode r)) = slot db (encode r) := by
  constructor
  · intro same r
    rw [← replayAt_encode]
    exact same (encode r)
  · intro same k
    by_cases written : ∃ r : OutputRef, k = encode r
    · obtain ⟨r, rfl⟩ := written
      rw [replayAt_encode]
      exact same r
    · exact replayAt_other (fun r is => written ⟨r, is⟩) writes _

/-! ### A block that fails -/

theorem noted_eq_self_iff {timestamp : Tree} {last : Option UInt64} :
    noted timestamp last = timestamp ↔ ∀ time, last = some time → timestamp.get [0] = some (encode time) := by
  cases last with
  | none => simp [noted]
  | some time =>
    rw [noted, Store.set_eq_self_iff]
    exact ⟨fun stored _ same => Option.some.inj same ▸ stored, fun all => all time rfl⟩

section
variable (C : Type) [Host] [Codec C]

/-- The block is in both block tables, and what it writes for each output is in the tables of outputs. -/
structure Settled (filter : OuterVerifier → Bool) (b : OpaqueBlock) (blockHash : H256) (db : Db) : Prop where
  hash : db.blockHashes.get (encode b.header.number) = some (encode blockHash)
  block : db.blocks.get (encode blockHash) = some (encode b)
  /-- An output that the block records last is unspent with that coin, and one that it spends last is not. -/
  unspent : ∀ r mark, (marksAt r (blockScript C filter b).writes).getLast? = some mark →
    db.unspent.get (encode r) = mark.map encode
  /-- The last spend of an output moves the coin recorded before it, or the one in the table. -/
  spent : ∀ (r : OutputRef) (before after : List (Option (H256 × U128))) (coin : H256 × U128),
    marksAt r (blockScript C filter b).writes = before ++ none :: after → none ∉ after →
    (before.reduceOption.getLast?.map encode).or (db.unspent.get (encode r)) = some (encode coin) →
    db.spent.get (encode r) = some (encode coin)
  time : ∀ time, lastTime (blockScript C filter b).writes = some time → db.timestamp.get [0] = some (encode time)

variable {C}

theorem applyBlock_blocks {b : OpaqueBlock} {blockHash : H256} (db : Db) :
    ((applyBlock C filter b blockHash).after db).blocks = db.blocks.set (encode blockHash) (encode b) ∧
      ((applyBlock C filter b blockHash).after db).blockHashes =
        db.blockHashes.set (encode b.header.number) (encode blockHash) := by
  have transactions : (b.extrinsics.toList.forM (applyTransaction C filter)).Maintains
      fun db' => db'.blocks = db.blocks.set (encode blockHash) (encode b) ∧
        db'.blockHashes = db.blockHashes.set (encode b.header.number) (encode blockHash) :=
    .forM fun x _ => (closed_blocks _ _).applyTransaction filter x
  exact transactions _ ⟨rfl, rfl⟩

/-- The writes of the block leave the tables of outputs as they are. -/
theorem Settled.outputs {b : OpaqueBlock} {blockHash : H256} {db : Db} (settled : Settled C filter b blockHash db) :
    ∀ k, replayAt k (blockScript C filter b).writes (slot db k) = slot db k :=
  replayAt_eq_self_iff.mpr fun r => foldl_marks_eq_self_iff.mpr ⟨settled.unspent r, settled.spent r⟩

theorem settled_iff_of_ran {b : OpaqueBlock} {blockHash : H256} {db db' : Db}
    (ran : (blockScript C filter b).writes.forM Write.perform { db with
      blockHashes := db.blockHashes.set (encode b.header.number) (encode blockHash)
      blocks := db.blocks.set (encode blockHash) (encode b) } = .ok () db') :
    db' = db ↔ Settled C filter b blockHash db := by
  obtain ⟨slots, timestamp, blocks, blockHashes⟩ := writes_ok ran
  dsimp only at timestamp blocks blockHashes
  constructor
  · rintro rfl
    have outputs := fun r => foldl_marks_eq_self_iff.mp (replayAt_eq_self_iff.mp (fun k => (slots k).symm) r)
    exact ⟨Store.set_eq_self_iff.mp blockHashes.symm, Store.set_eq_self_iff.mp blocks.symm, fun r => (outputs r).1,
      fun r => (outputs r).2, noted_eq_self_iff.mp timestamp.symm⟩
  · intro settled
    have same : ∀ k, slot db' k = slot db k := fun k => (slots k).trans (settled.outputs k)
    have unspent : db'.unspent = db.unspent := Store.ext fun k => congrArg Slot.unspent (same k)
    have spent : db'.spent = db.spent := Store.ext fun k => congrArg Slot.spent (same k)
    rw [Store.set_eq_self_iff.mpr settled.hash] at blockHashes
    rw [Store.set_eq_self_iff.mpr settled.block] at blocks
    rw [noted_eq_self_iff.mpr settled.time] at timestamp
    cases db
    cases db'
    dsimp only at unspent spent timestamp blocks blockHashes
    rw [unspent, spent, timestamp, blocks, blockHashes]

/-- A block that fails leaves the tables as they were exactly when they held all of its writes
before. They hold its hash in any case, and the next synchronization starts from there. -/
theorem failed_apply_atomic_iff {b : OpaqueBlock} {blockHash : H256} {db db' : Db} {error : Error}
    (failed : applyBlock C filter b blockHash db = .error (.err error) db') :
    (db' = db ↔ Settled C filter b blockHash db) ∧
    getBlockHash b.header.number db' = .ok (some blockHash) ∧
    ∀ top, Kept db → height db = some top → b.header.number.toNat = top.toNat + 1 →
      begin db' = .ok (.compare b.header.number blockHash) db' := by
  refine ⟨?_, ?_⟩
  · rw [applyBlock_eq] at failed
    rcases Exec.bind_error failed with stopped | ⟨_, db₁, ran, ended⟩
    · obtain ⟨k, ivec, stored, gone, lost⟩ := writes_error stopped
      refine iff_of_false (fun same => gone ?_) (fun settled => lost ?_)
      · rw [same]
        exact stored
      · exact (congrArg Slot.unspent (settled.outputs k)).trans stored
    · obtain ⟨_, rfl⟩ := Exec.lift_error ended
      exact settled_iff_of_ran ran
  · have blockHashes : db'.blockHashes = db.blockHashes.set (encode b.header.number) (encode blockHash) := by
      rw [← Exec.after_of_error failed]
      exact (applyBlock_blocks db).2
    have recorded : getBlockHash b.header.number db' = .ok (some blockHash) := by
      unfold getBlockHash
      rw [blockHashes, Store.get_set_self]
      simp only [decodeValue_encode]
      rfl
    refine ⟨recorded, fun top kept highest next => ?_⟩
    have above := kept.height_above highest next blockHashes
    refine (Exec.bind_of_ok (Exec.get_of db')).trans ?_
    refine (Exec.bind_of_ok (Exec.lift_of_ok (by rw [above]; rfl) db')).trans ?_
    refine (Exec.bind_of_ok (Exec.read_of_ok recorded)).trans ?_
    exact Exec.bind_of_ok (Exec.lift_of_ok rfl db')

end

/-! The second extrinsic of a block does not decode. -/

def unreadBlock : OpaqueBlock :=
  ⟨claimServed.header, ⟨[claimCoin.toOpaque claimCoin_small, Vec.empty], by decide⟩⟩

/-- The block fails, and the wallet has its hash and the coin of its first extrinsic. -/
theorem failed_apply_not_atomic :
    letI := walletHost
    ∃ db',
      applyBlock OuterConstraintChecker walletFilter unreadBlock claimHash openedWallet = .error (.err .codec) db' ∧
      db' ≠ openedWallet ∧ height openedWallet = some 0 ∧ height db' = some 1 ∧
      openedWallet.unspent.get (encode (⟨claimTx, 0⟩ : OutputRef)) = none ∧
      db'.unspent.get (encode (⟨claimTx, 0⟩ : OutputRef)) = some (encode (walletKey, (100 : U128))) := by
  let := walletHost
  have computed : ((applyBlock OuterConstraintChecker walletFilter unreadBlock claimHash).failure openedWallet =
      some (.err .codec)) ∧ height openedWallet = some 0 ∧
      height ((applyBlock OuterConstraintChecker walletFilter unreadBlock claimHash).after openedWallet) = some 1 ∧
      openedWallet.unspent.get (encode (⟨claimTx, 0⟩ : OutputRef)) = none ∧
      ((applyBlock OuterConstraintChecker walletFilter unreadBlock claimHash).after openedWallet).unspent.get
        (encode (⟨claimTx, 0⟩ : OutputRef)) = some (encode (walletKey, (100 : U128))) := by decide +kernel
  obtain ⟨failure, before, after, absent, present⟩ := computed
  obtain ⟨db', failed⟩ := Exec.failure_eq_some.mp failure
  rw [Exec.after_of_error failed] at after present
  refine ⟨db', failed, fun same => ?_, before, after, absent, present⟩
  rw [same, before] at after
  cases after

theorem unreadBlock_marks (r : OutputRef) :
    let := walletHost
    (r = ⟨claimTx, 0⟩ ∧
      marksAt r (blockScript OuterConstraintChecker walletFilter unreadBlock).writes = [some (walletKey, 100)]) ∨
    (r = ⟨freeCoinTx, 0⟩ ∧ marksAt r (blockScript OuterConstraintChecker walletFilter unreadBlock).writes = [none]) ∨
    marksAt r (blockScript OuterConstraintChecker walletFilter unreadBlock).writes = [] := by
  let := walletHost
  have writes : (blockScript OuterConstraintChecker walletFilter unreadBlock).writes =
      [.record ⟨claimTx, 0⟩ (walletKey, 100), .spend ⟨freeCoinTx, 0⟩] := by decide +kernel
  have different : (⟨claimTx, 0⟩ : OutputRef) ≠ ⟨freeCoinTx, 0⟩ := by decide +kernel
  dsimp only
  rw [writes]
  by_cases first : r = ⟨claimTx, 0⟩
  · exact Or.inl ⟨first, by simp [marksAt, Write.mark?, first, different.symm]⟩
  · by_cases second : r = ⟨freeCoinTx, 0⟩
    · exact Or.inr (Or.inl ⟨second, by simp [marksAt, Write.mark?, second, different]⟩)
    · exact Or.inr (Or.inr (by simp [marksAt, Write.mark?, Ne.symm first, Ne.symm second]))

/-- The coin that the block makes is recorded, and the one that it spends is not. -/
theorem unreadBlock_settled {db : Db}
    (hash : db.blockHashes.get (encode unreadBlock.header.number) = some (encode claimHash))
    (block : db.blocks.get (encode claimHash) = some (encode unreadBlock))
    (made : db.unspent.get (encode (⟨claimTx, 0⟩ : OutputRef)) = some (encode (walletKey, (100 : U128))))
    (taken : db.unspent.get (encode (⟨freeCoinTx, 0⟩ : OutputRef)) = none) :
    let := walletHost
    Settled OuterConstraintChecker walletFilter unreadBlock claimHash db := by
  let := walletHost
  refine ⟨hash, block, fun r mark last => ?_, fun r before after coin split _ found => ?_, fun time last => ?_⟩
  · rcases unreadBlock_marks r with ⟨rfl, one⟩ | ⟨rfl, one⟩ | empty
    · rw [one] at last
      cases last
      exact made
    · rw [one] at last
      cases last
      exact taken
    · rw [empty] at last
      cases last
  · rcases unreadBlock_marks r with ⟨rfl, one⟩ | ⟨rfl, one⟩ | empty
    · have spent : none ∈ before ++ none :: after := by simp
      rw [← split, one] at spent
      simp at spent
    · obtain ⟨rfl, _⟩ : before = [] ∧ none :: after = [none] := by
        simpa [List.append_eq_singleton_iff] using (one.symm.trans split).symm
      rw [taken] at found
      cases found
    · simp [empty] at split
  · have never : lastTime (blockScript OuterConstraintChecker walletFilter unreadBlock).writes = none := by
      decide +kernel
    rw [never] at last
    cases last

/-- Applied once more, the block fails again, and all that it writes is in the tables by now. -/
theorem failed_apply_atomic_again :
    letI := walletHost
    let again := (applyBlock OuterConstraintChecker walletFilter unreadBlock claimHash).after openedWallet
    again.unspent.get (encode (⟨claimTx, 0⟩ : OutputRef)) = some (encode (walletKey, (100 : U128))) ∧
      applyBlock OuterConstraintChecker walletFilter unreadBlock claimHash again = .error (.err .codec) again := by
  let := walletHost
  intro again
  have computed : (applyBlock OuterConstraintChecker walletFilter unreadBlock claimHash).failure again =
        some (.err .codec) ∧
      again.unspent.get (encode (⟨claimTx, 0⟩ : OutputRef)) = some (encode (walletKey, (100 : U128))) ∧
      again.unspent.get (encode (⟨freeCoinTx, 0⟩ : OutputRef)) = none := by decide +kernel
  obtain ⟨failure, made, taken⟩ := computed
  obtain ⟨db', failed⟩ := Exec.failure_eq_some.mp failure
  obtain ⟨blocks, blockHashes⟩ : again.blocks = openedWallet.blocks.set (encode claimHash) (encode unreadBlock) ∧
      again.blockHashes = openedWallet.blockHashes.set (encode unreadBlock.header.number) (encode claimHash) :=
    applyBlock_blocks openedWallet
  have settled : Settled OuterConstraintChecker walletFilter unreadBlock claimHash again :=
    unreadBlock_settled (by rw [blockHashes, Store.get_set_self]) (by rw [blocks, Store.get_set_self]) made taken
  have same := (failed_apply_atomic_iff failed).1.mpr settled
  exact ⟨made, by rw [failed, same]⟩

end Tuxedo.Wallet
