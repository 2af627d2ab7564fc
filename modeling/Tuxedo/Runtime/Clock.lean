import Tuxedo.Executive.Inherents
import Tuxedo.Runtime.Pieces

/-!
# Timestamps along a chain

Every block notes one timestamp, of its own height, and no transaction takes a timestamp away.
This is the same for any checker that has the timestamp inherent among its variants.
-/

namespace Tuxedo.Template
open Scale Executive TransparentUtxoSet DynamicallyTypedData Time

/-- A checker with the timestamp inherent among its variants, and no other checker of times. -/
class Timestamped (C : Type) [Host] [ConstraintChecker OuterVerifier C] where
  isTimestamp : C → Bool
  inherent : ∀ {checker : C}, isTimestamp checker = true →
    ConstraintChecker.isInherent (V := OuterVerifier) checker = true
  check_timestamp : ∀ {checker : C} {inputs evicted peeks outputs : List DynamicallyTypedData} {s s' : Storage}
    {priority : UInt64}, isTimestamp checker = true →
    (ConstraintChecker.check (V := OuterVerifier) checker inputs evicted peeks outputs s = .ok priority s' ↔
      SetTimestamp.check Runtime (blockHeight s) inputs evicted peeks outputs = .ok priority ∧ s = s')
  check_other : ∀ {checker : C} {inputs evicted peeks outputs : List DynamicallyTypedData} {s s' : Storage}
    {priority : UInt64}, isTimestamp checker = false →
    ConstraintChecker.check (V := OuterVerifier) checker inputs evicted peeks outputs s = .ok priority s' →
    Handles (fun d => ¬Extracts Timestamp d) inputs evicted outputs ∧ s'.get heightKey = s.get heightKey
  genesis_one : ∀ {txs : List (Tuxedo.Transaction OuterVerifier C)}, ConstraintChecker.genesisTransactions = some txs →
    ∃ x output, txs.filter (fun t => isTimestamp t.checker) = [x] ∧ x.outputs.toList = [output] ∧
      output.payload.extract Timestamp = .ok ⟨0, 0⟩
  checked_one : ∀ {data : InherentData} {xs : List (Tuxedo.Transaction OuterVerifier C)}
    {result : CheckInherentsResult},
    (∀ x ∈ xs, ConstraintChecker.isInherent (V := OuterVerifier) x.checker = true) →
    ConstraintChecker.checkInherents data xs .new = some result → result.okay = true →
    ∃ x, xs.filter (fun t => isTimestamp t.checker) = [x]

section
variable {C : Type} [Host] [Codec C] [ConstraintChecker OuterVerifier C] [KeepsUtxos OuterVerifier C] [Timestamped C]
  {t : Tuxedo.Transaction OuterVerifier C} {txHash : H256} {s checked s' : Storage}

def isTimestamp (t : Tuxedo.Transaction OuterVerifier C) : Bool := Timestamped.isTimestamp t.checker

def timeAt (s : Storage) (r : OutputRef) : Option Timestamp := dataAt OuterVerifier Timestamp s r

/-- The timestamp that a transaction notes in its one output. -/
def Notes (t : Tuxedo.Transaction OuterVerifier C) (new : Timestamp) : Prop :=
  ∃ output, t.outputs.toList = [output] ∧ output.payload.extract Timestamp = .ok new

/-! ### One transaction -/

structure Stamps (t : Tuxedo.Transaction OuterVerifier C) (txHash : H256) (s s' : Storage) (new : Timestamp) :
    Prop where
  notes : Notes t new
  peeks : t.peeks.toList ≠ []
  current : blockHeight s = some new.block
  fresh : timeAt s ⟨txHash, 0⟩ = none
  after : ∀ r, timeAt s' r = if r = ⟨txHash, 0⟩ then some new else timeAt s r

omit [Host] [Codec C] [ConstraintChecker OuterVerifier C] [KeepsUtxos OuterVerifier C] [Timestamped C] in
theorem inputRefs_eq_nil (redeemed : redeemedRefs t.inputs.toList = []) (evicted : evictedRefs t.inputs.toList = []) :
    inputRefs t = [] := by
  rw [inputRefs_of_redeemed evicted, redeemed]

theorem stamps (accepted : Accepted t txHash s checked s') (timestamp : isTimestamp t = true) :
    blockHeight s' = blockHeight s ∧ ∃ new, Stamps t txHash s s' new := by
  obtain ⟨priority, call⟩ := accepted.checks
  obtain ⟨passed, rfl⟩ := (Timestamped.check_timestamp timestamp).mp call
  obtain ⟨noInputs, noEvictions, _, new, old, ⟨d, makes, created⟩, ⟨d', rest, peeked, _⟩, follows⟩ :=
    SetTimestamp.check_ok.mp passed
  have redeemed := refs_nil accepted.redeemed_present noInputs
  have evicted := refs_nil accepted.evicted_present noEvictions
  obtain ⟨output, one, rfl⟩ := List.map_eq_singleton_iff.mp makes
  refine ⟨?_, new, ⟨output, one, created⟩, ?_, follows.current, ?_, ?_⟩
  · rw [blockHeight, accepted.get_narrow (by decide)]
    rfl
  · intro none
    rw [none] at peeked
    cases peeked
  · exact dataAt_of_absent (accepted.fresh _ (mem_outputRefs.mpr ⟨rfl, by simp [one]⟩))
  · intro r
    have read := accepted.dataAt_single one created r
    rw [inputRefs_eq_nil redeemed evicted] at read
    simpa [timeAt] using read

omit [KeepsUtxos OuterVerifier C] in
/-- An accepted timestamp follows the one that it peeks at first. -/
theorem follows_first_peek (accepted : Accepted t txHash s checked s') (timestamp : isTimestamp t = true) :
    ∃ old new r rest, Notes t new ∧ t.peeks.toList = r :: rest ∧ timeAt s r = some old ∧
      Follows Runtime (blockHeight s) old new := by
  obtain ⟨priority, call⟩ := accepted.checks
  obtain ⟨passed, rfl⟩ := (Timestamped.check_timestamp timestamp).mp call
  obtain ⟨_, _, _, new, old, ⟨d, makes, created⟩, ⟨d', rest', reads, extracted⟩, follows⟩ :=
    SetTimestamp.check_ok.mp passed
  obtain ⟨output, one, rfl⟩ := List.map_eq_singleton_iff.mp makes
  cases peeks : t.peeks.toList with
  | nil =>
    rw [peeks] at reads
    cases reads
  | cons r rest =>
    obtain ⟨peeked, present⟩ := accepted.peeksPresent r (by simp [peeks])
    have read : payloadAt OuterVerifier s r = some peeked.payload := by simp [payloadAt, present]
    rw [peeks, List.filterMap_cons_some read] at reads
    obtain rfl : peeked.payload = d' := (List.cons.inj reads).1
    exact ⟨old, new, r, rest, ⟨output, one, created⟩, rfl, dataAt_eq_some.mpr ⟨peeked, present, extracted⟩, follows⟩

omit [Codec C] [ConstraintChecker OuterVerifier C] [KeepsUtxos OuterVerifier C] [Timestamped C] [Host] in
theorem Notes.unique {new new' : Timestamp} (notes : Notes t new) (notes' : Notes t new') : new = new' := by
  obtain ⟨output, one, extracted⟩ := notes
  obtain ⟨output', one', extracted'⟩ := notes'
  rw [one] at one'
  cases one'
  exact Except.ok.inj (extracted.symm.trans extracted')

theorem leaves_times (accepted : Accepted t txHash s checked s') (other : isTimestamp t = false) :
    blockHeight s' = blockHeight s ∧ timeAt s' = timeAt s := by
  obtain ⟨priority, call⟩ := accepted.checks
  obtain ⟨handles, height⟩ := Timestamped.check_other other call
  constructor
  · rw [blockHeight, accepted.get_narrow (by decide), height]
    rfl
  · exact accepted.dataAt_unhandled handles

/-! ### Runs -/

theorem applied_height {xs : List (Tuxedo.Transaction OuterVerifier C)} (applied : Applied s xs s') :
    blockHeight s' = blockHeight s := by
  induction applied with
  | done s => rfl
  | @apply s s₁ s' x xs applied _ ih =>
    obtain ⟨_, _, accepted⟩ := apply_ok.mp applied
    rw [ih]
    cases timestamp : isTimestamp x with
    | true => exact (stamps accepted timestamp).1
    | false => exact (leaves_times accepted timestamp).1

theorem time_stays {xs : List (Tuxedo.Transaction OuterVerifier C)} (applied : Applied s xs s') {r : OutputRef}
    {old : Timestamp} (present : timeAt s r = some old) : timeAt s' r = some old := by
  induction applied with
  | done s => exact present
  | @apply s s₁ s' x xs applied _ ih =>
    obtain ⟨txHash, _, accepted⟩ := apply_ok.mp applied
    apply ih
    cases timestamp : isTimestamp x with
    | true =>
      obtain ⟨_, new, stamped⟩ := stamps accepted timestamp
      have other : r ≠ ⟨txHash, 0⟩ := by
        intro same
        rw [same, stamped.fresh] at present
        cases present
      rw [stamped.after, if_neg other, present]
    | false => rw [(leaves_times accepted timestamp).2, present]

/-- Each timestamp inherent of a run leaves the timestamp of the height it ran at. -/
theorem times_made {xs : List (Tuxedo.Transaction OuterVerifier C)} (applied : Applied s xs s') :
    ∀ x ∈ xs, isTimestamp x = true → ∃ txHash new, x.id? = some txHash ∧ Notes x new ∧ x.peeks.toList ≠ [] ∧
      blockHeight s = some new.block ∧ timeAt s' ⟨txHash, 0⟩ = some new := by
  induction applied with
  | done s => simp
  | @apply s s₁ s' x xs applied later ih =>
    obtain ⟨txHash, _, accepted⟩ := apply_ok.mp applied
    have height : blockHeight s₁ = blockHeight s := applied_height (.apply applied (.done _))
    intro y member timestamp
    rcases List.mem_cons.mp member with rfl | member
    · obtain ⟨_, new, stamped⟩ := stamps accepted timestamp
      exact ⟨txHash, new, accepted.hash, stamped.notes, stamped.peeks, stamped.current,
        time_stays later (by rw [stamped.after, if_pos rfl])⟩
    · rw [← height]
      exact ih y member timestamp

/-! ### Successive timestamps -/

/-- In the run of the blocks from `s`, a block with the number notes the time `new` and peeks first
at the time `old`. -/
inductive Noted : Storage → List (Tuxedo.Block OuterVerifier C) → BlockNumber → Timestamp → Timestamp → Prop
  | here {s s₁ : Storage} {block : Tuxedo.Block OuterVerifier C} {blocks : List (Tuxedo.Block OuterVerifier C)}
      {earlier later : List (Tuxedo.Transaction OuterVerifier C)} {x : Tuxedo.Transaction OuterVerifier C}
      {r : OutputRef} {rest : List OutputRef} {old new : Timestamp}
      (split : block.extrinsics.toList = earlier ++ x :: later)
      (applied : Applied (openBlock block.header s) earlier s₁) (timestamp : isTimestamp x = true)
      (peeks : x.peeks.toList = r :: rest) (peeked : timeAt s₁ r = some old) (notes : Notes x new) :
      Noted s (block :: blocks) block.header.number old new
  | later {s s₁ : Storage} {block : Tuxedo.Block OuterVerifier C} {blocks : List (Tuxedo.Block OuterVerifier C)}
      {number : BlockNumber} {old new : Timestamp} (executed : executeBlock block s = .ok () s₁)
      (noted : Noted s₁ blocks number old new) : Noted s (block :: blocks) number old new

theorem Noted.follows {blocks : List (Tuxedo.Block OuterVerifier C)} {number : BlockNumber} {old new : Timestamp}
    (noted : Noted s blocks number old new) (run : Imported s blocks s') : Follows Runtime (some number) old new := by
  induction noted generalizing s' with
  | @here s s₁ block blocks earlier later x r rest old new split applied timestamp peeks peeked notes =>
    cases run with
    | execute executed _ =>
      obtain ⟨_, ⟨s₂, whole, _⟩, _⟩ := executeBlock_ok.mp executed
      rw [split] at whole
      obtain ⟨s₃, before, whole⟩ := applied_append.mp whole
      obtain rfl := applied.unique before
      cases whole with
      | apply current _ =>
        obtain ⟨_, _, accepted⟩ := apply_ok.mp current
        obtain ⟨old', new', r', rest', notes', peeks', peeked', follows⟩ := follows_first_peek accepted timestamp
        obtain rfl := notes.unique notes'
        obtain ⟨rfl, rfl⟩ := List.cons.inj (peeks.symm.trans peeks')
        obtain rfl := Option.some.inj (peeked.symm.trans peeked')
        rwa [applied_height applied, openBlock_height] at follows
  | later executed _ ih =>
    cases run with
    | execute again run =>
      rw [executed] at again
      cases again
      exact ih run

omit [KeepsUtxos OuterVerifier C] in
/-- Every timestamp inherent of a run notes a time. -/
theorem noted_of_imported {blocks : List (Tuxedo.Block OuterVerifier C)} (run : Imported s blocks s') :
    ∀ block ∈ blocks, ∀ x ∈ block.extrinsics.toList, isTimestamp x = true →
      ∃ old new, Notes x new ∧ Noted s blocks block.header.number old new := by
  induction run with
  | done s => simp
  | @execute s s₁ s' block blocks executed _ ih =>
    intro b member x listed timestamp
    rcases List.mem_cons.mp member with rfl | member
    · obtain ⟨_, ⟨s₂, whole, _⟩, _⟩ := executeBlock_ok.mp executed
      obtain ⟨earlier, later, split⟩ := List.append_of_mem listed
      rw [split] at whole
      obtain ⟨s₃, before, whole⟩ := applied_append.mp whole
      cases whole with
      | apply current _ =>
        obtain ⟨_, _, accepted⟩ := apply_ok.mp current
        obtain ⟨old, new, r, rest, notes, peeks, peeked, _⟩ := follows_first_peek accepted timestamp
        exact ⟨old, new, notes, .here split before timestamp peeks peeked notes⟩
    · obtain ⟨old, new, notes, noted⟩ := ih b member x listed timestamp
      exact ⟨old, new, notes, .later executed noted⟩

/-! ### Chains -/

section
variable {past : List (Tuxedo.Transaction OuterVerifier C)} {parent : Tuxedo.Block OuterVerifier C}

omit [Codec C] [KeepsUtxos OuterVerifier C] in
theorem timestamp_inherent (x : Tuxedo.Transaction OuterVerifier C) (timestamp : isTimestamp x = true) :
    isInherent x = true := Timestamped.inherent timestamp

omit [KeepsUtxos OuterVerifier C] in
/-- The last block has one timestamp inherent. -/
theorem one_timestamp (chain : Chain past parent s) : ∃ x, parent.extrinsics.toList.filter isTimestamp = [x] := by
  refine chain.one_of_kind timestamp_inherent ?_ Timestamped.checked_one
  intro txs genesis
  obtain ⟨x, _, one, _⟩ := Timestamped.genesis_one genesis
  exact ⟨x, one⟩

/-- Timestamps of the chain are not ahead of it. -/
theorem past_timestamps (chain : Chain past parent s) : ∀ t ∈ past, isTimestamp t = true →
    t.peeks.toList = [] ∨ ∃ old, Notes t old ∧ old.block.toNat ≤ parent.header.number.toNat := by
  induction chain with
  | genesis version bare builds inherents =>
    intro t member _
    exact Or.inl ((buildTransactions_ok builds).noInputs t member).2
  | next chain number checked okay executed ih =>
    intro t member timestamp
    rcases List.mem_append.mp member with earlier | current
    · rcases ih t earlier timestamp with none | ⟨old, notes, bound⟩
      · exact Or.inl none
      · exact Or.inr ⟨old, notes, by omega⟩
    · obtain ⟨_, ⟨s₁, applied, rfl⟩, _⟩ := executeBlock_ok.mp executed
      obtain ⟨_, new, _, notes, _, height, _⟩ := times_made applied t current timestamp
      rw [openBlock_height] at height
      exact Or.inr ⟨new, notes, by rw [Option.some.inj height]⟩

/-- The timestamp of the last block, noted by its inherent `x`, is still there. -/
structure LastTimestamp (past : List (Tuxedo.Transaction OuterVerifier C)) (parent : Tuxedo.Block OuterVerifier C)
    (s : Storage) (x : Tuxedo.Transaction OuterVerifier C) (txHash : H256) (old : Timestamp) : Prop where
  one : (openingInherents parent).filter isTimestamp = [x]
  hash : x.id? = some txHash
  notes : Notes x old
  height : old.block = parent.header.number
  present : CollisionFree {t | t ∈ past} → timeAt s ⟨txHash, 0⟩ = some old

/-- The time that the timestamp inherent of a block notes. -/
def recordedTimestamp (block : Tuxedo.Block OuterVerifier C) : Option Timestamp := do
  let inherent ← (openingInherents block).find? isTimestamp
  let output ← inherent.outputs.toList[0]?
  (output.payload.extract Timestamp).toOption

omit [KeepsUtxos OuterVerifier C] in
theorem LastTimestamp.recorded {x : Tuxedo.Transaction OuterVerifier C} {old : Timestamp}
    (last : LastTimestamp past parent s x txHash old) : recordedTimestamp parent = some old := by
  obtain ⟨output, one, extracted⟩ := last.notes
  have first : (openingInherents parent).find? isTimestamp = some x := by
    rw [← List.head?_filter, last.one]
    rfl
  simp [recordedTimestamp, first, one, toOption_extract.mpr extracted]

theorem last_timestamp (chain : Chain past parent s) : ∃ x txHash old, LastTimestamp past parent s x txHash old := by
  obtain ⟨x, one⟩ := one_timestamp chain
  obtain ⟨opening, member, timestamp, txHash, hash⟩ := chain.opening_of_kind timestamp_inherent one
  cases chain with
  | @genesis txs base built version bare builds inherents =>
    rw [genesisBlock_extrinsics version builds] at one member
    obtain ⟨x', output, one', single, extracted⟩ := Timestamped.genesis_one inherents
    have same : x' = x := by
      change (txs.toList.filter isInherent).filter isTimestamp = [x'] at one'
      rw [filter_inherents timestamp_inherent, one] at one'
      exact (List.cons.inj one').1.symm
    subst same
    refine ⟨x', txHash, ⟨0, 0⟩, opening, hash, ⟨output, single, extracted⟩, rfl, ?_⟩
    intro free
    have made : creates x' ⟨txHash, 0⟩ = some output := creates_eq_some.mpr ⟨hash, by simp [single]⟩
    exact dataAt_eq_some.mpr ⟨output, genesis_present version bare builds free member made, extracted⟩
  | next chain number checked okay executed =>
    obtain ⟨_, ⟨s₁, applied, rfl⟩, _⟩ := executeBlock_ok.mp executed
    obtain ⟨txHash', new, hash', notes, _, height, present⟩ := times_made applied x member timestamp
    rw [hash] at hash'
    cases hash'
    rw [openBlock_height] at height
    have kept : timeAt (s₁.clear headerKey) = timeAt s₁ := SameUtxos.dataAt (.clear (by decide))
    exact ⟨x, txHash, new, opening, hash, notes, (Option.some.inj height).symm, fun _ => by rw [kept, present]⟩

/-! ### The next timestamp -/

/-- The timestamp inherent that follows the output of a previous one. -/
structure NextTimestamp (y : Tuxedo.Transaction OuterVerifier C) (previous : H256) (new : Timestamp) : Prop where
  timestamp : isTimestamp y = true
  noInputs : y.inputs.toList = []
  peeks : y.peeks.toList = [⟨previous, 0⟩]
  notes : Notes y new
  hashed : ∃ txHash, y.id? = some txHash

/-- It is no transaction of the chain: those of a genesis peek at nothing, the others are not
ahead of the chain. -/
theorem NextTimestamp.not_past {y : Tuxedo.Transaction OuterVerifier C} {previous : H256} {new : Timestamp}
    (next : NextTimestamp y previous new) (chain : Chain past parent s)
    (ahead : parent.header.number.toNat < new.block.toNat) : y ∉ past := by
  intro member
  rcases past_timestamps chain y member next.timestamp with none | ⟨old, ⟨output, one, noted⟩, bound⟩
  · rw [next.peeks] at none
    cases none
  · obtain ⟨output', one', noted'⟩ := next.notes
    rw [one] at one'
    cases one'
    rw [noted] at noted'
    cases noted'
    omega

theorem NextTimestamp.applies {x y : Tuxedo.Transaction OuterVerifier C} {old new : Timestamp} {header : Header}
    (next : NextTimestamp y txHash new) (chain : Chain past parent s) (last : LastTimestamp past parent s x txHash old)
    (number : header.number.toNat = parent.header.number.toNat + 1) (block : new.block = header.number)
    (free : CollisionFree {t | t ∈ y :: past})
    (later : parent.header.number = 0 ∨
      old.time.toNat + (TimestampConfig.minimumTimeInterval Runtime).toNat ≤ new.time.toNat) :
    ∃ s', applyTuxedoTransaction y (openBlock header s) = .ok () s' := by
  obtain ⟨hash, hashed⟩ := next.hashed
  obtain ⟨output, one, noted⟩ := next.notes
  have opened := openBlock_same header s
  have unspent : inputRefs y = [] := by simp [inputRefs, next.noInputs]
  have present : timeAt (openBlock header s) ⟨txHash, 0⟩ = some old := by
    rw [timeAt, opened.dataAt]
    exact last.present (free.mono fun t member => List.mem_cons_of_mem _ member)
  obtain ⟨peeked, found, extracted⟩ := dataAt_eq_some.mp present
  have follows : Follows Runtime (blockHeight (openBlock header s)) old new := by
    refine ⟨by rw [openBlock_height, block], ?_, ?_⟩
    · rw [last.height, UInt64.le_iff_toNat_le, UInt64.toNat_add]
      rcases later with genesis | later
      · exact Or.inl genesis
      · have small := new.time.toNat_lt
        exact Or.inr (by omega)
    · rw [block, last.height, ← UInt32.toNat_inj, UInt32.toNat_add]
      have small := header.number.toNat_lt
      simp only [UInt32.toNat_one]
      omega
  refine ⟨_, apply_ok.mpr ⟨hash, openBlock header s, ⟨⟨?_, ?_, hashed, ?_⟩, ?_, ?_, ⟨0, ?_⟩, rfl⟩⟩⟩
  · simp [next.noInputs]
  · simp [next.noInputs]
  · exact (chain.sourced.same opened).fresh free (next.not_past chain (by rw [block]; omega)) hashed
  · simp [unspent]
  · simp [next.peeks, found]
  · refine (Timestamped.check_timestamp next.timestamp).mpr ⟨SetTimestamp.check_ok.mpr ?_, rfl⟩
    refine ⟨by simp [next.noInputs, redeemedRefs], by simp [next.noInputs, evictedRefs], rfl, new, old,
      ⟨output.payload, by simp [outputData, one], noted⟩, ⟨peeked.payload, [], ?_, extracted⟩, follows⟩
    simp [next.peeks, payloadAt, found]

end
end
end Tuxedo.Template
