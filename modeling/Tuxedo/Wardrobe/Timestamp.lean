import Tuxedo.Core.ConstraintChecker

/-!
# Timestamps

The block author notes the time in an inherent that peeks at the timestamp of the previous
block. Sums of times and heights are machine sums.
-/

namespace Tuxedo.Time
open Scale

structure Timestamp where
  time : UInt64
  block : UInt32
  deriving DecidableEq

instance : UtxoData Timestamp where
  toCodec := .ofFields (UInt64 × UInt32) (fun t => (t.time, t.block)) (fun p => ⟨p.1, p.2⟩) (fun _ => rfl)
  typeId := ⟨[116, 105, 109, 101], rfl⟩

/-- `none` is a panic of the runtime's height. Times are in milliseconds. -/
class TimestampConfig (T : Type) where
  blockHeight : Storage → Option UInt32
  minimumTimeInterval : UInt64 := 2000
  maxDrift : UInt64 := 60000
  minTimeBeforeCleanup : UInt64 := 1000 * 60 * 60 * 24
  minBlocksBeforeCleanup : UInt32 := 15000

inductive TimestampError where
  | badlyTyped
  | missingNewTimestamp
  | newTimestampWrongHeight
  | tooManyOutputsWhileSettingTimestamp
  | previousTimestampWrongHeight
  | missingPreviousTimestamp
  | inputsWhileSettingTimestamp
  | timestampTooOld
  | cleanupRequiresOneReference
  | cleanupCannotCreateState
  | dontBeSoHasty
  | cleanupEvictionsOnly
  deriving DecidableEq

structure SetTimestamp (T : Type) where
  deriving DecidableEq

structure CleanUpTimestamp (T : Type) where
  deriving DecidableEq

instance {T : Type} : Codec (SetTimestamp T) := .ofFields Unit (fun _ => ()) (fun _ => ⟨⟩) (fun _ => rfl)

instance {T : Type} : Codec (CleanUpTimestamp T) := .ofFields Unit (fun _ => ()) (fun _ => ⟨⟩) (fun _ => rfl)

/-- `*b"timstap0"`. -/
def inherentIdentifier : InherentIdentifier := ⟨[116, 105, 109, 115, 116, 97, 112, 48], rfl⟩

/-- The timestamp at the front of the data, which panics when there is none. -/
def firstTimestamp (data : List DynamicallyTypedData) : Outcome TimestampError Timestamp := do
  let datum ← expect data[0]?
  orErr (datum.extract Timestamp) .badlyTyped

namespace SetTimestamp
variable (T : Type) [TimestampConfig T]

def check (height : Option UInt32) (inputData evictedInputData peekData outputData : List DynamicallyTypedData) :
    Outcome TimestampError UInt64 := do
  ensure (inputData.isEmpty) .inputsWhileSettingTimestamp
  ensure (evictedInputData.isEmpty) .inputsWhileSettingTimestamp
  ensure (¬outputData.isEmpty) .missingNewTimestamp
  let newTimestamp ← firstTimestamp outputData
  ensure (outputData.length = 1) .tooManyOutputsWhileSettingTimestamp
  let height ← expect height
  ensure (newTimestamp.block = height) .newTimestampWrongHeight
  ensure (¬peekData.isEmpty) .missingPreviousTimestamp
  let oldTimestamp ← firstTimestamp peekData
  -- The timestamp of the genesis block is no lower bound.
  ensure (oldTimestamp.block = 0 ∨
    oldTimestamp.time + TimestampConfig.minimumTimeInterval T ≤ newTimestamp.time) .timestampTooOld
  ensure (newTimestamp.block = oldTimestamp.block + 1) .previousTimestampWrongHeight
  return 0

variable {V : Type}

def createInherent [Verifier V] (s : Storage) (data : InherentData)
    (previous : Transaction V (SetTimestamp T) × H256) : Option (Transaction V (SetTimestamp T)) := do
  let currentTimestamp ← data.getData UInt64 inherentIdentifier
  let currentTimestamp ← currentTimestamp
  let height ← TimestampConfig.blockHeight T s
  let payload ← DynamicallyTypedData.into? (⟨currentTimestamp, height⟩ : Timestamp)
  let verifier ← Verifier.newUnspendable
  return ⟨Vec.empty, Vec.singleton ⟨previous.2, 0⟩, Vec.singleton ⟨payload, verifier⟩, ⟨⟩⟩

/-- `TooFarInFuture`, which is fatal. -/
def tooFarInFuture : Vec UInt8 := Vec.singleton 1

def checkInherent (data : InherentData) (inherent : Transaction V (SetTimestamp T))
    (result : CheckInherentsResult) : Option CheckInherentsResult := do
  let localTime ← data.getData UInt64 inherentIdentifier
  let localTime ← localTime
  let output ← inherent.outputs.toList[0]?
  let onChainTimestamp ← (output.payload.extract Timestamp).toOption
  if localTime + TimestampConfig.maxDrift T < onChainTimestamp.time then
    result.putError inherentIdentifier tooFarInFuture true
  else return result

def genesisTransactions [Verifier V] : Option (List (Transaction V (SetTimestamp T))) := do
  let payload ← DynamicallyTypedData.into? (⟨0, 0⟩ : Timestamp)
  let verifier ← Verifier.newUnspendable
  return [⟨Vec.empty, Vec.empty, Vec.singleton ⟨payload, verifier⟩, ⟨⟩⟩]

end SetTimestamp

namespace CleanUpTimestamp
variable (T : Type) [TimestampConfig T]

def cleanUp (height : Option UInt32) (newReference : Timestamp) (eviction : DynamicallyTypedData) :
    Outcome TimestampError Unit := do
  let oldTimestamp ← orErr (eviction.extract Timestamp) .badlyTyped
  ensure (oldTimestamp.time + TimestampConfig.minTimeBeforeCleanup T < newReference.time) .dontBeSoHasty
  let height ← expect height
  ensure (oldTimestamp.block + TimestampConfig.minBlocksBeforeCleanup T < height) .dontBeSoHasty

def check (height : Option UInt32) (inputData evictedInputData peekData outputData : List DynamicallyTypedData) :
    Outcome TimestampError UInt64 := do
  ensure (inputData.isEmpty) .cleanupEvictionsOnly
  ensure (¬peekData.isEmpty) .cleanupRequiresOneReference
  let newReference ← firstTimestamp peekData
  ensure (outputData.isEmpty) .cleanupCannotCreateState
  evictedInputData.forM (cleanUp T height newReference)
  return 0

end CleanUpTimestamp

instance {T : Type} [TimestampConfig T] : SimpleConstraintChecker (SetTimestamp T) where
  Error := TimestampError
  check _ inputData evictedInputData peekData outputData := Exec.read fun s =>
    SetTimestamp.check T (TimestampConfig.blockHeight T s) inputData evictedInputData peekData outputData

instance {V T : Type} [Verifier V] [TimestampConfig T] : InherentHooks V (SetTimestamp T) where
  createInherent := SetTimestamp.createInherent T
  checkInherent := SetTimestamp.checkInherent T
  genesisTransactions := SetTimestamp.genesisTransactions T

instance {T : Type} [TimestampConfig T] : SimpleConstraintChecker (CleanUpTimestamp T) where
  Error := TimestampError
  check _ inputData evictedInputData peekData outputData := Exec.read fun s =>
    CleanUpTimestamp.check T (TimestampConfig.blockHeight T s) inputData evictedInputData peekData outputData

/-! ### What a passed check says -/

open DynamicallyTypedData

theorem firstTimestamp_ok {data : List DynamicallyTypedData} {timestamp : Timestamp} :
    firstTimestamp data = .ok timestamp ↔ ∃ d rest, data = d :: rest ∧ d.extract Timestamp = .ok timestamp := by
  constructor
  · intro h
    obtain ⟨d, found, h⟩ := Outcome.bind_ok h
    cases data with
    | nil => cases Outcome.expect_ok found
    | cons d' rest =>
      cases Outcome.expect_ok found
      exact ⟨d, rest, rfl, Outcome.orErr_ok h⟩
  · rintro ⟨d, rest, rfl, extracted⟩
    simp [firstTimestamp, expect, orErr, extracted, bind, Except.bind]

/-- The new timestamp is of this block, the old one of the block before, and time has passed. -/
structure Follows (T : Type) [TimestampConfig T] (height : Option UInt32) (old new : Timestamp) : Prop where
  current : height = some new.block
  later : old.block = 0 ∨ old.time + TimestampConfig.minimumTimeInterval T ≤ new.time
  next : new.block = old.block + 1

theorem SetTimestamp.check_ok {T : Type} [TimestampConfig T] {height : Option UInt32}
    {inputData evictedInputData peekData outputData : List DynamicallyTypedData} {priority : UInt64} :
    SetTimestamp.check T height inputData evictedInputData peekData outputData = .ok priority ↔
      inputData = [] ∧ evictedInputData = [] ∧ priority = 0 ∧ ∃ new old,
        (∃ d, outputData = [d] ∧ d.extract Timestamp = .ok new) ∧
        (∃ d rest, peekData = d :: rest ∧ d.extract Timestamp = .ok old) ∧ Follows T height old new := by
  constructor
  · intro h
    obtain ⟨_, noInputs, h⟩ := Outcome.bind_ok h
    obtain ⟨_, noEvictions, h⟩ := Outcome.bind_ok h
    obtain ⟨_, _, h⟩ := Outcome.bind_ok h
    obtain ⟨new, created, h⟩ := Outcome.bind_ok h
    obtain ⟨_, one, h⟩ := Outcome.bind_ok h
    obtain ⟨current, height, h⟩ := Outcome.bind_ok h
    obtain ⟨_, sameHeight, h⟩ := Outcome.bind_ok h
    obtain ⟨_, _, h⟩ := Outcome.bind_ok h
    obtain ⟨old, peeked, h⟩ := Outcome.bind_ok h
    obtain ⟨_, later, h⟩ := Outcome.bind_ok h
    obtain ⟨_, next, returned⟩ := Outcome.bind_ok h
    obtain ⟨d, rest, rfl, extracted⟩ := firstTimestamp_ok.mp created
    obtain rfl : rest = [] := by simpa using Outcome.ensure_ok one
    refine ⟨List.isEmpty_iff.mp (Outcome.ensure_ok noInputs), List.isEmpty_iff.mp (Outcome.ensure_ok noEvictions),
      Outcome.pure_ok returned, new, old, ⟨d, rfl, extracted⟩, firstTimestamp_ok.mp peeked, ?_,
      Outcome.ensure_ok later, Outcome.ensure_ok next⟩
    rw [Outcome.expect_ok height, Outcome.ensure_ok sameHeight]
  · rintro ⟨rfl, rfl, rfl, new, old, ⟨d, rfl, created⟩, ⟨d', rest, rfl, peeked⟩, rfl, later, next⟩
    have first := firstTimestamp_ok.mpr ⟨d, [], rfl, created⟩
    have second := firstTimestamp_ok.mpr ⟨d', rest, rfl, peeked⟩
    unfold SetTimestamp.check
    rw [first, second]
    simp only [bind, Except.bind, expect, Outcome.ensure_of _ later, Outcome.ensure_of _ next]
    simp [ensure, pure, Except.pure]

/-- The sums are exact when they fit. -/
theorem Follows.exact_iff {T : Type} [TimestampConfig T] {height : Option UInt32} {old new : Timestamp}
    (follows : Follows T height old new) (started : old.block ≠ 0) :
    old.time.toNat + (TimestampConfig.minimumTimeInterval T).toNat ≤ new.time.toNat ∧
        new.block.toNat = old.block.toNat + 1 ↔
      old.time.toNat + (TimestampConfig.minimumTimeInterval T).toNat < 2 ^ 64 ∧ old.block.toNat + 1 < 2 ^ 32 := by
  have time := follows.later.resolve_left started
  rw [UInt64.le_iff_toNat_le, UInt64.toNat_add] at time
  have block := congrArg UInt32.toNat follows.next
  rw [UInt32.toNat_add, UInt32.toNat_one] at block
  have timeBound := new.time.toNat_lt
  have blockBound := new.block.toNat_lt
  constructor
  · rintro ⟨later, next⟩
    omega
  · rintro ⟨timeFits, blockFits⟩
    rw [Nat.mod_eq_of_lt timeFits] at time
    rw [Nat.mod_eq_of_lt blockFits] at block
    exact ⟨time, block⟩

/-- Past the first block the old timestamp is of an exact predecessor. -/
theorem Follows.previous {T : Type} [TimestampConfig T] {height : Option UInt32} {old new : Timestamp}
    (follows : Follows T height old new) (late : 2 ≤ new.block.toNat) :
    old.block ≠ 0 ∧ new.block.toNat = old.block.toNat + 1 := by
  have block := congrArg UInt32.toNat follows.next
  rw [UInt32.toNat_add, UInt32.toNat_one] at block
  have bound := old.block.toNat_lt
  constructor
  · intro first
    rw [first, UInt32.toNat_zero] at block
    omega
  · omega

/-- A check without error reports nothing. -/
theorem SetTimestamp.checkInherent_okay {V T : Type} [TimestampConfig T] {data : InherentData}
    {inherent : Transaction V (SetTimestamp T)} {result result' : CheckInherentsResult}
    (h : SetTimestamp.checkInherent T data inherent result = some result') (okay : result'.okay = true) :
    result' = result := by
  obtain ⟨localTime, _, h⟩ := Option.bind_eq_some_iff.mp h
  obtain ⟨localTime, _, h⟩ := Option.bind_eq_some_iff.mp h
  obtain ⟨output, _, h⟩ := Option.bind_eq_some_iff.mp h
  obtain ⟨onChainTimestamp, _, h⟩ := Option.bind_eq_some_iff.mp h
  split at h
  · rw [CheckInherentsResult.putError_okay h] at okay
    cases okay
  · exact (Option.some.inj h).symm

/-- The timestamp in the first output, if there is one. -/
def firstNoted {V C : Type} (t : Transaction V C) : Option Timestamp := do
  let output ← t.outputs.toList[0]?
  (output.payload.extract Timestamp).toOption

section
variable {V T : Type} [TimestampConfig T] {data : InherentData} {localTime : UInt64}
  {inherent : Transaction V (SetTimestamp T)} {result : CheckInherentsResult}

/-- The hook panics on a first output that is no timestamp. -/
theorem SetTimestamp.checkInherent_malformed (malformed : firstNoted inherent = none) :
    SetTimestamp.checkInherent T data inherent result = none := by
  rw [Option.eq_none_iff_forall_ne_some]
  intro result' checked
  obtain ⟨_, _, checked⟩ := Option.bind_eq_some_iff.mp checked
  obtain ⟨_, _, checked⟩ := Option.bind_eq_some_iff.mp checked
  obtain ⟨output, first, checked⟩ := Option.bind_eq_some_iff.mp checked
  obtain ⟨stamp, extracted, _⟩ := Option.bind_eq_some_iff.mp checked
  have noted : firstNoted inherent = some stamp := by simp [firstNoted, first, extracted]
  rw [malformed] at noted
  cases noted

/-- The machine sum only lets the hook report more. -/
theorem SetTimestamp.checkInherent_noted (decodes : data.getData UInt64 inherentIdentifier = some (some localTime))
    (fresh : result.fatalError = false) {stamp : Timestamp} (noted : firstNoted inherent = some stamp) :
    ∃ result', SetTimestamp.checkInherent T data inherent result = some result' ∧
      (localTime.toNat + (TimestampConfig.maxDrift T).toNat < stamp.time.toNat → result'.okay = false) := by
  obtain ⟨output, first, extracted⟩ := Option.bind_eq_some_iff.mp noted
  simp only [SetTimestamp.checkInherent, decodes, first, extracted, bind, Option.bind_some]
  split
  · obtain ⟨result', put⟩ : ∃ result', result.putError inherentIdentifier tooFarInFuture true = some result' := by
      simp [CheckInherentsResult.putError, fresh]
    exact ⟨result', put, fun _ => CheckInherentsResult.putError_okay put⟩
  · rename_i early
    refine ⟨result, rfl, fun late => (early ?_).elim⟩
    have bound := stamp.time.toNat_lt
    rw [UInt64.lt_iff_toNat_lt, UInt64.toNat_add, Nat.mod_eq_of_lt (by omega)]
    exact late

end

/-! ### Cleaning up -/

section
variable {T : Type} [TimestampConfig T] {height : Option UInt32} {reference old : Timestamp}

/-- What the clean-up compares, with machine sums. -/
structure Passes (T : Type) [TimestampConfig T] (height : Option UInt32) (reference old : Timestamp) : Prop where
  time : old.time + TimestampConfig.minTimeBeforeCleanup T < reference.time
  block : ∃ current, height = some current ∧ old.block + TimestampConfig.minBlocksBeforeCleanup T < current

theorem CleanUpTimestamp.cleanUp_ok {d : DynamicallyTypedData} :
    cleanUp T height reference d = .ok () ↔ ∃ old, d.extract Timestamp = .ok old ∧ Passes T height reference old := by
  constructor
  · intro h
    obtain ⟨old, extracted, h⟩ := Outcome.bind_ok h
    obtain ⟨_, time, h⟩ := Outcome.bind_ok h
    obtain ⟨current, found, block⟩ := Outcome.bind_ok h
    exact ⟨old, Outcome.orErr_ok extracted, Outcome.ensure_ok time, current, Outcome.expect_ok found,
      Outcome.ensure_ok block⟩
  · rintro ⟨old, extracted, time, current, rfl, block⟩
    unfold cleanUp
    rw [Outcome.bind_of_ok (Outcome.orErr_of_ok extracted _), Outcome.bind_of_ok (Outcome.ensure_of _ time)]
    exact Outcome.ensure_of _ block

theorem CleanUpTimestamp.check_ok {inputData evictedInputData peekData outputData : List DynamicallyTypedData}
    {priority : UInt64} :
    CleanUpTimestamp.check T height inputData evictedInputData peekData outputData = .ok priority ↔
      inputData = [] ∧ outputData = [] ∧ priority = 0 ∧ ∃ reference,
        (∃ d rest, peekData = d :: rest ∧ d.extract Timestamp = .ok reference) ∧
        ∀ d ∈ evictedInputData, ∃ old, d.extract Timestamp = .ok old ∧ Passes T height reference old := by
  constructor
  · intro h
    obtain ⟨_, noInputs, h⟩ := Outcome.bind_ok h
    obtain ⟨_, _, h⟩ := Outcome.bind_ok h
    obtain ⟨reference, peeked, h⟩ := Outcome.bind_ok h
    obtain ⟨_, noOutputs, h⟩ := Outcome.bind_ok h
    obtain ⟨_, evictions, h⟩ := Outcome.bind_ok h
    refine ⟨List.isEmpty_iff.mp (Outcome.ensure_ok noInputs), List.isEmpty_iff.mp (Outcome.ensure_ok noOutputs),
      Outcome.pure_ok h, reference, firstTimestamp_ok.mp peeked, fun d member => ?_⟩
    exact cleanUp_ok.mp (Outcome.forM_ok evictions d member)
  · rintro ⟨rfl, rfl, rfl, reference, peeked, evictions⟩
    have nonempty : ¬peekData.isEmpty := by
      obtain ⟨d, rest, rfl, _⟩ := peeked
      simp
    unfold CleanUpTimestamp.check
    rw [Outcome.bind_of_ok (Outcome.ensure_of _ List.isEmpty_nil), Outcome.bind_of_ok (Outcome.ensure_of _ nonempty),
      Outcome.bind_of_ok (firstTimestamp_ok.mpr peeked), Outcome.bind_of_ok (Outcome.ensure_of _ List.isEmpty_nil),
      Outcome.bind_of_ok (Outcome.forM_of_ok fun d member => cleanUp_ok.mpr (evictions d member))]
    rfl

/-- Old in time and in height, by exact sums. -/
structure Stale (T : Type) [TimestampConfig T] (current : UInt32) (reference old : Timestamp) : Prop where
  time : old.time.toNat + (TimestampConfig.minTimeBeforeCleanup T).toNat < reference.time.toNat
  block : old.block.toNat + (TimestampConfig.minBlocksBeforeCleanup T).toNat < current.toNat

/-- The sums of a clean-up fit. -/
structure Fits (T : Type) [TimestampConfig T] (old : Timestamp) : Prop where
  time : old.time.toNat + (TimestampConfig.minTimeBeforeCleanup T).toNat < 2 ^ 64
  block : old.block.toNat + (TimestampConfig.minBlocksBeforeCleanup T).toNat < 2 ^ 32

theorem Passes.stale_iff {current : UInt32} (passes : Passes T (some current) reference old) :
    Stale T current reference old ↔ Fits T old := by
  have timeBound := reference.time.toNat_lt
  have blockBound := current.toNat_lt
  constructor
  · rintro ⟨time, block⟩
    exact ⟨by omega, by omega⟩
  · rintro ⟨timeFits, blockFits⟩
    obtain ⟨time, same, stored, block⟩ := passes
    cases stored
    rw [UInt64.lt_iff_toNat_lt, UInt64.toNat_add, Nat.mod_eq_of_lt timeFits] at time
    rw [UInt32.lt_iff_toNat_lt, UInt32.toNat_add, Nat.mod_eq_of_lt blockFits] at block
    exact ⟨time, block⟩

theorem Stale.ne_reference {current : UInt32} (stale : Stale T current reference old) : old ≠ reference := by
  rintro rfl
  have time := stale.time
  omega

/-- An accepted clean-up removes stale timestamps, by exact sums, just when the sums fit, and then
neither the reference nor a timestamp of the last blocks is among them. -/
theorem cleanup_stale_iff (T : Type) [TimestampConfig T] (current : UInt32)
    {inputData evictedInputData peekData outputData : List DynamicallyTypedData} {priority : UInt64}
    (accepted : CleanUpTimestamp.check T (some current) inputData evictedInputData peekData outputData =
      .ok priority) :
    ∃ reference, (∃ d rest, peekData = d :: rest ∧ d.extract Timestamp = .ok reference) ∧
      ((∀ d ∈ evictedInputData, ∃ old, d.extract Timestamp = .ok old ∧ Stale T current reference old) ↔
        ∀ d ∈ evictedInputData, ∃ old, d.extract Timestamp = .ok old ∧ Fits T old) ∧
      ((∀ d ∈ evictedInputData, ∃ old, d.extract Timestamp = .ok old ∧ Fits T old) →
        ∀ d ∈ evictedInputData, ∀ old, d.extract Timestamp = .ok old → old ≠ reference ∧
          ¬current.toNat ≤ old.block.toNat + (TimestampConfig.minBlocksBeforeCleanup T).toNat ∧
          old.block ≠ current) := by
  obtain ⟨_, _, _, reference, peeked, evictions⟩ := CleanUpTimestamp.check_ok.mp accepted
  have exact_iff : ∀ d ∈ evictedInputData, ∀ old, d.extract Timestamp = .ok old →
      (Stale T current reference old ↔ Fits T old) := by
    intro d member old extracted
    obtain ⟨old', extracted', passes⟩ := evictions d member
    cases extracted.symm.trans extracted'
    exact passes.stale_iff
  refine ⟨reference, peeked, ⟨fun stale d member => ?_, fun fits d member => ?_⟩, fun fits d member old extracted => ?_⟩
  · obtain ⟨old, extracted, holds⟩ := stale d member
    exact ⟨old, extracted, (exact_iff d member old extracted).mp holds⟩
  · obtain ⟨old, extracted, holds⟩ := fits d member
    exact ⟨old, extracted, (exact_iff d member old extracted).mpr holds⟩
  · obtain ⟨old', extracted', holds⟩ := fits d member
    cases extracted.symm.trans extracted'
    have stale := (exact_iff d member old extracted).mpr holds
    have block := stale.block
    refine ⟨stale.ne_reference, by omega, ?_⟩
    rintro rfl
    omega

end

/-- The configuration always says that the block number is one million. -/
structure AlwaysBlockMillion where
  deriving DecidableEq

instance : TimestampConfig AlwaysBlockMillion where
  blockHeight _ := some 1000000

def noted (time : UInt64) (block : UInt32) : DynamicallyTypedData :=
  ⟨⟨encode (⟨time, block⟩ : Timestamp), by simp [encode]⟩, UtxoData.typeId Timestamp⟩

theorem cleanup_stale_happy_path :
    ∃ priority, CleanUpTimestamp.check AlwaysBlockMillion (some 1000000) [] [noted 1 1] [noted 172800000 30000] [] =
        .ok priority ∧
      ∃ old reference, (noted 1 1).extract Timestamp = .ok old ∧
        (noted 172800000 30000).extract Timestamp = .ok reference ∧
        Stale AlwaysBlockMillion 1000000 reference old := by
  obtain ⟨priority, accepted, _⟩ := Outcome.exists_of_any
    (x := CleanUpTimestamp.check AlwaysBlockMillion (some 1000000) [] [noted 1 1] [noted 172800000 30000] [])
    (p := fun _ => true) (by decide +kernel)
  obtain ⟨reference, ⟨d, rest, same, peeked⟩, stale_iff, _⟩ := cleanup_stale_iff AlwaysBlockMillion 1000000 accepted
  cases same
  have read : (noted 1 1).extract Timestamp = .ok ⟨1, 1⟩ := by decide +kernel
  have fits : Fits AlwaysBlockMillion ⟨1, 1⟩ := ⟨by decide, by decide⟩
  obtain ⟨old, extracted, stale⟩ := stale_iff.mpr
    (fun d member => ⟨⟨1, 1⟩, by rw [List.mem_singleton.mp member, read], fits⟩) _ List.mem_cons_self
  exact ⟨priority, accepted, old, reference, extracted, peeked, stale⟩

/-- The last moment of the clock: a clean-up that peeks at a timestamp evicts this very one. -/
theorem cleanup_evicts_reference :
    ∃ priority, CleanUpTimestamp.check AlwaysBlockMillion (some 1000000) [] [noted 18446744073709551615 0]
        [noted 18446744073709551615 0] [] = .ok priority ∧
      (noted 18446744073709551615 0).extract Timestamp = .ok ⟨18446744073709551615, 0⟩ ∧
      ¬Stale AlwaysBlockMillion 1000000 ⟨18446744073709551615, 0⟩ ⟨18446744073709551615, 0⟩ := by
  obtain ⟨priority, accepted, _⟩ := Outcome.exists_of_any
    (x := CleanUpTimestamp.check AlwaysBlockMillion (some 1000000) [] [noted 18446744073709551615 0]
      [noted 18446744073709551615 0] []) (p := fun _ => true) (by decide +kernel)
  exact ⟨priority, accepted, by decide +kernel, fun stale => stale.ne_reference rfl⟩

end Tuxedo.Time
