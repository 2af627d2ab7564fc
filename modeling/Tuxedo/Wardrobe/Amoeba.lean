import Tuxedo.Core.ConstraintChecker

/-!
# Amoebas

Creation, mitosis and death. The generation of a daughter is a machine addition.
-/

namespace Tuxedo.Amoeba
open Scale

structure AmoebaDetails where
  generation : UInt32
  fourBytes : FixedBytes 4
  deriving DecidableEq

instance : UtxoData AmoebaDetails where
  toCodec := .ofFields (UInt32 × FixedBytes 4) (fun a => (a.generation, a.fourBytes))
    (fun p => ⟨p.1, p.2⟩) (fun _ => rfl)
  typeId := ⟨[97, 109, 111, 101], rfl⟩

inductive ConstraintCheckerError where
  | badlyTypedInput
  | badlyTypedOutput
  | noEvictionsAllowed
  | createdNothing
  | createdTooMany
  | creationMayNotConsume
  | noVictim
  | tooManyVictims
  | deathMayNotCreate
  | wrongNumberOfDaughters
  | wrongNumberOfMothers
  | wrongGeneration
  deriving DecidableEq

/-- The amoeba at an index that panics when it is out of bounds. -/
def amoebaAt (data : List DynamicallyTypedData) (index : Nat) (badlyTyped : ConstraintCheckerError) :
    Outcome ConstraintCheckerError AmoebaDetails := do
  let datum ← expect data[index]?
  orErr (datum.extract AmoebaDetails) badlyTyped

structure AmoebaMitosis where
  deriving DecidableEq

structure AmoebaDeath where
  deriving DecidableEq

structure AmoebaCreation where
  deriving DecidableEq

instance : Codec AmoebaMitosis := .ofFields Unit (fun _ => ()) (fun _ => ⟨⟩) (fun _ => rfl)

instance : Codec AmoebaDeath := .ofFields Unit (fun _ => ()) (fun _ => ⟨⟩) (fun _ => rfl)

instance : Codec AmoebaCreation := .ofFields Unit (fun _ => ()) (fun _ => ⟨⟩) (fun _ => rfl)

namespace AmoebaMitosis

/-- `n + 1`, in a build with overflow checks or without. -/
def increment (checks : Bool) (n : UInt32) : Outcome ConstraintCheckerError UInt32 :=
  if checks then expect (if n.toNat + 1 < 2 ^ 32 then some (n + 1) else none) else .ok (n + 1)

/-- `check`, in a build with overflow checks or without. -/
def checkIn (checks : Bool) (inputData evictedInputData _peeks outputData : List DynamicallyTypedData) :
    Outcome ConstraintCheckerError UInt64 := do
  ensure (evictedInputData.isEmpty) .noEvictionsAllowed
  ensure (inputData.length = 1) .wrongNumberOfMothers
  let mother ← amoebaAt inputData 0 .badlyTypedInput
  ensure (outputData.length = 2) .wrongNumberOfDaughters
  let firstDaughter ← amoebaAt outputData 0 .badlyTypedOutput
  let secondDaughter ← amoebaAt outputData 1 .badlyTypedOutput
  let generation ← increment checks mother.generation
  ensure (firstDaughter.generation = generation) .wrongGeneration
  let generation ← increment checks mother.generation
  ensure (secondDaughter.generation = generation) .wrongGeneration
  return 0

def check (inputData evictedInputData peeks outputData : List DynamicallyTypedData) :
    Outcome ConstraintCheckerError UInt64 :=
  checkIn false inputData evictedInputData peeks outputData

/-- The mitosis in a build whose arithmetic panics when it does not fit. -/
def OverflowChecks.check (inputData evictedInputData peeks outputData : List DynamicallyTypedData) :
    Outcome ConstraintCheckerError UInt64 :=
  checkIn true inputData evictedInputData peeks outputData

end AmoebaMitosis

namespace AmoebaDeath

def check (inputData evictedInputData _peeks outputData : List DynamicallyTypedData) :
    Outcome ConstraintCheckerError UInt64 := do
  ensure (evictedInputData.isEmpty) .noEvictionsAllowed
  ensure (¬inputData.isEmpty) .noVictim
  ensure (inputData.length = 1) .tooManyVictims
  let _victim ← amoebaAt inputData 0 .badlyTypedInput
  ensure (outputData.isEmpty) .deathMayNotCreate
  return 0

end AmoebaDeath

namespace AmoebaCreation

def check (inputData evictedInputData _peeks outputData : List DynamicallyTypedData) :
    Outcome ConstraintCheckerError UInt64 := do
  ensure (evictedInputData.isEmpty) .noEvictionsAllowed
  ensure (¬outputData.isEmpty) .createdNothing
  ensure (outputData.length = 1) .createdTooMany
  let eve ← amoebaAt outputData 0 .badlyTypedOutput
  ensure (eve.generation = 0) .wrongGeneration
  ensure (inputData.isEmpty) .creationMayNotConsume
  return 0

end AmoebaCreation

instance : SimpleConstraintChecker AmoebaMitosis where
  Error := ConstraintCheckerError
  check _ inputData evictedInputData peeks outputData :=
    Exec.lift (AmoebaMitosis.check inputData evictedInputData peeks outputData)

instance : SimpleConstraintChecker AmoebaDeath where
  Error := ConstraintCheckerError
  check _ inputData evictedInputData peeks outputData :=
    Exec.lift (AmoebaDeath.check inputData evictedInputData peeks outputData)

instance : SimpleConstraintChecker AmoebaCreation where
  Error := ConstraintCheckerError
  check _ inputData evictedInputData peeks outputData :=
    Exec.lift (AmoebaCreation.check inputData evictedInputData peeks outputData)

/-! ### What a passed check says -/

open DynamicallyTypedData
variable {inputData evictedInputData peeks outputData : List DynamicallyTypedData} {priority : UInt64}

theorem amoebaAt_ok {data : List DynamicallyTypedData} {i : Nat} {badlyTyped : ConstraintCheckerError}
    {amoeba : AmoebaDetails} :
    amoebaAt data i badlyTyped = .ok amoeba ↔ ∃ d, data[i]? = some d ∧ d.extract AmoebaDetails = .ok amoeba := by
  constructor
  · intro h
    obtain ⟨d, found, h⟩ := Outcome.bind_ok h
    exact ⟨d, Outcome.expect_ok found, Outcome.orErr_ok h⟩
  · rintro ⟨d, found, extracted⟩
    unfold amoebaAt
    rw [found]
    exact Outcome.orErr_of_ok extracted _

theorem amoebaAt_answers {data : List DynamicallyTypedData} {i : Nat} {badlyTyped : ConstraintCheckerError}
    (inside : i < data.length) : (amoebaAt data i badlyTyped).Answers := by
  unfold amoebaAt
  rw [List.getElem?_eq_getElem inside]
  exact Outcome.orErr_answers _ _

/-- The payloads of a mitosis: one mother, and two daughters of whatever generation. -/
structure Division (inputData evictedInputData outputData : List DynamicallyTypedData)
    (mother first second : AmoebaDetails) : Prop where
  noEvictions : evictedInputData = []
  mother : ∃ a, inputData = [a] ∧ a.extract AmoebaDetails = .ok mother
  daughters : ∃ b c, outputData = [b, c] ∧ b.extract AmoebaDetails = .ok first ∧ c.extract AmoebaDetails = .ok second

namespace AmoebaMitosis

/-- What the calls before the generations have read. -/
theorem division_of_reads {mother first second : AmoebaDetails} (noEvictions : evictedInputData.isEmpty)
    (one : inputData.length = 1) (motherRead : amoebaAt inputData 0 .badlyTypedInput = .ok mother)
    (two : outputData.length = 2) (firstRead : amoebaAt outputData 0 .badlyTypedOutput = .ok first)
    (secondRead : amoebaAt outputData 1 .badlyTypedOutput = .ok second) :
    Division inputData evictedInputData outputData mother first second := by
  obtain ⟨a, rfl⟩ := List.length_eq_one_iff.mp one
  obtain ⟨b, c, rfl⟩ := List.length_eq_two.mp two
  obtain ⟨_, atMother, motherIs⟩ := amoebaAt_ok.mp motherRead
  obtain ⟨_, atFirst, firstIs⟩ := amoebaAt_ok.mp firstRead
  obtain ⟨_, atSecond, secondIs⟩ := amoebaAt_ok.mp secondRead
  cases atMother
  cases atFirst
  cases atSecond
  exact ⟨List.isEmpty_iff.mp noEvictions, ⟨a, rfl, motherIs⟩, b, c, rfl, firstIs, secondIs⟩

theorem reads_of_division {mother first second : AmoebaDetails}
    (division : Division inputData evictedInputData outputData mother first second) :
    evictedInputData.isEmpty ∧ inputData.length = 1 ∧ amoebaAt inputData 0 .badlyTypedInput = .ok mother ∧
      outputData.length = 2 ∧ amoebaAt outputData 0 .badlyTypedOutput = .ok first ∧
      amoebaAt outputData 1 .badlyTypedOutput = .ok second := by
  obtain ⟨rfl, ⟨a, rfl, motherIs⟩, b, c, rfl, firstIs, secondIs⟩ := division
  exact ⟨rfl, rfl, amoebaAt_ok.mpr ⟨a, rfl, motherIs⟩, rfl, amoebaAt_ok.mpr ⟨b, rfl, firstIs⟩,
    amoebaAt_ok.mpr ⟨c, rfl, secondIs⟩⟩

/-- A mitosis passes where both daughters have the machine successor of their mother's generation. -/
theorem check_iff : check inputData evictedInputData peeks outputData = .ok priority ↔
    ∃ mother first second, Division inputData evictedInputData outputData mother first second ∧
      first.generation = mother.generation + 1 ∧ second.generation = mother.generation + 1 ∧ priority = 0 := by
  constructor
  · intro h
    obtain ⟨_, noEvictions, h⟩ := Outcome.bind_ok h
    obtain ⟨_, one, h⟩ := Outcome.bind_ok h
    obtain ⟨mother, motherRead, h⟩ := Outcome.bind_ok h
    obtain ⟨_, two, h⟩ := Outcome.bind_ok h
    obtain ⟨first, firstRead, h⟩ := Outcome.bind_ok h
    obtain ⟨second, secondRead, h⟩ := Outcome.bind_ok h
    obtain ⟨next, sum, h⟩ := Outcome.bind_ok h
    obtain rfl : mother.generation + 1 = next := Except.ok.inj sum
    obtain ⟨_, firstNext, h⟩ := Outcome.bind_ok h
    obtain ⟨next, sum, h⟩ := Outcome.bind_ok h
    obtain rfl : mother.generation + 1 = next := Except.ok.inj sum
    obtain ⟨_, secondNext, h⟩ := Outcome.bind_ok h
    have division := division_of_reads (Outcome.ensure_ok noEvictions) (Outcome.ensure_ok one) motherRead
      (Outcome.ensure_ok two) firstRead secondRead
    exact ⟨mother, first, second, division, Outcome.ensure_ok firstNext, Outcome.ensure_ok secondNext,
      Outcome.pure_ok h⟩
  · rintro ⟨mother, first, second, division, firstNext, secondNext, rfl⟩
    obtain ⟨noEvictions, one, motherRead, two, firstRead, secondRead⟩ := reads_of_division division
    have next : increment false mother.generation = .ok (mother.generation + 1) := rfl
    unfold check checkIn
    rw [Outcome.bind_of_ok (Outcome.ensure_of _ noEvictions), Outcome.bind_of_ok (Outcome.ensure_of _ one),
      Outcome.bind_of_ok motherRead, Outcome.bind_of_ok (Outcome.ensure_of _ two), Outcome.bind_of_ok firstRead,
      Outcome.bind_of_ok secondRead, Outcome.bind_of_ok next, Outcome.bind_of_ok (Outcome.ensure_of _ firstNext),
      Outcome.bind_of_ok next, Outcome.bind_of_ok (Outcome.ensure_of _ secondNext)]
    rfl

theorem check_ok (h : check inputData evictedInputData peeks outputData = .ok priority) :
    evictedInputData = [] ∧ Handles (Extracts AmoebaDetails) inputData evictedInputData outputData := by
  obtain ⟨mother, first, second, ⟨none, ⟨a, rfl, motherIs⟩, b, c, rfl, firstIs, secondIs⟩, _⟩ := check_iff.mp h
  have inputs : ∀ d ∈ [a], Extracts AmoebaDetails d := by simp [Extracts, motherIs]
  have outputs : ∀ d ∈ [b, c], Extracts AmoebaDetails d := by simp [Extracts, firstIs, secondIs]
  exact ⟨none, inputs, by simp [none], outputs⟩

/-- The lengths are checked before the payloads are indexed. -/
theorem check_answers : (check inputData evictedInputData peeks outputData).Answers := by
  refine (Outcome.ensure_answers _ _).bind fun _ _ => (Outcome.ensure_answers _ _).bind fun _ checked => ?_
  have one := Outcome.ensure_ok checked
  refine (amoebaAt_answers (by omega)).bind fun mother _ => (Outcome.ensure_answers _ _).bind fun _ checked => ?_
  have two := Outcome.ensure_ok checked
  refine (amoebaAt_answers (by omega)).bind fun first _ => (amoebaAt_answers (by omega)).bind fun second _ => ?_
  refine (Outcome.pure_answers _).bind fun _ _ => (Outcome.ensure_answers _ _).bind fun _ _ => ?_
  refine (Outcome.pure_answers _).bind fun _ _ => (Outcome.ensure_answers _ _).bind fun _ _ => ?_
  exact Outcome.pure_answers _

theorem increment_of_room (checks : Bool) {n : UInt32} (room : n.toNat + 1 < 2 ^ 32) :
    increment checks n = .ok (n + 1) := by
  unfold increment
  rw [if_pos room]
  cases checks <;> rfl

theorem increment_panics {n : UInt32} (last : ¬n.toNat + 1 < 2 ^ 32) : increment true n = .error .panic := by
  unfold increment
  rw [if_neg last]
  rfl

namespace OverflowChecks

/-- Where every mother has room, the two builds agree. -/
theorem check_eq (room : ∀ mother first second,
      Division inputData evictedInputData outputData mother first second → mother.generation.toNat + 1 < 2 ^ 32) :
    check inputData evictedInputData peeks outputData =
      AmoebaMitosis.check inputData evictedInputData peeks outputData := by
  refine Outcome.bind_congr fun _ noEvictions => Outcome.bind_congr fun _ one => ?_
  refine Outcome.bind_congr fun mother motherRead => Outcome.bind_congr fun _ two => ?_
  refine Outcome.bind_congr fun first firstRead => Outcome.bind_congr fun second secondRead => ?_
  have division := division_of_reads (Outcome.ensure_ok noEvictions) (Outcome.ensure_ok one) motherRead
    (Outcome.ensure_ok two) firstRead secondRead
  have fits := room _ _ _ division
  rw [increment_of_room true fits, increment_of_room false fits]

theorem check_panics {mother first second : AmoebaDetails}
    (division : Division inputData evictedInputData outputData mother first second)
    (last : ¬mother.generation.toNat + 1 < 2 ^ 32) :
    check inputData evictedInputData peeks outputData = .error .panic := by
  obtain ⟨noEvictions, one, motherRead, two, firstRead, secondRead⟩ := reads_of_division division
  unfold check checkIn
  rw [Outcome.bind_of_ok (Outcome.ensure_of _ noEvictions), Outcome.bind_of_ok (Outcome.ensure_of _ one),
    Outcome.bind_of_ok motherRead, Outcome.bind_of_ok (Outcome.ensure_of _ two), Outcome.bind_of_ok firstRead,
    Outcome.bind_of_ok secondRead, increment_panics last]
  rfl

/-- The sum is the only thing that panics, for the mother of the last generation, whatever her
daughters are. -/
theorem check_panics_iff : check inputData evictedInputData peeks outputData = .error .panic ↔
    ∃ mother first second, Division inputData evictedInputData outputData mother first second ∧
      ¬mother.generation.toNat + 1 < 2 ^ 32 := by
  constructor
  · intro panics
    by_contra none
    have room : ∀ mother first second, Division inputData evictedInputData outputData mother first second →
        mother.generation.toNat + 1 < 2 ^ 32 := by
      intro mother first second division
      by_contra last
      exact none ⟨mother, first, second, division, last⟩
    rw [check_eq room] at panics
    exact check_answers panics
  · rintro ⟨mother, first, second, division, last⟩
    exact check_panics division last

end OverflowChecks

/-- The successor is exact where there is one. -/
theorem next_exact {mother daughter : UInt32} (next : daughter = mother + 1) :
    daughter.toNat = mother.toNat + 1 ↔ mother.toNat + 1 < 2 ^ 32 := by
  have bound := mother.toNat_lt
  have sum : daughter.toNat = (mother.toNat + 1) % 2 ^ 32 := by rw [next, UInt32.toNat_add]; rfl
  omega

end AmoebaMitosis

namespace AmoebaDeath

theorem check_iff : check inputData evictedInputData peeks outputData = .ok priority ↔
    evictedInputData = [] ∧ (∃ a victim, inputData = [a] ∧ a.extract AmoebaDetails = .ok victim) ∧ outputData = [] ∧
      priority = 0 := by
  constructor
  · intro h
    obtain ⟨_, noEvictions, h⟩ := Outcome.bind_ok h
    obtain ⟨_, _, h⟩ := Outcome.bind_ok h
    obtain ⟨_, one, h⟩ := Outcome.bind_ok h
    obtain ⟨a, rfl⟩ := List.length_eq_one_iff.mp (Outcome.ensure_ok one)
    obtain ⟨victim, victimRead, h⟩ := Outcome.bind_ok h
    obtain ⟨_, noOutputs, h⟩ := Outcome.bind_ok h
    obtain ⟨_, atVictim, victimIs⟩ := amoebaAt_ok.mp victimRead
    cases atVictim
    exact ⟨List.isEmpty_iff.mp (Outcome.ensure_ok noEvictions), ⟨a, victim, rfl, victimIs⟩,
      List.isEmpty_iff.mp (Outcome.ensure_ok noOutputs), Outcome.pure_ok h⟩
  · rintro ⟨rfl, ⟨a, victim, rfl, victimIs⟩, rfl, rfl⟩
    unfold check
    rw [Outcome.bind_of_ok (Outcome.ensure_of _ List.isEmpty_nil),
      Outcome.bind_of_ok (Outcome.ensure_of _ (by simp)),
      Outcome.bind_of_ok (Outcome.ensure_of _ (show [a].length = 1 from rfl)),
      Outcome.bind_of_ok (amoebaAt_ok.mpr ⟨a, rfl, victimIs⟩),
      Outcome.bind_of_ok (Outcome.ensure_of _ List.isEmpty_nil)]
    rfl

theorem check_ok (h : check inputData evictedInputData peeks outputData = .ok priority) :
    evictedInputData = [] ∧ Handles (Extracts AmoebaDetails) inputData evictedInputData outputData := by
  obtain ⟨none, ⟨a, victim, rfl, victimIs⟩, noOutputs, _⟩ := check_iff.mp h
  have inputs : ∀ d ∈ [a], Extracts AmoebaDetails d := by simp [Extracts, victimIs]
  exact ⟨none, inputs, by simp [none], by simp [noOutputs]⟩

end AmoebaDeath

namespace AmoebaCreation

theorem check_iff : check inputData evictedInputData peeks outputData = .ok priority ↔
    evictedInputData = [] ∧ inputData = [] ∧
      (∃ a eve, outputData = [a] ∧ a.extract AmoebaDetails = .ok eve ∧ eve.generation = 0) ∧ priority = 0 := by
  constructor
  · intro h
    obtain ⟨_, noEvictions, h⟩ := Outcome.bind_ok h
    obtain ⟨_, _, h⟩ := Outcome.bind_ok h
    obtain ⟨_, one, h⟩ := Outcome.bind_ok h
    obtain ⟨a, rfl⟩ := List.length_eq_one_iff.mp (Outcome.ensure_ok one)
    obtain ⟨eve, eveRead, h⟩ := Outcome.bind_ok h
    obtain ⟨_, first, h⟩ := Outcome.bind_ok h
    obtain ⟨_, noInputs, h⟩ := Outcome.bind_ok h
    obtain ⟨_, atEve, eveIs⟩ := amoebaAt_ok.mp eveRead
    cases atEve
    exact ⟨List.isEmpty_iff.mp (Outcome.ensure_ok noEvictions), List.isEmpty_iff.mp (Outcome.ensure_ok noInputs),
      ⟨a, eve, rfl, eveIs, Outcome.ensure_ok first⟩, Outcome.pure_ok h⟩
  · rintro ⟨rfl, rfl, ⟨a, eve, rfl, eveIs, first⟩, rfl⟩
    unfold check
    rw [Outcome.bind_of_ok (Outcome.ensure_of _ List.isEmpty_nil),
      Outcome.bind_of_ok (Outcome.ensure_of _ (by simp)),
      Outcome.bind_of_ok (Outcome.ensure_of _ (show [a].length = 1 from rfl)),
      Outcome.bind_of_ok (amoebaAt_ok.mpr ⟨a, rfl, eveIs⟩), Outcome.bind_of_ok (Outcome.ensure_of _ first),
      Outcome.bind_of_ok (Outcome.ensure_of _ List.isEmpty_nil)]
    rfl

theorem check_ok (h : check inputData evictedInputData peeks outputData = .ok priority) :
    evictedInputData = [] ∧ Handles (Extracts AmoebaDetails) inputData evictedInputData outputData := by
  obtain ⟨none, noInputs, ⟨a, eve, rfl, eveIs, _⟩, _⟩ := check_iff.mp h
  have outputs : ∀ d ∈ [a], Extracts AmoebaDetails d := by simp [Extracts, eveIs]
  exact ⟨none, by simp [noInputs], by simp [none], outputs⟩

end AmoebaCreation

end Tuxedo.Amoeba
