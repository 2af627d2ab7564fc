import Tuxedo.Parachain.Inherent

/-!
# Parachain info

The collator notes the relay parent in an inherent that evicts the note of the previous block.
-/

namespace Tuxedo.Parachain
open Scale

class ParachainPieceConfig (T : Type) where
  setRelayParentNumber : UInt32 → Storage → Storage

inductive ParachainError where
  | badlyTyped
  | missingNewInfo
  | extraOutputs
  | missingPreviousInfo
  | extraInputs
  | relayBlockNotIncreasing
  deriving DecidableEq

structure SetParachainInfo (T : Type) where
  deriving DecidableEq

instance {T : Type} : Codec (SetParachainInfo T) := .ofFields Unit (fun _ => ()) (fun _ => ⟨⟩) (fun _ => rfl)

/-- `*b"sysi1337"`. -/
def inherentIdentifier : InherentIdentifier := ⟨[115, 121, 115, 105, 49, 51, 51, 55], rfl⟩

variable [RelayChain]

/-- The info at the front of the data, which panics when there is none. -/
def firstInfo (data : List DynamicallyTypedData) : Outcome ParachainError ParachainInherentData := do
  let datum ← expect data[0]?
  let utxo ← orErr (datum.extract ParachainInherentDataUtxo) .badlyTyped
  return utxo.data

def newDataFromRelayParentNumber (relayParentNumber : UInt32) : ParachainInherentDataUtxo :=
  let (relayParentStorageRoot, inbound) := RelayChain.defaultProof
  ⟨⟨⟨Vec.empty, relayParentNumber, relayParentStorageRoot, 0⟩, inbound⟩⟩

namespace SetParachainInfo
variable (T : Type)

def currentInfo (outputData : List DynamicallyTypedData) : Outcome ParachainError ParachainInherentData := do
  ensure (¬outputData.isEmpty) .missingNewInfo
  ensure (outputData.length = 1) .extraOutputs
  firstInfo outputData

def checkPrevious (current : ParachainInherentData) (inputData evictedInputData : List DynamicallyTypedData) :
    Outcome ParachainError Unit := do
  ensure (inputData.isEmpty) .extraInputs
  ensure (¬evictedInputData.isEmpty) .missingPreviousInfo
  ensure (evictedInputData.length = 1) .extraInputs
  let previous ← firstInfo evictedInputData
  ensure (previous.validationData.relayParentNumber < current.validationData.relayParentNumber)
    .relayBlockNotIncreasing

/-- The relay parent number is written before the inputs are looked at. -/
def check [ParachainPieceConfig T] (inputData evictedInputData _peekData outputData : List DynamicallyTypedData) :
    Exec Storage ParachainError UInt64 := do
  let current ← Exec.lift (currentInfo outputData)
  modify (ParachainPieceConfig.setRelayParentNumber T current.validationData.relayParentNumber)
  Exec.lift (checkPrevious current inputData evictedInputData)
  return 0

variable {V : Type}

def createInherent [Verifier V] (_ : Storage) (data : InherentData)
    (previous : Transaction V (SetParachainInfo T) × H256) : Option (Transaction V (SetParachainInfo T)) := do
  let currentInfo ← data.getData ParachainInherentData inherentIdentifier
  let currentInfo ← currentInfo
  let payload ← DynamicallyTypedData.into? (⟨currentInfo⟩ : ParachainInherentDataUtxo)
  let verifier ← Verifier.newUnspendable
  return ⟨Vec.singleton ⟨⟨previous.2, 0⟩, .eviction⟩, Vec.empty, Vec.singleton ⟨payload, verifier⟩, ⟨⟩⟩

/-- No check is made off chain. -/
def checkInherent (_ : InherentData) (_ : Transaction V (SetParachainInfo T)) (result : CheckInherentsResult) :
    Option CheckInherentsResult := some result

/-- As compiled with the `std` feature. -/
def genesisTransactions [Verifier V] : Option (List (Transaction V (SetParachainInfo T))) := do
  let payload ← DynamicallyTypedData.into? (newDataFromRelayParentNumber 0)
  let verifier ← Verifier.newUnspendable
  return [⟨Vec.empty, Vec.empty, Vec.singleton ⟨payload, verifier⟩, ⟨⟩⟩]

end SetParachainInfo

instance {T : Type} [ParachainPieceConfig T] : SimpleConstraintChecker (SetParachainInfo T) where
  Error := ParachainError
  check _ := SetParachainInfo.check T

instance {V T : Type} [Verifier V] : InherentHooks V (SetParachainInfo T) where
  createInherent := SetParachainInfo.createInherent T
  checkInherent := SetParachainInfo.checkInherent T
  genesisTransactions := SetParachainInfo.genesisTransactions T

/-! ### What a passed check says -/

open DynamicallyTypedData

theorem firstInfo_ok {d : DynamicallyTypedData} {info : ParachainInherentData} :
    firstInfo [d] = .ok info ↔ d.extract ParachainInherentDataUtxo = .ok ⟨info⟩ := by
  constructor
  · intro h
    obtain ⟨_, found, h⟩ := Outcome.bind_ok h
    cases Outcome.expect_ok found
    obtain ⟨utxo, extracted, h⟩ := Outcome.bind_ok h
    obtain rfl := Outcome.pure_ok h
    exact Outcome.orErr_ok extracted
  · intro extracted
    simp [firstInfo, expect, orErr, extracted, bind, Except.bind, pure, Except.pure]

/-- The one evicted info and the one created, with a higher relay parent. -/
structure Advances (evictedInputData outputData : List DynamicallyTypedData)
    (previous current : ParachainInherentData) : Prop where
  evicts : ∃ d, evictedInputData = [d] ∧ d.extract ParachainInherentDataUtxo = .ok ⟨previous⟩
  creates : ∃ d, outputData = [d] ∧ d.extract ParachainInherentDataUtxo = .ok ⟨current⟩
  higher : previous.validationData.relayParentNumber < current.validationData.relayParentNumber

theorem SetParachainInfo.currentInfo_ok {outputData : List DynamicallyTypedData} {current : ParachainInherentData} :
    currentInfo outputData = .ok current ↔
      ∃ d, outputData = [d] ∧ d.extract ParachainInherentDataUtxo = .ok ⟨current⟩ := by
  constructor
  · intro created
    obtain ⟨_, _, created⟩ := Outcome.bind_ok created
    obtain ⟨_, oneOutput, created⟩ := Outcome.bind_ok created
    obtain ⟨a, rfl⟩ := List.length_eq_one_iff.mp (Outcome.ensure_ok oneOutput)
    exact ⟨a, rfl, firstInfo_ok.mp created⟩
  · rintro ⟨a, rfl, created⟩
    simp [currentInfo, ensure, firstInfo_ok.mpr created, bind, Except.bind]

theorem SetParachainInfo.check_ok {T : Type} [ParachainPieceConfig T]
    {inputData evictedInputData peekData outputData : List DynamicallyTypedData} {priority : UInt64} {s s' : Storage} :
    SetParachainInfo.check T inputData evictedInputData peekData outputData s = .ok priority s' ↔
      inputData = [] ∧ priority = 0 ∧ ∃ previous current, Advances evictedInputData outputData previous current ∧
        s' = ParachainPieceConfig.setRelayParentNumber T current.validationData.relayParentNumber s := by
  constructor
  · intro h
    obtain ⟨current, s₁, first, h⟩ := Exec.bind_ok h
    obtain ⟨created, rfl⟩ := Exec.lift_ok first
    obtain ⟨_, s₂, written, h⟩ := Exec.bind_ok h
    obtain rfl := Exec.modify_ok written
    obtain ⟨_, s₃, second, h⟩ := Exec.bind_ok h
    obtain ⟨evicted, rfl⟩ := Exec.lift_ok second
    obtain ⟨rfl, rfl⟩ := Exec.pure_ok h
    obtain ⟨a, rfl, creates⟩ := currentInfo_ok.mp created
    obtain ⟨_, noInputs, evicted⟩ := Outcome.bind_ok evicted
    obtain ⟨_, _, evicted⟩ := Outcome.bind_ok evicted
    obtain ⟨_, oneEviction, evicted⟩ := Outcome.bind_ok evicted
    obtain ⟨previous, extracted, higher⟩ := Outcome.bind_ok evicted
    obtain ⟨b, rfl⟩ := List.length_eq_one_iff.mp (Outcome.ensure_ok oneEviction)
    exact ⟨List.isEmpty_iff.mp (Outcome.ensure_ok noInputs), rfl, previous, current,
      ⟨⟨b, rfl, firstInfo_ok.mp extracted⟩, ⟨a, rfl, creates⟩, Outcome.ensure_ok higher⟩, rfl⟩
  · rintro ⟨rfl, rfl, previous, current, ⟨⟨b, rfl, extracted⟩, ⟨a, rfl, created⟩, higher⟩, rfl⟩
    have first : currentInfo [a] = .ok current := currentInfo_ok.mpr ⟨a, rfl, created⟩
    have second : checkPrevious current [] [b] = .ok () := by
      unfold checkPrevious
      rw [firstInfo_ok.mpr extracted]
      simp [ensure, higher, bind, Except.bind]
    refine (Exec.bind_of_ok (Exec.lift_of_ok first s)).trans ?_
    refine (Exec.bind_of_ok (Exec.modify_of _ _)).trans ?_
    exact (Exec.bind_of_ok (Exec.lift_of_ok second _)).trans rfl

/-- The number is written as soon as the new info has been read, whatever comes of the rest. -/
theorem SetParachainInfo.after_check {T : Type} [ParachainPieceConfig T]
    {inputData evictedInputData peekData outputData : List DynamicallyTypedData} {s : Storage} :
    (SetParachainInfo.check T inputData evictedInputData peekData outputData).after s = s ↔
      ∀ d current, outputData = [d] → d.extract ParachainInherentDataUtxo = .ok ⟨current⟩ →
        ParachainPieceConfig.setRelayParentNumber T current.validationData.relayParentNumber s = s := by
  cases read : currentInfo outputData with
  | ok current =>
    obtain ⟨d, rfl, created⟩ := currentInfo_ok.mp read
    have first : (SetParachainInfo.check T inputData evictedInputData peekData [d]).after s =
        ParachainPieceConfig.setRelayParentNumber T current.validationData.relayParentNumber s := by
      rw [Exec.after, SetParachainInfo.check, Exec.bind_of_ok (Exec.lift_of_ok read s),
        Exec.bind_of_ok (Exec.modify_of _ s)]
      refine (Exec.after_bind_of_reads (fun _ _ => rfl) _).trans (Exec.after_read _ _)
    rw [first]
    refine ⟨fun same d' current' one extracted => ?_, fun same => same d current rfl created⟩
    cases one
    rw [created] at extracted
    cases extracted
    exact same
  | error e =>
    have stopped : SetParachainInfo.check T inputData evictedInputData peekData outputData s = .error e s := by
      simp [SetParachainInfo.check, bind, EStateM.bind, Exec.lift, Exec.read, read]
    rw [Exec.after_of_error stopped]
    refine ⟨fun _ d current one extracted => ?_, fun _ => rfl⟩
    rw [currentInfo_ok.mpr ⟨d, one, extracted⟩] at read
    cases read

end Tuxedo.Parachain
