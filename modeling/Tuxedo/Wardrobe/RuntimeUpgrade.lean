import Tuxedo.Core.ConstraintChecker

/-!
# Runtime upgrades

A UTXO holds the hash of the current code, and an upgrade writes the code itself to its
well-known key.
-/

namespace Tuxedo.Upgrade
open Scale

structure RuntimeRef where
  hash : FixedBytes 32
  deriving DecidableEq

instance : UtxoData RuntimeRef where
  toCodec := .ofFields (FixedBytes 32) (fun r => r.hash) (fun hash => ⟨hash⟩) (fun _ => rfl)
  typeId := ⟨[117, 112, 103, 100], rfl⟩

inductive ConstraintCheckerError where
  | wrongNumberInputs
  | wrongNumberOutputs
  | badlyTypedInput
  | badlyTypedOutput
  | noEvictionsAllowed
  | inputMismatch
  | outputMismatch
  deriving DecidableEq

structure RuntimeUpgrade where
  fullWasm : Vec UInt8
  deriving DecidableEq

instance : Codec RuntimeUpgrade :=
  .ofFields (Vec UInt8) (fun u => u.fullWasm) (fun fullWasm => ⟨fullWasm⟩) (fun _ => rfl)

/-- The runtime at the front of the data, which panics when there is none. -/
def firstRuntime (data : List DynamicallyTypedData) (badlyTyped : ConstraintCheckerError) :
    Outcome ConstraintCheckerError RuntimeRef := do
  let datum ← expect data[0]?
  orErr (datum.extract RuntimeRef) badlyTyped

/-- The checks before the new code is written. -/
def checkUpgrade [Host] (upgrade : RuntimeUpgrade) (outgoingRuntime : Option Bytes)
    (inputData evictedInputData _peeks outputData : List DynamicallyTypedData) :
    Outcome ConstraintCheckerError Unit := do
  ensure (evictedInputData.isEmpty) .noEvictionsAllowed
  ensure (inputData.length = 1) .wrongNumberInputs
  let consumed ← firstRuntime inputData .badlyTypedInput
  let outgoingRuntime ← expect outgoingRuntime
  ensure (consumed.hash = Host.blake2_256 outgoingRuntime) .inputMismatch
  ensure (outputData.length = 1) .wrongNumberOutputs
  let created ← firstRuntime outputData .badlyTypedOutput
  ensure (created.hash = Host.blake2_256 upgrade.fullWasm.toList) .outputMismatch

def check [Host] (upgrade : RuntimeUpgrade)
    (inputData evictedInputData peeks outputData : List DynamicallyTypedData) :
    Exec Storage ConstraintCheckerError UInt64 := do
  Exec.read fun s => checkUpgrade upgrade (s.get codeKey) inputData evictedInputData peeks outputData
  modify fun s => s.set codeKey upgrade.fullWasm.toList
  return 0

instance [Host] : SimpleConstraintChecker RuntimeUpgrade where
  Error := ConstraintCheckerError
  check := check

/-! ### What a passed check says -/

open DynamicallyTypedData

theorem firstRuntime_ok {d : DynamicallyTypedData} {badlyTyped : ConstraintCheckerError} {runtime : RuntimeRef} :
    firstRuntime [d] badlyTyped = .ok runtime ↔ d.extract RuntimeRef = .ok runtime := by
  constructor
  · intro h
    obtain ⟨_, found, h⟩ := Outcome.bind_ok h
    cases Outcome.expect_ok found
    exact Outcome.orErr_ok h
  · intro extracted
    simp [firstRuntime, expect, orErr, extracted, bind, Except.bind]

/-- The one reference consumed is to the stored code, and the one created is to the new code. -/
structure Replaces [Host] (upgrade : RuntimeUpgrade) (outgoingRuntime : Option Bytes)
    (inputData evictedInputData outputData : List DynamicallyTypedData) : Prop where
  noEvictions : evictedInputData = []
  consumes : ∃ d code, inputData = [d] ∧ outgoingRuntime = some code ∧
    d.extract RuntimeRef = .ok ⟨Host.blake2_256 code⟩
  creates : ∃ d, outputData = [d] ∧ d.extract RuntimeRef = .ok ⟨Host.blake2_256 upgrade.fullWasm.toList⟩

theorem checkUpgrade_ok [Host] {upgrade : RuntimeUpgrade} {outgoingRuntime : Option Bytes}
    {inputData evictedInputData peeks outputData : List DynamicallyTypedData} {u : Unit} :
    checkUpgrade upgrade outgoingRuntime inputData evictedInputData peeks outputData = .ok u ↔
      Replaces upgrade outgoingRuntime inputData evictedInputData outputData := by
  constructor
  · intro h
    obtain ⟨_, noEvictions, h⟩ := Outcome.bind_ok h
    obtain ⟨_, oneInput, h⟩ := Outcome.bind_ok h
    obtain ⟨a, rfl⟩ := List.length_eq_one_iff.mp (Outcome.ensure_ok oneInput)
    obtain ⟨⟨outgoingHash⟩, consumed, h⟩ := Outcome.bind_ok h
    obtain ⟨code, stored, h⟩ := Outcome.bind_ok h
    obtain ⟨_, outgoing, h⟩ := Outcome.bind_ok h
    obtain ⟨_, oneOutput, h⟩ := Outcome.bind_ok h
    obtain ⟨b, rfl⟩ := List.length_eq_one_iff.mp (Outcome.ensure_ok oneOutput)
    obtain ⟨⟨incomingHash⟩, created, incoming⟩ := Outcome.bind_ok h
    have outgoing : outgoingHash = _ := Outcome.ensure_ok outgoing
    have incoming : incomingHash = _ := Outcome.ensure_ok incoming
    subst outgoing incoming
    exact ⟨List.isEmpty_iff.mp (Outcome.ensure_ok noEvictions),
      ⟨a, code, rfl, Outcome.expect_ok stored, firstRuntime_ok.mp consumed⟩, b, rfl, firstRuntime_ok.mp created⟩
  · rintro ⟨rfl, ⟨a, code, rfl, rfl, consumed⟩, b, rfl, created⟩
    unfold checkUpgrade
    rw [firstRuntime_ok.mpr consumed, firstRuntime_ok.mpr created]
    simp [ensure, expect, bind, Except.bind]

theorem check_ok [Host] {upgrade : RuntimeUpgrade}
    {inputData evictedInputData peeks outputData : List DynamicallyTypedData} {priority : UInt64} {s s' : Storage}
    (h : check upgrade inputData evictedInputData peeks outputData s = .ok priority s') :
    evictedInputData = [] ∧ Handles (Extracts RuntimeRef) inputData evictedInputData outputData ∧
      s' = s.set codeKey upgrade.fullWasm.toList := by
  obtain ⟨_, s₁, reads, h⟩ := Exec.bind_ok h
  obtain ⟨passed, rfl⟩ := Exec.read_ok reads
  obtain ⟨_, s₂, written, h⟩ := Exec.bind_ok h
  obtain rfl := Exec.modify_ok written
  obtain ⟨_, rfl⟩ := Exec.pure_ok h
  obtain ⟨rfl, ⟨a, code, rfl, _, consumed⟩, b, rfl, created⟩ := checkUpgrade_ok.mp passed
  exact ⟨rfl, ⟨by simpa using ⟨_, consumed⟩, by simp, by simpa using ⟨_, created⟩⟩, rfl⟩

theorem check_replaces [Host] {upgrade : RuntimeUpgrade}
    {inputData evictedInputData peeks outputData : List DynamicallyTypedData} {priority : UInt64} {s s' : Storage}
    (h : check upgrade inputData evictedInputData peeks outputData s = .ok priority s') :
    Replaces upgrade (s.get codeKey) inputData evictedInputData outputData ∧
      s' = s.set codeKey upgrade.fullWasm.toList := by
  obtain ⟨_, s₁, reads, h⟩ := Exec.bind_ok h
  obtain ⟨passed, rfl⟩ := Exec.read_ok reads
  obtain ⟨_, s₂, written, h⟩ := Exec.bind_ok h
  obtain rfl := Exec.modify_ok written
  obtain ⟨_, rfl⟩ := Exec.pure_ok h
  exact ⟨checkUpgrade_ok.mp passed, rfl⟩

/-- The checks come before the one write. -/
theorem check_failsCleanly [Host] (upgrade : RuntimeUpgrade)
    (inputData evictedInputData peeks outputData : List DynamicallyTypedData) :
    (check upgrade inputData evictedInputData peeks outputData).FailsCleanly :=
  .bind (.read _) fun _ _ => ⟨_, _, rfl⟩

theorem after_check [Host] {upgrade : RuntimeUpgrade}
    {inputData evictedInputData peeks outputData : List DynamicallyTypedData} {s : Storage} :
    (check upgrade inputData evictedInputData peeks outputData).after s = s ↔
      (Replaces upgrade (s.get codeKey) inputData evictedInputData outputData →
        s.get codeKey = some upgrade.fullWasm.toList) := by
  cases passed : checkUpgrade upgrade (s.get codeKey) inputData evictedInputData peeks outputData with
  | ok u =>
    have wrote : check upgrade inputData evictedInputData peeks outputData s =
        .ok 0 (s.set codeKey upgrade.fullWasm.toList) := by
      have reads := Exec.read_of_ok
        (f := fun s : Storage => checkUpgrade upgrade (s.get codeKey) inputData evictedInputData peeks outputData)
        passed
      exact (Exec.bind_of_ok reads).trans rfl
    rw [Exec.after_of_ok wrote, Store.set_eq_self_iff]
    exact ⟨fun same _ => same, fun same => same (checkUpgrade_ok.mp passed)⟩
  | error e =>
    have stopped : check upgrade inputData evictedInputData peeks outputData s = .error e s := by
      simp [check, bind, EStateM.bind, Exec.read, passed]
    rw [Exec.after_of_error stopped]
    refine ⟨fun _ replaces => ?_, fun _ => rfl⟩
    rw [checkUpgrade_ok (u := ()).mpr replaces] at passed
    cases passed

end Tuxedo.Upgrade
