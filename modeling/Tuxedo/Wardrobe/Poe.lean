import Tuxedo.Core.ConstraintChecker

/-!
# Proof of existence

Claims on a hash, their revocation, and disputes that evict the later claims.
-/

namespace Tuxedo.Poe
open Scale

structure ClaimData where
  claim : H256
  effectiveHeight : UInt32
  deriving DecidableEq

instance : UtxoData ClaimData where
  toCodec := .ofFields (H256 × UInt32) (fun c => (c.claim, c.effectiveHeight)) (fun p => ⟨p.1, p.2⟩)
    (fun _ => rfl)
  typeId := ⟨[112, 111, 101, 95], rfl⟩

inductive ConstraintCheckerError where
  | wrongNumberInputs
  | wrongNumberOutputs
  | badlyTypedInput
  | badlyTypedOutput
  | effectiveHeightInPast
  | disputingMismatchedClaims
  | incorrectDisputeWinner
  deriving DecidableEq

/-- `none` is a panic of the runtime's height. -/
class PoeConfig (T : Type) where
  blockHeight : Storage → Option UInt32

structure PoeClaim (T : Type) where
  deriving DecidableEq

structure PoeRevoke where
  deriving DecidableEq

structure PoeDispute where
  deriving DecidableEq

instance {T : Type} : Codec (PoeClaim T) := .ofFields Unit (fun _ => ()) (fun _ => ⟨⟩) (fun _ => rfl)

instance : Codec PoeRevoke := .ofFields Unit (fun _ => ()) (fun _ => ⟨⟩) (fun _ => rfl)

instance : Codec PoeDispute := .ofFields Unit (fun _ => ()) (fun _ => ⟨⟩) (fun _ => rfl)

namespace PoeClaim

def claimOutput (height : Option UInt32) (output : DynamicallyTypedData) :
    Outcome ConstraintCheckerError Unit := do
  let output ← orErr (output.extract ClaimData) .badlyTypedOutput
  let height ← expect height
  ensure (height ≤ output.effectiveHeight) .effectiveHeightInPast

def check (height : Option UInt32) (inputData evictedInputData _peeks outputData : List DynamicallyTypedData) :
    Outcome ConstraintCheckerError UInt64 := do
  ensure (inputData.isEmpty) .wrongNumberInputs
  ensure (evictedInputData.isEmpty) .wrongNumberInputs
  outputData.forM (claimOutput height)
  return 0

end PoeClaim

namespace PoeRevoke

def revokeInput (input : DynamicallyTypedData) : Outcome ConstraintCheckerError Unit := do
  let _ ← orErr (input.extract ClaimData) .badlyTypedInput

def check (inputData evictedInputData _peeks outputData : List DynamicallyTypedData) :
    Outcome ConstraintCheckerError UInt64 := do
  ensure (evictedInputData.isEmpty) .wrongNumberInputs
  ensure (outputData.isEmpty) .wrongNumberOutputs
  inputData.forM revokeInput
  return 0

end PoeRevoke

namespace PoeDispute

def disputeLoser (winner : ClaimData) (loser : DynamicallyTypedData) : Outcome ConstraintCheckerError Unit := do
  let loser ← orErr (loser.extract ClaimData) .badlyTypedInput
  ensure (winner.claim = loser.claim) .disputingMismatchedClaims
  ensure (winner.effectiveHeight < loser.effectiveHeight) .incorrectDisputeWinner

/-- The winner is the first peek; further peeks are ignored. -/
def check (inputData evictedInputData peekData outputData : List DynamicallyTypedData) :
    Outcome ConstraintCheckerError UInt64 := do
  ensure (inputData.isEmpty) .wrongNumberInputs
  ensure (outputData.isEmpty) .wrongNumberOutputs
  let winner ← okOr peekData.head? .wrongNumberInputs
  let winner ← orErr (winner.extract ClaimData) .badlyTypedInput
  evictedInputData.forM (disputeLoser winner)
  return 0

end PoeDispute

instance {T : Type} [PoeConfig T] : SimpleConstraintChecker (PoeClaim T) where
  Error := ConstraintCheckerError
  check _ inputData evictedInputData peeks outputData :=
    Exec.read fun s => PoeClaim.check (PoeConfig.blockHeight T s) inputData evictedInputData peeks outputData

instance : SimpleConstraintChecker PoeRevoke where
  Error := ConstraintCheckerError
  check _ inputData evictedInputData peeks outputData :=
    Exec.lift (PoeRevoke.check inputData evictedInputData peeks outputData)

instance : SimpleConstraintChecker PoeDispute where
  Error := ConstraintCheckerError
  check _ inputData evictedInputData peekData outputData :=
    Exec.lift (PoeDispute.check inputData evictedInputData peekData outputData)

/-! ### What a passed check says -/

open DynamicallyTypedData
variable {inputData evictedInputData peekData outputData : List DynamicallyTypedData} {priority : UInt64}

theorem PoeClaim.check_ok {height : Option UInt32}
    (h : PoeClaim.check height inputData evictedInputData peekData outputData = .ok priority) :
    evictedInputData = [] ∧ Handles (Extracts ClaimData) inputData evictedInputData outputData := by
  obtain ⟨_, noInputs, h⟩ := Outcome.bind_ok h
  obtain ⟨_, noEvictions, h⟩ := Outcome.bind_ok h
  obtain ⟨_, outputs, _⟩ := Outcome.bind_ok h
  have noInputs := List.isEmpty_iff.mp (Outcome.ensure_ok noInputs)
  have noEvictions := List.isEmpty_iff.mp (Outcome.ensure_ok noEvictions)
  refine ⟨noEvictions, by simp [noInputs], by simp [noEvictions], ?_⟩
  intro d member
  obtain ⟨_, extracted, _⟩ := Outcome.bind_ok (Outcome.forM_ok outputs d member)
  exact extracts_of_ok extracted

/-- New claims are of the current height or later. -/
theorem PoeClaim.check_current {height : Option UInt32}
    (h : PoeClaim.check height inputData evictedInputData peekData outputData = .ok priority) :
    inputData = [] ∧ ∀ d ∈ outputData, ∃ claim current, d.extract ClaimData = .ok claim ∧ height = some current ∧
      current ≤ claim.effectiveHeight := by
  obtain ⟨_, noInputs, h⟩ := Outcome.bind_ok h
  obtain ⟨_, noEvictions, h⟩ := Outcome.bind_ok h
  obtain ⟨_, outputs, _⟩ := Outcome.bind_ok h
  refine ⟨List.isEmpty_iff.mp (Outcome.ensure_ok noInputs), fun d member => ?_⟩
  obtain ⟨claim, extracted, h⟩ := Outcome.bind_ok (Outcome.forM_ok outputs d member)
  obtain ⟨current, stored, later⟩ := Outcome.bind_ok h
  exact ⟨claim, current, Outcome.orErr_ok extracted, Outcome.expect_ok stored, Outcome.ensure_ok later⟩

theorem PoeRevoke.check_noOutputs
    (h : PoeRevoke.check inputData evictedInputData peekData outputData = .ok priority) : outputData = [] := by
  obtain ⟨_, noEvictions, h⟩ := Outcome.bind_ok h
  obtain ⟨_, noOutputs, _⟩ := Outcome.bind_ok h
  exact List.isEmpty_iff.mp (Outcome.ensure_ok noOutputs)

theorem PoeRevoke.check_ok (h : PoeRevoke.check inputData evictedInputData peekData outputData = .ok priority) :
    evictedInputData = [] ∧ Handles (Extracts ClaimData) inputData evictedInputData outputData := by
  obtain ⟨_, noEvictions, h⟩ := Outcome.bind_ok h
  obtain ⟨_, noOutputs, h⟩ := Outcome.bind_ok h
  obtain ⟨_, inputs, _⟩ := Outcome.bind_ok h
  have noOutputs := List.isEmpty_iff.mp (Outcome.ensure_ok noOutputs)
  have noEvictions := List.isEmpty_iff.mp (Outcome.ensure_ok noEvictions)
  refine ⟨noEvictions, ?_, by simp [noEvictions], by simp [noOutputs]⟩
  intro d member
  obtain ⟨_, extracted, _⟩ := Outcome.bind_ok (Outcome.forM_ok inputs d member)
  exact extracts_of_ok extracted

/-- `loser` makes the later claim on the hash that `winner` claims. -/
def LosesTo (winner : ClaimData) (d : DynamicallyTypedData) : Prop :=
  ∃ loser, d.extract ClaimData = .ok loser ∧ winner.claim = loser.claim ∧
    winner.effectiveHeight < loser.effectiveHeight

theorem PoeDispute.check_ok (h : PoeDispute.check inputData evictedInputData peekData outputData = .ok priority) :
    inputData = [] ∧ outputData = [] ∧ ∃ d ∈ peekData, ∃ winner, d.extract ClaimData = .ok winner ∧
      ∀ d ∈ evictedInputData, LosesTo winner d := by
  obtain ⟨_, noInputs, h⟩ := Outcome.bind_ok h
  obtain ⟨_, noOutputs, h⟩ := Outcome.bind_ok h
  obtain ⟨d, first, h⟩ := Outcome.bind_ok h
  obtain ⟨winner, extracted, h⟩ := Outcome.bind_ok h
  obtain ⟨_, losers, _⟩ := Outcome.bind_ok h
  refine ⟨List.isEmpty_iff.mp (Outcome.ensure_ok noInputs), List.isEmpty_iff.mp (Outcome.ensure_ok noOutputs),
    d, List.mem_of_mem_head? (Outcome.okOr_ok first), winner, Outcome.orErr_ok extracted, ?_⟩
  intro d member
  obtain ⟨loser, extracted, h⟩ := Outcome.bind_ok (Outcome.forM_ok losers d member)
  obtain ⟨_, sameClaim, later⟩ := Outcome.bind_ok h
  exact ⟨loser, Outcome.orErr_ok extracted, Outcome.ensure_ok sameClaim, Outcome.ensure_ok later⟩

theorem PoeDispute.check_handles (h : PoeDispute.check inputData evictedInputData peekData outputData = .ok priority) :
    Handles (Extracts ClaimData) inputData evictedInputData outputData := by
  obtain ⟨noInputs, noOutputs, _, _, _, _, losers⟩ := PoeDispute.check_ok h
  refine ⟨by simp [noInputs], ?_, by simp [noOutputs]⟩
  intro d member
  obtain ⟨loser, extracted, _⟩ := losers d member
  exact ⟨loser, extracted⟩

end Tuxedo.Poe
