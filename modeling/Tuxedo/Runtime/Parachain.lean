import Tuxedo.Runtime.Template
import Tuxedo.Wardrobe.Parachain
import Tuxedo.Parachain.ValidateBlock

/-!
# The parachain runtime

The template runtime's checker wrapped with the parachain inherent, as `parachainify!` writes it.
-/

namespace Tuxedo.ParachainRuntime
open Scale Template
open Parachain (RelayChain SetParachainInfo)

structure RuntimeParachainConfig where
  deriving DecidableEq

instance : Parachain.ParachainPieceConfig RuntimeParachainConfig where
  setRelayParentNumber := Parachain.RelayParentNumberStorage.set

inductive ParachainConstraintChecker where
  | inner (checker : OuterConstraintChecker)
  | parachainInfo (checker : InherentAdapter (SetParachainInfo RuntimeParachainConfig))
  deriving DecidableEq

instance : Codec ParachainConstraintChecker :=
  .ofVariants (fun
      | .inner _ => 0
      | .parachainInfo _ => 1)
    (fun
      | .inner checker => encode checker
      | .parachainInfo checker => encode checker)
    (fun i bytes =>
      match i with
      | 0 => (decode bytes).map (Prod.map .inner id)
      | 1 => (decode bytes).map (Prod.map .parachainInfo id)
      | _ => none)
    (fun checker rest => by cases checker <;> simp)

inductive ParachainConstraintCheckerError where
  | inner (error : OuterConstraintCheckerError)
  | parachainInfo (error : Parachain.ParachainError)
  deriving DecidableEq

instance : Parachain.ParachainConstraintChecker ParachainConstraintChecker where
  isParachain
    | .parachainInfo _ => true
    | .inner _ => false

/-- The proof of the relay chain state and the two kinds of messages, all of them empty here. -/
@[reducible] def plainRelay : RelayChain where
  Inbound := Vec (Vec UInt8) × Vec (UInt32 × Vec UInt8) × Vec (UInt32 × Vec (UInt32 × Vec UInt8))
  inboundCodec := inferInstance
  defaultProof := (FixedBytes.zero 32, Vec.empty, Vec.empty, Vec.empty)

def infoOutput (parentHead : Vec UInt8) (number : UInt32) : Template.Output :=
  let := plainRelay
  let info : Parachain.ParachainInherentDataUtxo :=
    ⟨⟨⟨parentHead, number, FixedBytes.zero 32, 0⟩, Vec.empty, Vec.empty, Vec.empty⟩⟩
  ⟨(DynamicallyTypedData.into? info).getD ⟨Vec.empty, FixedBytes.zero 4⟩, .sr25519Signature ⟨FixedBytes.zero 32⟩⟩

variable [Host] [RelayChain]

namespace ParachainConstraintChecker

def check (checker : ParachainConstraintChecker)
    (inputs evictedInputs peeks outputs : List DynamicallyTypedData) :
    Exec Storage ParachainConstraintCheckerError UInt64 :=
  match checker with
  | .inner checker =>
    Exec.mapErr .inner (ConstraintChecker.check (V := OuterVerifier) checker inputs evictedInputs peeks outputs)
  | .parachainInfo checker => Exec.mapErr .parachainInfo
    (ConstraintChecker.check (V := OuterVerifier) checker inputs evictedInputs peeks outputs)

def variants : List (Variant OuterVerifier ParachainConstraintChecker) := [
  { Inner := OuterConstraintChecker, checker := inferInstance, wrap := .inner
    isVariant := fun | .inner _ => true | _ => false
    unwrap := fun | .inner checker => some checker | _ => none },
  { Inner := InherentAdapter (SetParachainInfo RuntimeParachainConfig), checker := inferInstance
    wrap := .parachainInfo
    isVariant := fun | .parachainInfo _ => true | _ => false
    unwrap := fun | .parachainInfo checker => some checker | _ => none }]

def isInherent : ParachainConstraintChecker → Bool
  | .inner checker => ConstraintChecker.isInherent (V := OuterVerifier) checker
  | .parachainInfo checker => ConstraintChecker.isInherent (V := OuterVerifier) checker

end ParachainConstraintChecker

instance : ConstraintChecker OuterVerifier ParachainConstraintChecker where
  Error := ParachainConstraintCheckerError
  check := ParachainConstraintChecker.check
  isInherent := ParachainConstraintChecker.isInherent
  createInherents := Aggregate.createInherents ParachainConstraintChecker.variants
  checkInherents := Aggregate.checkInherents ParachainConstraintChecker.variants
  genesisTransactions := Aggregate.genesisTransactions ParachainConstraintChecker.variants

abbrev Transaction := Tuxedo.Transaction OuterVerifier ParachainConstraintChecker

abbrev Block := Tuxedo.Block OuterVerifier ParachainConstraintChecker

end Tuxedo.ParachainRuntime
