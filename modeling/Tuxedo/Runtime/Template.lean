import Tuxedo.Core.Genesis
import Tuxedo.Wardrobe.Money
import Tuxedo.Wardrobe.Kitties
import Tuxedo.Wardrobe.Amoeba
import Tuxedo.Wardrobe.Poe
import Tuxedo.Wardrobe.Timestamp
import Tuxedo.Wardrobe.RuntimeUpgrade

/-!
# The template runtime

The aggregated verifier and the aggregated constraint checker, as the two macros write them.
-/

namespace Tuxedo.Template
open Scale

/-! ### The verifier -/

inductive OuterVerifier where
  | sr25519Signature (inner : Sr25519Signature)
  | upForGrabs (inner : UpForGrabs)
  | thresholdMultiSignature (inner : ThresholdMultiSignature)
  deriving DecidableEq

instance : Codec OuterVerifier :=
  .ofVariants (fun
      | .sr25519Signature _ => 0
      | .upForGrabs _ => 1
      | .thresholdMultiSignature _ => 2)
    (fun
      | .sr25519Signature inner => encode inner
      | .upForGrabs inner => encode inner
      | .thresholdMultiSignature inner => encode inner)
    (fun i bytes =>
      match i with
      | 0 => (decode bytes).map (Prod.map .sr25519Signature id)
      | 1 => (decode bytes).map (Prod.map .upForGrabs id)
      | 2 => (decode bytes).map (Prod.map .thresholdMultiSignature id)
      | _ => none)
    (fun verifier rest => by cases verifier <;> simp)

inductive OuterVerifierRedeemer where
  | sr25519Signature (inner : Signature)
  | upForGrabs (inner : Unit)
  | thresholdMultiSignature (inner : Vec SignatureAndIndex)
  deriving DecidableEq

instance : Codec OuterVerifierRedeemer :=
  .ofVariants (fun
      | .sr25519Signature _ => 0
      | .upForGrabs _ => 1
      | .thresholdMultiSignature _ => 2)
    (fun
      | .sr25519Signature inner => encode inner
      | .upForGrabs inner => encode inner
      | .thresholdMultiSignature inner => encode inner)
    (fun i bytes =>
      match i with
      | 0 => (decode bytes).map (Prod.map .sr25519Signature id)
      | 1 => (decode bytes).map (Prod.map .upForGrabs id)
      | 2 => (decode bytes).map (Prod.map .thresholdMultiSignature id)
      | _ => none)
    (fun redeemer rest => by cases redeemer <;> simp)

/-- A redeemer of another variant than the verifier's is a panic. The first variant makes the
unspendable verifier. -/
instance [Host] : Verifier OuterVerifier where
  Redeemer := OuterVerifierRedeemer
  redeemerCodec := inferInstance
  verify verifier simplifiedTx blockNumber redeemer :=
    match verifier, redeemer with
    | .sr25519Signature inner, .sr25519Signature redeemer =>
      Verifier.verify inner simplifiedTx blockNumber redeemer
    | .upForGrabs inner, .upForGrabs redeemer => Verifier.verify inner simplifiedTx blockNumber redeemer
    | .thresholdMultiSignature inner, .thresholdMultiSignature redeemer =>
      Verifier.verify inner simplifiedTx blockNumber redeemer
    | _, _ => none
  newUnspendable := (Verifier.newUnspendable (V := Sr25519Signature)).map .sr25519Signature

/-! ### The constraint checker -/

structure Runtime where
  deriving DecidableEq

instance : Poe.PoeConfig Runtime where
  blockHeight := Executive.blockHeight

instance : Time.TimestampConfig Runtime where
  blockHeight := Executive.blockHeight

inductive OuterConstraintChecker where
  | money (inner : Money.MoneyConstraintChecker 0)
  | freeKittyConstraintChecker (inner : Kitties.FreeKittyConstraintChecker)
  | amoebaMitosis (inner : Amoeba.AmoebaMitosis)
  | amoebaDeath (inner : Amoeba.AmoebaDeath)
  | amoebaCreation (inner : Amoeba.AmoebaCreation)
  | poeClaim (inner : Poe.PoeClaim Runtime)
  | poeRevoke (inner : Poe.PoeRevoke)
  | poeDispute (inner : Poe.PoeDispute)
  | setTimestamp (inner : InherentAdapter (Time.SetTimestamp Runtime))
  | runtimeUpgrade (inner : Upgrade.RuntimeUpgrade)
  deriving DecidableEq

instance : Codec OuterConstraintChecker :=
  .ofVariants (fun
      | .money _ => 0
      | .freeKittyConstraintChecker _ => 1
      | .amoebaMitosis _ => 2
      | .amoebaDeath _ => 3
      | .amoebaCreation _ => 4
      | .poeClaim _ => 5
      | .poeRevoke _ => 6
      | .poeDispute _ => 7
      | .setTimestamp _ => 8
      | .runtimeUpgrade _ => 9)
    (fun
      | .money inner => encode inner
      | .freeKittyConstraintChecker inner => encode inner
      | .amoebaMitosis inner => encode inner
      | .amoebaDeath inner => encode inner
      | .amoebaCreation inner => encode inner
      | .poeClaim inner => encode inner
      | .poeRevoke inner => encode inner
      | .poeDispute inner => encode inner
      | .setTimestamp inner => encode inner
      | .runtimeUpgrade inner => encode inner)
    (fun i bytes =>
      match i with
      | 0 => (decode bytes).map (Prod.map .money id)
      | 1 => (decode bytes).map (Prod.map .freeKittyConstraintChecker id)
      | 2 => (decode bytes).map (Prod.map .amoebaMitosis id)
      | 3 => (decode bytes).map (Prod.map .amoebaDeath id)
      | 4 => (decode bytes).map (Prod.map .amoebaCreation id)
      | 5 => (decode bytes).map (Prod.map .poeClaim id)
      | 6 => (decode bytes).map (Prod.map .poeRevoke id)
      | 7 => (decode bytes).map (Prod.map .poeDispute id)
      | 8 => (decode bytes).map (Prod.map .setTimestamp id)
      | 9 => (decode bytes).map (Prod.map .runtimeUpgrade id)
      | _ => none)
    (fun checker rest => by cases checker <;> simp)

inductive OuterConstraintCheckerError where
  | money (inner : Money.ConstraintCheckerError)
  | freeKittyConstraintChecker (inner : Kitties.ConstraintCheckerError)
  | amoebaMitosis (inner : Amoeba.ConstraintCheckerError)
  | amoebaDeath (inner : Amoeba.ConstraintCheckerError)
  | amoebaCreation (inner : Amoeba.ConstraintCheckerError)
  | poeClaim (inner : Poe.ConstraintCheckerError)
  | poeRevoke (inner : Poe.ConstraintCheckerError)
  | poeDispute (inner : Poe.ConstraintCheckerError)
  | setTimestamp (inner : Time.TimestampError)
  | runtimeUpgrade (inner : Upgrade.ConstraintCheckerError)
  deriving DecidableEq

variable [Host]

namespace OuterConstraintChecker

def check (checker : OuterConstraintChecker)
    (inputs evictedInputs peeks outputs : List DynamicallyTypedData) :
    Exec Storage OuterConstraintCheckerError UInt64 :=
  match checker with
  | .money inner => Exec.mapErr .money (SimpleConstraintChecker.check inner inputs evictedInputs peeks outputs)
  | .freeKittyConstraintChecker inner =>
    Exec.mapErr .freeKittyConstraintChecker (SimpleConstraintChecker.check inner inputs evictedInputs peeks outputs)
  | .amoebaMitosis inner =>
    Exec.mapErr .amoebaMitosis (SimpleConstraintChecker.check inner inputs evictedInputs peeks outputs)
  | .amoebaDeath inner =>
    Exec.mapErr .amoebaDeath (SimpleConstraintChecker.check inner inputs evictedInputs peeks outputs)
  | .amoebaCreation inner =>
    Exec.mapErr .amoebaCreation (SimpleConstraintChecker.check inner inputs evictedInputs peeks outputs)
  | .poeClaim inner =>
    Exec.mapErr .poeClaim (SimpleConstraintChecker.check inner inputs evictedInputs peeks outputs)
  | .poeRevoke inner =>
    Exec.mapErr .poeRevoke (SimpleConstraintChecker.check inner inputs evictedInputs peeks outputs)
  | .poeDispute inner =>
    Exec.mapErr .poeDispute (SimpleConstraintChecker.check inner inputs evictedInputs peeks outputs)
  | .setTimestamp inner =>
    Exec.mapErr .setTimestamp (ConstraintChecker.check (V := OuterVerifier) inner inputs evictedInputs peeks outputs)
  | .runtimeUpgrade inner =>
    Exec.mapErr .runtimeUpgrade (SimpleConstraintChecker.check inner inputs evictedInputs peeks outputs)

def variants : List (Variant OuterVerifier OuterConstraintChecker) := [
  { Inner := Money.MoneyConstraintChecker 0, checker := inferInstance, wrap := .money
    isVariant := fun | .money _ => true | _ => false
    unwrap := fun | .money inner => some inner | _ => none },
  { Inner := Kitties.FreeKittyConstraintChecker, checker := inferInstance, wrap := .freeKittyConstraintChecker
    isVariant := fun | .freeKittyConstraintChecker _ => true | _ => false
    unwrap := fun | .freeKittyConstraintChecker inner => some inner | _ => none },
  { Inner := Amoeba.AmoebaMitosis, checker := inferInstance, wrap := .amoebaMitosis
    isVariant := fun | .amoebaMitosis _ => true | _ => false
    unwrap := fun | .amoebaMitosis inner => some inner | _ => none },
  { Inner := Amoeba.AmoebaDeath, checker := inferInstance, wrap := .amoebaDeath
    isVariant := fun | .amoebaDeath _ => true | _ => false
    unwrap := fun | .amoebaDeath inner => some inner | _ => none },
  { Inner := Amoeba.AmoebaCreation, checker := inferInstance, wrap := .amoebaCreation
    isVariant := fun | .amoebaCreation _ => true | _ => false
    unwrap := fun | .amoebaCreation inner => some inner | _ => none },
  { Inner := Poe.PoeClaim Runtime, checker := inferInstance, wrap := .poeClaim
    isVariant := fun | .poeClaim _ => true | _ => false
    unwrap := fun | .poeClaim inner => some inner | _ => none },
  { Inner := Poe.PoeRevoke, checker := inferInstance, wrap := .poeRevoke
    isVariant := fun | .poeRevoke _ => true | _ => false
    unwrap := fun | .poeRevoke inner => some inner | _ => none },
  { Inner := Poe.PoeDispute, checker := inferInstance, wrap := .poeDispute
    isVariant := fun | .poeDispute _ => true | _ => false
    unwrap := fun | .poeDispute inner => some inner | _ => none },
  { Inner := InherentAdapter (Time.SetTimestamp Runtime), checker := inferInstance, wrap := .setTimestamp
    isVariant := fun | .setTimestamp _ => true | _ => false
    unwrap := fun | .setTimestamp inner => some inner | _ => none },
  { Inner := Upgrade.RuntimeUpgrade, checker := inferInstance, wrap := .runtimeUpgrade
    isVariant := fun | .runtimeUpgrade _ => true | _ => false
    unwrap := fun | .runtimeUpgrade inner => some inner | _ => none }]

/-- Of the ten pieces only the adapted one is an inherent. -/
def isInherent : OuterConstraintChecker → Bool
  | .setTimestamp inner => ConstraintChecker.isInherent (V := OuterVerifier) inner
  | _ => false

end OuterConstraintChecker

instance : ConstraintChecker OuterVerifier OuterConstraintChecker where
  Error := OuterConstraintCheckerError
  check := OuterConstraintChecker.check
  isInherent := OuterConstraintChecker.isInherent
  createInherents := Aggregate.createInherents OuterConstraintChecker.variants
  checkInherents := Aggregate.checkInherents OuterConstraintChecker.variants
  genesisTransactions := Aggregate.genesisTransactions OuterConstraintChecker.variants

abbrev Transaction := Tuxedo.Transaction OuterVerifier OuterConstraintChecker

abbrev Block := Tuxedo.Block OuterVerifier OuterConstraintChecker

abbrev Output := Tuxedo.Output OuterVerifier

end Tuxedo.Template
