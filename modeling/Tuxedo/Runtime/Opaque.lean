import Tuxedo.Core.Opaque
import Tuxedo.Runtime.Template

/-!
# Opaque blocks of the template runtime

The fields of its transactions have canonical codecs. The transactions themselves have not.
-/

namespace Tuxedo
open Scale

instance : Canonical UpForGrabs := .ofFields (fun _ => rfl) (fun _ => rfl)

instance : Canonical Sr25519Signature := .ofFields (fun _ => rfl) (fun _ => rfl)

instance : Canonical ThresholdMultiSignature := .ofFields (fun _ => rfl) (fun _ => rfl)

instance {ID : UInt8} : Canonical (Money.MoneyConstraintChecker ID) :=
  .ofVariants decode_encode fun {i bytes checker rest} h => by
    split at h
    · cases h
      exact ⟨rfl, rfl⟩
    · cases h
      exact ⟨rfl, rfl⟩
    · cases h

instance : Canonical Kitties.FreeKittyConstraintChecker := .ofFields (fun _ => rfl) (fun _ => rfl)

instance : Canonical Amoeba.AmoebaMitosis := .ofFields (fun _ => rfl) (fun _ => rfl)

instance : Canonical Amoeba.AmoebaDeath := .ofFields (fun _ => rfl) (fun _ => rfl)

instance : Canonical Amoeba.AmoebaCreation := .ofFields (fun _ => rfl) (fun _ => rfl)

instance {T : Type} : Canonical (Poe.PoeClaim T) := .ofFields (fun _ => rfl) (fun _ => rfl)

instance : Canonical Poe.PoeRevoke := .ofFields (fun _ => rfl) (fun _ => rfl)

instance : Canonical Poe.PoeDispute := .ofFields (fun _ => rfl) (fun _ => rfl)

instance {T : Type} : Canonical (Time.SetTimestamp T) := .ofFields (fun _ => rfl) (fun _ => rfl)

instance {C : Type} [Codec C] [Canonical C] : Canonical (InherentAdapter C) := .ofFields (fun _ => rfl) (fun _ => rfl)

instance : Canonical Upgrade.RuntimeUpgrade := .ofFields (fun _ => rfl) (fun _ => rfl)

namespace Template

instance : Canonical OuterVerifier :=
  .ofVariants decode_encode fun {i bytes verifier rest} h => by
    split at h
    case h_4 => cases h
    all_goals
      obtain ⟨_, rfl, rfl⟩ := parse_variant h
      exact ⟨rfl, rfl⟩

instance : Canonical OuterConstraintChecker :=
  .ofVariants decode_encode fun {i bytes checker rest} h => by
    split at h
    case h_11 => cases h
    all_goals
      obtain ⟨_, rfl, rfl⟩ := parse_variant h
      exact ⟨rfl, rfl⟩

/-- One transaction without inputs and outputs, with its length. -/
def spendNothing : Bytes := [4, 20, 0, 0, 0, 0, 0]

/-- The same transaction behind a length of zero. -/
def shortLength : Bytes := [4, 0, 0, 0, 0, 0, 0]

def nothing : Transaction := ⟨Vec.empty, Vec.empty, Vec.empty, .money .spend⟩

theorem opaque_agrees_spendNothing :
    (∃ xs : Vec OpaqueExtrinsic, decode spendNothing = some (xs, []) ∧ xs.toList.map encode = [encode nothing]) ∧
      spendNothing = encode (Vec.singleton nothing) := by
  have read : decode spendNothing = some (Vec.singleton nothing, []) := by decide +kernel
  have exact : Transaction.ExactLengths OuterVerifier OuterConstraintChecker spendNothing :=
    ⟨1, [20, 0, 0, 0, 0, 0], rfl, by decide +kernel⟩
  simpa [Vec.singleton] using (Transaction.opaque_agrees_iff spendNothing [] (Vec.singleton nothing) read).mpr exact

/-- The runtime reads the whole block, the node two bytes of it. -/
theorem opaque_disagrees :
    ¬∀ (bytes rest : Bytes) (txs : Vec Transaction), decode bytes = some (txs, rest) →
      ∃ xs : Vec OpaqueExtrinsic, decode bytes = some (xs, rest) ∧
        xs.toList.map encode = txs.toList.map encode := by
  intro agrees
  have read : decode shortLength = some (Vec.singleton nothing, []) := by decide +kernel
  obtain ⟨xs, opaqueRead, _⟩ := agrees shortLength [] (Vec.singleton nothing) read
  have two : (decode shortLength : Option (Vec OpaqueExtrinsic × Bytes)) =
      some (Vec.singleton Vec.empty, [0, 0, 0, 0, 0]) := by decide +kernel
  rw [two] at opaqueRead
  cases opaqueRead

end Template
end Tuxedo
