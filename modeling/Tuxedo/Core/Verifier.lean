import Tuxedo.Core.Types
import Mathlib.Data.List.Dedup

/-!
# Verifiers

A verifier decides whether one input may be consumed. `none` is a panic.
-/

namespace Tuxedo
open Scale

class Verifier (V : Type) extends Codec V where
  Redeemer : Type
  redeemerCodec : Codec Redeemer
  verify : V → Bytes → BlockNumber → Redeemer → Option Bool
  newUnspendable : Option V := none

attribute [reducible, instance] Verifier.redeemerCodec

abbrev Signature := FixedBytes 64

/-- A signature of the key on `Host.signing`. -/
def signedBy (pubkey : H256) : Signature := ⟨pubkey.toList ++ List.replicate 32 0, by simp [pubkey.length_eq]⟩

structure UpForGrabs where
  deriving DecidableEq

instance : Codec UpForGrabs := .ofFields Unit (fun _ => ()) (fun _ => ⟨⟩) (fun _ => rfl)

instance : Verifier UpForGrabs where
  Redeemer := Unit
  redeemerCodec := inferInstance
  verify _ _ _ _ := some true

structure Sr25519Signature where
  ownerPubkey : H256
  deriving DecidableEq

instance : Codec Sr25519Signature := .ofFields H256 (fun v => v.ownerPubkey) (fun p => ⟨p⟩) (fun _ => rfl)

instance [Host] : Verifier Sr25519Signature where
  Redeemer := Signature
  redeemerCodec := inferInstance
  verify v simplifiedTx _ sig := some (Host.sr25519Verify sig simplifiedTx v.ownerPubkey)
  newUnspendable := some ⟨FixedBytes.zero 32⟩

structure ThresholdMultiSignature where
  threshold : UInt8
  signatories : Vec H256
  deriving DecidableEq

instance : Codec ThresholdMultiSignature :=
  .ofFields (UInt8 × Vec H256) (fun v => (v.threshold, v.signatories)) (fun p => ⟨p.1, p.2⟩) (fun _ => rfl)

structure SignatureAndIndex where
  signature : Signature
  index : UInt8
  deriving DecidableEq

instance : Codec SignatureAndIndex :=
  .ofFields (Signature × UInt8) (fun s => (s.signature, s.index)) (fun p => ⟨p.1, p.2⟩) (fun _ => rfl)

namespace ThresholdMultiSignature

def hasDuplicateSignatories (v : ThresholdMultiSignature) : Bool :=
  v.signatories.toList.dedup.length < v.signatories.toList.length

def verify [Host] (v : ThresholdMultiSignature) (simplifiedTx : Bytes) (sigs : List SignatureAndIndex) :
    Option Bool :=
  if v.hasDuplicateSignatories then some false
  else if sigs.length < v.threshold.toNat then some false
  else if sigs.any (fun sig => sigs.length ≤ sig.index.toNat) then some false
  else if (sigs.map (fun sig => sig.index)).dedup.length < sigs.length then some false
  else do
    -- The closure of the source ends in a semicolon, so it collects units and not the answers.
    let validSigs ← sigs.mapM fun sig => do
      let signatory ← v.signatories.toList[sig.index.toNat]?
      let _ := Host.sr25519Verify sig.signature simplifiedTx signatory
      return ()
    return v.threshold.toNat ≤ validSigs.length

end ThresholdMultiSignature

instance [Host] : Verifier ThresholdMultiSignature where
  Redeemer := Vec SignatureAndIndex
  redeemerCodec := inferInstance
  verify v simplifiedTx _ sigs := v.verify simplifiedTx sigs.toList
  newUnspendable := some ⟨1, Vec.empty⟩

end Tuxedo
