import Tuxedo.Core.VerifierTree

/-!
# Locks

Verifiers that wait for a height, for a preimage or for the key behind a hash, and the contract that
is made of them. The height is the number of the block that the transaction is in.
-/

namespace Tuxedo
open Scale

structure Unspendable where
  deriving DecidableEq

instance : Codec Unspendable := .ofFields Unit (fun _ => ()) (fun _ => ⟨⟩) (fun _ => rfl)

instance : Verifier Unspendable where
  Redeemer := Unit
  redeemerCodec := inferInstance
  verify _ _ _ _ := some false
  newUnspendable := some ⟨⟩

structure P2PKH where
  ownerPubkeyHash : H256
  deriving DecidableEq

instance : Codec P2PKH := .ofFields H256 (fun v => v.ownerPubkeyHash) (fun p => ⟨p⟩) (fun _ => rfl)

instance [Host] : Verifier P2PKH where
  Redeemer := H256 × Signature
  redeemerCodec := inferInstance
  verify v simplifiedTx _ redeemer :=
    some (Host.blake2_256 redeemer.1.toList = v.ownerPubkeyHash ∧ Host.sr25519Verify redeemer.2 simplifiedTx redeemer.1)
  newUnspendable := some ⟨FixedBytes.zero 32⟩

structure TimeLock where
  unlockBlockHeight : BlockNumber
  deriving DecidableEq

instance : Codec TimeLock := .ofFields BlockNumber (fun v => v.unlockBlockHeight) (fun p => ⟨p⟩) (fun _ => rfl)

instance : Verifier TimeLock where
  Redeemer := Unit
  redeemerCodec := inferInstance
  verify v _ blockHeight _ := some (v.unlockBlockHeight ≤ blockHeight)

structure BlakeTwoHashLock where
  hashLock : H256
  deriving DecidableEq

instance : Codec BlakeTwoHashLock := .ofFields H256 (fun v => v.hashLock) (fun p => ⟨p⟩) (fun _ => rfl)

instance [Host] : Verifier BlakeTwoHashLock where
  Redeemer := Vec UInt8
  redeemerCodec := inferInstance
  verify v _ _ secret := some (Host.blake2_256 secret.toList = v.hashLock)
  newUnspendable := some ⟨FixedBytes.zero 32⟩

structure HashTimeLockContract where
  hashLock : H256
  recipientPubkey : H256
  claimPeriodEnd : BlockNumber
  refunderPubkey : H256
  deriving DecidableEq

instance : Codec HashTimeLockContract :=
  .ofFields (H256 × H256 × BlockNumber × H256)
    (fun v => (v.hashLock, v.recipientPubkey, v.claimPeriodEnd, v.refunderPubkey))
    (fun p => ⟨p.1, p.2.1, p.2.2.1, p.2.2.2⟩) (fun _ => rfl)

inductive HtlcSpendPath where
  | claim (secret : Vec UInt8) (signature : Signature)
  | refund (signature : Signature)
  deriving DecidableEq

instance : Codec HtlcSpendPath :=
  .ofVariants (fun
      | .claim _ _ => 0
      | .refund _ => 1)
    (fun
      | .claim secret signature => encode (secret, signature)
      | .refund signature => encode signature)
    (fun i bytes =>
      match i with
      | 0 => (decode bytes).map (Prod.map (fun p : Vec UInt8 × Signature => .claim p.1 p.2) id)
      | 1 => (decode bytes).map (Prod.map .refund id)
      | _ => none)
    (fun path rest => by cases path <;> simp)

/-- Claims stay open after the claim period. -/
instance [Host] : Verifier HashTimeLockContract where
  Redeemer := HtlcSpendPath
  redeemerCodec := inferInstance
  verify v simplifiedTx blockHeight
    | .claim secret signature =>
      some (Host.blake2_256 secret.toList = v.hashLock ∧ Host.sr25519Verify signature simplifiedTx v.recipientPubkey)
    | .refund signature =>
      some (v.claimPeriodEnd ≤ blockHeight ∧ Host.sr25519Verify signature simplifiedTx v.refunderPubkey)

/-! ### Verifiers inside verifiers -/

/-- The values of `V` that stand for a verifier of `W`, and the redeemers that go with them. -/
structure Arm (V W : Type) [verifierV : Verifier V] [verifierW : Verifier W] where
  unwrap : V → Option W
  asVariant : verifierV.Redeemer → Option verifierW.Redeemer
  wrap : verifierW.Redeemer → verifierV.Redeemer
  asVariant_wrap : ∀ redeemer, asVariant (wrap redeemer) = some redeemer
  verify : ∀ {outer inner}, unwrap outer = some inner → ∀ simplifiedTx blockNumber redeemer,
    verifierV.verify outer simplifiedTx blockNumber redeemer =
      (asVariant redeemer).bind (verifierW.verify inner simplifiedTx blockNumber)

namespace Arm

/-- A runtime with one verifier. -/
def whole (V : Type) [Verifier V] : Arm V V where
  unwrap := some
  asVariant := some
  wrap := id
  asVariant_wrap _ := rfl
  verify same _ _ _ := by
    cases same
    rfl

/-- A variant of an aggregate, whose redeemers the combined redeemer holds. -/
def variant {V : Type} {verifier : Verifier V} {variants : List (VerifierVariant V verifier.Redeemer)}
    (aggregates : AggregatesVerifiers verifier variants) (i : Fin variants.length)
    (wrap : (variants.get i).verifier.Redeemer → verifier.Redeemer)
    (asVariant_wrap : ∀ redeemer, (variants.get i).asVariant (wrap redeemer) = some redeemer) :
    @Arm V (variants.get i).Inner verifier (variants.get i).verifier :=
  let := (variants.get i).verifier
  { unwrap := (variants.get i).unwrap
    asVariant := (variants.get i).asVariant
    wrap
    asVariant_wrap
    verify := fun {outer _} unwraps simplifiedTx blockNumber redeemer => by
      rw [aggregates.verify]
      exact VerifierVariant.verify_of_unwrap (aggregates.isEnum.apart outer) i unwraps simplifiedTx blockNumber
        redeemer }

end Arm

end Tuxedo
