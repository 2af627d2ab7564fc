import Tuxedo.Executive.Contracts
import Tuxedo.Runtime.Authorisation
import Tuxedo.Runtime.Verifiers

/-!
# Owned outputs of the template

What a key owns stays on the chain until the key signs.
-/

namespace Tuxedo.Template
open Scale Executive TransparentUtxoSet

section
variable [Host]

instance : KeepsHeight OuterVerifier OuterConstraintChecker where
  check_height call := by
    obtain ⟨_, rfl | ⟨code, rfl⟩, _⟩ := OuterConstraintChecker.check_ok call
    · rfl
    · exact Store.get_set_ne _ _ (by decide)

namespace OuterVerifier

omit [Host] in
theorem signature_lt : 0 < 3 := by decide

def signatureArm : Arm OuterVerifier Sr25519Signature :=
  .variant aggregates (⟨0, signature_lt⟩ : Fin 3) .sr25519Signature fun _ => rfl

end OuterVerifier

variable {s s' : Storage} {blocks : List Block} {r : OutputRef} {output : Output}

/-- Only claims are evicted, so any other output under a key stays until a transaction brings the key's
signature for it. -/
theorem owned_output_stays {owner : Sr25519Signature} (run : Imported s blocks s')
    (present : peekUtxo OuterVerifier s r = some output)
    (otherType : output.payload.typeId ≠ UtxoData.typeId Poe.ClaimData)
    (owned : output.verifier = .sr25519Signature owner) :
    peekUtxo OuterVerifier s' r = some output ∨
      Opened OuterVerifier.signatureArm blocks r fun strippedEncoded _ signature =>
        Host.sr25519Verify signature strippedEncoded owner.ownerPubkey := by
  by_cases still : peekUtxo OuterVerifier s' r = some output
  · exact Or.inl still
  obtain ⟨block, member, t, included, takes⟩ := run.takes present still
  have locked : OuterVerifier.signatureArm.unwrap output.verifier = some owner := by
    rw [owned]
    rfl
  refine Or.inr ⟨block, member, t, included, takes.spent, fun input listed named => ?_⟩
  rcases takes.consent input listed named with evicted | redeemed
  · obtain ⟨s₁, s₂, applied, _, there⟩ := takes.applies
    obtain ⟨txHash, checked, accepted⟩ := apply_ok.mp applied
    rw [← named] at there
    exact absurd (evicted_disputed accepted listed evicted there).typeId otherType
  · obtain ⟨signature, presents, verified⟩ := (redeemed_iff OuterVerifier.signatureArm locked).mp redeemed
    exact ⟨signature, presents, Option.some.inj verified⟩

end

/-! Alice's coin is looked at, and then she burns it. -/

def ownedCoin : Output := ⟨(coinOutput 100).payload, .sr25519Signature ⟨alice⟩⟩

def ownedStorage : Storage :=
  (Store.empty.set heightKey (encode (1 : UInt32))).set (encode guardedRef) (encode ownedCoin)

def blockOf (number : BlockNumber) (t : Transaction) : Block :=
  ⟨⟨FixedBytes.zero 32, number, FixedBytes.zero 32, FixedBytes.zero 32, Vec.empty⟩, Vec.singleton t⟩

def watchOwned : Transaction := ⟨Vec.empty, Vec.singleton guardedRef, Vec.singleton (grabCoin 50), .money .mint⟩

def burnOwned : Transaction where
  inputs := Vec.singleton
    ⟨guardedRef, .redemption ⟨encode (OuterVerifierRedeemer.sr25519Signature (signedBy alice)), by decide⟩⟩
  peeks := Vec.empty
  outputs := Vec.empty
  checker := .money .spend

theorem owned_output_stays_burnt :
    letI := Host.signing
    ∃ s', Imported ownedStorage [blockOf 2 watchOwned, blockOf 3 burnOwned] s' ∧
      peekUtxo OuterVerifier s' guardedRef = none ∧
      Opened OuterVerifier.signatureArm [blockOf 2 watchOwned, blockOf 3 burnOwned] guardedRef
        fun strippedEncoded _ signature => Host.sr25519Verify signature strippedEncoded alice := by
  let := Host.signing
  obtain ⟨_, s₁, watched, computed⟩ := Exec.exists_of_any (x := executeBlock (blockOf 2 watchOwned))
    (s := ownedStorage) (p := fun first => ((executeBlock (blockOf 3 burnOwned)).toOption first.2).any fun second =>
      peekUtxo OuterVerifier second.2 guardedRef = none) (by decide +kernel)
  obtain ⟨_, s', burnt, gone⟩ := Exec.exists_of_any computed
  have run : Imported ownedStorage [blockOf 2 watchOwned, blockOf 3 burnOwned] s' :=
    .execute watched (.execute burnt (.done s'))
  have absent := of_decide_eq_true gone
  refine ⟨s', run, absent, (owned_output_stays run rfl (by decide) rfl).resolve_left ?_⟩
  rw [absent]
  nofun

end Tuxedo.Template
