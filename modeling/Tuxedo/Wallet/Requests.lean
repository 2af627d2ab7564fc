import Tuxedo.Wallet.Payment

/-!
# Requests without signatures

Minting coins, and the demonstration of an amoeba that divides. Neither waits for the node to say that
it took the transaction.
-/

namespace Tuxedo.Wallet
open Scale Executive TransparentUtxoSet Template DynamicallyTypedData

structure MintCoinArgs where
  amount : U128
  owner : H256

theorem encode_amoeba_small (details : Amoeba.AmoebaDetails) : (encode details).length < 2 ^ 32 := by
  show (encode details.generation ++ encode details.fourBytes).length < 2 ^ 32
  simp

def amoebaOutput (details : Amoeba.AmoebaDetails) : Template.Output :=
  ⟨⟨⟨encode details, encode_amoeba_small details⟩, UtxoData.typeId Amoeba.AmoebaDetails⟩, .upForGrabs ⟨⟩⟩

def eve : Amoeba.AmoebaDetails := ⟨0, ⟨[101, 118, 101, 95], rfl⟩⟩

def cain : Amoeba.AmoebaDetails := ⟨1, ⟨[99, 97, 105, 110], rfl⟩⟩

def able : Amoeba.AmoebaDetails := ⟨1, ⟨[97, 98, 108, 101], rfl⟩⟩

theorem two_small {α : Type} (a b : α) : [a, b].length < 2 ^ 32 := by simp

section
variable (C : Type) [FromOuter C]

def mintTx (args : MintCoinArgs) : Tuxedo.Transaction OuterVerifier C :=
  ⟨Vec.empty, Vec.empty, Vec.singleton (coinTo args.owner args.amount), FromOuter.convert (.money .mint)⟩

def spawnTx : Tuxedo.Transaction OuterVerifier C :=
  ⟨Vec.empty, Vec.empty, Vec.singleton (amoebaOutput eve), FromOuter.convert (.amoebaCreation ⟨⟩)⟩

/-- The redeemer is left at its default. -/
def mitosisTx (eveRef : OutputRef) : Tuxedo.Transaction OuterVerifier C :=
  ⟨Vec.singleton ⟨eveRef, .default⟩, Vec.empty, ⟨[amoebaOutput cain, amoebaOutput able], two_small _ _⟩,
    FromOuter.convert (.amoebaMitosis ⟨⟩)⟩

variable [Host] [Codec C]

def mintCoins (args : MintCoinArgs) : Outcome Error (Sent C) := do
  let txHash ← expect (mintTx C args).id?
  let minted ← printOutput txHash (coinTo args.owner args.amount, 0)
  return ⟨mintTx C args, [minted]⟩

/-- The amoeba at a reference, as the node has it at the time. -/
def amoebaFromStorage (node : Storage) (outputRef : OutputRef) : Outcome Error Amoeba.AmoebaDetails := do
  let utxo ← fetchStorage node outputRef
  extractPayload Amoeba.AmoebaDetails utxo.payload

def amoebaDemo (node : Nat → Storage) : Outcome Error (List Amoeba.AmoebaDetails) := do
  let spawnHash ← expect (spawnTx C).id?
  let eveFromStorage ← amoebaFromStorage (node 0) ⟨spawnHash, 0⟩
  let mitosisHash ← expect (mitosisTx C ⟨spawnHash, 0⟩).id?
  let cainFromStorage ← amoebaFromStorage (node 1) ⟨mitosisHash, 0⟩
  let ableFromStorage ← amoebaFromStorage (node 2) ⟨mitosisHash, 1⟩
  return [eveFromStorage, cainFromStorage, ableFromStorage]

end

section
variable {C : Type} [Host] [Codec C] [ConstraintChecker OuterVerifier C] {s : Storage}

/-- A transaction that reads nothing is accepted when its outputs are new and pass the checker. -/
theorem accepted_inputless_iff {t : Tuxedo.Transaction OuterVerifier C} {txHash : H256}
    (noInputs : t.inputs = Vec.empty) (noPeeks : t.peeks = Vec.empty) (hash : t.id? = some txHash) :
    (∃ s', applyTuxedoTransaction t s = .ok () s') ↔
      (∃ priority checked, ConstraintChecker.check (V := OuterVerifier) t.checker [] [] [] (outputData t) s =
        .ok priority checked) ∧ ∀ r ∈ t.outputRefs txHash, peekUtxo OuterVerifier s r = none := by
  have inputs : t.inputs.toList = [] := by
    rw [noInputs]
    rfl
  have peeks : t.peeks.toList = [] := by
    rw [noPeeks]
    rfl
  constructor
  · intro ⟨s', applied⟩
    obtain ⟨txHash', checked, accepted⟩ := apply_ok.mp applied
    obtain rfl : txHash' = txHash := Option.some.inj (accepted.hash.symm.trans hash)
    obtain ⟨priority, call⟩ := accepted.checks
    rw [inputs, peeks] at call
    exact ⟨⟨priority, checked, call⟩, accepted.fresh⟩
  · rintro ⟨⟨priority, checked, call⟩, fresh⟩
    refine ⟨_, apply_ok.mpr ⟨txHash, checked, ⟨?_, ?_, hash, fresh⟩, ?_, ?_, ⟨priority, ?_⟩, rfl⟩⟩
    · rw [inputs]
      exact List.nodup_nil
    · simp [inputs]
    · simp [inputRefs, inputs]
    · simp [peeks]
    · rw [inputs, peeks]
      exact call

variable [FromOuter C] [WrapsOuter C]

theorem exists_id_of_mint (args : MintCoinArgs) : ∃ txHash, (mintTx C args).id? = some txHash := by
  refine exists_id_of_small (by simp [mintTx, Vec.empty]) (by simp [mintTx, Vec.empty]) rfl (fun output member => ?_)
    (by simp [mintTx, Vec.singleton]) (length_encode_money_le .mint)
  obtain rfl := List.mem_singleton.mp member
  exact length_encode_coinTo_le args.owner args.amount

/-- A mint goes through exactly when it mints something and its reference is not taken, which it is as
long as the coin of an equal mint is unspent. -/
theorem mint_accepted_iff (args : MintCoinArgs) :
    ∃ sent : Sent C, ∃ r, mintCoins C args = .ok sent ∧ sent.created = [(r, args.amount)] ∧
      ∀ s, ((∃ s', applyTuxedoTransaction sent.transaction s = .ok () s') ↔
          0 < args.amount.toNat ∧ peekUtxo OuterVerifier s r = none) ∧
        ∀ s', applyTuxedoTransaction sent.transaction s = .ok () s' →
          peekUtxo OuterVerifier s' r = some (coinTo args.owner args.amount) ∧
          ∀ r', r' ≠ r → peekUtxo OuterVerifier s' r' = peekUtxo OuterVerifier s r' := by
  obtain ⟨txHash, hash⟩ := exists_id_of_mint (C := C) args
  have hashed : (expect (mintTx C args).id? : Outcome Error H256) = .ok txHash := by
    rw [hash]
    rfl
  have sends : mintCoins C args = .ok ⟨mintTx C args, [(⟨txHash, 0⟩, args.amount)]⟩ :=
    (Outcome.bind_of_ok hashed).trans (Outcome.bind_of_ok (printOutput_coinTo txHash args.owner args.amount 0))
  have refs : (mintTx C args).outputRefs txHash = [⟨txHash, 0⟩] := rfl
  refine ⟨_, ⟨txHash, 0⟩, sends, rfl, fun s => ⟨?_, fun s' applied => ?_⟩⟩
  · rw [accepted_inputless_iff rfl rfl hash, refs, List.forall_mem_singleton]
    refine and_congr_left fun _ => ?_
    constructor
    · intro ⟨priority, checked, call⟩
      have mints := (Money.check_mint_iff.mp (check_money.mp call).1).1
      have positive := (mints.outputs _ List.mem_cons_self).positive
      rwa [coinValue_coinTo] at positive
    · intro positive
      have minting : outputData (mintTx C args) ≠ [] := List.cons_ne_nil _ _
      refine ⟨0, s, check_money.mpr ⟨Money.check_mint_iff.mpr ⟨⟨rfl, rfl, minting, ?_⟩, rfl⟩, rfl⟩⟩
      intro d member
      obtain rfl := List.mem_singleton.mp member
      exact ⟨⟨_, extract_coinTo args.owner args.amount⟩, by rwa [coinValue_coinTo]⟩
  · obtain ⟨txHash', checked, accepted⟩ := apply_ok.mp applied
    obtain rfl : txHash' = txHash := Option.some.inj (accepted.hash.symm.trans hash)
    obtain ⟨priority, call⟩ := accepted.checks
    obtain ⟨_, rfl⟩ := check_money.mp call
    have created : s'.get (encode (⟨txHash', 0⟩ : OutputRef)) = some (encode (coinTo args.owner args.amount)) :=
      accepted.get_created (i := 0) rfl
    refine ⟨by simp [peekUtxo, created], fun r' other => ?_⟩
    have same := accepted.get_other (k := encode r') (by simp [inputRefs, mintTx, Vec.empty]) (by
      rw [refs, List.forall_mem_singleton]
      exact fun same => other (encode_injective same))
    simp [peekUtxo, same]

omit [Host] [Codec C] [ConstraintChecker OuterVerifier C] [FromOuter C] [WrapsOuter C] in
/-- The mint goes through once, and not again while its coin is there. -/
theorem mint_accepted_once :
    letI := Host.unsigned
    ∃ (sent : Sent OuterConstraintChecker) (s' : Storage), mintCoins OuterConstraintChecker ⟨5, .zero 32⟩ = .ok sent ∧
      applyTuxedoTransaction sent.transaction (coinState []) = .ok () s' ∧
      ∀ s'', applyTuxedoTransaction sent.transaction s' ≠ .ok () s'' := by
  let := Host.unsigned
  obtain ⟨sent, r, mints, _, accepted⟩ := mint_accepted_iff (C := OuterConstraintChecker) ⟨5, .zero 32⟩
  obtain ⟨s', applied⟩ := (accepted (coinState [])).1.mpr ⟨by decide, peek_height _ _⟩
  refine ⟨sent, s', mints, applied, fun s'' again => ?_⟩
  have free := ((accepted s').1.mp ⟨s'', again⟩).2
  rw [((accepted (coinState [])).2 s' applied).1] at free
  cases free

/-! ### The demonstration -/

omit [Codec C] [ConstraintChecker OuterVerifier C] [FromOuter C] [WrapsOuter C] in
/-- A redemption with no bytes has no redeemer in it. -/
theorem default_not_authorised {strippedEncoded : Bytes} {output : Template.Output} :
    ¬Authorised OuterVerifier s strippedEncoded .default output := by
  intro ⟨redeemer, rest, height, decoded, _⟩
  cases decoded

omit [WrapsOuter C] in
theorem mitosis_refused (eveRef : OutputRef) (s s' : Storage) :
    applyTuxedoTransaction (mitosisTx C eveRef) s ≠ .ok () s' := by
  intro applied
  obtain ⟨txHash, checked, accepted⟩ := apply_ok.mp applied
  obtain ⟨output, present⟩ := accepted.inputsPresent eveRef List.mem_cons_self
  exact default_not_authorised (accepted.authorised _ List.mem_cons_self output present)

/-- The amoeba can be spawned as long as it is not there, and no chain ever takes its mitosis, so the
demonstration fails whatever the node does between its requests. -/
theorem amoeba_demo_never_completes [KeepsUtxos OuterVerifier C] {spawnHash mitosisHash : H256}
    (spawned : (spawnTx C).id? = some spawnHash) (divided : (mitosisTx C ⟨spawnHash, 0⟩).id? = some mitosisHash)
    {genesis : Storage} {ts : List (Tuxedo.Transaction OuterVerifier C)} {node : Nat → Storage}
    (run : Run genesis ts (node 1)) (free : CollisionFree {t | t ∈ mitosisTx C ⟨spawnHash, 0⟩ :: ts})
    (unborn : peekUtxo OuterVerifier genesis ⟨mitosisHash, 0⟩ = none) :
    (∀ s, (∃ s', applyTuxedoTransaction (spawnTx C) s = .ok () s') ↔
      peekUtxo OuterVerifier s ⟨spawnHash, 0⟩ = none) ∧
    (∀ s s', applyTuxedoTransaction (mitosisTx C ⟨spawnHash, 0⟩) s ≠ .ok () s') ∧
    ∀ shown, amoebaDemo C node ≠ .ok shown := by
  refine ⟨fun s => ?_, mitosis_refused _, fun shown completes => ?_⟩
  · have refs : (spawnTx C).outputRefs spawnHash = [⟨spawnHash, 0⟩] := rfl
    rw [accepted_inputless_iff rfl rfl spawned, refs, List.forall_mem_singleton, and_iff_right]
    have passes : Amoeba.AmoebaCreation.check [] [] [] (outputData (spawnTx C)) = .ok 0 := by
      refine Amoeba.AmoebaCreation.check_iff.mpr ⟨rfl, rfl, ⟨(amoebaOutput eve).payload, eve, rfl, ?_, rfl⟩, rfl⟩
      simp [amoebaOutput, extract]
    have call : OuterConstraintChecker.check (.amoebaCreation ⟨⟩) [] [] [] (outputData (spawnTx C)) s = .ok 0 s :=
      (Exec.mapErr_ok (f := .amoebaCreation)).mpr (Exec.lift_of_ok passes s)
    exact ⟨0, s, WrapsOuter.check_convert.mpr call⟩
  · obtain ⟨txHash, hash, completes⟩ := Outcome.bind_ok completes
    obtain rfl : txHash = spawnHash := Option.some.inj ((Outcome.expect_ok hash).symm.trans spawned)
    obtain ⟨_, _, completes⟩ := Outcome.bind_ok completes
    obtain ⟨txHash', hash', completes⟩ := Outcome.bind_ok completes
    obtain rfl : txHash' = mitosisHash := Option.some.inj ((Outcome.expect_ok hash').symm.trans divided)
    obtain ⟨_, read, _⟩ := Outcome.bind_ok completes
    obtain ⟨output, fetched, _⟩ := Outcome.bind_ok read
    rcases run.ledger.source (fetchStorage_ok.mp fetched) with ⟨t, member, made⟩ | before
    · -- A daughter on the chain would come from the mitosis itself.
      have same := free.eq_of_id? (List.mem_cons_of_mem _ member) List.mem_cons_self (creates_eq_some.mp made).1 divided
      obtain ⟨s₁, s₂, applied⟩ := run.exists_apply member
      exact mitosis_refused _ s₁ s₂ (same ▸ applied)
    · rw [unborn] at before
      cases before

end

/-- The amoeba is spawned, and the demonstration stops at its daughters. -/
theorem amoeba_demo_spawns_only :
    letI := Host.unsigned
    ∃ s', applyTuxedoTransaction (spawnTx OuterConstraintChecker) (coinState []) = .ok () s' ∧
      ∀ shown, amoebaDemo OuterConstraintChecker (fun _ => s') ≠ .ok shown := by
  let := Host.unsigned
  obtain ⟨_, s', applied, _⟩ := Exec.exists_of_any (x := applyTuxedoTransaction (spawnTx OuterConstraintChecker))
    (s := coinState []) (p := fun _ => true) (by decide +kernel)
  have apart : ((spawnTx OuterConstraintChecker).id?.any fun spawnHash =>
      (mitosisTx OuterConstraintChecker ⟨spawnHash, 0⟩).id?.any fun _ =>
        Host.blake2_256 (preimage (mitosisTx OuterConstraintChecker ⟨spawnHash, 0⟩)) ≠
          Host.blake2_256 (preimage (spawnTx OuterConstraintChecker))) = true := by decide +kernel
  obtain ⟨spawnHash, spawned, later⟩ := (Option.any_eq_true _ _).mp apart
  obtain ⟨mitosisHash, divided, different⟩ := (Option.any_eq_true _ _).mp later
  refine ⟨s', applied, (amoeba_demo_never_completes spawned divided (.apply applied (.done s')) ?_ ?_).2.2⟩
  · refine collisionFree_of_list (fun t member => member) ?_
    have different := of_decide_eq_true different
    simp [different, different.symm]
  · exact peek_height _ _

end Tuxedo.Wallet
