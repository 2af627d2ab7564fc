import Tuxedo.Wallet.Spend

/-!
# Payments that go through

A wallet in step with the node finds the coins for a payment exactly when its table is worth it, and
what it sends then pays the recipient.
-/

namespace Tuxedo.Wallet
open Scale Executive TransparentUtxoSet Template Prefix DynamicallyTypedData

section
variable {filter : OuterVerifier → Bool} {checks : Bool} {db : Db} {args : SpendArgs} {s : Storage}

theorem addChosen_exact (coins : Coins db.unspent) {total : U128} {r : OutputRef}
    (stored : ∃ ivec, db.unspent.get (encode r) = some ivec)
    (small : total.toNat + valueAt db.unspent r < 2 ^ 128) :
    ∃ sum, addChosen checks db total r = .ok sum ∧ sum.toNat = total.toNat + valueAt db.unspent r := by
  obtain ⟨ivec, stored⟩ := stored
  obtain ⟨_, record, _, rfl⟩ := coins _ ivec stored
  have value : record.2.toNat = valueAt db.unspent r := by
    simp [valueAt, Store.weightAt, stored, amount_encode]
  have read : getUnspent db r = .ok (some record) := by
    rw [getUnspent, stored]
    exact Outcome.bind_of_ok (decodeValue_encode record)
  rw [← value] at small ⊢
  obtain ⟨sum, added, exact⟩ := addAssign_exact checks small
  exact ⟨sum, (Outcome.bind_of_ok read).trans added, exact⟩

theorem load_le_total {tree : Tree} (coins : Coins tree) {refs : List OutputRef} (distinct : refs.Nodup)
    (stored : ∀ r ∈ refs, ∃ ivec, tree.get (encode r) = some ivec) :
    load (valueAt tree) refs ≤ tree.total fun _ => amount := by
  rw [← load_unspentRefs coins]
  exact load_le_of_subset distinct fun r member => (mem_unspentRefs coins).mpr (stored r member)

theorem length_le_card {tree : Tree} (coins : Coins tree) {refs : List OutputRef} (distinct : refs.Nodup)
    (stored : ∀ r ∈ refs, ∃ ivec, tree.get (encode r) = some ivec) : refs.length ≤ tree.keys.card := by
  have whole : (unspentRefs tree).length = tree.keys.card := by
    rw [← List.length_map (encode : OutputRef → Bytes), encode_unspentRefs coins, Finset.length_sort]
  rw [← whole]
  exact (List.subperm_of_subset distinct fun r member => (mem_unspentRefs coins).mpr (stored r member)).length_le

/-- A table worth less than the range has no sum that leaves it. -/
theorem fits_of_total {tree : Tree} (coins : Coins tree) (small : (tree.total fun _ => amount) < 2 ^ 128)
    (target : U128) : Fits tree target := by
  intro front last inside _
  have bound : load (valueAt tree) (front ++ [last]) ≤ load (valueAt tree) (unspentRefs tree) := load_mono inside
  rw [load_unspentRefs coins] at bound
  omega

/-! ### The selection -/

/-- A request for a payment: distinct coins of the wallet that the selection does not choose again, and
positive amounts. -/
structure Orderly (db : Db) (args : SpendArgs) : Prop where
  distinct : args.input.Nodup
  known : ∀ r ∈ args.input, ∃ ivec, db.unspent.get (encode r) = some ivec
  fresh : ∀ more, MakesUp db args more → ∀ r ∈ more, r ∉ args.input
  positive : ∀ amount ∈ args.outputAmount, 0 < amount.toNat
  something : args.input ≠ [] ∨ args.outputAmount ≠ []
  inRange : load BitVec.toNat args.outputAmount < 2 ^ 128
  few : args.outputAmount.length < 2 ^ 24

/-- What is missing without any sum that wraps around. -/
theorem missing_of_small (outputs : load BitVec.toNat args.outputAmount < 2 ^ 128)
    (inputs : load (valueAt db.unspent) args.input < 2 ^ 128) :
    missing db args = load BitVec.toNat args.outputAmount - load (valueAt db.unspent) args.input := by
  rw [missing, Nat.mod_eq_of_lt outputs, Nat.mod_eq_of_lt inputs]

theorem selectInputs_of_orderly (checks : Bool) (coins : Coins db.unspent)
    (small : (db.unspent.total fun _ => amount) < 2 ^ 128) (orderly : Orderly db args) :
    selectInputs checks db args =
      match shortest? (fun p => missing db args ≤ load (valueAt db.unspent) p) (unspentRefs db.unspent) with
      | some more => .ok (args.outputAmount.map (coinTo args.recipient), args.input ++ more)
      | none => .error (.err (.message "Not enough value in database to construct transaction")) := by
  have chosen := load_le_total coins orderly.distinct orderly.known
  have outputs : (0 : U128).toNat + load BitVec.toNat args.outputAmount < 2 ^ 128 := by simpa using orderly.inRange
  have inputs : (0 : U128).toNat + load (valueAt db.unspent) args.input < 2 ^ 128 := by
    simpa using lt_of_le_of_lt chosen small
  obtain ⟨totalOutput, summed, outputSum⟩ := foldlM_exact (fun _ _ _ => addAssign_exact checks) outputs
  obtain ⟨totalInput, added, inputSum⟩ :=
    foldlM_exact (fun _ r member => addChosen_exact coins (orderly.known r member)) inputs
  have zero : (0 : U128).toNat = 0 := rfl
  rw [zero, Nat.zero_add] at outputSum inputSum
  have lacks : missing db args = totalOutput.toNat - totalInput.toNat := by
    rw [missing_of_small orderly.inRange (lt_of_le_of_lt chosen small), outputSum, inputSum]
  refine (Outcome.bind_of_ok summed).trans ((Outcome.bind_of_ok added).trans ?_)
  by_cases short : totalInput < totalOutput
  · have target : (totalOutput - totalInput).toNat = missing db args := by
      rw [lacks]
      exact BitVec.toNat_sub_of_le (BitVec.le_of_lt short)
    have fits := fits_of_total coins small (totalOutput - totalInput)
    rw [if_pos short, Outcome.bind_of_ok (getArbitraryUnspentSet_of_fits coins fits)]
    simp only [target]
    cases shortest? (fun p => missing db args ≤ load (valueAt db.unspent) p) (unspentRefs db.unspent) <;> rfl
  · have nothing : missing db args ≤ load (valueAt db.unspent) [] := by
      rw [BitVec.lt_def] at short
      rw [lacks, load_nil]
      omega
    rw [if_neg short, shortest?_of_passes nothing]
    show Except.ok (_, args.input) = Except.ok (_, args.input ++ [])
    rw [List.append_nil]

/-! ### The request to the node -/

theorem redeem_small {keystore : Keystore} {call : Nat} {strippedEncoded : Bytes} {verifier : OuterVerifier}
    {redeemer : OuterVerifierRedeemer} (redeems : redeem keystore call strippedEncoded verifier = .ok redeemer) :
    (encode redeemer).length ≤ 65 := by
  cases verifier with
  | sr25519Signature owner =>
    obtain ⟨signature, _, h⟩ := Outcome.bind_ok redeems
    obtain rfl := Outcome.pure_ok h
    show ((0 : UInt8) :: encode signature).length ≤ 65
    simp
  | upForGrabs inner =>
    obtain rfl := Outcome.pure_ok redeems
    decide
  | thresholdMultiSignature inner => cases redeems

theorem Signed.small {keystore : Keystore} {node : Nat → Storage} {strippedEncoded : Bytes} {input : Input}
    {request call : Nat} {output : Template.Output} {redeemer : OuterVerifierRedeemer} {encoded : Vec UInt8}
    (signed : Signed keystore node strippedEncoded input request call output redeemer encoded) :
    (encode input).length ≤ 107 := by
  have bytes := length_encode_bytes_le encoded
  have proof := redeem_small signed.redeems
  rw [← signed.encodes] at proof
  show (encode input.outputRef ++ encode input.redeemer).length ≤ 107
  rw [signed.attached, List.length_append, length_encode_outputRef]
  show 36 + ((0 : UInt8) :: encode encoded).length ≤ 107
  simp
  omega

theorem length_encode_coinTo_le (recipient : H256) (amount : U128) :
    (encode (coinTo recipient amount)).length ≤ 58 := by
  have bound := length_encode_output_le (coinTo recipient amount)
  have verifier : (encode (coinTo recipient amount).verifier).length = 33 := by
    show ((0 : UInt8) :: encode recipient).length = 33
    simp
  have data : (coinTo recipient amount).payload.data.toList.length = 16 := length_leBytes 16 _
  omega

theorem ofList?_of_small {α : Type} {xs : List α} (small : xs.length < 2 ^ 32) :
    (expect (Vec.ofList? xs) : Outcome Error (Vec α)) = .ok ⟨xs, small⟩ := by
  rw [Vec.ofList?, dif_pos small]
  rfl

section
variable {C : Type} [Host] [Codec C]

theorem exists_id_of_small {t : Tuxedo.Transaction OuterVerifier C}
    (inputs : ∀ input ∈ t.inputs.toList, (encode input).length ≤ 107) (inputCount : t.inputs.toList.length < 2 ^ 24)
    (peeks : t.peeks = Vec.empty) (outputs : ∀ output ∈ t.outputs.toList, (encode output).length ≤ 58)
    (outputCount : t.outputs.toList.length < 2 ^ 24) (checker : (encode t.checker).length ≤ 3) :
    ∃ txHash, t.id? = some txHash := by
  have inputBytes := length_encode_vec_le inputs
  have outputBytes := length_encode_vec_le outputs
  refine Transaction.exists_id? ?_
  rw [Transaction.body, peeks, List.length_append, List.length_append, List.length_append]
  have peekBytes : (encode (Vec.empty : Vec OutputRef)).length = 1 := by decide
  omega

variable [ConstraintChecker OuterVerifier C] [FromOuter C] [WrapsOuter C] {keystore : Keystore}
  {node : Nat → Storage}

/-- The wallet is in step with a node that says the same about every output for as long as it is asked,
the keystore has the keys of the wallet's coins, and the table is not near any limit. -/
structure Ready (filter : OuterVerifier → Bool) (keystore : Keystore) (node : Nat → Storage) (db : Db)
    (s : Storage) : Prop where
  tracks : Tracks filter (peekUtxo OuterVerifier s) db.unspent
  height : ∃ height, blockHeight s = some height
  steady : ∀ k r, peekUtxo OuterVerifier (node k) r = peekUtxo OuterVerifier s r
  signs : Signs keystore
  keys : ∀ call owner message, filter (.sr25519Signature owner) = true →
    ∃ signature, keystore call owner.ownerPubkey message = .ok (some signature)
  inRange : (db.unspent.total fun _ => amount) < 2 ^ 128
  few : db.unspent.keys.card < 2 ^ 24

omit [Codec C] [FromOuter C] [ConstraintChecker OuterVerifier C] [WrapsOuter C] in
theorem Ready.signInput (ready : Ready filter keystore node db s) {r : OutputRef}
    (stored : ∃ ivec, db.unspent.get (encode r) = some ivec) (offset : Nat) (strippedEncoded : Bytes) (call : Nat) :
    ∃ signed, signInput keystore (fun i => node (offset + i)) strippedEncoded (⟨r, .default⟩, call) = .ok signed := by
  obtain ⟨ivec, stored⟩ := stored
  obtain ⟨output, owner, present, _, _, verifier, accepted⟩ := ready.tracks.coin stored
  obtain ⟨signature, called⟩ := ready.keys call owner strippedEncoded accepted
  have fetched := fetchStorage_ok.mpr ((ready.steady (offset + call) r).trans present)
  have signs : signWith keystore call owner.ownerPubkey strippedEncoded = .ok signature :=
    Outcome.bind_of_ok called
  have redeems : redeem keystore call strippedEncoded output.verifier = .ok (.sr25519Signature signature) := by
    rw [verifier]
    exact Outcome.bind_of_ok signs
  have small : (encode (OuterVerifierRedeemer.sr25519Signature signature)).length < 2 ^ 32 :=
    lt_of_le_of_lt (redeem_small redeems) (by decide)
  refine ⟨⟨r, .redemption ⟨_, small⟩⟩, (Outcome.bind_of_ok fetched).trans ((Outcome.bind_of_ok redeems).trans ?_)⟩
  rw [Vec.ofList?, dif_pos small]
  rfl

/-- With its inputs selected, the wallet gets every answer and every signature that it asks for. -/
theorem Ready.spendCoins (ready : Ready filter keystore node db s) {refs : List OutputRef}
    (selected : selectInputs checks db args = .ok (args.outputAmount.map (coinTo args.recipient), refs))
    (stored : ∀ r ∈ refs, ∃ ivec, db.unspent.get (encode r) = some ivec) (fewInputs : refs.length < 2 ^ 24)
    (fewOutputs : args.outputAmount.length < 2 ^ 24) :
    ∃ sent, spendCoins C checks keystore node db args = .ok sent := by
  have asked : refs.zipIdx.forM (fun outputRef => do
      let _ ← getCoinFromStorage (node outputRef.2) outputRef.1) = Except.ok () := by
    refine Outcome.forM_of_ok fun outputRef member => ?_
    obtain ⟨ivec, here⟩ := stored outputRef.1 (List.fst_mem_of_mem_zipIdx member)
    obtain ⟨output, owner, present, ⟨coin, extracted⟩, _⟩ := ready.tracks.coin here
    have read : getCoinFromStorage (node outputRef.2) outputRef.1 = .ok (coin, output.verifier) :=
      getCoinFromStorage_ok.mpr ⟨output, (ready.steady _ _).trans present, extracted, rfl⟩
    exact Outcome.bind_of_ok read
  have inputCount : (refs.map fun outputRef => (⟨outputRef, .default⟩ : Input)).length < 2 ^ 32 := by
    rw [List.length_map]
    omega
  have outputCount : (args.outputAmount.map (coinTo args.recipient)).length < 2 ^ 32 := by
    rw [List.length_map]
    omega
  let unsigned : Tuxedo.Transaction OuterVerifier C :=
    ⟨⟨_, inputCount⟩, Vec.empty, ⟨_, outputCount⟩, FromOuter.convert (.money .spend)⟩
  have signable : ∀ input ∈ unsigned.inputs.toList.zipIdx,
      ∃ signed, Wallet.signInput keystore (fun i => node (refs.length + i)) (encode unsigned) input = .ok signed := by
    intro ⟨⟨r, strategy⟩, call⟩ member
    obtain ⟨r, inside, same⟩ := List.mem_map.mp (List.fst_mem_of_mem_zipIdx member)
    cases same
    exact ready.signInput (stored r inside) _ _ _
  obtain ⟨signed, signs⟩ := Outcome.exists_mapM signable
  have signedCount : signed.length = refs.length := by
    rw [← (Outcome.mapM_ok.mp signs).length_eq, List.length_zipIdx]
    exact List.length_map _
  have signedSmall : signed.length < 2 ^ 32 := by omega
  let transaction : Tuxedo.Transaction OuterVerifier C := { unsigned with inputs := ⟨signed, signedSmall⟩ }
  obtain ⟨txHash, hash⟩ : ∃ txHash, transaction.id? = some txHash := by
    refine exists_id_of_small (fun input member => ?_) (signedCount.trans_lt fewInputs) rfl (fun output member => ?_)
      ((List.length_map _).trans_lt fewOutputs) (length_encode_money_le .spend)
    · obtain ⟨_, _, step⟩ := Outcome.source_of_mapM signs input member
      obtain ⟨_, output, redeemer, encoded, proof⟩ := signInput_ok step
      exact proof.small
    · obtain ⟨amount, _, rfl⟩ := List.mem_map.mp member
      exact length_encode_coinTo_le args.recipient amount
  have printable : ∀ output ∈ unsigned.outputs.toList.zipIdx,
      ∃ line, printOutput txHash output = .ok line := by
    intro ⟨output, i⟩ member
    obtain ⟨amount, _, same⟩ := List.mem_map.mp (List.fst_mem_of_mem_zipIdx member)
    cases same
    exact ⟨_, printOutput_coinTo txHash args.recipient amount i⟩
  obtain ⟨created, prints⟩ := Outcome.exists_mapM printable
  refine ⟨⟨transaction, created⟩, ?_⟩
  refine (Outcome.bind_of_ok selected).trans ((Outcome.bind_of_ok asked).trans ?_)
  refine (Outcome.bind_of_ok (ofList?_of_small inputCount)).trans ?_
  refine (Outcome.bind_of_ok (ofList?_of_small outputCount)).trans ((Outcome.bind_of_ok signs).trans ?_)
  refine (Outcome.bind_of_ok (ofList?_of_small signedSmall)).trans ?_
  have hashed : (expect transaction.id? : Outcome Error H256) = .ok txHash := by
    rw [hash]
    rfl
  exact (Outcome.bind_of_ok hashed).trans (Outcome.bind_of_ok prints)

/-- What an accepted payment leaves at each reference. -/
theorem Spent.paid {refs : List OutputRef} {txHash : H256} {sent : Sent C} {s' : Storage}
    (spent : Spent keystore node args refs txHash sent)
    (applied : applyTuxedoTransaction sent.transaction s = .ok () s') :
    (∀ line ∈ sent.created, peekUtxo OuterVerifier s' line.1 = some (coinTo args.recipient line.2)) ∧
      (∀ r ∈ inputRefs sent.transaction, peekUtxo OuterVerifier s' r = none) ∧
      ∀ r, r ∉ inputRefs sent.transaction → r ∉ sent.created.map Prod.fst →
        peekUtxo OuterVerifier s' r = peekUtxo OuterVerifier s r := by
  obtain ⟨txHash', checked, accepted⟩ := apply_ok.mp applied
  obtain rfl : txHash' = txHash := Option.some.inj (accepted.hash.symm.trans spent.hash)
  obtain ⟨priority, call⟩ := accepted.checks
  rw [spent.checker] at call
  obtain ⟨_, rfl⟩ := check_money.mp call
  refine ⟨fun line member => ?_, fun r input => ?_, fun r notInput notCreated => ?_⟩
  · rw [spent.created] at member
    obtain ⟨⟨amount, i⟩, inside, rfl⟩ := List.mem_map.mp member
    have at_i : sent.transaction.outputs.toList[i]? = some (coinTo args.recipient amount) := by
      rw [spent.outputs, List.getElem?_map, List.mk_mem_zipIdx_iff_getElem?.mp inside]
      rfl
    simp [peekUtxo, accepted.get_created at_i]
  · simp [peekUtxo, accepted.get_consumed input]
  · rw [spent.created_refs] at notCreated
    have same := accepted.get_other (k := encode r)
      (fun r' input same => notInput (encode_injective same ▸ input))
      (fun r' output same => notCreated (encode_injective same ▸ output))
    simp [peekUtxo, same]

/-- With enough in its table, the wallet sends a payment that the chain takes once nothing is in the way. -/
theorem Ready.pays (checks : Bool) (ready : Ready filter keystore node db s) (orderly : Orderly db args)
    (enough : load BitVec.toNat args.outputAmount - load (valueAt db.unspent) args.input ≤
      (db.unspent.total fun _ => amount)) :
    ∃ (sent : Sent C) (refs : List OutputRef) (txHash : H256),
      Wallet.spendCoins C checks keystore node db args = .ok sent ∧ Spent keystore node args refs txHash sent ∧
        (∀ r ∈ refs, ∃ ivec, db.unspent.get (encode r) = some ivec) ∧
        Pays db args sent.transaction.inputs.toList := by
  have coins := ready.tracks.coins
  have inputs := load_le_total coins orderly.distinct orderly.known
  have lacks := missing_of_small orderly.inRange (lt_of_le_of_lt inputs ready.inRange)
  have selection := selectInputs_of_orderly checks coins ready.inRange orderly
  rw [← lacks] at enough
  obtain ⟨more, found⟩ := Option.isSome_iff_exists.mp
    (shortest?_load_isSome.mpr (enough.trans_eq (load_unspentRefs coins).symm))
  rw [found] at selection
  have stored := selectInputs_stored coins selection
  have fresh : ∀ r ∈ more, r ∉ args.input := by
    obtain ⟨more', makesUp, same⟩ := selectInputs_ok coins selection
    obtain rfl := List.append_cancel_left same
    exact orderly.fresh more makesUp
  have shortest := shortest_of_found found
  have distinct : (args.input ++ more).Nodup := by
    refine List.nodup_append.mpr ⟨orderly.distinct, (unspentRefs_nodup coins).sublist shortest.isPrefix.sublist, ?_⟩
    intro r chosen _ selected same
    exact fresh r (same ▸ selected) chosen
  have worth := load_le_total coins distinct stored
  have covered := shortest.passes
  obtain ⟨sent, sends⟩ := ready.spendCoins (C := C) selection stored
    (lt_of_le_of_lt (length_le_card coins distinct stored) ready.few) orderly.few
  obtain ⟨refs, txHash, selected, spent⟩ := spendCoins_ok sends
  obtain rfl : refs = args.input ++ more := (Prod.mk.inj (Except.ok.inj (selected.symm.trans selection))).2
  have sameRefs : sent.transaction.inputs.toList.map (fun input => input.outputRef) = args.input ++ more :=
    spent.inputs
  refine ⟨sent, _, txHash, sends, spent, stored, ?_, List.Nodup.of_map _ (sameRefs ▸ distinct), orderly.positive,
    ?_, ?_⟩
  · intro none
    rw [none, List.map_nil] at sameRefs
    obtain ⟨noInput, noMore⟩ := List.append_eq_nil_iff.mp sameRefs.symm
    rw [lacks, noInput, noMore, load_nil, Nat.sub_zero] at covered
    have amounts := orderly.something.resolve_left fun some => some noInput
    obtain ⟨amount, amounts, list⟩ := List.exists_cons_of_ne_nil amounts
    have positive := orderly.positive amount (list ▸ List.mem_cons_self)
    rw [list, load_cons] at covered
    omega
  · rw [sameRefs]
    exact lt_of_le_of_lt worth ready.inRange
  · rw [load_append] at worth
    rw [sameRefs, load_append]
    omega

omit [ConstraintChecker OuterVerifier C] [WrapsOuter C] in
theorem Spent.amounts {refs : List OutputRef} {txHash : H256} {sent : Sent C}
    (spent : Spent keystore node args refs txHash sent) : sent.created.map Prod.snd = args.outputAmount := by
  rw [spent.created, List.map_map]
  exact List.zipIdx_map_fst 0 args.outputAmount

theorem Ready.applies (ready : Ready filter keystore node db s) {refs : List OutputRef} {txHash : H256} {sent : Sent C}
    (spent : Spent keystore node args refs txHash sent)
    (stored : ∀ r ∈ refs, ∃ ivec, db.unspent.get (encode r) = some ivec)
    (pays : Pays db args sent.transaction.inputs.toList)
    (free : ∀ line ∈ sent.created, peekUtxo OuterVerifier s line.1 = none) :
    ∃ s', applyTuxedoTransaction sent.transaction s = .ok () s' := by
  obtain ⟨height, atHeight⟩ := ready.height
  have absent : ∀ r ∈ sent.created.map Prod.fst, peekUtxo OuterVerifier s r = none :=
    List.forall_mem_map.mpr free
  exact (spent.accepted_iff ready.tracks stored atHeight ready.signs fun k r _ => ready.steady k r).mpr ⟨pays, absent⟩

/-- An orderly request goes through exactly when the table is worth it, and what is sent then pays the
recipient out of the wallet's coins. -/
theorem orderly_spend_goes_through (checks : Bool) (ready : Ready filter keystore node db s)
    (orderly : Orderly db args) :
    (load BitVec.toNat args.outputAmount - load (valueAt db.unspent) args.input ≤ (db.unspent.total fun _ => amount) →
      ∃ sent : Sent C, Wallet.spendCoins C checks keystore node db args = .ok sent ∧
        sent.created.map Prod.snd = args.outputAmount ∧
        ((∀ line ∈ sent.created, peekUtxo OuterVerifier s line.1 = none) →
          ∃ s', applyTuxedoTransaction sent.transaction s = .ok () s' ∧
            (∀ line ∈ sent.created, peekUtxo OuterVerifier s' line.1 = some (coinTo args.recipient line.2)) ∧
            (∀ r ∈ inputRefs sent.transaction, peekUtxo OuterVerifier s' r = none) ∧
            ∀ r, r ∉ inputRefs sent.transaction → r ∉ sent.created.map Prod.fst →
              peekUtxo OuterVerifier s' r = peekUtxo OuterVerifier s r)) ∧
    ((db.unspent.total fun _ => amount) < load BitVec.toNat args.outputAmount - load (valueAt db.unspent) args.input →
      Wallet.spendCoins C checks keystore node db args =
        .error (.err (.message "Not enough value in database to construct transaction"))) := by
  refine ⟨fun enough => ?_, fun short => ?_⟩
  · obtain ⟨sent, refs, txHash, sends, spent, stored, pays⟩ := ready.pays (C := C) checks orderly enough
    refine ⟨sent, sends, spent.amounts, fun free => ?_⟩
    obtain ⟨s', applied⟩ := ready.applies spent stored pays free
    exact ⟨s', applied, spent.paid applied⟩
  · have coins := ready.tracks.coins
    have inputs := load_le_total coins orderly.distinct orderly.known
    have lacks := missing_of_small orderly.inRange (lt_of_le_of_lt inputs ready.inRange)
    have selection := selectInputs_of_orderly checks coins ready.inRange orderly
    rw [← lacks] at short
    have none := shortest?_load_isSome.not.mpr (show ¬missing db args ≤ load (valueAt db.unspent) _ by
      rw [load_unspentRefs coins]
      omega)
    rw [Option.not_isSome_iff_eq_none.mp none] at selection
    rw [Wallet.spendCoins, selection]
    rfl

end

end

/-- A wallet with coins of 5 and 10 pays 12. -/
theorem orderly_spend_pays_twelve :
    letI := signingHost
    ∃ sent s', spendCoins OuterConstraintChecker true numberedKeystore (fun _ => coinState (pairCoins 5 10))
        (pairDb 5 10) ⟨[], walletKey, [12]⟩ = .ok sent ∧
      applyTuxedoTransaction sent.transaction (coinState (pairCoins 5 10)) = .ok () s' ∧
      ∃ r, sent.created = [(r, 12)] ∧ peekUtxo OuterVerifier s' r = some (coinTo walletKey 12) := by
  let := signingHost
  have total : ((pairDb 5 10).unspent.total fun _ => amount) = 15 := total_pair 5 10
  have keys : (pairDb 5 10).unspent.keys.card ≤ 2 := by
    have count := congrArg List.length (ascending_pair 5 10).sort_keys
    rw [Finset.length_sort] at count
    exact count.le
  have ready : Ready walletFilter numberedKeystore (fun _ => coinState (pairCoins 5 10)) (pairDb 5 10)
      (coinState (pairCoins 5 10)) := {
    tracks := tracks_coinState (ascending_pair 5 10) (by decide)
    height := ⟨1, height_coinState _⟩
    steady := fun _ _ => rfl
    signs := fun _ _ _ _ _ => rfl
    keys := fun _ _ _ _ => ⟨_, rfl⟩
    inRange := by rw [total]; decide
    few := by omega }
  have orderly : Orderly (pairDb 5 10) ⟨[], walletKey, [12]⟩ :=
    ⟨List.nodup_nil, by simp, by simp, by simp, .inr (by simp), by decide, by decide⟩
  obtain ⟨sent, sends, _, pays⟩ := (orderly_spend_goes_through (C := OuterConstraintChecker) true ready orderly).1 (by
    rw [total]
    decide)
  have selected : selectInputs true (pairDb 5 10) ⟨[], walletKey, [12]⟩ =
      .ok ([coinTo walletKey 12], [] ++ [pairRef 0, pairRef 1]) := by
    refine selectInputs_of_some (foldlM_addAssign_single true 12) rfl (by decide) ?_
    rw [getArbitraryUnspentSet_pair]
    rfl
  obtain ⟨sent', sends', computed⟩ := Outcome.exists_of_any
    (x := spendCoins OuterConstraintChecker true numberedKeystore (fun _ => coinState (pairCoins 5 10))
      (pairDb 5 10) ⟨[], walletKey, [12]⟩)
    (p := fun sent => ∀ line ∈ sent.created, peekUtxo OuterVerifier (coinState (pairCoins 5 10)) line.1 = none) (by
    rw [spendCoins, selected]
    decide +kernel)
  cases sends.symm.trans sends'
  obtain ⟨s', applied, paid, _⟩ := pays (of_decide_eq_true computed)
  obtain ⟨_, txHash, _, spent⟩ := spendCoins_ok sends
  have created : sent.created = [(⟨txHash, 0⟩, 12)] := spent.created
  exact ⟨sent, s', sends, applied, _, created, paid (⟨txHash, 0⟩, 12) (created ▸ List.mem_cons_self)⟩

end Tuxedo.Wallet
