import Tuxedo.Wallet.Selection

/-!
# Spending coins

The wallet asks the node for each coin that it has selected, signs the stripped transaction once for
every input, and sends what the signatures complete.
-/

namespace Tuxedo.Wallet
open Scale Executive TransparentUtxoSet Template Prefix DynamicallyTypedData

/-- `state_getStorage` answers from a storage of the node. -/
def fetchStorage (node : Storage) (outputRef : OutputRef) : Outcome Error Template.Output := do
  let responseBytes ← okOr (node.get (encode outputRef)) (.message "Data cannot be retrieved from storage")
  decodeValue responseBytes

def getCoinFromStorage (node : Storage) (outputRef : OutputRef) : Outcome Error (Money.Coin 0 × OuterVerifier) := do
  let utxo ← fetchStorage node outputRef
  let coinInStorage ← extractPayload (Money.Coin 0) utxo.payload
  return (coinInStorage, utxo.verifier)

/-- What the local keystore answers. A signature is made with fresh randomness, so the calls are numbered. -/
abbrev Keystore := Nat → H256 → Bytes → Outcome Error (Option Signature)

def signWith (keystore : Keystore) (call : Nat) (owner : H256) (message : Bytes) : Outcome Error Signature := do
  let signature ← keystore call owner message
  okOr signature (.message "Key doesn't exist in keystore")

/-- The proof that an output can be consumed. Multisignatures are not implemented. -/
def redeem (keystore : Keystore) (call : Nat) (strippedEncoded : Bytes) :
    OuterVerifier → Outcome Error OuterVerifierRedeemer
  | .sr25519Signature owner => do
    let signature ← signWith keystore call owner.ownerPubkey strippedEncoded
    return .sr25519Signature signature
  | .upForGrabs _ => return .upForGrabs ()
  | .thresholdMultiSignature _ => .error .panic

def signInput (keystore : Keystore) (node : Nat → Storage) (strippedEncoded : Bytes) (input : Input × Nat) :
    Outcome Error Input := do
  let utxo ← fetchStorage (node input.2) input.1.outputRef
  let redeemer ← redeem keystore input.2 strippedEncoded utxo.verifier
  let encodedRedeemer ← expect (Vec.ofList? (encode redeemer))
  return { input.1 with redeemer := .redemption encodedRedeemer }

/-- The transaction that goes to the node, and the new coins that are printed. -/
structure Sent (C : Type) where
  transaction : Tuxedo.Transaction OuterVerifier C
  created : List (OutputRef × U128)

def printOutput (txHash : H256) (output : Template.Output × Nat) : Outcome Error (OutputRef × U128) := do
  let coin ← extractPayload (Money.Coin 0) output.1.payload
  return (⟨txHash, UInt32.ofNat output.2⟩, coin.value)

/-- `From<OuterConstraintChecker>`. -/
class FromOuter (C : Type) where
  convert : OuterConstraintChecker → C

instance : FromOuter OuterConstraintChecker := ⟨id⟩

instance : FromOuter ParachainRuntime.ParachainConstraintChecker := ⟨.inner⟩

section
variable (C : Type) [Host] [Codec C] [FromOuter C]

/-- The node goes on between the requests, so each of them meets a storage of its own. Whether the node
takes the transaction is logged only. -/
def spendCoins (checks : Bool) (keystore : Keystore)
    (node : Nat → Storage) (db : Db) (args : SpendArgs) : Outcome Error (Sent C) := do
  let (outputs, allInputRefs) ← selectInputs checks db args
  allInputRefs.zipIdx.forM fun outputRef => do
    let _ ← getCoinFromStorage (node outputRef.2) outputRef.1
  let inputs ← expect (Vec.ofList? (allInputRefs.map fun outputRef => ⟨outputRef, .default⟩))
  let outputs ← expect (Vec.ofList? outputs)
  let transaction : Tuxedo.Transaction OuterVerifier C :=
    ⟨inputs, Vec.empty, outputs, FromOuter.convert (.money .spend)⟩
  let strippedEncodedTransaction := encode transaction
  let laterNode := fun i => node (allInputRefs.length + i)
  let signed ← inputs.toList.zipIdx.mapM (signInput keystore laterNode strippedEncodedTransaction)
  let inputs ← expect (Vec.ofList? signed)
  let transaction := { transaction with inputs }
  let txHash ← expect transaction.id?
  let created ← outputs.toList.zipIdx.mapM (printOutput txHash)
  return ⟨transaction, created⟩

end

/-! ### What a spend has read and signed -/

theorem fetchStorage_ok {node : Storage} {r : OutputRef} {output : Template.Output} :
    fetchStorage node r = .ok output ↔ peekUtxo OuterVerifier node r = some output := by
  unfold fetchStorage peekUtxo
  cases stored : node.get (encode r) with
  | none => simp [okOr, bind, Except.bind]
  | some bytes =>
    rw [Outcome.bind_of_ok (Outcome.okOr_some bytes _), Option.bind_some]
    constructor
    · intro h
      exact Outcome.okOr_ok h
    · intro h
      exact Outcome.okOr_of_some h _

theorem getCoinFromStorage_ok {node : Storage} {r : OutputRef} {coin : Money.Coin 0 × OuterVerifier} :
    getCoinFromStorage node r = .ok coin ↔ ∃ output, peekUtxo OuterVerifier node r = some output ∧
      output.payload.extract (Money.Coin 0) = .ok coin.1 ∧ output.verifier = coin.2 := by
  constructor
  · intro h
    obtain ⟨output, fetched, h⟩ := Outcome.bind_ok h
    obtain ⟨value, extracted, h⟩ := Outcome.bind_ok h
    obtain rfl := Outcome.pure_ok h
    exact ⟨output, fetchStorage_ok.mp fetched, extractPayload_ok extracted, rfl⟩
  · rintro ⟨output, present, extracted, same⟩
    obtain ⟨value, verifier⟩ := coin
    cases same
    exact (Outcome.bind_of_ok (fetchStorage_ok.mpr present)).trans
      (Outcome.bind_of_ok (extractPayload_of_ok extracted))
/-- The wallet has proved that the input can be consumed. -/
structure Signed (keystore : Keystore) (node : Nat → Storage) (strippedEncoded : Bytes) (input : Input)
    (request call : Nat) (output : Template.Output) (redeemer : OuterVerifierRedeemer) (encoded : Vec UInt8) :
    Prop where
  fetched : peekUtxo OuterVerifier (node request) input.outputRef = some output
  redeems : redeem keystore call strippedEncoded output.verifier = .ok redeemer
  encodes : encoded.toList = encode redeemer
  attached : input.redeemer = .redemption encoded

theorem signInput_ok {keystore : Keystore} {node : Nat → Storage} {strippedEncoded : Bytes} {input : Input × Nat}
    {signed : Input} (h : signInput keystore node strippedEncoded input = .ok signed) :
    signed.outputRef = input.1.outputRef ∧
      ∃ output redeemer encoded,
        Signed keystore node strippedEncoded signed input.2 input.2 output redeemer encoded := by
  obtain ⟨output, fetched, h⟩ := Outcome.bind_ok h
  obtain ⟨redeemer, redeems, h⟩ := Outcome.bind_ok h
  obtain ⟨encoded, encodes, h⟩ := Outcome.bind_ok h
  obtain rfl := Outcome.pure_ok h
  exact ⟨rfl, output, redeemer, encoded, fetchStorage_ok.mp fetched, redeems,
    Vec.ofList?_eq_some.mp (Outcome.expect_ok encodes), rfl⟩

theorem extract_coinTo (recipient : H256) (amount : U128) :
    (coinTo recipient amount).payload.extract (Money.Coin 0) = .ok ⟨amount⟩ := by
  simp [coinTo, extract]

theorem printOutput_coinTo (txHash : H256) (recipient : H256) (amount : U128) (i : Nat) :
    printOutput txHash (coinTo recipient amount, i) = .ok (⟨txHash, UInt32.ofNat i⟩, amount) :=
  Outcome.bind_of_ok (extractPayload_of_ok (extract_coinTo recipient amount))

section
variable {C : Type} [Host] [Codec C] [FromOuter C]

/-- What a spend of these references has fetched, signed and printed. -/
structure Spent (keystore : Keystore) (node : Nat → Storage) (args : SpendArgs) (refs : List OutputRef)
    (txHash : H256) (sent : Sent C) : Prop where
  inputs : inputRefs sent.transaction = refs
  peeks : sent.transaction.peeks = Vec.empty
  outputs : sent.transaction.outputs.toList = args.outputAmount.map (coinTo args.recipient)
  checker : sent.transaction.checker = FromOuter.convert (.money .spend)
  coins : ∀ r ∈ refs, ∃ k output, peekUtxo OuterVerifier (node k) r = some output ∧
    Extracts (Money.Coin 0) output.payload
  signed : ∀ input ∈ sent.transaction.inputs.toList, ∃ request call output redeemer encoded,
    Signed keystore node (encode sent.transaction.stripped) input request call output redeemer encoded
  hash : sent.transaction.id? = some txHash
  created : sent.created = args.outputAmount.zipIdx.map fun amount => (⟨txHash, UInt32.ofNat amount.2⟩, amount.1)

variable {checks : Bool} {keystore : Keystore} {node : Nat → Storage} {db : Db} {args : SpendArgs} {sent : Sent C}

omit [Host] [Codec C] [FromOuter C] in
theorem selectInputs_outputs {outputs : List Template.Output} {refs : List OutputRef}
    (h : selectInputs checks db args = .ok (outputs, refs)) :
    outputs = args.outputAmount.map (coinTo args.recipient) := by
  obtain ⟨_, _, h⟩ := Outcome.bind_ok h
  obtain ⟨_, _, h⟩ := Outcome.bind_ok h
  split at h
  · obtain ⟨answer, _, h⟩ := Outcome.bind_ok h
    cases answer with
    | none => cases h
    | some more => exact (Prod.mk.inj (Outcome.pure_ok h)).1
  · exact (Prod.mk.inj (Outcome.pure_ok h)).1

theorem spendCoins_ok (h : spendCoins C checks keystore node db args = .ok sent) :
    ∃ refs txHash, selectInputs checks db args = .ok (args.outputAmount.map (coinTo args.recipient), refs) ∧
      Spent keystore node args refs txHash sent := by
  obtain ⟨⟨chosenOutputs, refs⟩, selected, h⟩ := Outcome.bind_ok h
  obtain rfl := selectInputs_outputs selected
  obtain ⟨_, asked, h⟩ := Outcome.bind_ok h
  obtain ⟨unsigned, packed, h⟩ := Outcome.bind_ok h
  obtain ⟨outputs, outputsPacked, h⟩ := Outcome.bind_ok h
  obtain ⟨signed, signs, h⟩ := Outcome.bind_ok h
  obtain ⟨inputs, repacked, h⟩ := Outcome.bind_ok h
  obtain ⟨txHash, hash, h⟩ := Outcome.bind_ok h
  obtain ⟨created, prints, h⟩ := Outcome.bind_ok h
  obtain rfl := Outcome.pure_ok h
  have outputList := Vec.ofList?_eq_some.mp (Outcome.expect_ok outputsPacked)
  have unsignedList := Vec.ofList?_eq_some.mp (Outcome.expect_ok packed)
  have inputList := Vec.ofList?_eq_some.mp (Outcome.expect_ok repacked)
  have sameRefs : signed.map (fun input => input.outputRef) = refs := by
    rw [Outcome.map_of_mapM (k := fun input : Input × Nat => input.1.outputRef) signs
      fun _ _ step => (signInput_ok step).1, unsignedList, List.zipIdx_map, List.map_map]
    simp [Function.comp_def]
  -- The signatures are over what is left when the redeemers are taken out again.
  have stripped : inputs.map (fun input => { input with redeemer := .default }) = unsigned := by
    apply Vec.ext
    rw [Vec.toList_map, inputList, unsignedList, ← sameRefs, List.map_map]
    rfl
  refine ⟨refs, txHash, selected, ?_, rfl, outputList, rfl, ?_, ?_, Outcome.expect_ok hash, ?_⟩
  · rw [inputRefs, inputList]
    exact sameRefs
  · intro r member
    obtain ⟨i, small, rfl⟩ := List.mem_iff_getElem.mp member
    have answered := Outcome.forM_ok asked (refs[i], i) (List.mk_mem_zipIdx_iff_getElem?.mpr (by simp [small]))
    obtain ⟨coin, read, _⟩ := Outcome.bind_ok answered
    obtain ⟨output, present, extracted, _⟩ := getCoinFromStorage_ok.mp read
    exact ⟨i, output, present, coin.1, extracted⟩
  · intro input member
    rw [inputList] at member
    obtain ⟨unsignedInput, _, step⟩ := Outcome.source_of_mapM signs input member
    obtain ⟨_, output, redeemer, encoded, fetched, redeems, encodes, attached⟩ := signInput_ok step
    refine ⟨_, unsignedInput.2, output, redeemer, encoded, fetched, ?_, encodes, attached⟩
    unfold Transaction.stripped
    rw [stripped]
    exact redeems
  · have printed := Outcome.mapM_ok.mp prints
    rw [outputList, List.zipIdx_map, List.forall₂_map_left_iff] at printed
    have shown := printed.imp fun amount line step =>
      Except.ok.inj ((printOutput_coinTo txHash args.recipient amount.1 amount.2).symm.trans step)
    have listed := List.forall₂_map_left_iff.mpr shown
    rw [List.forall₂_eq_eq_eq] at listed
    exact listed.symm

end

/-! ### The inputs on the chain -/

section
variable {filter : OuterVerifier → Bool} {checks : Bool} {db : Db} {args : SpendArgs} {s : Storage}

theorem foldlM_steps {α : Type} {step : U128 → α → Outcome Error U128} {P : α → Prop} {xs : List α}
    {total sum : U128} (h : xs.foldlM step total = .ok sum) (each : ∀ total x sum, step total x = .ok sum → P x) :
    ∀ x ∈ xs, P x := by
  induction xs generalizing total with
  | nil => simp
  | cons x xs ih =>
    obtain ⟨next, first, later⟩ := Outcome.bind_ok h
    exact List.forall_mem_cons.mpr ⟨each _ _ _ first, ih later⟩

theorem addChosen_stored {total sum : U128} {r : OutputRef} (h : addChosen checks db total r = .ok sum) :
    ∃ ivec, db.unspent.get (encode r) = some ivec := by
  obtain ⟨unspent, read, h⟩ := Outcome.bind_ok h
  obtain ⟨record, found, _⟩ := Outcome.bind_ok h
  obtain rfl := Outcome.okOr_ok found
  unfold getUnspent at read
  cases stored : db.unspent.get (encode r) with
  | none =>
    rw [stored] at read
    cases read
  | some ivec => exact ⟨ivec, rfl⟩

theorem mem_unspentRefs {tree : Tree} (coins : Coins tree) {r : OutputRef} :
    r ∈ unspentRefs tree ↔ ∃ ivec, tree.get (encode r) = some ivec := by
  rw [← List.mem_map_of_injective encode_injective, encode_unspentRefs coins, Finset.mem_sort, Store.mem_keys]

/-- Each selected reference is in the table. -/
theorem selectInputs_stored (coins : Coins db.unspent) {outputs : List Template.Output} {refs : List OutputRef}
    (h : selectInputs checks db args = .ok (outputs, refs)) :
    ∀ r ∈ refs, ∃ ivec, db.unspent.get (encode r) = some ivec := by
  obtain ⟨more, makesUp, rfl⟩ := selectInputs_ok coins h
  obtain ⟨_, _, h⟩ := Outcome.bind_ok h
  obtain ⟨_, added, _⟩ := Outcome.bind_ok h
  intro r member
  rcases List.mem_append.mp member with chosen | selected
  · exact foldlM_steps (P := fun r => ∃ ivec, db.unspent.get (encode r) = some ivec) added
      (fun _ _ _ => addChosen_stored) r chosen
  · exact (mem_unspentRefs coins).mp (makesUp.isPrefix.subset selected)

/-- What is in the table is a coin of the chain, with the value that the table says. -/
theorem Tracks.coin {tree : Tree} (tracks : Tracks filter (peekUtxo OuterVerifier s) tree) {r : OutputRef}
    {ivec : Bytes} (stored : tree.get (encode r) = some ivec) :
    ∃ output owner, peekUtxo OuterVerifier s r = some output ∧ Extracts (Money.Coin 0) output.payload ∧
      Money.coinValue 0 output.payload = valueAt tree r ∧ output.verifier = .sr25519Signature owner ∧
      filter (.sr25519Signature owner) = true := by
  have seen := stored
  rw [tracks.get_ref r] at seen
  obtain ⟨record, viewed, rfl⟩ := Option.map_eq_some_iff.mp seen
  obtain ⟨output, present, kept⟩ := Option.bind_eq_some_iff.mp viewed
  unfold trackedCoin at kept
  split at kept
  · rename_i coin owner extracted signed
    split at kept
    · rename_i accepted
      cases kept
      refine ⟨output, owner, present, ⟨coin, extracted⟩, ?_, signed, signed ▸ accepted⟩
      rw [Money.coinValue_of_ok extracted]
      simp [valueAt, Store.weightAt, stored, amount_encode]
    · cases kept
  · cases kept

/-- The chain adds up the same values as the wallet. -/
theorem Tracks.total [Host] {tree : Tree} (tracks : Tracks filter (peekUtxo OuterVerifier s) tree)
    {refs : List OutputRef} (stored : ∀ r ∈ refs, ∃ ivec, tree.get (encode r) = some ivec) :
    Money.total 0 (refs.filterMap (payloadAt OuterVerifier s)) = load (valueAt tree) refs := by
  induction refs with
  | nil => rfl
  | cons r refs ih =>
    obtain ⟨⟨ivec, first⟩, rest⟩ := List.forall_mem_cons.mp stored
    obtain ⟨output, _, present, _, value, _⟩ := tracks.coin first
    have later := ih rest
    unfold Money.total at later ⊢
    rw [List.filterMap_cons_some (b := output.payload) (by simp [payloadAt, present]), List.map_cons, List.sum_cons,
      load_cons, value, later]

theorem coinValue_coinTo (recipient : H256) (amount : U128) :
    Money.coinValue 0 (coinTo recipient amount).payload = amount.toNat :=
  Money.coinValue_of_ok (extract_coinTo recipient amount)

theorem total_coinTo (recipient : H256) (amounts : List U128) :
    Money.total 0 ((amounts.map (coinTo recipient)).map fun output => output.payload) = load BitVec.toNat amounts := by
  rw [Money.total, load, List.map_map, List.map_map]
  exact congrArg List.sum (List.map_congr_left fun amount _ => coinValue_coinTo recipient amount)

/-- Every signature that the keystore makes verifies under its key. -/
def Signs [Host] (keystore : Keystore) : Prop :=
  ∀ call owner message signature, keystore call owner message = .ok (some signature) →
    Host.sr25519Verify signature message owner = true

variable [Host] {keystore : Keystore}

theorem redeem_verifies (signs : Signs keystore) {call : Nat} {strippedEncoded : Bytes} {verifier : OuterVerifier}
    {redeemer : OuterVerifierRedeemer} (redeems : redeem keystore call strippedEncoded verifier = .ok redeemer)
    (height : BlockNumber) : Verifier.verify verifier strippedEncoded height redeemer = some true := by
  cases verifier with
  | sr25519Signature owner =>
    obtain ⟨signature, signed, h⟩ := Outcome.bind_ok redeems
    obtain rfl := Outcome.pure_ok h
    obtain ⟨answer, called, found⟩ := Outcome.bind_ok signed
    obtain rfl := Outcome.okOr_ok found
    exact congrArg some (signs _ _ _ _ called)
  | upForGrabs inner =>
    obtain rfl := Outcome.pure_ok redeems
    rfl
  | thresholdMultiSignature inner => cases redeems

theorem Signed.authorised {node : Nat → Storage} {strippedEncoded : Bytes} {input : Input} {request call : Nat}
    {output : Template.Output} {redeemer : OuterVerifierRedeemer} {encoded : Vec UInt8}
    (signed : Signed keystore node strippedEncoded input request call output redeemer encoded) (signs : Signs keystore)
    {height : BlockNumber} (stored : blockHeight s = some height) :
    Authorised OuterVerifier s strippedEncoded input.redeemer output := by
  rw [signed.attached]
  refine ⟨redeemer, [], height, ?_, stored, redeem_verifies signs signed.redeems height⟩
  rw [signed.encodes]
  exact decode_encode_nil redeemer

end

/-! ### What the chain makes of it -/

/-- A runtime that leaves the template's transactions to the template's checker. -/
class WrapsOuter (C : Type) [Host] [Codec C] [ConstraintChecker OuterVerifier C] [FromOuter C] : Prop where
  check_convert : ∀ {checker : OuterConstraintChecker} {inputs evicted peeks outputs : List DynamicallyTypedData}
    {s s' : Storage} {priority : UInt64},
    ConstraintChecker.check (V := OuterVerifier) (FromOuter.convert checker : C) inputs evicted peeks outputs s =
      .ok priority s' ↔ OuterConstraintChecker.check checker inputs evicted peeks outputs s = .ok priority s'
  length_convert : ∀ checker : OuterConstraintChecker,
    (encode (FromOuter.convert checker : C)).length ≤ (encode checker).length + 1

instance [Host] : WrapsOuter OuterConstraintChecker where
  check_convert := Iff.rfl
  length_convert _ := Nat.le_succ _

instance [Host] [Parachain.RelayChain] : WrapsOuter ParachainRuntime.ParachainConstraintChecker where
  check_convert := Exec.mapErr_ok
  length_convert _ := le_refl _

section
variable {C : Type} [Host] [Codec C] [ConstraintChecker OuterVerifier C] [FromOuter C] [WrapsOuter C]

theorem check_money {inner : Money.MoneyConstraintChecker 0} {inputs evicted peeks outputs : List DynamicallyTypedData}
    {s s' : Storage} {priority : UInt64} :
    ConstraintChecker.check (V := OuterVerifier) (FromOuter.convert (.money inner) : C) inputs evicted peeks outputs s =
      .ok priority s' ↔ Money.check 0 inner inputs evicted peeks outputs = .ok priority ∧ s' = s := by
  rw [WrapsOuter.check_convert]
  constructor
  · intro h
    obtain ⟨passed, same⟩ := Exec.lift_ok (Exec.mapErr_ok.mp h)
    exact ⟨passed, same.symm⟩
  · rintro ⟨passed, rfl⟩
    exact Exec.mapErr_ok.mpr (Exec.lift_of_ok passed s')

theorem length_encode_money_le (inner : Money.MoneyConstraintChecker 0) :
    (encode (FromOuter.convert (.money inner) : C)).length ≤ 3 := by
  refine (WrapsOuter.length_convert _).trans ?_
  cases inner <;> decide

end

/-- The chain takes such a payment. A coin that is chosen twice counts twice, and its two inputs differ
when its two signatures do. -/
structure Pays (db : Db) (args : SpendArgs) (inputs : List Input) : Prop where
  spends : inputs ≠ []
  apart : inputs.Nodup
  positive : ∀ amount ∈ args.outputAmount, 0 < amount.toNat
  inRange : load (valueAt db.unspent) (inputs.map fun input => input.outputRef) < 2 ^ 128
  covered : load BitVec.toNat args.outputAmount ≤
    load (valueAt db.unspent) (inputs.map fun input => input.outputRef)

section
variable {C : Type} [Host] [Codec C] [FromOuter C]
  {filter : OuterVerifier → Bool} {keystore : Keystore} {node : Nat → Storage} {db : Db} {args : SpendArgs}
  {sent : Sent C} {refs : List OutputRef} {txHash : H256} {s : Storage} {height : BlockNumber}

theorem Spent.created_refs (spent : Spent keystore node args refs txHash sent) :
    sent.created.map Prod.fst = sent.transaction.outputRefs txHash := by
  rw [spent.created, Transaction.outputRefs, spent.outputs, List.zipIdx_map, List.map_map, List.map_map]
  rfl

theorem Spent.unevicted (spent : Spent keystore node args refs txHash sent) :
    evictedRefs sent.transaction.inputs.toList = [] := by
  refine List.filterMap_eq_nil_iff.mpr fun input member => ?_
  obtain ⟨_, _, _, _, encoded, signed⟩ := spent.signed input member
  rw [signed.attached]

theorem Spent.payable (spent : Spent keystore node args refs txHash sent) :
    (∀ d ∈ outputData sent.transaction, Money.Payable 0 d) ↔ ∀ amount ∈ args.outputAmount, 0 < amount.toNat := by
  rw [outputData, spent.outputs, List.map_map, List.forall_mem_map]
  refine forall₂_congr fun amount _ => ?_
  constructor
  · intro payable
    have positive := payable.positive
    rwa [Function.comp_apply, coinValue_coinTo] at positive
  · intro positive
    refine ⟨⟨_, extract_coinTo args.recipient amount⟩, ?_⟩
    rwa [Function.comp_apply, coinValue_coinTo]

/-- The money piece finds a spend in what was sent exactly when the wallet's numbers add up. -/
theorem Spent.spends_iff (spent : Spent keystore node args refs txHash sent)
    (tracks : Tracks filter (peekUtxo OuterVerifier s) db.unspent)
    (stored : ∀ r ∈ refs, ∃ ivec, db.unspent.get (encode r) = some ivec) :
    Money.Spends 0 (refs.filterMap (payloadAt OuterVerifier s)) [] (outputData sent.transaction) ↔
      refs ≠ [] ∧ (∀ amount ∈ args.outputAmount, 0 < amount.toNat) ∧
        load (valueAt db.unspent) refs < 2 ^ 128 ∧
        load BitVec.toNat args.outputAmount ≤ load (valueAt db.unspent) refs := by
  have inputTotal := tracks.total stored
  have outputTotal : Money.total 0 (outputData sent.transaction) = load BitVec.toNat args.outputAmount := by
    rw [outputData, spent.outputs, total_coinTo]
  have extracts : ∀ d ∈ refs.filterMap (payloadAt OuterVerifier s), Extracts (Money.Coin 0) d := by
    intro d member
    obtain ⟨r, inside, found⟩ := List.mem_filterMap.mp member
    obtain ⟨ivec, here⟩ := stored r inside
    obtain ⟨output, _, present, extracted, _⟩ := tracks.coin here
    rw [payloadAt, present] at found
    cases found
    exact extracted
  have empty : refs.filterMap (payloadAt OuterVerifier s) = [] ↔ refs = [] := by
    constructor
    · intro nothing
      refine List.eq_nil_iff_forall_not_mem.mpr fun r inside => ?_
      obtain ⟨ivec, here⟩ := stored r inside
      obtain ⟨output, _, present, _⟩ := tracks.coin here
      have missing := List.filterMap_eq_nil_iff.mp nothing r inside
      rw [payloadAt, present] at missing
      cases missing
    · rintro rfl
      rfl
  constructor
  · intro spends
    refine ⟨fun none => spends.spending (empty.mpr none), spent.payable.mp spends.outputs, ?_, ?_⟩
    · exact inputTotal ▸ spends.inputTotal
    · exact inputTotal ▸ outputTotal ▸ spends.covered
  · rintro ⟨some, positive, inRange, covered⟩
    refine ⟨rfl, fun none => some (empty.mp none), extracts, spent.payable.mpr positive, ?_, ?_, ?_⟩
    · rwa [inputTotal]
    · rw [outputTotal]
      omega
    · rwa [inputTotal, outputTotal]

variable [ConstraintChecker OuterVerifier C] [WrapsOuter C]

theorem Spent.accepted_iff (spent : Spent keystore node args refs txHash sent)
    (tracks : Tracks filter (peekUtxo OuterVerifier s) db.unspent)
    (stored : ∀ r ∈ refs, ∃ ivec, db.unspent.get (encode r) = some ivec) (atHeight : blockHeight s = some height)
    (signs : Signs keystore)
    (steady : ∀ k, ∀ r ∈ refs, peekUtxo OuterVerifier (node k) r = peekUtxo OuterVerifier s r) :
    (∃ s', applyTuxedoTransaction sent.transaction s = .ok () s') ↔
      Pays db args sent.transaction.inputs.toList ∧
        ∀ r ∈ sent.created.map Prod.fst, peekUtxo OuterVerifier s r = none := by
  have redeemed := inputRefs_of_redeemed spent.unevicted
  rw [spent.inputs] at redeemed
  have noPeeks : sent.transaction.peeks.toList = [] := by
    rw [spent.peeks]
    rfl
  have check : ∀ checked priority, ConstraintChecker.check (V := OuterVerifier) sent.transaction.checker
      ((redeemedRefs sent.transaction.inputs.toList).filterMap (payloadAt OuterVerifier s))
      ((evictedRefs sent.transaction.inputs.toList).filterMap (payloadAt OuterVerifier s))
      (sent.transaction.peeks.toList.filterMap (payloadAt OuterVerifier s)) (outputData sent.transaction) s =
        .ok priority checked ↔
      Money.check 0 .spend (refs.filterMap (payloadAt OuterVerifier s)) [] [] (outputData sent.transaction) =
        .ok priority ∧ checked = s := by
    intro checked priority
    rw [spent.checker, ← redeemed, spent.unevicted, noPeeks]
    exact check_money
  have inputs : sent.transaction.inputs.toList ≠ [] ↔ refs ≠ [] := by
    rw [← spent.inputs, inputRefs, ne_eq, ne_eq, List.map_eq_nil_iff]
  have sameRefs : sent.transaction.inputs.toList.map (fun input => input.outputRef) = refs := spent.inputs
  rw [spent.created_refs]
  constructor
  · intro h
    obtain ⟨s', applied⟩ := h
    obtain ⟨txHash', checked, accepted⟩ := apply_ok.mp applied
    obtain rfl : txHash' = txHash := Option.some.inj (accepted.hash.symm.trans spent.hash)
    obtain ⟨priority, call⟩ := accepted.checks
    have spends := (Money.check_spend_iff.mp ((check _ _).mp call).1).1
    obtain ⟨some, positive, inRange, covered⟩ := (spent.spends_iff tracks stored).mp spends
    refine ⟨⟨inputs.mpr some, accepted.unique, positive, ?_, ?_⟩, accepted.fresh⟩
    · rwa [sameRefs]
    · rwa [sameRefs]
  · intro h
    obtain ⟨pays, fresh⟩ := h
    have inRange := pays.inRange
    have covered := pays.covered
    rw [sameRefs] at inRange covered
    have spends := (spent.spends_iff tracks stored).mpr ⟨inputs.mp pays.spends, pays.positive, inRange, covered⟩
    have priority : (UInt64.ofNat (min (Money.total 0 (refs.filterMap (payloadAt OuterVerifier s)) -
        Money.total 0 (outputData sent.transaction)) (2 ^ 64 - 1))).toNat = _ :=
      Nat.mod_eq_of_lt (by omega)
    refine ⟨_, apply_ok.mpr ⟨txHash, s, ⟨pays.apart, ?_, spent.hash, fresh⟩, ?_, ?_, ⟨_, (check _ _).mpr
      ⟨Money.check_spend_iff.mpr ⟨spends, priority⟩, rfl⟩⟩, rfl⟩⟩
    · intro input member output present
      obtain ⟨request, call, found, redeemer, encoded, signed⟩ := spent.signed input member
      have inside : input.outputRef ∈ refs := sameRefs ▸ List.mem_map_of_mem member
      have fetched := signed.fetched
      rw [steady request _ inside, present] at fetched
      cases fetched
      exact signed.authorised signs atHeight
    · intro r inside
      rw [spent.inputs] at inside
      obtain ⟨k, output, present, _⟩ := spent.coins r inside
      exact ⟨output, (steady k r inside) ▸ present⟩
    · simp [noPeeks]

/-- The node takes what a wallet in step with it sends exactly when the payment adds up and none of the
printed references is taken. -/
theorem spend_accepted_iff {checks : Bool} (tracks : Tracks filter (peekUtxo OuterVerifier s) db.unspent)
    (atHeight : blockHeight s = some height) (signs : Signs keystore)
    (sends : spendCoins C checks keystore node db args = .ok sent)
    (steady : ∀ k, ∀ r ∈ inputRefs sent.transaction,
      peekUtxo OuterVerifier (node k) r = peekUtxo OuterVerifier s r) :
    (∃ s', applyTuxedoTransaction sent.transaction s = .ok () s') ↔
      Pays db args sent.transaction.inputs.toList ∧
        ∀ r ∈ sent.created.map Prod.fst, peekUtxo OuterVerifier s r = none := by
  obtain ⟨refs, txHash, selected, spent⟩ := spendCoins_ok sends
  rw [spent.inputs] at steady
  exact spent.accepted_iff tracks (selectInputs_stored tracks.coins selected) atHeight signs steady

end

/-! ### A coin that is chosen twice -/

/-- A state at height 1 with these coins on signatures. -/
def coinState (coins : List (OutputRef × H256 × U128)) : Storage :=
  (Store.empty.set heightKey (encode (1 : UInt32))).setAll
    (coins.map fun coin => (encode coin.1, encode (coinTo coin.2.1 coin.2.2)))

theorem height_coinState (coins : List (OutputRef × H256 × U128)) : blockHeight (coinState coins) = some 1 := by
  have untouched : heightKey ∉ (coins.map fun coin =>
      ((encode coin.1 : Bytes), (encode (coinTo coin.2.1 coin.2.2) : Bytes))).map Prod.fst := by
    intro member
    rw [List.map_map] at member
    obtain ⟨coin, _, same⟩ := List.mem_map.mp member
    exact absurd (congrArg List.length same) (by rw [Function.comp_apply, length_encode_outputRef]; decide)
  rw [blockHeight, coinState, Store.get_setAll_of_notMem untouched, Store.get_set_self]
  simp

theorem peek_coinState {coins : List (OutputRef × H256 × U128)} (ascending : Ascending coins)
    {coin : OutputRef × H256 × U128} (member : coin ∈ coins) :
    peekUtxo OuterVerifier (coinState coins) coin.1 = some (coinTo coin.2.1 coin.2.2) := by
  have distinct : ((coins.map fun coin =>
      ((encode coin.1 : Bytes), (encode (coinTo coin.2.1 coin.2.2) : Bytes))).map Prod.fst).Nodup := by
    rw [List.map_map]
    exact ascending.nodup
  have stored : (coinState coins).get (encode coin.1) = some (encode (coinTo coin.2.1 coin.2.2)) :=
    Store.get_setAll_of_mem distinct (List.mem_map_of_mem member)
  simp [peekUtxo, stored]

theorem peek_coinState_none {coins : List (OutputRef × H256 × U128)} {r : OutputRef}
    (absent : r ∉ coins.map Prod.fst) : peekUtxo OuterVerifier (coinState coins) r = none := by
  have untouched : encode r ∉ (coins.map fun coin =>
      ((encode coin.1 : Bytes), (encode (coinTo coin.2.1 coin.2.2) : Bytes))).map Prod.fst := by
    intro member
    rw [List.map_map] at member
    obtain ⟨coin, inside, same⟩ := List.mem_map.mp member
    exact absent (encode_injective same ▸ List.mem_map_of_mem inside)
  have stored : (coinState coins).get (encode r) = none := by
    rw [coinState, Store.get_setAll_of_notMem untouched,
      Store.get_set_ne _ _ (fun same => absurd (congrArg List.length same) (by rw [length_encode_outputRef]; decide)),
      Store.get_empty]
  rw [peekUtxo, stored]
  rfl

/-- The table of the coins that the filter takes is in step with the state. -/
theorem tracks_part {filter : OuterVerifier → Bool} {coins mine : List (OutputRef × H256 × U128)}
    (ascending : Ascending coins) (part : coins.filter (fun coin => filter (.sr25519Signature ⟨coin.2.1⟩)) = mine) :
    Tracks filter (peekUtxo OuterVerifier (coinState coins)) (tableOf mine) where
  get_ref r := by
    subst part
    have shown : ∀ coin ∈ coins, Ledger.view (trackedCoin filter) (peekUtxo OuterVerifier (coinState coins)) coin.1 =
        if filter (.sr25519Signature ⟨coin.2.1⟩) then some coin.2 else none := by
      intro coin member
      rw [Ledger.view, peek_coinState ascending member, Option.bind_some, trackedCoin, extract_coinTo]
      rfl
    by_cases member : r ∈ (coins.filter fun coin => filter (.sr25519Signature ⟨coin.2.1⟩)).map Prod.fst
    · obtain ⟨coin, inside, rfl⟩ := List.mem_map.mp member
      obtain ⟨listed, accepted⟩ := List.mem_filter.mp inside
      have mine : Ascending (coins.filter fun coin => filter (.sr25519Signature ⟨coin.2.1⟩)) :=
        ascending.sublist (List.filter_sublist.map _)
      rw [mine.get_tableOf inside, shown coin listed, if_pos accepted]
      rfl
    · have table :
          (tableOf (coins.filter fun coin => filter (.sr25519Signature ⟨coin.2.1⟩))).get (encode r) = none := by
        rw [tableOf, Store.get_setAll_of_notMem, Store.get_empty]
        intro there
        rw [List.map_map] at there
        obtain ⟨coin, inside, same⟩ := List.mem_map.mp there
        exact member (encode_injective same ▸ List.mem_map_of_mem inside)
      rw [table]
      by_cases listed : r ∈ coins.map Prod.fst
      · obtain ⟨coin, inside, rfl⟩ := List.mem_map.mp listed
        have refused : ¬filter (.sr25519Signature ⟨coin.2.1⟩) = true := fun accepted =>
          member (List.mem_map_of_mem (List.mem_filter.mpr ⟨inside, accepted⟩))
        rw [shown coin inside, if_neg refused]
        rfl
      · rw [Ledger.view, peek_coinState_none listed]
        rfl
  refs k v stored := by
    obtain ⟨r, _, same, _⟩ := coins_tableOf mine k v stored
    exact ⟨r, same⟩

theorem tracks_coinState {filter : OuterVerifier → Bool} {coins : List (OutputRef × H256 × U128)}
    (ascending : Ascending coins) (owned : ∀ coin ∈ coins, filter (.sr25519Signature ⟨coin.2.1⟩) = true) :
    Tracks filter (peekUtxo OuterVerifier (coinState coins)) (tableOf coins) :=
  tracks_part ascending (List.filter_eq_self.mpr owned)

/-- A native host on which every signature verifies. -/
@[reducible] def signingHost : Host :=
  Host.native (fun _ _ _ => true) (fun _ _ => FixedBytes.zero 32) (fun _ _ => FixedBytes.zero 32)

/-- A keystore with every key. No two of its signatures are the same below call 256. -/
def numberedKeystore : Keystore := fun call _ _ =>
  .ok (some ⟨List.replicate 64 (UInt8.ofNat call), List.length_replicate⟩)

/-- The wallet chooses a coin of 5 twice to pay 8, and the node takes it. -/
theorem spend_accepted_twice :
    letI := signingHost
    ∃ sent s', spendCoins OuterConstraintChecker true numberedKeystore (fun _ => coinState (pairCoins 5 10))
        (pairDb 5 10) ⟨[pairRef 0], walletKey, [8]⟩ = .ok sent ∧
      inputRefs sent.transaction = [pairRef 0, pairRef 0] ∧
      applyTuxedoTransaction sent.transaction (coinState (pairCoins 5 10)) = .ok () s' := by
  let := signingHost
  obtain ⟨sent, sends, computed⟩ := Outcome.exists_of_any
    (x := spendCoins OuterConstraintChecker true numberedKeystore (fun _ => coinState (pairCoins 5 10))
      (pairDb 5 10) ⟨[pairRef 0], walletKey, [8]⟩)
    (p := fun sent => inputRefs sent.transaction = [pairRef 0, pairRef 0] ∧ sent.transaction.inputs.toList.Nodup ∧
      ∀ r ∈ sent.created.map Prod.fst, peekUtxo OuterVerifier (coinState (pairCoins 5 10)) r = none) (by
    rw [spendCoins, selectInputs_twice]
    decide +kernel)
  obtain ⟨inputs, apart, fresh⟩ := of_decide_eq_true computed
  have tracks : Tracks walletFilter (peekUtxo OuterVerifier (coinState (pairCoins 5 10))) (pairDb 5 10).unspent :=
    tracks_coinState (ascending_pair 5 10) (by decide)
  have worth : load (valueAt (pairDb 5 10).unspent) [pairRef 0, pairRef 0] = 10 := by
    rw [load_cons, load_cons, load_nil]
    exact congrArg₂ (fun a b => a + (b + 0)) (valueAt_pair_zero 5 10) (valueAt_pair_zero 5 10)
  have pays : Pays (pairDb 5 10) ⟨[pairRef 0], walletKey, [8]⟩ sent.transaction.inputs.toList := by
    have refs : sent.transaction.inputs.toList.map (fun input => input.outputRef) = [pairRef 0, pairRef 0] := inputs
    refine ⟨?_, apart, by simp, ?_, ?_⟩
    · intro none
      rw [none] at refs
      cases refs
    · rw [refs, worth]
      decide
    · rw [refs, worth]
      decide
  obtain ⟨s', applied⟩ := (spend_accepted_iff tracks (height_coinState _)
    (fun _ _ _ _ _ => rfl) sends fun _ _ _ => rfl).mpr ⟨pays, fresh⟩
  exact ⟨sent, s', sends, inputs, applied⟩

end Tuxedo.Wallet
