import Tuxedo.Executive.Schedules
import Tuxedo.Wallet.Payment

/-!
# Wallets side by side

Wallets with different keys never reach for one coin, so their payments go through in any order.
-/

namespace Tuxedo.Wallet
open Scale Executive TransparentUtxoSet Template Prefix

/-- A wallet, the node that it asks, and the payment that is asked of it. -/
structure Payer where
  filter : OuterVerifier → Bool
  keystore : Keystore
  node : Nat → Storage
  db : Db
  args : SpendArgs

/-- The wallet is in step with the chain, and its coins are worth the payment. -/
structure Payer.Able [Host] (payer : Payer) (s : Storage) : Prop where
  ready : Ready payer.filter payer.keystore payer.node payer.db s
  orderly : Orderly payer.db payer.args
  enough : load BitVec.toNat payer.args.outputAmount - load (valueAt payer.db.unspent) payer.args.input ≤
    payer.db.unspent.total fun _ => amount

/-- No verifier belongs to both. -/
def Payer.Apart (payer other : Payer) : Prop := ∀ v, payer.filter v = true → other.filter v = false

section
variable {C : Type} [Host] [Codec C] [FromOuter C]

/-- What a payer has sent, when nothing is in its way. -/
structure Payer.Sends (checks : Bool) (payer : Payer) (s : Storage) (sent : Sent C) : Prop where
  sends : spendCoins C checks payer.keystore payer.node payer.db payer.args = .ok sent
  pays : Pays payer.db payer.args sent.transaction.inputs.toList
  spent : ∃ refs txHash, Spent payer.keystore payer.node payer.args refs txHash sent ∧
    ∀ r ∈ refs, ∃ ivec, payer.db.unspent.get (encode r) = some ivec

variable {checks : Bool} {payer other : Payer} {s : Storage} {sent sent' : Sent C}

/-- Each input is a coin of the chain under a key of the wallet. -/
theorem Payer.Sends.owned (able : payer.Able s) (sends : payer.Sends checks s sent) :
    ∀ r ∈ inputRefs sent.transaction,
      ∃ output, peekUtxo OuterVerifier s r = some output ∧ payer.filter output.verifier = true := by
  obtain ⟨refs, txHash, spent, stored⟩ := sends.spent
  intro r input
  rw [spent.inputs] at input
  obtain ⟨ivec, here⟩ := stored r input
  obtain ⟨output, owner, present, _, _, verifier, accepted⟩ := able.ready.tracks.coin here
  exact ⟨output, present, verifier ▸ accepted⟩

theorem Payer.Sends.disjoint (able : payer.Able s) (sends : payer.Sends checks s sent) (able' : other.Able s)
    (sends' : other.Sends checks s sent') (apart : payer.Apart other) :
    ∀ r ∈ inputRefs sent.transaction, r ∉ inputRefs sent'.transaction := by
  intro r input input'
  obtain ⟨output, present, mine⟩ := sends.owned able r input
  obtain ⟨output', present', yours⟩ := sends'.owned able' r input'
  cases present.symm.trans present'
  rw [apart _ mine] at yours
  cases yours

/-- What one payer refers to is there, so the other does not create it, and the other does not spend it. -/
theorem Payer.Sends.untouched (able : payer.Able s) (sends : payer.Sends checks s sent) (able' : other.Able s)
    (sends' : other.Sends checks s sent') (apart : payer.Apart other)
    (free' : ∀ line ∈ sent'.created, peekUtxo OuterVerifier s line.1 = none) :
    Untouched sent.transaction sent'.transaction := by
  obtain ⟨refs, _, spent, _⟩ := sends.spent
  obtain ⟨_, txHash, spent', _⟩ := sends'.spent
  intro r member
  rw [spent.peeks] at member
  have input : r ∈ inputRefs sent.transaction := (List.mem_append.mp member).resolve_right List.not_mem_nil
  refine ⟨sends.disjoint able able' sends' apart r input, fun hash same created => ?_⟩
  obtain rfl : hash = txHash := Option.some.inj (same.symm.trans spent'.hash)
  rw [← spent'.created_refs] at created
  obtain ⟨line, inside, rfl⟩ := List.mem_map.mp created
  obtain ⟨output, present, _⟩ := sends.owned able line.1 input
  rw [free' line inside] at present
  cases present

variable [ConstraintChecker OuterVerifier C] [WrapsOuter C]

theorem money_sideEffectFree (inner : Money.MoneyConstraintChecker 0) :
    SideEffectFree OuterVerifier (FromOuter.convert (.money inner) : C) where
  writesNothing call := (check_money.mp call).2
  sameOutcome _ call := check_money.mpr ⟨(check_money.mp call).1, rfl⟩

theorem Payer.Able.sends (able : payer.Able s) : ∃ sent : Sent C, payer.Sends checks s sent := by
  obtain ⟨sent, refs, txHash, sends, spent, stored, pays⟩ := able.ready.pays (C := C) checks able.orderly able.enough
  exact ⟨sent, sends, pays, refs, txHash, spent, stored⟩

theorem Payer.Sends.applies (able : payer.Able s) (sends : payer.Sends checks s sent)
    (free : ∀ line ∈ sent.created, peekUtxo OuterVerifier s line.1 = none) :
    ∃ s', applyTuxedoTransaction sent.transaction s = .ok () s' := by
  obtain ⟨refs, txHash, spent, stored⟩ := sends.spent
  exact able.ready.applies spent stored sends.pays free

theorem Payer.Sends.plain (sends : payer.Sends checks s sent) :
    SideEffectFree OuterVerifier sent.transaction.checker := by
  obtain ⟨_, _, spent, _⟩ := sends.spent
  exact spent.checker ▸ money_sideEffectFree .spend

theorem Payer.Sends.commuting (able : payer.Able s) (sends : payer.Sends checks s sent) (able' : other.Able s)
    (sends' : other.Sends checks s sent') (apart : payer.Apart other)
    (hashes : CollisionFree {t | t = sent.transaction ∨ t = sent'.transaction})
    (free : ∀ line ∈ sent.created, peekUtxo OuterVerifier s line.1 = none)
    (free' : ∀ line ∈ sent'.created, peekUtxo OuterVerifier s line.1 = none) :
    Commuting sent.transaction sent'.transaction := by
  have apart' : other.Apart payer := by
    intro v yours
    cases mine : payer.filter v with
    | false => rfl
    | true =>
      rw [apart v mine] at yours
      cases yours
  refine ⟨sends.plain, sends'.plain, sends.untouched able able' sends' apart free',
    sends'.untouched able' able sends apart' free, fun txHash hash hash' => ?_⟩
  -- One transaction would spend coins of both.
  have same := hashes.eq_of_id? (Or.inl rfl) (Or.inr rfl) hash hash'
  have common := sends.disjoint able able' sends' apart
  obtain ⟨input, inputs, list⟩ := List.exists_cons_of_ne_nil sends.pays.spends
  have member : input.outputRef ∈ inputRefs sent.transaction :=
    List.mem_map_of_mem (list ▸ List.mem_cons_self)
  exact common _ member (same ▸ member)

/-- Wallets with different keys that are each in step with the chain and able to pay all get their payments
through, whatever the order. -/
theorem payments_side_by_side (checks : Bool) {payers : List Payer} {s : Storage}
    (able : ∀ payer ∈ payers, payer.Able s) (apart : payers.Pairwise Payer.Apart) :
    ∃ sent : Payer → Sent C,
      (∀ payer ∈ payers,
        spendCoins C checks payer.keystore payer.node payer.db payer.args = .ok (sent payer) ∧
          (sent payer).created.map Prod.snd = payer.args.outputAmount) ∧
      (CollisionFree {t | ∃ payer ∈ payers, t = (sent payer).transaction} →
        (∀ payer ∈ payers, ∀ line ∈ (sent payer).created, peekUtxo OuterVerifier s line.1 = none) →
        ∃ s', (∀ order, order.Perm (payers.map fun payer => (sent payer).transaction) → Applied s order s') ∧
          (∀ payer ∈ payers,
            (∀ line ∈ (sent payer).created,
              peekUtxo OuterVerifier s' line.1 = some (coinTo payer.args.recipient line.2)) ∧
            ∀ r ∈ inputRefs (sent payer).transaction, peekUtxo OuterVerifier s' r = none) ∧
          ∀ r, (∀ payer ∈ payers,
              r ∉ inputRefs (sent payer).transaction ∧ r ∉ (sent payer).created.map Prod.fst) →
            peekUtxo OuterVerifier s' r = peekUtxo OuterVerifier s r) := by
  have each : ∀ payer, ∃ sent : Sent C, payer ∈ payers → payer.Sends checks s sent := by
    intro payer
    by_cases member : payer ∈ payers
    · have sending : ∃ sent : Sent C, payer.Sends checks s sent := (able payer member).sends
      obtain ⟨sent, sends⟩ := sending
      exact ⟨sent, fun _ => sends⟩
    · exact ⟨⟨⟨Vec.empty, Vec.empty, Vec.empty, FromOuter.convert (.money .mint)⟩, []⟩,
        fun there => absurd there member⟩
  choose sent sends using each
  refine ⟨sent, fun payer member => ⟨(sends payer member).sends, ?_⟩, fun hashes free => ?_⟩
  · obtain ⟨_, _, spent, _⟩ := (sends payer member).spent
    exact spent.amounts
  have commuting : (payers.map fun payer => (sent payer).transaction).Pairwise Commuting := by
    refine List.pairwise_map.mpr (apart.imp_of_mem fun {payer other} here there apart => ?_)
    have both : {t | t = (sent payer).transaction ∨ t = (sent other).transaction} ⊆
        {t | ∃ payer ∈ payers, t = (sent payer).transaction} := by
      intro t which
      exact which.elim (fun same => ⟨payer, here, same⟩) fun same => ⟨other, there, same⟩
    have hashes' := hashes.mono both
    exact (sends payer here).commuting (able payer here) (able other there) (sends other there) apart hashes'
      (free payer here) (free other there)
  have each : ∀ t ∈ payers.map fun payer => (sent payer).transaction, ∃ s', applyTuxedoTransaction t s = .ok () s' :=
    List.forall_mem_map.mpr fun payer member => (sends payer member).applies (able payer member) (free payer member)
  obtain ⟨s', applied⟩ := applied_perm commuting each
  have inOrder := applied _ (List.Perm.refl _)
  refine ⟨s', applied, fun payer member => ?_, fun r untouched => ?_⟩
  · obtain ⟨_, _, spent, _⟩ := (sends payer member).spent
    obtain ⟨s₁, last⟩ := inOrder.last commuting (List.mem_map_of_mem member)
    obtain ⟨paid, gone, _⟩ := spent.paid last
    exact ⟨paid, gone⟩
  · refine inOrder.peek_untouched (List.forall_mem_map.mpr fun payer member => ?_)
      (List.forall_mem_map.mpr fun payer member => ?_)
    · exact (sends payer member).plain
    · obtain ⟨notInput, notCreated⟩ := untouched payer member
      refine ⟨notInput, fun txHash hash created => notCreated ?_⟩
      obtain ⟨_, txHash', spent, _⟩ := (sends payer member).spent
      rw [spent.created_refs]
      exact Option.some.inj (hash.symm.trans spent.hash) ▸ created

end

/-! Two wallets with one coin each. -/

def otherKey : H256 := ⟨List.replicate 32 9, rfl⟩

def twoCoins : List (OutputRef × H256 × U128) := [(pairRef 0, walletKey, 5), (pairRef 1, otherKey, 10)]

theorem ascending_two : Ascending twoCoins := by
  simp only [Ascending, twoCoins, List.map_cons, List.map_nil, List.pairwise_cons]
  simp
  decide

/-- The wallet of the owner of one coin, who pays the holder of the other key. -/
def ownerOf (coin : OutputRef × H256 × U128) (recipient : H256) (amount : U128) : Payer where
  filter v := v = .sr25519Signature ⟨coin.2.1⟩
  keystore := numberedKeystore
  node _ := coinState twoCoins
  db := { Db.empty with unspent := tableOf [coin] }
  args := ⟨[], recipient, [amount]⟩

theorem ascending_one (coin : OutputRef × H256 × U128) : Ascending [coin] := by simp [Ascending]

theorem total_one (coin : OutputRef × H256 × U128) : ((tableOf [coin]).total fun _ => amount) = coin.2.2.toNat := by
  rw [← load_unspentRefs (coins_tableOf [coin]), (ascending_one coin).unspentRefs_tableOf]
  show load (valueAt (tableOf [coin])) [coin.1] = _
  rw [load_cons, load_nil, (ascending_one coin).valueAt_tableOf List.mem_cons_self, Nat.add_zero]

theorem ownerOf_able {coin : OutputRef × H256 × U128} (recipient : H256) {amount : U128}
    (part : twoCoins.filter (fun other => (ownerOf coin recipient amount).filter (.sr25519Signature ⟨other.2.1⟩)) =
      [coin]) (positive : 0 < amount.toNat) (enough : amount.toNat ≤ coin.2.2.toNat) :
    letI := signingHost
    (ownerOf coin recipient amount).Able (coinState twoCoins) := by
  let := signingHost
  have keys : (tableOf [coin]).keys.card ≤ 1 := by
    have count := congrArg List.length (ascending_one coin).sort_keys
    rw [Finset.length_sort] at count
    exact count.le
  refine ⟨?_, ?_, ?_⟩
  · exact {
      tracks := tracks_part ascending_two part
      height := ⟨1, height_coinState _⟩
      steady := fun _ _ => rfl
      signs := fun _ _ _ _ _ => rfl
      keys := fun _ _ _ _ => ⟨_, rfl⟩
      inRange := (total_one coin).trans_lt coin.2.2.isLt
      few := lt_of_le_of_lt keys (by decide) }
  · have whole : load BitVec.toNat [amount] = amount.toNat := by rw [load_cons, load_nil, Nat.add_zero]
    exact ⟨List.nodup_nil, by simp [ownerOf], by simp [ownerOf], by simpa [ownerOf], .inr (by simp [ownerOf]),
      whole.trans_lt amount.isLt, Nat.one_lt_two_pow (by decide)⟩
  · show load BitVec.toNat [amount] - load (valueAt (tableOf [coin])) [] ≤ (tableOf [coin]).total _
    rw [total_one, load_cons, load_nil, load_nil]
    omega

theorem selectInputs_ownerOf {coin : OutputRef × H256 × U128} (recipient : H256) {amount : U128}
    (positive : 0 < amount)
    (picked : pickUnspent true (amount - 0) 0 [] [(encode coin.1, encode coin.2)] = .ok (some [coin.1])) :
    selectInputs true (ownerOf coin recipient amount).db (ownerOf coin recipient amount).args =
      .ok ([coinTo recipient amount], [] ++ [coin.1]) := by
  refine selectInputs_of_some (foldlM_addAssign_single true amount) rfl positive ?_
  exact (congrArg (pickUnspent true (amount - 0) 0 []) (ascending_one coin).iter_tableOf).trans picked

/-- The holder of 5 pays 3 to the holder of 10, who pays 7 back. -/
theorem payments_side_by_side_pair :
    letI := signingHost
    ∃ (one two : Sent OuterConstraintChecker) (s' : Storage),
      spendCoins OuterConstraintChecker true numberedKeystore (fun _ => coinState twoCoins)
        { Db.empty with unspent := tableOf [(pairRef 0, walletKey, 5)] } ⟨[], otherKey, [3]⟩ = .ok one ∧
      spendCoins OuterConstraintChecker true numberedKeystore (fun _ => coinState twoCoins)
        { Db.empty with unspent := tableOf [(pairRef 1, otherKey, 10)] } ⟨[], walletKey, [7]⟩ = .ok two ∧
      Applied (coinState twoCoins) [one.transaction, two.transaction] s' ∧
      Applied (coinState twoCoins) [two.transaction, one.transaction] s' := by
  let := signingHost
  let first := ownerOf (pairRef 0, walletKey, 5) otherKey 3
  let second := ownerOf (pairRef 1, otherKey, 10) walletKey 7
  have able : ∀ payer ∈ [first, second], payer.Able (coinState twoCoins) := by
    refine List.forall_mem_cons.mpr ⟨?_, List.forall_mem_singleton.mpr ?_⟩
    · exact ownerOf_able otherKey (by decide) (by decide) (by decide)
    · exact ownerOf_able walletKey (by decide) (by decide) (by decide)
  have apart : [first, second].Pairwise Payer.Apart := by
    refine List.pairwise_pair.mpr fun v mine => ?_
    obtain rfl := of_decide_eq_true mine
    decide
  obtain ⟨sent, sends, applied⟩ := payments_side_by_side (C := OuterConstraintChecker) true able apart
  have firstSends := (sends first List.mem_cons_self).1
  have secondSends := (sends second (List.mem_cons_of_mem _ List.mem_cons_self)).1
  have selected := @selectInputs_ownerOf (pairRef 0, walletKey, 5) otherKey 3 (by decide) rfl
  have selected' := @selectInputs_ownerOf (pairRef 1, otherKey, 10) walletKey 7 (by decide) rfl
  obtain ⟨⟨one, two⟩, both, computed⟩ := Outcome.exists_of_any
    (x := do
      let one ← spendCoins OuterConstraintChecker true first.keystore first.node first.db first.args
      let two ← spendCoins OuterConstraintChecker true second.keystore second.node second.db second.args
      return (one, two))
    (p := fun sents => (∀ t ∈ [sents.1.transaction, sents.2.transaction],
        ∀ t' ∈ [sents.1.transaction, sents.2.transaction],
        Host.blake2_256 (preimage t) = Host.blake2_256 (preimage t') → preimage t = preimage t') ∧
      ∀ line ∈ sents.1.created ++ sents.2.created,
        peekUtxo OuterVerifier (coinState twoCoins) line.1 = none) (by
    rw [spendCoins, spendCoins, selected, selected']
    decide +kernel)
  obtain ⟨hashes, free⟩ := of_decide_eq_true computed
  obtain ⟨_, first', rest⟩ := Outcome.bind_ok both
  obtain ⟨_, second', rest⟩ := Outcome.bind_ok rest
  cases Outcome.pure_ok rest
  obtain rfl : sent first = one := Except.ok.inj (firstSends.symm.trans first')
  obtain rfl : sent second = two := Except.ok.inj (secondSends.symm.trans second')
  have distinct : CollisionFree {t | ∃ payer ∈ [first, second], t = (sent payer).transaction} := by
    refine collisionFree_of_list (fun t member => ?_) hashes
    obtain ⟨payer, listed, rfl⟩ := member
    exact List.mem_map_of_mem (f := fun payer => (sent payer).transaction) listed
  obtain ⟨s', orders, _⟩ := applied distinct (List.forall_mem_cons.mpr
    ⟨fun line inside => free line (List.mem_append_left _ inside),
      List.forall_mem_singleton.mpr fun line inside => free line (List.mem_append_right _ inside)⟩)
  exact ⟨_, _, s', firstSends, secondSends, orders _ (List.Perm.refl _), orders _ (List.Perm.swap _ _ [])⟩

end Tuxedo.Wallet
