import Mathlib.Algebra.BigOperators.Group.Finset.Piecewise
import Tuxedo.Scale.Canonical
import Tuxedo.Wallet.Spend

/-!
# Balances

The wallet sums up its table for each owner. The sums are the values that the owners have on the
chain, for as long as they stay in range.
-/

namespace Tuxedo.Wallet
open Scale Executive TransparentUtxoSet Template Prefix

/-- `and_modify(|old| *old += amount).or_insert(amount)`. -/
def addBalance (checks : Bool) (balances : Store H256 U128) (record : H256 × U128) :
    Outcome Error (Store H256 U128) :=
  match balances.get record.1 with
  | some old => do
    let sum ← addAssign checks old record.2
    return balances.set record.1 sum
  | none => return balances.set record.1 record.2

def addRow (checks : Bool) (balances : Store H256 U128) (rawData : Bytes × Bytes) :
    Outcome Error (Store H256 U128) := do
  let record ← decodeValue rawData.2
  addBalance checks balances record

def getBalances (checks : Bool) (db : Db) : Outcome Error (Store H256 U128) :=
  (iter db.unspent).foldlM (addRow checks) Store.empty

/-- The total under the balances, which come in the order of the hash map. -/
def showBalance (checks : Bool) (balances : List (H256 × U128)) : Outcome Error U128 :=
  balances.foldlM (fun total account => addAssign checks total account.2) 0

/-! ### Weights of coins -/

/-- What a record adds to the balance of an owner. -/
def share (owner : H256) (record : H256 × U128) : Nat := if record.1 = owner then record.2.toNat else 0

def balanceOf (balances : Store H256 U128) (owner : H256) : Nat :=
  balances.weightAt (fun _ balance => balance.toNat) owner

/-- The coins of a table that carry a weight. -/
def tableTotal (weight : H256 × U128 → Nat) (tree : Tree) : Nat :=
  tree.total fun _ ivec => (decode (α := H256 × U128) ivec).elim 0 fun record => weight record.1

/-- The coins on the chain that the filter accepts, with their weights. -/
def chainTotal (filter : OuterVerifier → Bool) (weight : H256 × U128 → Nat) (s : Storage) : Nat :=
  s.total fun k d =>
    if k.length = 36 then
      ((decode (α := Template.Output) d).bind fun output => trackedCoin filter output.1).elim 0 weight
    else 0

/-! ### The rows -/

def coinsOf (tree : Tree) : List (OutputRef × H256 × U128) :=
  (iter tree).filterMap fun row =>
    (decode row.1).bind fun r => (decode row.2).map fun record => (r.1, record.1)

theorem mem_iter {tree : Tree} {row : Bytes × Bytes} : row ∈ iter tree ↔ tree.get row.1 = some row.2 := by
  obtain ⟨k, v⟩ := row
  rw [iter, List.mem_filterMap]
  constructor
  · intro h
    obtain ⟨k', _, found⟩ := h
    obtain ⟨v', stored, same⟩ := Option.map_eq_some_iff.mp found
    cases same
    exact stored
  · intro stored
    exact ⟨k, (Finset.mem_sort _).mpr (Store.mem_keys.mpr ⟨v, stored⟩), by rw [stored]; rfl⟩

theorem iter_eq_coinsOf {tree : Tree} (coins : Coins tree) :
    iter tree = (coinsOf tree).map fun coin => (encode coin.1, encode coin.2) := by
  rw [coinsOf, List.map_filterMap]
  refine (List.filterMap_some.symm.trans (List.filterMap_congr fun row member => ?_))
  obtain ⟨k, v⟩ := row
  obtain ⟨r, record, rfl, rfl⟩ := coins k v (mem_iter.mp member)
  simp

theorem mem_coinsOf {tree : Tree} (coins : Coins tree) {coin : OutputRef × H256 × U128} :
    coin ∈ coinsOf tree ↔ tree.get (encode coin.1) = some (encode coin.2) := by
  have row : (encode coin.1, encode coin.2) ∈ iter tree ↔ coin ∈ coinsOf tree := by
    rw [iter_eq_coinsOf coins]
    constructor
    · intro member
      obtain ⟨coin', inside, same⟩ := List.mem_map.mp member
      obtain ⟨key, value⟩ := Prod.mk.inj same
      rwa [← Prod.ext (encode_injective key) (encode_injective value)]
    · exact fun member => List.mem_map.mpr ⟨coin, member, rfl⟩
  rw [← row, mem_iter]

theorem load_coinsOf {tree : Tree} (coins : Coins tree) (weight : H256 × U128 → Nat) :
    load (fun coin : OutputRef × H256 × U128 => weight coin.2) (coinsOf tree) = tableTotal weight tree := by
  have rows : ∀ w : Bytes → Nat, load (fun row : Bytes × Bytes => w row.2) (iter tree) = tree.total fun _ => w := by
    intro w
    rw [Store.total, ← Finset.sort_toFinset tree.keys (· ≤ ·), List.sum_toFinset _ (tree.keys.sort_nodup _)]
    have each : ∀ ks : List Bytes, (∀ k ∈ ks, k ∈ tree.keys) →
        load (fun row : Bytes × Bytes => w row.2) (ks.filterMap fun k => (tree.get k).map fun v => (k, v)) =
          (ks.map (tree.weightAt fun _ => w)).sum := by
      intro ks present
      induction ks with
      | nil => rfl
      | cons k ks ih =>
        obtain ⟨first, rest⟩ := List.forall_mem_cons.mp present
        obtain ⟨v, stored⟩ := Store.mem_keys.mp first
        rw [List.filterMap_cons_some (b := (k, v)) (by rw [stored]; rfl), load_cons, ih rest, List.map_cons,
          List.sum_cons, Store.weightAt, stored]
    exact each _ fun k member => (Finset.mem_sort _).mp member
  rw [tableTotal, ← rows, iter_eq_coinsOf coins, load, load, List.map_map]
  refine congrArg List.sum (List.map_congr_left fun coin _ => ?_)
  simp

/-! ### The loop -/

section
variable {checks : Bool} {balances next final : Store H256 U128} {record : H256 × U128} {records : List (H256 × U128)}

theorem balanceOf_lt (balances : Store H256 U128) (owner : H256) : balanceOf balances owner < 2 ^ 128 := by
  unfold balanceOf Store.weightAt
  split
  · exact BitVec.isLt _
  · omega

theorem balanceOf_set (balances : Store H256 U128) (owner other : H256) (amount : U128) :
    balanceOf (balances.set owner amount) other = if other = owner then amount.toNat else balanceOf balances other := by
  unfold balanceOf Store.weightAt
  by_cases same : other = owner <;> simp [Store.get_set, same]

theorem addBalance_ok (h : addBalance checks balances record = .ok next) (owner : H256) :
    balanceOf next owner = (balanceOf balances owner + share owner record) % 2 ^ 128 ∧
      ((next.get owner).isSome ↔ (balances.get owner).isSome ∨ record.1 = owner) := by
  have small := balanceOf_lt balances owner
  unfold addBalance at h
  have written : ∃ sum : U128, next = balances.set record.1 sum ∧
      sum.toNat = (balanceOf balances record.1 + record.2.toNat) % 2 ^ 128 := by
    cases found : balances.get record.1 with
    | some old =>
      rw [found] at h
      obtain ⟨sum, added, h⟩ := Outcome.bind_ok h
      have before : balanceOf balances record.1 = old.toNat := by simp [balanceOf, Store.weightAt, found]
      exact ⟨sum, Outcome.pure_ok h, by rw [addAssign_ok added, before]⟩
    | none =>
      rw [found] at h
      have before : balanceOf balances record.1 = 0 := by simp [balanceOf, Store.weightAt, found]
      refine ⟨record.2, Outcome.pure_ok h, ?_⟩
      rw [before, Nat.zero_add, Nat.mod_eq_of_lt record.2.isLt]
  obtain ⟨sum, rfl, value⟩ := written
  rw [balanceOf_set, Store.get_set, share]
  by_cases same : owner = record.1
  · rw [if_pos same, if_pos same, if_pos same.symm, value, same]
    simp
  · rw [if_neg same, if_neg same, if_neg (Ne.symm same), Nat.add_zero, Nat.mod_eq_of_lt small]
    simp [Ne.symm same]

theorem addBalance_returns (small : balanceOf balances record.1 + record.2.toNat < 2 ^ 128) :
    ∃ next, addBalance checks balances record = .ok next := by
  unfold addBalance
  cases found : balances.get record.1 with
  | some old =>
    have before : balanceOf balances record.1 = old.toNat := by simp [balanceOf, Store.weightAt, found]
    rw [before] at small
    exact ⟨_, Outcome.bind_of_ok (addAssign_of_lt checks small)⟩
  | none => exact ⟨_, rfl⟩

theorem addBalances_ok (h : records.foldlM (addBalance checks) balances = .ok final) (owner : H256) :
    balanceOf final owner = (balanceOf balances owner + load (share owner) records) % 2 ^ 128 ∧
      ((final.get owner).isSome ↔ (balances.get owner).isSome ∨ ∃ record ∈ records, record.1 = owner) := by
  induction records generalizing balances with
  | nil =>
    obtain rfl := Outcome.pure_ok h
    rw [load_nil, Nat.add_zero, Nat.mod_eq_of_lt (balanceOf_lt final owner)]
    simp
  | cons record records ih =>
    obtain ⟨next, first, later⟩ := Outcome.bind_ok h
    obtain ⟨value, listed⟩ := addBalance_ok first owner
    obtain ⟨sum, known⟩ := ih later
    refine ⟨?_, ?_⟩
    · rw [sum, value, Nat.mod_add_mod, load_cons, Nat.add_assoc]
    · rw [known, listed]
      simp [or_assoc]

theorem addBalances_returns
    (small : ∀ owner, balanceOf balances owner + load (share owner) records < 2 ^ 128) :
    ∃ final, records.foldlM (addBalance checks) balances = .ok final := by
  induction records generalizing balances with
  | nil => exact ⟨balances, rfl⟩
  | cons record records ih =>
    have here := small record.1
    rw [load_cons, share, if_pos rfl] at here
    obtain ⟨next, first⟩ : ∃ next, addBalance checks balances record = .ok next := addBalance_returns (by omega)
    have rest : ∀ owner, balanceOf next owner + load (share owner) records < 2 ^ 128 := by
      intro owner
      have bound := small owner
      rw [load_cons] at bound
      rw [(addBalance_ok first owner).1, Nat.mod_eq_of_lt (by omega)]
      omega
    obtain ⟨final, later⟩ := ih rest
    exact ⟨final, (Outcome.bind_of_ok first).trans later⟩

theorem getBalances_eq {db : Db} (coins : Coins db.unspent) :
    getBalances checks db = ((coinsOf db.unspent).map Prod.snd).foldlM (addBalance checks) Store.empty := by
  rw [getBalances, iter_eq_coinsOf coins, List.foldlM_map, List.foldlM_map]
  refine congrArg (fun f => (coinsOf db.unspent).foldlM f Store.empty) (funext fun balances => funext fun coin => ?_)
  exact Outcome.bind_of_ok (decodeValue_encode coin.2)

theorem load_records {tree : Tree} (coins : Coins tree) (weight : H256 × U128 → Nat) :
    load weight ((coinsOf tree).map Prod.snd) = tableTotal weight tree := by
  rw [← load_coinsOf coins, load, load, List.map_map]
  rfl

end

/-! ### The table against the chain -/

theorem exists_outputRef {k : Bytes} (width : k.length = 36) : ∃ r : OutputRef, encode r = k := by
  have front : (k.take 32).length = 32 := by simp [width]
  have back : (k.drop 32).length = 4 := by simp [width]
  have small := ofLeBytes_lt (k.drop 32)
  rw [back] at small
  refine ⟨⟨⟨k.take 32, front⟩, UInt32.ofNat (ofLeBytes (k.drop 32))⟩, ?_⟩
  have index : leBytes 4 (UInt32.ofNat (ofLeBytes (k.drop 32))).toNat = k.drop 32 := by
    rw [UInt32.toNat_ofNat', Nat.mod_eq_of_lt (by omega), ← back, leBytes_ofLeBytes]
  show k.take 32 ++ leBytes 4 (UInt32.ofNat (ofLeBytes (k.drop 32))).toNat = k
  rw [index, List.take_append_drop]

section
variable {filter : OuterVerifier → Bool} {s : Storage}

theorem Tracks.tableTotal_eq {tree : Tree} (tracks : Tracks filter (peekUtxo OuterVerifier s) tree)
    (weight : H256 × U128 → Nat) : tableTotal weight tree = chainTotal filter weight s := by
  refine Store.total_congr fun k => ?_
  by_cases width : k.length = 36
  · obtain ⟨r, rfl⟩ := exists_outputRef width
    unfold Store.weightAt
    rw [tracks.get_ref r, Ledger.view, peekUtxo]
    cases stored : s.get (encode r) with
    | none => rfl
    | some d =>
      cases decoded : decode (α := Template.Output) d with
      | none => simp [decoded]
      | some output => cases kept : trackedCoin filter output.1 <;> simp [decoded, kept]
  · have absent : tree.get k = none := by
      rw [Option.eq_none_iff_forall_ne_some]
      intro v stored
      obtain ⟨r, rfl⟩ := tracks.refs k v stored
      exact width (length_encode_outputRef r)
    unfold Store.weightAt
    rw [absent]
    cases s.get k <;> simp [width]

/-- The shares of all owners make up the whole. -/
theorem sum_shares {owners : Finset H256} {records : List (H256 × U128)}
    (covers : ∀ record ∈ records, record.1 ∈ owners) :
    ∑ owner ∈ owners, load (share owner) records = load (fun record => record.2.toNat) records := by
  induction records with
  | nil => simp
  | cons record records ih =>
    obtain ⟨first, rest⟩ := List.forall_mem_cons.mp covers
    simp only [load_cons, Finset.sum_add_distrib, ih rest, share, Finset.sum_ite_eq, first, if_true]

/-- The entries of the hash map in any order. -/
structure Lists (balances : Store H256 U128) (accounts : List (H256 × U128)) : Prop where
  distinct : (accounts.map Prod.fst).Nodup
  entries : ∀ owner balance, (owner, balance) ∈ accounts ↔ balances.get owner = some balance

theorem Lists.load_eq {balances : Store H256 U128} {accounts : List (H256 × U128)} (lists : Lists balances accounts) :
    load (fun account => account.2.toNat) accounts = ∑ owner ∈ balances.keys, balanceOf balances owner := by
  have owners : (accounts.map Prod.fst).toFinset = balances.keys := by
    ext owner
    rw [List.mem_toFinset, List.mem_map, Store.mem_keys]
    constructor
    · intro h
      obtain ⟨account, member, same⟩ := h
      exact ⟨account.2, (lists.entries owner account.2).mp (same ▸ member)⟩
    · intro h
      obtain ⟨balance, found⟩ := h
      exact ⟨(owner, balance), (lists.entries owner balance).mpr found, rfl⟩
  rw [← owners, List.sum_toFinset _ lists.distinct, List.map_map, load]
  refine congrArg List.sum (List.map_congr_left fun account member => ?_)
  have found := (lists.entries account.1 account.2).mp member
  simp [balanceOf, Store.weightAt, found]

/-- The wallet of a table in step with the chain shows for each owner what the owner has on the chain, and
under them what all of them have, as long as it is in range. -/
theorem balances_follow_chain (checks : Bool) {db : Db}
    (tracks : Tracks filter (peekUtxo OuterVerifier s) db.unspent) :
    ((∃ balances, getBalances checks db = .ok balances ∧
        ∀ owner, balanceOf balances owner = chainTotal filter (share owner) s) ↔
      ∀ owner, chainTotal filter (share owner) s < 2 ^ 128) ∧
    ∀ balances, getBalances checks db = .ok balances →
      (∀ owner, balanceOf balances owner = chainTotal filter (share owner) s % 2 ^ 128) ∧
      (∀ owner, (balances.get owner).isSome ↔
        ∃ r output amount, peekUtxo OuterVerifier s r = some output ∧
          trackedCoin filter output = some (owner, amount)) ∧
      ∀ accounts, Lists balances accounts →
        ((∃ total, showBalance checks accounts = .ok total ∧
            total.toNat = chainTotal filter (fun record => record.2.toNat) s) ↔
          chainTotal filter (fun record => record.2.toNat) s < 2 ^ 128) := by
  have coins := tracks.coins
  have whole : ∀ weight, load weight ((coinsOf db.unspent).map Prod.snd) = chainTotal filter weight s :=
    fun weight => (load_records coins weight).trans (tracks.tableTotal_eq weight)
  have nothing : ∀ owner, balanceOf Store.empty owner = 0 := by
    intro owner
    simp [balanceOf, Store.weightAt]
  have read : ∀ balances, getBalances checks db = .ok balances → ∀ owner,
      balanceOf balances owner = chainTotal filter (share owner) s % 2 ^ 128 ∧
      ((balances.get owner).isSome ↔ ∃ record ∈ (coinsOf db.unspent).map Prod.snd, record.1 = owner) := by
    intro balances summed owner
    rw [getBalances_eq coins] at summed
    obtain ⟨value, listed⟩ := addBalances_ok summed owner
    rw [nothing, Nat.zero_add, whole] at value
    simp only [Store.get_empty, Option.isSome_none, Bool.false_eq_true, false_or] at listed
    exact ⟨value, listed⟩
  refine ⟨⟨?_, fun small => ?_⟩, fun balances summed => ⟨fun owner => (read balances summed owner).1, ?_, ?_⟩⟩
  · intro h owner
    obtain ⟨balances, _, exact⟩ := h
    rw [← exact owner]
    exact balanceOf_lt balances owner
  · have fits : ∀ owner,
        balanceOf Store.empty owner + load (share owner) ((coinsOf db.unspent).map Prod.snd) < 2 ^ 128 := by
      intro owner
      rw [nothing, Nat.zero_add, whole]
      exact small owner
    obtain ⟨balances, summed⟩ := addBalances_returns fits
    rw [← getBalances_eq coins] at summed
    refine ⟨balances, summed, fun owner => ?_⟩
    rw [(read balances summed owner).1, Nat.mod_eq_of_lt (small owner)]
  · intro owner
    rw [(read balances summed owner).2]
    constructor
    · rintro ⟨record, member, rfl⟩
      obtain ⟨coin, inside, rfl⟩ := List.mem_map.mp member
      have stored := (mem_coinsOf coins).mp inside
      rw [tracks.get_ref] at stored
      obtain ⟨record, viewed, same⟩ := Option.map_eq_some_iff.mp stored
      obtain ⟨output, present, kept⟩ := Option.bind_eq_some_iff.mp viewed
      exact ⟨coin.1, output, coin.2.2, present, kept.trans (congrArg some (encode_injective same))⟩
    · intro h
      obtain ⟨r, output, amount, present, kept⟩ := h
      have stored : db.unspent.get (encode r) = some (encode (owner, amount)) := by
        rw [tracks.get_ref, Ledger.view, present, Option.bind_some, kept]
        rfl
      exact ⟨(owner, amount), List.mem_map.mpr ⟨(r, owner, amount), (mem_coinsOf coins).mpr stored, rfl⟩, rfl⟩
  · intro accounts lists
    constructor
    · intro h
      obtain ⟨total, _, exact⟩ := h
      rw [← exact]
      exact total.isLt
    · intro small
      have part : ∀ owner, chainTotal filter (share owner) s < 2 ^ 128 := by
        intro owner
        rw [← whole] at small ⊢
        refine lt_of_le_of_lt (List.sum_le_sum fun record _ => ?_) small
        unfold share
        split <;> omega
      have listed : ∀ record ∈ (coinsOf db.unspent).map Prod.snd, record.1 ∈ balances.keys := by
        intro record member
        have some := (read balances summed record.1).2.mpr ⟨record, member, rfl⟩
        exact Store.mem_keys.mpr (Option.isSome_iff_exists.mp some)
      have sum : load (fun account => account.2.toNat) accounts =
          chainTotal filter (fun record => record.2.toNat) s := by
        rw [lists.load_eq, ← whole, ← sum_shares listed]
        refine Finset.sum_congr rfl fun owner _ => ?_
        rw [(read balances summed owner).1, Nat.mod_eq_of_lt (part owner), whole]
      have zero : (0 : U128).toNat = 0 := rfl
      obtain ⟨total, added, value⟩ := foldlM_exact
        (fun _ (account : H256 × U128) (_ : account ∈ accounts) => addAssign_exact checks)
        (by rwa [sum, zero, Nat.zero_add])
      exact ⟨total, added, by rw [value, sum, zero, Nat.zero_add]⟩

end

theorem coinsOf_tableOf {coins : List (OutputRef × H256 × U128)} (ascending : Ascending coins) :
    coinsOf (tableOf coins) = coins := by
  have same := (iter_eq_coinsOf (coins_tableOf coins)).symm.trans ascending.iter_tableOf
  refine Function.Injective.list_map (f := fun coin : OutputRef × H256 × U128 =>
    ((encode coin.1 : Bytes), (encode coin.2 : Bytes))) ?_ same
  intro coin coin' equal
  obtain ⟨key, value⟩ := Prod.mk.inj equal
  exact Prod.ext (encode_injective key) (encode_injective value)

/-- Coins of 5 and 10 are a balance of 15. -/
theorem balances_follow_pair :
    ∃ balances, getBalances true (pairDb 5 10) = .ok balances ∧ balanceOf balances walletKey = 15 := by
  have tracks : Tracks walletFilter (peekUtxo OuterVerifier (coinState (pairCoins 5 10))) (pairDb 5 10).unspent :=
    tracks_coinState (ascending_pair 5 10) (by decide)
  have shares : ∀ owner, chainTotal walletFilter (share owner) (coinState (pairCoins 5 10)) =
      share owner (walletKey, 5) + share owner (walletKey, 10) := by
    intro owner
    have table := (load_coinsOf tracks.coins (share owner)).trans (tracks.tableTotal_eq (share owner))
    rw [← table]
    exact congrArg (load fun coin : OutputRef × H256 × U128 => share owner coin.2)
      (coinsOf_tableOf (ascending_pair 5 10))
  obtain ⟨balances, summed, exact⟩ := (balances_follow_chain true tracks).1.mpr fun owner => by
    rw [shares, share, share]
    split <;> decide
  refine ⟨balances, summed, ?_⟩
  rw [exact, shares]
  rfl

end Tuxedo.Wallet
