import Mathlib.Data.BitVec
import Mathlib.Data.Finset.Sort
import Tuxedo.Lib.Prefix
import Tuxedo.Wallet.Unspent

/-!
# Coin selection

The wallet takes unspent coins in key order until their amounts reach a target. The sums are `u128`
sums: with overflow checks they panic above the range, and without they wrap around.
-/

namespace Tuxedo.Wallet
open Scale Template Prefix

/-- `total += amount`, in a build with overflow checks or without. -/
def addAssign (checks : Bool) (total amount : U128) : Outcome Error U128 :=
  if checks then expect (Money.checkedAdd total amount) else .ok (total + amount)

def getUnspent (db : Db) (outputRef : OutputRef) : Outcome Error (Option (H256 × U128)) :=
  match db.unspent.get (encode outputRef) with
  | none => return none
  | some ivec => do
    let record ← decodeValue ivec
    return some record

/-- The rows of a table, in the order of their keys. -/
def iter (tree : Tree) : List (Bytes × Bytes) :=
  (tree.keys.sort (· ≤ ·)).filterMap fun k => (tree.get k).map fun v => (k, v)

/-- The loop of `get_arbitrary_unspent_set` at the rows that are left. -/
def pickUnspent (checks : Bool) (target : U128) (total : U128) (keepers : List OutputRef) :
    List (Bytes × Bytes) → Outcome Error (Option (List OutputRef))
  | [] => if total < target then return none else return some keepers
  | (outputRefIvec, ownerAmountIvec) :: unspentIter =>
    if total < target then do
      let outputRef : OutputRef ← decodeValue outputRefIvec
      let ownerAmount : H256 × U128 ← decodeValue ownerAmountIvec
      let total ← addAssign checks total ownerAmount.2
      pickUnspent checks target total (keepers ++ [outputRef]) unspentIter
    else return some keepers

def getArbitraryUnspentSet (checks : Bool) (db : Db) (target : U128) : Outcome Error (Option (List OutputRef)) :=
  pickUnspent checks target 0 [] (iter db.unspent)

structure SpendArgs where
  input : List OutputRef
  recipient : H256
  outputAmount : List U128

/-- The output that gives a coin to the recipient. -/
def coinTo (recipient : H256) (amount : U128) : Template.Output :=
  ⟨⟨⟨encode (⟨amount⟩ : Money.Coin 0), Money.encode_coin_small amount⟩, UtxoData.typeId (Money.Coin 0)⟩,
    .sr25519Signature ⟨recipient⟩⟩

/-- One step of the sum over the chosen inputs. -/
def addChosen (checks : Bool) (db : Db) (total : U128) (outputRef : OutputRef) : Outcome Error U128 := do
  let unspent ← getUnspent db outputRef
  let ownerAmount ← okOr unspent (.message "user-specified output ref not found in local database")
  addAssign checks total ownerAmount.2

/-- `spend_coins_helper` up to its first request to the node: the outputs of the transaction and the
references of its inputs. -/
def selectInputs (checks : Bool) (db : Db) (args : SpendArgs) :
    Outcome Error (List Template.Output × List OutputRef) := do
  let totalOutputAmount ← args.outputAmount.foldlM (addAssign checks) 0
  let outputs := args.outputAmount.map (coinTo args.recipient)
  let totalInputAmount ← args.input.foldlM (addChosen checks db) 0
  if totalInputAmount < totalOutputAmount then
    match ← getArbitraryUnspentSet checks db (totalOutputAmount - totalInputAmount) with
    | some moreInputs => return (outputs, args.input ++ moreInputs)
    | none => .error (.err (.message "Not enough value in database to construct transaction"))
  else return (outputs, args.input)

/-! ### The sums -/

theorem addAssign_of_lt (checks : Bool) {a b : U128} (small : a.toNat + b.toNat < 2 ^ 128) :
    addAssign checks a b = .ok (a + b) := by
  cases checks with
  | false => rfl
  | true =>
    rw [addAssign, if_pos rfl, Money.checkedAdd, if_pos small]
    rfl

theorem addAssign_ok {checks : Bool} {a b c : U128} (h : addAssign checks a b = .ok c) :
    c.toNat = (a.toNat + b.toNat) % 2 ^ 128 := by
  cases checks with
  | false =>
    cases Except.ok.inj h
    exact BitVec.toNat_add a b
  | true =>
    have exact := Money.checkedAdd_eq_some.mp (Outcome.expect_ok h)
    have bound := c.isLt
    omega

theorem addAssign_exact (checks : Bool) {total amount : U128} (small : total.toNat + amount.toNat < 2 ^ 128) :
    ∃ sum, addAssign checks total amount = .ok sum ∧ sum.toNat = total.toNat + amount.toNat := by
  refine ⟨_, addAssign_of_lt checks small, ?_⟩
  rw [BitVec.toNat_add, Nat.mod_eq_of_lt small]

theorem foldlM_exact {α : Type} {step : U128 → α → Outcome Error U128} {weight : α → Nat} {xs : List α} {total : U128}
    (exact : ∀ total, ∀ x ∈ xs, total.toNat + weight x < 2 ^ 128 →
      ∃ sum, step total x = .ok sum ∧ sum.toNat = total.toNat + weight x)
    (small : total.toNat + load weight xs < 2 ^ 128) :
    ∃ sum, xs.foldlM step total = .ok sum ∧ sum.toNat = total.toNat + load weight xs := by
  induction xs generalizing total with
  | nil => exact ⟨total, rfl, rfl⟩
  | cons x xs ih =>
    rw [load_cons] at small ⊢
    obtain ⟨next, first, added⟩ := exact total x List.mem_cons_self (by omega)
    have rest : next.toNat + load weight xs < 2 ^ 128 := by omega
    obtain ⟨sum, later, whole⟩ := ih (fun total y member => exact total y (List.mem_cons_of_mem x member)) rest
    exact ⟨sum, (Outcome.bind_of_ok first).trans later, by omega⟩

/-! ### The rows of the table -/

/-- The table has an output reference at every key and the record of a coin behind it. -/
def Coins (tree : Tree) : Prop :=
  ∀ k v, tree.get k = some v → ∃ (r : OutputRef) (record : H256 × U128), k = encode r ∧ v = encode record

/-- The amount in a record. -/
def amount (ivec : Bytes) : Nat :=
  match decode (α := H256 × U128) ivec with
  | some (record, _) => record.2.toNat
  | none => 0

/-- The amount of the coin at a reference, zero when there is none. -/
def valueAt (tree : Tree) (r : OutputRef) : Nat := tree.weightAt (fun _ => amount) (encode r)

/-- The references of the table in key order. -/
def unspentRefs (tree : Tree) : List OutputRef :=
  (tree.keys.sort (· ≤ ·)).filterMap fun k => (decode k).map Prod.fst

theorem Tracks.coins {filter : OuterVerifier → Bool} {utxos : OutputRef → Option Template.Output} {unspent : Tree}
    (tracks : Tracks filter utxos unspent) : Coins unspent := by
  intro k v stored
  obtain ⟨r, key⟩ := tracks.refs k v stored
  obtain ⟨record, value⟩ := tracks.records k v stored
  exact ⟨r, record, key, value⟩

theorem amount_encode (record : H256 × U128) : amount (encode record) = record.2.toNat := by
  simp [amount]

theorem amount_lt (ivec : Bytes) : amount ivec < 2 ^ 128 := by
  unfold amount
  split
  · rename_i record _ _
    exact record.2.isLt
  · omega

theorem valueAt_lt (tree : Tree) (r : OutputRef) : valueAt tree r < 2 ^ 128 := by
  unfold valueAt Store.weightAt
  split
  · exact amount_lt _
  · omega

section
variable {tree : Tree}

theorem encode_unspentRefs (coins : Coins tree) : (unspentRefs tree).map encode = tree.keys.sort (· ≤ ·) := by
  rw [unspentRefs, List.map_filterMap]
  refine (List.filterMap_congr fun k member => ?_).trans List.filterMap_some
  obtain ⟨v, stored⟩ := Store.mem_keys.mp ((Finset.mem_sort _).mp member)
  obtain ⟨r, _, rfl, _⟩ := coins k v stored
  simp

theorem unspentRefs_nodup (coins : Coins tree) : (unspentRefs tree).Nodup := by
  have distinct := tree.keys.sort_nodup (· ≤ ·)
  rw [← encode_unspentRefs coins] at distinct
  exact distinct.of_map encode

theorem load_unspentRefs (coins : Coins tree) :
    load (valueAt tree) (unspentRefs tree) = tree.total fun _ => amount := by
  calc load (valueAt tree) (unspentRefs tree)
      = (((unspentRefs tree).map encode).map (tree.weightAt fun _ => amount)).sum := by
        rw [List.map_map]
        rfl
    _ = ∑ k ∈ (tree.keys.sort (· ≤ ·)).toFinset, tree.weightAt (fun _ => amount) k := by
        rw [encode_unspentRefs coins, List.sum_toFinset _ (tree.keys.sort_nodup _)]
    _ = tree.total fun _ => amount := by
        rw [Finset.sort_toFinset, Store.total]

/-- The rows of a table with the coins at these references. -/
def Rows (value : OutputRef → Nat) (refs : List OutputRef) (rows : List (Bytes × Bytes)) : Prop :=
  List.Forall₂ (fun r row => ∃ record : H256 × U128, row = (encode r, encode record) ∧ record.2.toNat = value r)
    refs rows

theorem rows_of_keys (coins : Coins tree) {ks : List Bytes} (stored : ∀ k ∈ ks, k ∈ tree.keys) :
    Rows (valueAt tree) (ks.filterMap fun k => (decode k).map Prod.fst)
      (ks.filterMap fun k => (tree.get k).map fun v => (k, v)) := by
  induction ks with
  | nil => exact .nil
  | cons k ks ih =>
    obtain ⟨first, rest⟩ := List.forall_mem_cons.mp stored
    obtain ⟨v, found⟩ := Store.mem_keys.mp first
    obtain ⟨r, record, rfl, rfl⟩ := coins k v found
    rw [List.filterMap_cons_some (b := r) (by simp),
      List.filterMap_cons_some (b := (encode r, encode record)) (by simp [found])]
    refine .cons ⟨record, rfl, ?_⟩ (ih rest)
    simp [valueAt, Store.weightAt, found, amount_encode]

theorem rows_iter (coins : Coins tree) : Rows (valueAt tree) (unspentRefs tree) (iter tree) :=
  rows_of_keys coins fun _ member => (Finset.mem_sort _).mp member

end

/-! ### A table that is filled in key order -/

def tableOf (coins : List (OutputRef × H256 × U128)) : Tree :=
  Store.empty.setAll (coins.map fun coin => (encode coin.1, encode coin.2))

/-- The keys go up. -/
def Ascending (coins : List (OutputRef × H256 × U128)) : Prop :=
  (coins.map fun coin => encode coin.1).Pairwise fun k k' : Bytes => k < k'

section
variable {coins : List (OutputRef × H256 × U128)}

theorem coins_tableOf (coins : List (OutputRef × H256 × U128)) : Coins (tableOf coins) := by
  intro k v stored
  rcases Store.get_setAll_cases Store.empty (coins.map fun coin => (encode coin.1, encode coin.2)) k with
    ⟨_, read⟩ | ⟨w, member, read⟩
  · cases (stored.symm.trans read).trans (Store.get_empty k)
  · cases stored.symm.trans read
    obtain ⟨coin, _, same⟩ := List.mem_map.mp member
    obtain ⟨rfl, rfl⟩ := Prod.mk.inj same
    exact ⟨coin.1, coin.2, rfl, rfl⟩

theorem Ascending.nodup (ascending : Ascending coins) : (coins.map fun coin => (encode coin.1 : Bytes)).Nodup := by
  refine List.Pairwise.imp ?_ ascending
  intro k k' below same
  rw [same] at below
  exact List.lt_irrefl k' below

theorem Ascending.get_tableOf (ascending : Ascending coins) {coin : OutputRef × H256 × U128} (member : coin ∈ coins) :
    (tableOf coins).get (encode coin.1) = some (encode coin.2) := by
  refine Store.get_setAll_of_mem ?_ (List.mem_map.mpr ⟨coin, member, rfl⟩)
  rw [List.map_map]
  exact ascending.nodup

theorem Ascending.valueAt_tableOf (ascending : Ascending coins) {r : OutputRef} {record : H256 × U128}
    (member : (r, record) ∈ coins) : valueAt (tableOf coins) r = record.2.toNat := by
  simp [valueAt, Store.weightAt, ascending.get_tableOf member, amount_encode]

theorem Ascending.sort_keys (ascending : Ascending coins) :
    (tableOf coins).keys.sort (· ≤ ·) = coins.map fun coin => encode coin.1 := by
  have same : (tableOf coins).keys = (coins.map fun coin => (encode coin.1 : Bytes)).toFinset := by
    ext k
    rw [Store.mem_keys, List.mem_toFinset]
    constructor
    · intro ⟨v, stored⟩
      by_contra absent
      rw [tableOf, Store.get_setAll_of_notMem (by simpa using absent), Store.get_empty] at stored
      cases stored
    · intro member
      obtain ⟨coin, inside, rfl⟩ := List.mem_map.mp member
      exact ⟨_, ascending.get_tableOf inside⟩
  rw [same]
  exact (List.toFinset_sort _ ascending.nodup).mpr (ascending.imp fun below => List.le_of_lt below)

theorem Ascending.unspentRefs_tableOf (ascending : Ascending coins) :
    unspentRefs (tableOf coins) = coins.map Prod.fst := by
  refine encode_injective.list_map ?_
  rw [encode_unspentRefs (coins_tableOf coins), ascending.sort_keys, List.map_map]
  rfl

theorem Ascending.iter_tableOf (ascending : Ascending coins) :
    iter (tableOf coins) = coins.map fun coin => (encode coin.1, encode coin.2) := by
  rw [iter, ascending.sort_keys, List.filterMap_map]
  refine (List.filterMap_congr fun coin member => ?_).trans (congrFun List.filterMap_eq_map _)
  simp [ascending.get_tableOf member]

end

/-! ### The loop -/

section
variable {checks : Bool} {target : U128} {value : OutputRef → Nat} {refs : List OutputRef} {rows : List (Bytes × Bytes)}

theorem pickUnspent_of_enough {total : U128} (enough : target.toNat ≤ total.toNat) (keepers : List OutputRef)
    (rows : List (Bytes × Bytes)) : pickUnspent checks target total keepers rows = .ok (some keepers) := by
  have stops : ¬total < target := by
    rw [BitVec.lt_def]
    omega
  cases rows <;> exact if_neg stops

theorem pickUnspent_nil {total : U128} (short : total.toNat < target.toNat) (keepers : List OutputRef) :
    pickUnspent checks target total keepers [] = .ok none := if_pos (BitVec.lt_def.mpr short)

theorem pickUnspent_cons {total : U128} (short : total.toNat < target.toNat) (keepers : List OutputRef)
    (r : OutputRef) (record : H256 × U128) (rows : List (Bytes × Bytes)) :
    pickUnspent checks target total keepers ((encode r, encode record) :: rows) =
      (addAssign checks total record.2 >>= fun total => pickUnspent checks target total (keepers ++ [r]) rows) := by
  rw [pickUnspent, if_pos (BitVec.lt_def.mpr short)]
  exact (Outcome.bind_of_ok (decodeValue_encode r)).trans (Outcome.bind_of_ok (decodeValue_encode record))

/-- As long as no sum leaves the range, the loop takes the shortest prefix that is worth the target. -/
theorem pickUnspent_of_fits (table : Rows value refs rows) {total : U128} {keepers : List OutputRef}
    (fits : ∀ q r, q ++ [r] <+: refs → total.toNat + load value q < target.toNat →
      total.toNat + load value (q ++ [r]) < 2 ^ 128) :
    pickUnspent checks target total keepers rows =
      .ok ((shortest? (fun p => target.toNat ≤ total.toNat + load value p) refs).map (keepers ++ ·)) := by
  induction table generalizing total keepers with
  | nil =>
    by_cases short : total.toNat < target.toNat
    · rw [pickUnspent_nil short, shortest?_nil (by simpa using short)]
      rfl
    · rw [pickUnspent_of_enough (by omega), shortest?_of_passes (by simpa using short)]
      simp
  | @cons r row refs rows head table ih =>
    obtain ⟨record, rfl, worth⟩ := head
    by_cases short : total.toNat < target.toNat
    · have small : total.toNat + record.2.toNat < 2 ^ 128 := by
        have first := fits [] r (by simp) (by simpa using short)
        simpa [load_cons, worth] using first
      have sum : (total + record.2).toNat = total.toNat + value r := by
        rw [BitVec.toNat_add, Nat.mod_eq_of_lt small, worth]
      have later : ∀ q r', q ++ [r'] <+: refs → (total + record.2).toNat + load value q < target.toNat →
          (total + record.2).toNat + load value (q ++ [r']) < 2 ^ 128 := by
        intro q r' inside below
        have bound := fits (r :: q) r' ((List.prefix_cons_inj r).mpr inside)
        rw [List.cons_append, load_cons, load_cons] at bound
        omega
      rw [pickUnspent_cons short, addAssign_of_lt checks small]
      refine (ih later).trans ?_
      rw [shortest?_cons (by simpa using short), Option.map_map]
      have same : ∀ p, target.toNat ≤ (total + record.2).toNat + load value p ↔
          target.toNat ≤ total.toNat + load value (r :: p) := by
        intro p
        rw [sum, load_cons, Nat.add_assoc]
      rw [shortest?_congr same]
      simp [Function.comp_def]
    · rw [pickUnspent_of_enough (by omega), shortest?_of_passes (by simpa using short)]
      simp

/-- In any case the loop compares the sums after they wrapped around. -/
theorem pickUnspent_ok (table : Rows value refs rows) {total : U128} {keepers : List OutputRef}
    {answer : Option (List OutputRef)} (h : pickUnspent checks target total keepers rows = .ok answer) :
    answer = (shortest? (fun p => target.toNat ≤ (total.toNat + load value p) % 2 ^ 128) refs).map (keepers ++ ·) := by
  have atNil : ∀ total : U128, (total.toNat + load value []) % 2 ^ 128 = total.toNat := by
    intro total
    rw [load_nil, Nat.add_zero, Nat.mod_eq_of_lt total.isLt]
  induction table generalizing total keepers with
  | nil =>
    by_cases short : total.toNat < target.toNat
    · rw [pickUnspent_nil short] at h
      cases h
      rw [shortest?_nil (by rw [atNil]; omega)]
      rfl
    · rw [pickUnspent_of_enough (by omega)] at h
      cases h
      rw [shortest?_of_passes (by rw [atNil]; omega)]
      simp
  | @cons r row refs rows head table ih =>
    obtain ⟨record, rfl, worth⟩ := head
    by_cases short : total.toNat < target.toNat
    · rw [pickUnspent_cons short] at h
      obtain ⟨sum, added, later⟩ := Outcome.bind_ok h
      have wraps := addAssign_ok added
      rw [ih later, shortest?_cons (by rw [atNil]; omega), Option.map_map]
      have same : ∀ p, target.toNat ≤ (sum.toNat + load value p) % 2 ^ 128 ↔
          target.toNat ≤ (total.toNat + load value (r :: p)) % 2 ^ 128 := by
        intro p
        rw [wraps, worth, Nat.mod_add_mod, load_cons, Nat.add_assoc]
      rw [shortest?_congr same]
      simp [Function.comp_def]
    · rw [pickUnspent_of_enough (by omega)] at h
      cases h
      rw [shortest?_of_passes (by rw [atNil]; omega)]
      simp

end

/-! ### The selected set -/

/-- The answer says whether the table is worth the target. A selected set is the shortest one in key
order that is. -/
structure Exact (tree : Tree) (target : U128) (answer : Option (List OutputRef)) : Prop where
  isSome : answer.isSome ↔ target.toNat ≤ tree.total fun _ => amount
  distinct : ∀ refs, answer = some refs → refs.Nodup
  inOrder : ∀ refs, answer = some refs → refs <+: unspentRefs tree
  enough : ∀ refs, answer = some refs → target.toNat ≤ load (valueAt tree) refs
  least : ∀ front last, answer = some (front ++ [last]) → load (valueAt tree) front < target.toNat

/-- No coin takes the sum out of the range while the coins before it are worth less than the target. -/
def Fits (tree : Tree) (target : U128) : Prop :=
  ∀ front last, front ++ [last] <+: unspentRefs tree → load (valueAt tree) front < target.toNat →
    load (valueAt tree) (front ++ [last]) < 2 ^ 128

section
variable {tree : Tree} {target : U128}

theorem exact_shortest (coins : Coins tree) :
    Exact tree target (shortest? (fun p => target.toNat ≤ load (valueAt tree) p) (unspentRefs tree)) where
  isSome := by rw [shortest?_load_isSome, load_unspentRefs coins]
  distinct _ found := (unspentRefs_nodup coins).sublist (shortest_of_found found).isPrefix.sublist
  inOrder _ found := (shortest_of_found found).isPrefix
  enough _ found := (shortest_of_found found).passes
  least front last found := (shortest_load_iff.mp (shortest_of_found found)).2.2 front last rfl

theorem Exact.shortest {refs : List OutputRef} (exact : Exact tree target (some refs)) :
    Shortest (fun p => target.toNat ≤ load (valueAt tree) p) (unspentRefs tree) refs :=
  shortest_load_iff.mpr ⟨exact.inOrder refs rfl, exact.enough refs rfl,
    fun front last same => exact.least front last (congrArg some same)⟩

end

section
variable {checks : Bool} {db : Db} {target : U128}

theorem getArbitraryUnspentSet_of_fits (coins : Coins db.unspent) (fits : Fits db.unspent target) :
    getArbitraryUnspentSet checks db target =
      .ok (shortest? (fun p => target.toNat ≤ load (valueAt db.unspent) p) (unspentRefs db.unspent)) := by
  refine (pickUnspent_of_fits (rows_iter coins) ?_).trans ?_
  · intro q r inside short
    simpa using fits q r inside (by simpa using short)
  · simp

theorem getArbitraryUnspentSet_ok (coins : Coins db.unspent) {answer : Option (List OutputRef)}
    (h : getArbitraryUnspentSet checks db target = .ok answer) :
    answer =
      shortest? (fun p => target.toNat ≤ load (valueAt db.unspent) p % 2 ^ 128) (unspentRefs db.unspent) := by
  refine (pickUnspent_ok (rows_iter coins) h).trans ?_
  simp

/-- In both builds the selection is exact where no sum leaves the range before the target is reached. -/
theorem coin_selection_exact_iff (checks : Bool) {db : Db} (coins : Coins db.unspent) (target : U128) :
    (∃ answer, getArbitraryUnspentSet checks db target = .ok answer ∧ Exact db.unspent target answer) ↔
      Fits db.unspent target := by
  constructor
  · intro ⟨answer, selected, exact⟩ front last inside short
    by_contra large
    have bound := valueAt_lt db.unspent last
    have sum : load (valueAt db.unspent) (front ++ [last]) =
        load (valueAt db.unspent) front + valueAt db.unspent last := by
      rw [load_append, load_cons, load_nil, Nat.add_zero]
    have below := target.isLt
    -- The table is worth the target, and the exact answer ends at this coin.
    have rich : answer.isSome := by
      refine exact.isSome.mpr ?_
      rw [← load_unspentRefs coins]
      have inTable : load (valueAt db.unspent) (front ++ [last]) ≤
        load (valueAt db.unspent) (unspentRefs db.unspent) := load_mono inside
      omega
    obtain ⟨refs, rfl⟩ := Option.isSome_iff_exists.mp rich
    have here : Shortest (fun p => target.toNat ≤ load (valueAt db.unspent) p) (unspentRefs db.unspent)
        (front ++ [last]) := by
      refine shortest_load_iff.mpr ⟨inside, by omega, ?_⟩
      intro q r same
      obtain ⟨rfl, _⟩ := List.append_inj' same rfl
      exact short
    obtain rfl := exact.shortest.unique here
    -- The loop does not stop there, for the sum has wrapped around.
    have wrapped := (shortest_of_found (getArbitraryUnspentSet_ok coins selected).symm).passes
    omega
  · intro fits
    exact ⟨_, getArbitraryUnspentSet_of_fits coins fits, exact_shortest coins⟩

end

def pairRef (index : UInt32) : OutputRef := ⟨FixedBytes.zero 32, index⟩

def pairCoins (first second : U128) : List (OutputRef × H256 × U128) :=
  [(pairRef 0, walletKey, first), (pairRef 1, walletKey, second)]

def pairTable (first second : U128) : Tree := tableOf (pairCoins first second)

def pairDb (first second : U128) : Db := { Db.empty with unspent := pairTable first second }

theorem ascending_pair (first second : U128) : Ascending (pairCoins first second) := by
  simp only [Ascending, pairCoins, List.map_cons, List.map_nil, List.pairwise_cons]
  simp
  decide

theorem coins_pair (first second : U128) : Coins (pairTable first second) := coins_tableOf _

theorem unspentRefs_pair (first second : U128) : unspentRefs (pairTable first second) = [pairRef 0, pairRef 1] :=
  (ascending_pair first second).unspentRefs_tableOf

theorem valueAt_pair_zero (first second : U128) : valueAt (pairTable first second) (pairRef 0) = first.toNat :=
  (ascending_pair first second).valueAt_tableOf (List.mem_cons_self ..)

theorem valueAt_pair_one (first second : U128) : valueAt (pairTable first second) (pairRef 1) = second.toNat :=
  (ascending_pair first second).valueAt_tableOf (List.mem_cons_of_mem _ (List.mem_cons_self ..))

theorem total_pair (first second : U128) :
    (pairTable first second).total (fun _ => amount) = first.toNat + second.toNat := by
  rw [← load_unspentRefs (coins_pair first second), unspentRefs_pair, load_cons, load_cons, load_nil, Nat.add_zero,
    valueAt_pair_zero, valueAt_pair_one]

theorem getArbitraryUnspentSet_pair (checks : Bool) (first second target : U128) :
    getArbitraryUnspentSet checks (pairDb first second) target =
      pickUnspent checks target 0 []
        [(encode (pairRef 0), encode (walletKey, first)), (encode (pairRef 1), encode (walletKey, second))] :=
  congrArg (pickUnspent checks target 0 []) (ascending_pair first second).iter_tableOf

/-- A table that is worth less than the range. -/
theorem coin_selection_exact_pair :
    ∃ answer, getArbitraryUnspentSet true (pairDb 5 10) 7 = .ok answer ∧ Exact (pairDb 5 10).unspent 7 answer := by
  refine (coin_selection_exact_iff true (coins_pair 5 10) 7).mpr ?_
  intro front last inside _
  have bound : load (valueAt (pairTable 5 10)) (front ++ [last]) ≤ load (valueAt (pairTable 5 10)) _ :=
    load_mono inside
  have whole := (load_unspentRefs (coins_pair 5 10)).trans (total_pair 5 10)
  exact lt_of_le_of_lt (bound.trans_eq whole) (by decide)

/-- A coin worth 1 comes before one that is worth the target. Together they wrap around to zero. -/
theorem coin_selection_wraps :
    Coins (pairDb 1 (BitVec.allOnes 128)).unspent ∧
      getArbitraryUnspentSet false (pairDb 1 (BitVec.allOnes 128)) (BitVec.allOnes 128) = .ok none ∧
      getArbitraryUnspentSet true (pairDb 1 (BitVec.allOnes 128)) (BitVec.allOnes 128) = .error .panic ∧
      ∀ checks, ¬∃ answer, getArbitraryUnspentSet checks (pairDb 1 (BitVec.allOnes 128)) (BitVec.allOnes 128) =
        .ok answer ∧ Exact (pairDb 1 (BitVec.allOnes 128)).unspent (BitVec.allOnes 128) answer := by
  have wraps : getArbitraryUnspentSet false (pairDb 1 (BitVec.allOnes 128)) (BitVec.allOnes 128) = .ok none := by
    rw [getArbitraryUnspentSet_pair]
    rfl
  have panics :
      getArbitraryUnspentSet true (pairDb 1 (BitVec.allOnes 128)) (BitVec.allOnes 128) = .error .panic := by
    rw [getArbitraryUnspentSet_pair]
    rfl
  refine ⟨coins_pair _ _, wraps, panics, ?_⟩
  intro checks ⟨answer, selected, exact⟩
  cases checks with
  | false =>
    cases wraps.symm.trans selected
    have rich : (BitVec.allOnes 128).toNat ≤ (pairTable 1 (BitVec.allOnes 128)).total fun _ => amount := by
      rw [total_pair]
      omega
    cases exact.isSome.mpr rich
  | true => cases panics.symm.trans selected

/-! ### The inputs of a spend -/

/-- The output amounts less the chosen inputs, as the wallet computes it. -/
def missing (db : Db) (args : SpendArgs) : Nat :=
  load BitVec.toNat args.outputAmount % 2 ^ 128 - load (valueAt db.unspent) args.input % 2 ^ 128

/-- The coins that make up for what is missing: the shortest set in key order whose sum, wrapped around,
is large enough. -/
def MakesUp (db : Db) (args : SpendArgs) (more : List OutputRef) : Prop :=
  Shortest (fun p => missing db args ≤ load (valueAt db.unspent) p % 2 ^ 128) (unspentRefs db.unspent) more

/-- No chosen input is among these coins, and the output amounts wrap around no more often than the
inputs. -/
structure Covers (db : Db) (args : SpendArgs) : Prop where
  fresh : ∀ more, MakesUp db args more → ∀ r ∈ more, r ∉ args.input
  wraps : ∀ more, MakesUp db args more → load BitVec.toNat args.outputAmount / 2 ^ 128 ≤
    load (valueAt db.unspent) args.input / 2 ^ 128 + load (valueAt db.unspent) more / 2 ^ 128

section
variable {checks : Bool} {db : Db} {args : SpendArgs}

theorem getUnspent_some {r : OutputRef} {record : H256 × U128} (h : getUnspent db r = .ok (some record)) :
    record.2.toNat = valueAt db.unspent r := by
  unfold getUnspent at h
  cases stored : db.unspent.get (encode r) with
  | none =>
    rw [stored] at h
    cases h
  | some ivec =>
    rw [stored] at h
    obtain ⟨found, decoded, same⟩ := Outcome.bind_ok h
    cases Outcome.pure_ok same
    obtain ⟨pair, front, rfl⟩ := Option.map_eq_some_iff.mp (Outcome.okOr_ok decoded)
    simp [valueAt, Store.weightAt, stored, amount, front]

theorem addChosen_ok {total sum : U128} {r : OutputRef} (h : addChosen checks db total r = .ok sum) :
    sum.toNat = (total.toNat + valueAt db.unspent r) % 2 ^ 128 := by
  obtain ⟨unspent, read, h⟩ := Outcome.bind_ok h
  obtain ⟨record, found, added⟩ := Outcome.bind_ok h
  obtain rfl := Outcome.okOr_ok found
  rw [addAssign_ok added, getUnspent_some read]

/-- A fold whose steps wrap around wraps around. -/
theorem foldlM_wraps {α : Type} {step : U128 → α → Outcome Error U128} {weight : α → Nat}
    {xs : List α} {total sum : U128} (h : xs.foldlM step total = .ok sum)
    (wraps : ∀ total x sum, step total x = .ok sum → sum.toNat = (total.toNat + weight x) % 2 ^ 128) :
    sum.toNat = (total.toNat + load weight xs) % 2 ^ 128 := by
  induction xs generalizing total with
  | nil =>
    cases Outcome.pure_ok h
    exact (Nat.mod_eq_of_lt sum.isLt).symm
  | cons x xs ih =>
    obtain ⟨next, added, later⟩ := Outcome.bind_ok h
    rw [ih later, wraps _ _ _ added, Nat.mod_add_mod, load_cons, Nat.add_assoc]

/-- The coins that make up for what is missing follow the chosen inputs. -/
theorem selectInputs_ok (coins : Coins db.unspent) {outputs : List Template.Output} {refs : List OutputRef}
    (h : selectInputs checks db args = .ok (outputs, refs)) :
    ∃ more, MakesUp db args more ∧ refs = args.input ++ more := by
  obtain ⟨totalOutput, summed, h⟩ := Outcome.bind_ok h
  obtain ⟨totalInput, added, h⟩ := Outcome.bind_ok h
  have outputSum : totalOutput.toNat = load BitVec.toNat args.outputAmount % 2 ^ 128 := by
    simpa using foldlM_wraps summed fun _ _ _ => addAssign_ok
  have inputSum : totalInput.toNat = load (valueAt db.unspent) args.input % 2 ^ 128 := by
    simpa using foldlM_wraps added fun _ _ _ => addChosen_ok
  have lacks : missing db args = totalOutput.toNat - totalInput.toNat := by
    rw [missing, outputSum, inputSum]
  split at h
  · rename_i short
    obtain ⟨answer, selected, h⟩ := Outcome.bind_ok h
    have target : (totalOutput - totalInput).toNat = missing db args := by
      rw [lacks]
      exact BitVec.toNat_sub_of_le (BitVec.le_of_lt short)
    cases answer with
    | none => cases h
    | some more =>
      obtain ⟨_, rfl⟩ := Prod.mk.inj (Outcome.pure_ok h)
      have found := getArbitraryUnspentSet_ok coins selected
      rw [target] at found
      exact ⟨more, shortest_of_found found.symm, rfl⟩
  · rename_i rich
    obtain ⟨_, rfl⟩ := Prod.mk.inj (Outcome.pure_ok h)
    have nothing : missing db args = 0 := by
      rw [BitVec.lt_def] at rich
      omega
    exact ⟨[], .nil (by rw [nothing]; omega) _, by simp⟩

/-- In both builds a spend that gets its inputs is sound under one condition on the table and the
arguments. -/
theorem spend_selection_sound_iff (checks : Bool) {db : Db} (coins : Coins db.unspent) {args : SpendArgs}
    (distinct : args.input.Nodup) {outputs : List Template.Output} {refs : List OutputRef}
    (chosen : selectInputs checks db args = .ok (outputs, refs)) :
    (refs.Nodup ∧ load BitVec.toNat args.outputAmount ≤ load (valueAt db.unspent) refs) ↔ Covers db args := by
  obtain ⟨more, makesUp, rfl⟩ := selectInputs_ok coins chosen
  have only : ∀ more', MakesUp db args more' → more' = more := fun _ other => other.unique makesUp
  have enough := makesUp.passes
  have nothing : missing db args = 0 → load (valueAt db.unspent) more = 0 := by
    intro zero
    rw [← makesUp.least [] List.nil_prefix (by rw [zero]; omega), load_nil]
  rw [missing] at enough nothing
  rw [load_append]
  constructor
  · intro ⟨nodup, covered⟩
    have apart := (List.nodup_append.mp nodup).2.2
    refine ⟨?_, ?_⟩
    · intro more' other r member inside
      obtain rfl := only more' other
      exact apart r inside r member rfl
    · intro more' other
      obtain rfl := only more' other
      omega
  · intro covers
    have wraps := covers.wraps more makesUp
    refine ⟨List.nodup_append.mpr ⟨distinct, ?_, ?_⟩, by omega⟩
    · exact (unspentRefs_nodup coins).sublist makesUp.isPrefix.sublist
    · rintro r inside _ member rfl
      exact covers.fresh more makesUp r member inside

end

/-! ### Three spends -/

theorem selectInputs_of_some {checks : Bool} {db : Db} {args : SpendArgs} {totalOutput totalInput : U128}
    {more : List OutputRef} (summed : args.outputAmount.foldlM (addAssign checks) 0 = .ok totalOutput)
    (added : args.input.foldlM (addChosen checks db) 0 = .ok totalInput) (short : totalInput < totalOutput)
    (selected : getArbitraryUnspentSet checks db (totalOutput - totalInput) = .ok (some more)) :
    selectInputs checks db args = .ok (args.outputAmount.map (coinTo args.recipient), args.input ++ more) := by
  refine (Outcome.bind_of_ok summed).trans ((Outcome.bind_of_ok added).trans ?_)
  rw [if_pos short]
  exact Outcome.bind_of_ok selected

theorem addAssign_zero (checks : Bool) (a : U128) : addAssign checks 0 a = .ok a := by
  refine (addAssign_of_lt checks (by simpa using a.isLt)).trans ?_
  simp

theorem foldlM_addAssign_single (checks : Bool) (a : U128) : [a].foldlM (addAssign checks) 0 = .ok a :=
  Outcome.bind_of_ok (addAssign_zero checks a)

theorem foldlM_addChosen_single {checks : Bool} {db : Db} {r : OutputRef} {record : H256 × U128}
    (read : getUnspent db r = .ok (some record)) : [r].foldlM (addChosen checks db) 0 = .ok record.2 :=
  Outcome.bind_of_ok ((Outcome.bind_of_ok read).trans (addAssign_zero checks record.2))

/-- The wallet adds the first coin to the second. -/
theorem selectInputs_other (checks : Bool) : selectInputs checks (pairDb 5 10) ⟨[pairRef 1], walletKey, [12]⟩ =
    .ok ([coinTo walletKey 12], [pairRef 1, pairRef 0]) := by
  have read : getUnspent (pairDb 5 10) (pairRef 1) = .ok (some (walletKey, 10)) := by decide +kernel
  refine selectInputs_of_some (foldlM_addAssign_single checks 12) (foldlM_addChosen_single read) (by decide) ?_
  rw [getArbitraryUnspentSet_pair]
  cases checks <;> rfl

/-- The wallet adds the first coin to itself. -/
theorem selectInputs_twice (checks : Bool) : selectInputs checks (pairDb 5 10) ⟨[pairRef 0], walletKey, [8]⟩ =
    .ok ([coinTo walletKey 8], [pairRef 0, pairRef 0]) := by
  have read : getUnspent (pairDb 5 10) (pairRef 0) = .ok (some (walletKey, 5)) := by decide +kernel
  refine selectInputs_of_some (foldlM_addAssign_single checks 8) (foldlM_addChosen_single read) (by decide) ?_
  rw [getArbitraryUnspentSet_pair]
  cases checks <;> rfl

/-- The output amounts wrap around to zero, so no input is selected. -/
theorem selectInputs_nothing : selectInputs false (pairDb 5 10) ⟨[], walletKey, [2 ^ 127, 2 ^ 127]⟩ =
    .ok ([coinTo walletKey (2 ^ 127), coinTo walletKey (2 ^ 127)], []) := by
  have summed : [(2 ^ 127 : U128), 2 ^ 127].foldlM (addAssign false) 0 = .ok 0 := by decide +kernel
  exact (Outcome.bind_of_ok summed).trans rfl

theorem spend_selection_sound_other :
    ∃ outputs refs, selectInputs true (pairDb 5 10) ⟨[pairRef 1], walletKey, [12]⟩ = .ok (outputs, refs) ∧
      refs.Nodup ∧ load BitVec.toNat [(12 : U128)] ≤ load (valueAt (pairTable 5 10)) refs := by
  refine ⟨_, _, selectInputs_other true, ?_⟩
  obtain ⟨more, makesUp, same⟩ := selectInputs_ok (coins_pair 5 10) (selectInputs_other true)
  obtain rfl : more = [pairRef 0] := (List.cons.inj same).2.symm
  have single : [pairRef 1].Nodup := List.nodup_singleton _
  refine (spend_selection_sound_iff true (coins_pair 5 10) single (selectInputs_other true)).mpr ⟨?_, ?_⟩
  · intro more' other r member
    rw [other.unique makesUp] at member
    obtain rfl := List.mem_singleton.mp member
    decide +kernel
  · intro more' _
    have small : load BitVec.toNat [(12 : U128)] / 2 ^ 128 = 0 := by decide
    exact small.le.trans (Nat.zero_le _)

/-- A chosen coin is selected once more, and two outputs of 2 ^ 127 are paid with no input. -/
theorem spend_selection_not_sound :
    Coins (pairDb 5 10).unspent ∧
    (∀ checks, ∃ outputs refs,
      selectInputs checks (pairDb 5 10) ⟨[pairRef 0], walletKey, [8]⟩ = .ok (outputs, refs) ∧ ¬refs.Nodup) ∧
    ∃ outputs refs, selectInputs false (pairDb 5 10) ⟨[], walletKey, [2 ^ 127, 2 ^ 127]⟩ = .ok (outputs, refs) ∧
      load (valueAt (pairTable 5 10)) refs < load BitVec.toNat [(2 ^ 127 : U128), 2 ^ 127] := by
  refine ⟨coins_pair 5 10, fun checks => ⟨_, _, selectInputs_twice checks, by simp⟩, _, _, selectInputs_nothing, ?_⟩
  decide +kernel

end Tuxedo.Wallet
