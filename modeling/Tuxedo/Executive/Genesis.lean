import Tuxedo.Executive.Chains
import Tuxedo.Lib.MapM
import Mathlib.Data.Set.Card

/-!
# What a genesis keeps

The genesis is written without looking at what is there: a transaction that stands twice in the
list writes the same outputs at the same references twice.
-/

namespace Tuxedo.Executive
open Scale TransparentUtxoSet TuxedoGenesisConfigBuilder

section
variable {V C : Type} [Host] [Verifier V] [Codec C]

/-! ### The references of a genesis -/

/-- The references that a transaction creates. -/
def createdRefs (t : Transaction V C) : List OutputRef :=
  match t.id? with
  | some txHash => t.outputRefs txHash
  | none => []

theorem mem_createdRefs {t : Transaction V C} {r : OutputRef} :
    r ∈ createdRefs t ↔ ∃ output, creates t r = some output := by
  unfold createdRefs
  cases hash : t.id? with
  | none => simp [creates, hash]
  | some txHash =>
    rw [← not_iff_not, ← creates_eq_none hash, Option.eq_none_iff_forall_ne_some]
    simp

theorem createdRefs_nodup (t : Transaction V C) : (createdRefs t).Nodup := by
  unfold createdRefs
  split
  · exact outputRefs_nodup t _
  · exact List.nodup_nil

theorem length_createdRefs {t : Transaction V C} (hashed : ∃ txHash, t.id? = some txHash) :
    (createdRefs t).length = t.outputs.toList.length := by
  obtain ⟨txHash, hash⟩ := hashed
  simp [createdRefs, hash, Transaction.outputRefs]

/-- Two transactions of the list create a common reference when they are one and have an output. -/
theorem disjoint_createdRefs {txs : List (Transaction V C)} (free : CollisionFree {t | t ∈ txs})
    (hashed : ∀ t ∈ txs, ∃ txHash, t.id? = some txHash) {t t' : Transaction V C} (member : t ∈ txs)
    (member' : t' ∈ txs) : (createdRefs t).Disjoint (createdRefs t') ↔ (t = t' → t.outputs.toList = []) := by
  constructor
  · rintro disjoint rfl
    have none : createdRefs t = [] := List.eq_nil_iff_forall_not_mem.mpr fun r made => disjoint made made
    rw [← List.length_eq_zero_iff, ← length_createdRefs (hashed t member), none, List.length_nil]
  · intro bare r first second
    obtain ⟨output, made⟩ := mem_createdRefs.mp first
    obtain ⟨output', made'⟩ := mem_createdRefs.mp second
    have none := bare (free.apart t member t' member' r output output' made made')
    have index := (creates_eq_some.mp made).2
    rw [none] at index
    cases index

/-- The transactions that have outputs. -/
def creating (txs : List (Transaction V C)) : List (Transaction V C) := txs.filter fun t => !t.outputs.toList.isEmpty

theorem flatMap_createdRefs_nodup {txs : List (Transaction V C)} (free : CollisionFree {t | t ∈ txs})
    (hashed : ∀ t ∈ txs, ∃ txHash, t.id? = some txHash) :
    (txs.flatMap createdRefs).Nodup ↔ (creating txs).Nodup := by
  rw [List.nodup_flatMap, and_iff_right fun t _ => createdRefs_nodup t, creating, List.Nodup, List.pairwise_filter]
  refine List.Pairwise.iff_of_mem fun {t t'} member member' => ?_
  refine (disjoint_createdRefs free hashed member member').trans ?_
  constructor
  · rintro bare full _ rfl
    rw [bare rfl] at full
    cases full
  · rintro apart rfl
    by_contra full
    have created : (!t.outputs.toList.isEmpty) = true := by simpa using full
    exact apart created created rfl

/-! ### The storage of a genesis -/

/-- The references with an output. -/
def utxos (V : Type) [Codec V] (s : Storage) : Set OutputRef := {r | ∃ output, peekUtxo V s r = some output}

def countOutputs (txs : List (Transaction V C)) : Nat := (txs.map fun t => t.outputs.toList.length).sum

variable [ConstraintChecker V C] {txs : Vec (Transaction V C)} {base built : Storage}

theorem utxos_build (bare : ∀ r, peekUtxo V base r = none) (builds : build txs base = .ok built) :
    utxos V built = {r | r ∈ txs.toList.flatMap createdRefs} := by
  obtain ⟨start, _, whole⟩ := build_ok builds
  ext r
  simp only [utxos, Set.mem_ofPred_eq, List.mem_flatMap, mem_createdRefs]
  constructor
  · rintro ⟨output, present⟩
    obtain ⟨t, member, made⟩ := build_source bare builds present
    exact ⟨t, member, output, made⟩
  · rintro ⟨t, member, output, made⟩
    rw [whole.after]
    exact peek_storeAll_present (Or.inl ⟨t, member, output, made⟩)

theorem card_utxos_build_iff (bare : ∀ r, peekUtxo V base r = none) (builds : build txs base = .ok built)
    (free : CollisionFree {t | t ∈ txs.toList}) :
    (utxos V built).ncard = countOutputs txs.toList ↔ (creating txs.toList).Nodup := by
  obtain ⟨start, same, whole⟩ := build_ok builds
  have finite : utxos V built = ↑(txs.toList.flatMap createdRefs).toFinset := by
    rw [utxos_build bare builds, List.coe_toFinset]
  have total : countOutputs txs.toList = (txs.toList.flatMap createdRefs).length := by
    rw [List.length_flatMap, countOutputs]
    refine congrArg List.sum (List.map_congr_left fun t member => ?_)
    exact (length_createdRefs (whole.hashed t member)).symm
  rw [finite, Set.ncard_coe_finset, total, ← flatMap_createdRefs_nodup free whole.hashed]
  exact Multiset.toFinset_card_eq_card_iff_nodup

/-- The keys of the genesis are those that the executive computes for the transaction. -/
structure KeyedAs (t : Transaction V C) (txHash : H256) : Prop where
  hash : t.id? = some txHash
  updates : ∀ s s', updateStorage t s = some s' →
    ∀ (j : Nat) output, t.outputs.toList[j]? = some output → peekUtxo V s' ⟨txHash, UInt32.ofNat j⟩ = some output
  inherits : ∀ s data parent created, data.getData (Block V C) parentInherentIdentifier = some (some parent) →
    t ∈ openingInherents parent → inherentExtrinsics s data = some created →
    ∃ previous, (t, txHash) ∈ previous ∧ ConstraintChecker.createInherents s data previous = some created

theorem keyedAs {t : Transaction V C} {txHash : H256} (hash : t.id? = some txHash) : KeyedAs t txHash := by
  refine ⟨hash, fun s s' updated j output at_j => ?_, fun s data parent created found member called => ?_⟩
  · rw [updateStorage_eq hash] at updated
    obtain rfl := Option.some.inj updated
    unfold peekUtxo
    rw [Store.get_setAll_of_mem (outputEntries_nodup t txHash) (mem_outputEntries txHash at_j)]
    simp
  · simp only [inherentExtrinsics, found, bind, Option.bind_some] at called
    obtain ⟨previous, hashed, called⟩ := Option.bind_eq_some_iff.mp called
    obtain ⟨p, inside, same⟩ := List.exists_mem_of_mapM hashed t member
    rw [hash] at same
    obtain rfl := Option.some.inj same
    exact ⟨previous, inside, called⟩

/-- Every output of a genesis is stored under the executive's key for it, and the keys are as many
as the outputs when no transaction with outputs is repeated. -/
theorem genesis_loses_nothing_iff (txs : Vec (Transaction V C)) (base built : Storage)
    (bare : ∀ r, peekUtxo V base r = none) (builds : build txs base = .ok built)
    (free : CollisionFree {t | t ∈ txs.toList}) :
    (∀ (i j : Nat) t output, txs.toList[i]? = some t → t.outputs.toList[j]? = some output →
      ∃ txHash, KeyedAs t txHash ∧ peekUtxo V built ⟨txHash, UInt32.ofNat j⟩ = some output) ∧
    ((utxos V built).ncard = countOutputs txs.toList ↔ (creating txs.toList).Nodup) := by
  refine ⟨fun i j t output at_i at_j => ?_, card_utxos_build_iff bare builds free⟩
  have member := List.mem_of_getElem? at_i
  obtain ⟨start, same, whole⟩ := build_ok builds
  obtain ⟨txHash, hash⟩ := whole.hashed t member
  have small : j < t.outputs.toList.length := (List.getElem?_eq_some_iff.mp at_j).1
  have index : (UInt32.ofNat j).toNat = j := by
    have bound := t.outputs.length_lt
    rw [UInt32.toNat_ofNat', Nat.mod_eq_of_lt (by omega)]
  have made : creates t ⟨txHash, UInt32.ofNat j⟩ = some output := creates_eq_some.mpr ⟨hash, by rw [index, at_j]⟩
  exact ⟨txHash, keyedAs hash, build_present bare builds free member made⟩

end

/-! A coin that is minted twice is stored once. -/

def mintCoin : Transaction UpForGrabs (Money.MoneyConstraintChecker 0) :=
  ⟨Vec.empty, Vec.empty, Vec.singleton (coinOutput 60), .mint⟩

theorem bare_empty (r : OutputRef) : peekUtxo UpForGrabs Store.empty r = none := by
  simp [peekUtxo]

theorem collisionFree_mint [Host] : CollisionFree {t | t ∈ List.replicate 2 mintCoin} := by
  refine collisionFree_of_list (fun t member => member) fun t member t' member' _ => ?_
  rw [List.eq_of_mem_replicate member, List.eq_of_mem_replicate member']

def mintForty : Transaction UpForGrabs (Money.MoneyConstraintChecker 0) := { mintCoin with
  outputs := Vec.singleton (coinOutput 40) }

def twoMints : Vec (Transaction UpForGrabs (Money.MoneyConstraintChecker 0)) := ⟨[mintCoin, mintForty], by decide⟩

theorem genesis_loses_nothing_two :
    letI := Host.unsigned
    ∃ built, build twoMints Store.empty = .ok built ∧ (utxos UpForGrabs built).ncard = 2 := by
  let := Host.unsigned
  obtain ⟨built, builds, _⟩ := Outcome.exists_of_any (x := build twoMints Store.empty) (p := fun _ => true)
    (by decide +kernel)
  have free : CollisionFree {t | t ∈ twoMints.toList} :=
    collisionFree_of_list (fun t member => member) (by decide +kernel)
  exact ⟨built, builds, (genesis_loses_nothing_iff _ _ _ bare_empty builds free).2.mpr (by decide)⟩

theorem genesis_loses_repeated :
    letI := Host.unsigned
    ∃ built, build ⟨[mintCoin, mintCoin], by decide⟩ Store.empty = .ok built ∧
      (utxos UpForGrabs built).ncard ≠ countOutputs [mintCoin, mintCoin] := by
  let := Host.unsigned
  obtain ⟨built, builds, _⟩ := Outcome.exists_of_any (x := build ⟨[mintCoin, mintCoin], by decide⟩ Store.empty)
    (p := fun _ => true) (by decide +kernel)
  refine ⟨built, builds, fun counted => ?_⟩
  have apart : [mintCoin, mintCoin].Nodup := (card_utxos_build_iff bare_empty builds collisionFree_mint).mp counted
  simp at apart

end Tuxedo.Executive
