import Mathlib.Algebra.GroupWithZero.Nat
import Mathlib.Data.Finmap
import Mathlib.Algebra.BigOperators.Group.Finset.Basic
import Mathlib.Tactic.Common

/-!
# Key-value stores

A finite map with `get`, `set` and `clear`, the two bulk updates `clearAll` and `setAll`, and
the total weight of its entries.
-/

/-- A finite map from keys to values. -/
structure Store (κ ν : Type) where
  entries : Finmap fun _ : κ => ν

namespace Store
variable {κ ν : Type} [DecidableEq κ]

instance [DecidableEq ν] : DecidableEq (Store κ ν) := fun s t =>
  decidable_of_iff (s.entries = t.entries) ⟨fun same => by cases s; cases t; cases same; rfl, fun same => same ▸ rfl⟩

def empty : Store κ ν := ⟨∅⟩

def get (s : Store κ ν) (k : κ) : Option ν := s.entries.lookup k

def set (s : Store κ ν) (k : κ) (v : ν) : Store κ ν := ⟨s.entries.insert k v⟩

def clear (s : Store κ ν) (k : κ) : Store κ ν := ⟨s.entries.erase k⟩

def keys (s : Store κ ν) : Finset κ := s.entries.keys

@[simp] theorem get_empty (k : κ) : (empty : Store κ ν).get k = none := Finmap.lookup_empty k

@[ext] theorem ext {s t : Store κ ν} (same : ∀ k, s.get k = t.get k) : s = t :=
  congrArg Store.mk (Finmap.ext_lookup same)

theorem get_set (s : Store κ ν) (k k' : κ) (v : ν) :
    (s.set k v).get k' = if k' = k then some v else s.get k' := by
  split
  · rename_i same
    subst same
    exact Finmap.lookup_insert s.entries
  · rename_i different
    exact Finmap.lookup_insert_of_ne s.entries different

theorem get_clear (s : Store κ ν) (k k' : κ) :
    (s.clear k).get k' = if k' = k then none else s.get k' := by
  split
  · rename_i same
    subst same
    exact Finmap.lookup_erase k' s.entries
  · rename_i different
    exact Finmap.lookup_erase_ne different

@[simp] theorem get_set_self (s : Store κ ν) (k : κ) (v : ν) : (s.set k v).get k = some v := by
  simp [get_set]

@[simp] theorem get_clear_self (s : Store κ ν) (k : κ) : (s.clear k).get k = none := by
  simp [get_clear]

theorem get_set_ne (s : Store κ ν) {k k' : κ} (v : ν) (different : k' ≠ k) :
    (s.set k v).get k' = s.get k' := by
  simp [get_set, different]

theorem get_clear_ne (s : Store κ ν) {k k' : κ} (different : k' ≠ k) : (s.clear k).get k' = s.get k' := by
  simp [get_clear, different]

theorem set_eq_self_iff {s : Store κ ν} {k : κ} {v : ν} : s.set k v = s ↔ s.get k = some v := by
  constructor
  · intro same
    rw [← same, get_set_self]
  · intro stored
    ext1 k'
    rw [get_set]
    split
    · rename_i equal
      rw [equal, stored]
    · rfl

theorem set_set (s : Store κ ν) (k : κ) (v v' : ν) : (s.set k v).set k v' = s.set k v' := by
  ext1 k'
  rw [get_set, get_set, get_set]
  split
  · rfl
  · rfl

/-! ### Bulk updates -/

def clearAll (s : Store κ ν) (ks : List κ) : Store κ ν := ks.foldl clear s

def setAll (s : Store κ ν) (entries : List (κ × ν)) : Store κ ν :=
  entries.foldl (fun s entry => s.set entry.1 entry.2) s

@[simp] theorem clearAll_nil (s : Store κ ν) : s.clearAll [] = s := rfl

@[simp] theorem setAll_nil (s : Store κ ν) : s.setAll [] = s := rfl

theorem clearAll_cons (s : Store κ ν) (k : κ) (ks : List κ) :
    s.clearAll (k :: ks) = (s.clear k).clearAll ks := rfl

theorem setAll_cons (s : Store κ ν) (entry : κ × ν) (entries : List (κ × ν)) :
    s.setAll (entry :: entries) = (s.set entry.1 entry.2).setAll entries := rfl

theorem setAll_filterMap_cons {α : Type*} (s : Store κ ν) (f : α → Option (κ × ν)) (a : α) (as : List α) :
    (s.setAll (f a).toList).setAll (as.filterMap f) = s.setAll ((a :: as).filterMap f) := by
  cases entry : f a with
  | none =>
    rw [List.filterMap_cons_none entry]
    rfl
  | some pair =>
    rw [List.filterMap_cons_some entry]
    rfl

theorem get_clearAll (s : Store κ ν) (ks : List κ) (k : κ) :
    (s.clearAll ks).get k = if k ∈ ks then none else s.get k := by
  induction ks generalizing s with
  | nil => simp
  | cons head ks ih =>
    rw [clearAll_cons, ih, get_clear]
    by_cases same : k = head <;> simp [same]

theorem get_setAll_of_notMem {s : Store κ ν} {entries : List (κ × ν)} {k : κ}
    (absent : k ∉ entries.map Prod.fst) : (s.setAll entries).get k = s.get k := by
  induction entries generalizing s with
  | nil => rfl
  | cons entry entries ih =>
    simp only [List.map_cons, List.mem_cons, not_or] at absent
    rw [setAll_cons, ih absent.2, get_set_ne _ _ absent.1]

theorem get_setAll_of_mem {s : Store κ ν} {entries : List (κ × ν)} {k : κ} {v : ν}
    (unique : (entries.map Prod.fst).Nodup) (member : (k, v) ∈ entries) :
    (s.setAll entries).get k = some v := by
  induction entries generalizing s with
  | nil => cases member
  | cons entry entries ih =>
    simp only [List.map_cons, List.nodup_cons] at unique
    rw [setAll_cons]
    rcases List.mem_cons.mp member with same | later
    · subst same
      rw [get_setAll_of_notMem unique.1, get_set_self]
    · exact ih unique.2 later

/-- A key that is set reads one of the values that were set at it. -/
theorem get_setAll_cases (s : Store κ ν) (entries : List (κ × ν)) (k : κ) :
    (k ∉ entries.map Prod.fst ∧ (s.setAll entries).get k = s.get k) ∨
      ∃ v, (k, v) ∈ entries ∧ (s.setAll entries).get k = some v := by
  induction entries generalizing s with
  | nil => exact Or.inl ⟨by simp, rfl⟩
  | cons entry entries ih =>
    rw [setAll_cons]
    rcases ih (s.set entry.1 entry.2) with ⟨absent, read⟩ | ⟨v, member, read⟩
    · by_cases same : k = entry.1
      · subst same
        exact Or.inr ⟨entry.2, by simp, by rw [read, get_set_self]⟩
      · exact Or.inl ⟨by simp [same, absent], by rw [read, get_set_ne _ _ same]⟩
    · exact Or.inr ⟨v, List.mem_cons_of_mem _ member, read⟩

theorem get_setAll (s : Store κ ν) (entries : List (κ × ν)) (k : κ) :
    (s.setAll entries).get k = ((empty.setAll entries).get k).or (s.get k) := by
  induction entries using List.reverseRecOn with
  | nil => simp
  | append_singleton entries entry ih =>
    rw [setAll, setAll, List.foldl_append, List.foldl_append]
    change (((s.setAll entries).set entry.1 entry.2).get k) = (((empty.setAll entries).set entry.1 entry.2).get k).or _
    rw [get_set, get_set, ih]
    split
    · rfl
    · rfl

/-- Two updates that touch different keys can be made in any order. -/
theorem setAll_clearAll_comm (s : Store κ ν) {ks ks' : List κ} {entries entries' : List (κ × ν)}
    (apart : ∀ k ∈ entries.map Prod.fst, k ∉ ks') (apart' : ∀ k ∈ entries'.map Prod.fst, k ∉ ks)
    (disjoint : ∀ k ∈ entries.map Prod.fst, k ∉ entries'.map Prod.fst) :
    (((s.clearAll ks).setAll entries).clearAll ks').setAll entries' =
      (((s.clearAll ks').setAll entries').clearAll ks).setAll entries := by
  ext1 k
  rw [get_setAll (clearAll _ ks'), get_clearAll, get_setAll (s.clearAll ks), get_clearAll,
    get_setAll (clearAll _ ks), get_clearAll, get_setAll (s.clearAll ks'), get_clearAll]
  by_cases first : k ∈ entries.map Prod.fst
  · have second : (empty.setAll entries').get k = none := by
      rw [get_setAll_of_notMem (disjoint k first), get_empty]
    simp [second, apart k first]
  · have none : (empty.setAll entries).get k = none := by
      rw [get_setAll_of_notMem first, get_empty]
    by_cases second : k ∈ entries'.map Prod.fst
    · simp [none, apart' k second]
    · have none' : (empty.setAll entries').get k = Option.none := by
        rw [get_setAll_of_notMem second, get_empty]
      by_cases inKs : k ∈ ks <;> by_cases inKs' : k ∈ ks' <;> simp [none, none', inKs, inKs']

/-! ### Agreement but for one key -/

/-- The two stores agree at every other key. -/
def SameBut (k : κ) (s t : Store κ ν) : Prop := ∀ k', k' ≠ k → t.get k' = s.get k'

namespace SameBut
variable {k : κ} {s t : Store κ ν}

theorem refl (k : κ) (s : Store κ ν) : SameBut k s s := fun _ _ => rfl

theorem symm (same : SameBut k s t) : SameBut k t s := fun k' other => (same k' other).symm

theorem set_left (same : SameBut k s t) (v : ν) : SameBut k s (t.set k v) :=
  fun k' other => (get_set_ne t v other).trans (same k' other)

theorem set (same : SameBut k s t) (k' : κ) (v : ν) : SameBut k (s.set k' v) (t.set k' v) := by
  intro j other
  rw [get_set, get_set, same j other]

theorem clearAll (same : SameBut k s t) (ks : List κ) : SameBut k (s.clearAll ks) (t.clearAll ks) := by
  intro j other
  rw [get_clearAll, get_clearAll, same j other]

theorem setAll (same : SameBut k s t) (entries : List (κ × ν)) : SameBut k (s.setAll entries) (t.setAll entries) := by
  induction entries generalizing s t with
  | nil => exact same
  | cons entry entries ih => exact ih (same.set entry.1 entry.2)

theorem clear_eq (same : SameBut k s t) : t.clear k = s.clear k := by
  ext1 j
  rw [get_clear, get_clear]
  split
  · rfl
  · rename_i other
    exact same j other

end SameBut

/-! ### Total weight -/

/-- The weight of the entry at `k`, zero when there is none. -/
def weightAt (weight : κ → ν → Nat) (s : Store κ ν) (k : κ) : Nat :=
  match s.get k with
  | some v => weight k v
  | none => 0

def total (weight : κ → ν → Nat) (s : Store κ ν) : Nat := ∑ k ∈ s.keys, s.weightAt weight k

theorem notMem_keys {s : Store κ ν} {k : κ} : k ∉ s.keys ↔ s.get k = none := by
  rw [keys, Finmap.mem_keys, get, Finmap.lookup_eq_none]

theorem mem_keys {s : Store κ ν} {k : κ} : k ∈ s.keys ↔ ∃ v, s.get k = some v := by
  rw [← not_iff_not, notMem_keys, Option.eq_none_iff_forall_ne_some, not_exists]

theorem keys_set (s : Store κ ν) (k : κ) (v : ν) : (s.set k v).keys = insert k s.keys := by
  ext k'
  rw [mem_keys, get_set, Finset.mem_insert, mem_keys]
  by_cases same : k' = k <;> simp [same]

theorem keys_clear (s : Store κ ν) (k : κ) : (s.clear k).keys = s.keys.erase k := by
  ext k'
  rw [mem_keys, get_clear, Finset.mem_erase, mem_keys]
  by_cases same : k' = k <;> simp [same]

/-- Any set of keys that covers the store gives its total. -/
theorem total_eq_sum {weight : κ → ν → Nat} {s : Store κ ν} {keys : Finset κ}
    (covers : ∀ k ∉ keys, s.get k = none) : s.total weight = ∑ k ∈ keys, s.weightAt weight k := by
  have subset : s.keys ⊆ keys := by
    intro k present
    by_contra absent
    exact notMem_keys.mpr (covers k absent) present
  apply Finset.sum_subset subset
  intro k _ outside
  simp [weightAt, notMem_keys.mp outside]

theorem total_clear (weight : κ → ν → Nat) (s : Store κ ν) (k : κ) :
    (s.clear k).total weight + s.weightAt weight k = s.total weight := by
  have cover : ∀ k' ∉ insert k (s.keys), s.get k' = none := by
    intro k' outside
    rw [Finset.mem_insert, not_or] at outside
    exact notMem_keys.mp outside.2
  have coverClear : ∀ k' ∉ insert k (s.keys), (s.clear k).get k' = none := by
    intro k' outside
    rw [get_clear]
    split
    · rfl
    · exact cover k' outside
  rw [total_eq_sum cover, total_eq_sum coverClear]
  have before := Finset.add_sum_erase _ (fun k' => s.weightAt weight k') (Finset.mem_insert_self k s.keys)
  have after := Finset.add_sum_erase _ (fun k' => (s.clear k).weightAt weight k') (Finset.mem_insert_self k s.keys)
  have rest : ∑ k' ∈ (insert k s.keys).erase k, (s.clear k).weightAt weight k' =
      ∑ k' ∈ (insert k s.keys).erase k, s.weightAt weight k' := by
    apply Finset.sum_congr rfl
    intro k' member
    simp only [weightAt, get_clear_ne s (Finset.ne_of_mem_erase member)]
  have gone : (s.clear k).weightAt weight k = 0 := by simp [weightAt]
  simp only [gone] at after
  omega

theorem clear_set (s : Store κ ν) (k : κ) (v : ν) : (s.set k v).clear k = s.clear k := by
  ext1 k'
  by_cases same : k' = k <;> simp [get_clear, get_set, same]

theorem clear_eq_self {s : Store κ ν} {k : κ} (absent : s.get k = none) : s.clear k = s := by
  ext1 k'
  by_cases same : k' = k <;> simp [get_clear, same, absent]

theorem total_set (weight : κ → ν → Nat) (s : Store κ ν) (k : κ) (v : ν) :
    (s.set k v).total weight + s.weightAt weight k = s.total weight + weight k v := by
  have before := total_clear weight s k
  have after := total_clear weight (s.set k v) k
  rw [clear_set] at after
  simp only [weightAt, get_set_self] at after
  omega

theorem total_clearAll (weight : κ → ν → Nat) (s : Store κ ν) {ks : List κ} (unique : ks.Nodup) :
    (s.clearAll ks).total weight + (ks.map (s.weightAt weight)).sum = s.total weight := by
  induction ks generalizing s with
  | nil => simp
  | cons k ks ih =>
    obtain ⟨outside, unique⟩ := List.nodup_cons.mp unique
    have later := ih (s.clear k) unique
    have first := total_clear weight s k
    have same : ks.map ((s.clear k).weightAt weight) = ks.map (s.weightAt weight) := by
      apply List.map_congr_left
      intro k' member
      have different : k' ≠ k := fun equal => outside (equal ▸ member)
      simp only [weightAt, get_clear_ne s different]
    rw [same] at later
    rw [clearAll_cons, List.map_cons, List.sum_cons]
    omega

theorem clearAll_dedup (s : Store κ ν) (ks : List κ) : s.clearAll ks.dedup = s.clearAll ks := by
  ext1 k
  simp only [get_clearAll, List.mem_dedup]

theorem total_setAll (weight : κ → ν → Nat) (s : Store κ ν) {entries : List (κ × ν)}
    (unique : (entries.map Prod.fst).Nodup) :
    (s.setAll entries).total weight + ((entries.map Prod.fst).map (s.weightAt weight)).sum =
      s.total weight + (entries.map fun e => weight e.1 e.2).sum := by
  induction entries generalizing s with
  | nil => simp
  | cons entry entries ih =>
    rw [List.map_cons] at unique ⊢
    obtain ⟨outside, unique⟩ := List.nodup_cons.mp unique
    have later := ih (s.set entry.1 entry.2) unique
    have first := total_set weight s entry.1 entry.2
    have same : (entries.map Prod.fst).map ((s.set entry.1 entry.2).weightAt weight) =
        (entries.map Prod.fst).map (s.weightAt weight) := by
      apply List.map_congr_left
      intro k member
      have different : k ≠ entry.1 := fun equal => outside (equal ▸ member)
      simp only [weightAt, get_set_ne s _ different]
    rw [same] at later
    simp only [setAll_cons, List.map_cons, List.sum_cons]
    omega

/-- Entries of no weight do not change the total. -/
theorem total_congr {weight weight' : κ → ν → Nat} {s t : Store κ ν}
    (same : ∀ k, s.weightAt weight k = t.weightAt weight' k) : s.total weight = t.total weight' := by
  have coverLeft : ∀ k ∉ s.keys ∪ t.keys, s.get k = none := by
    intro k outside
    exact notMem_keys.mp (fun present => outside (Finset.mem_union_left _ present))
  have coverRight : ∀ k ∉ s.keys ∪ t.keys, t.get k = none := by
    intro k outside
    exact notMem_keys.mp (fun present => outside (Finset.mem_union_right _ present))
  rw [total_eq_sum coverLeft, total_eq_sum coverRight]
  exact Finset.sum_congr rfl fun k _ => same k

end Store
