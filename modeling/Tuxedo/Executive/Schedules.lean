import Tuxedo.Lib.Traces
import Tuxedo.Executive.Authoring
import Tuxedo.Executive.Independence

/-!
# Schedules

A block may list its extrinsics in any order that keeps the dependent ones in theirs.
-/

namespace Tuxedo.Executive
open Scale TransparentUtxoSet
open Traces (SameOrders Runs Commutes Woven Unrelated)

section
variable {V C : Type} [Host] [Verifier V] [Codec C] [ConstraintChecker V C]

/-- Neither writes storage on the side, and neither touches what the other looks at. -/
structure Commuting (t₁ t₂ : Transaction V C) : Prop where
  free₁ : SideEffectFree V t₁.checker
  free₂ : SideEffectFree V t₂.checker
  independent : Independent t₁ t₂

instance : Std.Symm (Commuting (V := V) (C := C)) where
  symm _ _ commuting := ⟨commuting.free₂, commuting.free₁, commuting.independent.symm⟩

theorem applied_iff_runs {xs : List (Transaction V C)} {s s' : Storage} :
    Applied s xs s' ↔ Runs (fun s t s' => applyTuxedoTransaction t s = .ok () s') s xs s' := by
  constructor
  · intro applied
    induction applied with
    | done s => exact .done s
    | apply applied _ ih => exact .next applied ih
  · intro run
    induction run with
    | done s => exact .done s
    | next first _ ih => exact .apply first ih

theorem commutes :
    Commutes (fun s (t : Transaction V C) s' => applyTuxedoTransaction t s = .ok () s') Commuting where
  swap := fun commuting => apply_swap commuting.free₁ commuting.free₂ commuting.independent
  beside := fun commuting => apply_beside commuting.free₁ commuting.free₂ commuting.independent

theorem Applied.reorder {xs ys : List (Transaction V C)} {s s' : Storage} (same : SameOrders Commuting xs ys)
    (applied : Applied s xs s') : Applied s ys s' :=
  applied_iff_runs.mpr (commutes.reorder same (applied_iff_runs.mp applied))

/-- Lists that each apply and do not touch each other apply however they are woven. -/
theorem applied_woven {threads : List (List (Transaction V C))} {s : Storage}
    (apart : threads.Pairwise (Unrelated Commuting)) (each : ∀ xs ∈ threads, ∃ s', Applied s xs s') :
    ∃ s', ∀ zs, Woven threads zs → Applied s zs s' := by
  have runs : ∀ xs ∈ threads,
      ∃ s', Runs (fun s t s' => applyTuxedoTransaction t s = .ok () s') s xs s' := by
    intro xs member
    obtain ⟨s', applied⟩ := each xs member
    exact ⟨s', applied_iff_runs.mp applied⟩
  obtain ⟨s', woven⟩ := commutes.runs_woven apart runs
  exact ⟨s', fun zs weaving => applied_iff_runs.mpr (woven zs weaving)⟩

/-- Transactions that each apply and do not touch each other all apply, in any order. -/
theorem applied_perm {xs : List (Transaction V C)} {s : Storage} (apart : xs.Pairwise Commuting)
    (each : ∀ t ∈ xs, ∃ s', applyTuxedoTransaction t s = .ok () s') :
    ∃ s', ∀ ys, ys.Perm xs → Applied s ys s' := by
  obtain ⟨s', runs⟩ := commutes.runs_perm apart each
  exact ⟨s', fun ys perm => applied_iff_runs.mpr (runs ys perm)⟩

/-- Any of the transactions may have been the last. -/
theorem Applied.last {xs : List (Transaction V C)} {s s' : Storage} (applied : Applied s xs s')
    (apart : xs.Pairwise Commuting) {t : Transaction V C} (member : t ∈ xs) :
    ∃ s₁, applyTuxedoTransaction t s₁ = .ok () s' := by
  obtain ⟨before, after, rfl⟩ := List.append_of_mem member
  have later : (before ++ t :: after).Perm ((before ++ after) ++ [t]) :=
    List.perm_middle.trans (List.perm_append_singleton t (before ++ after)).symm
  obtain ⟨s₁, _, last⟩ := applied_append.mp (applied.reorder (SameOrders.of_perm later apart))
  cases last with
  | apply applied done =>
    cases done
    exact ⟨s₁, applied⟩

theorem Applied.peek_untouched {xs : List (Transaction V C)} {s s' : Storage} (applied : Applied s xs s')
    (free : ∀ t ∈ xs, SideEffectFree V t.checker) {r : OutputRef}
    (apart : ∀ t ∈ xs, r ∉ inputRefs t ∧ ∀ txHash, t.id? = some txHash → r ∉ t.outputRefs txHash) :
    peekUtxo V s' r = peekUtxo V s r := by
  induction applied with
  | done s => rfl
  | @apply s s₁ s' t ts applied _ ih =>
    obtain ⟨free_t, free⟩ := List.forall_mem_cons.mp free
    obtain ⟨⟨notInput, notOutput⟩, apart⟩ := List.forall_mem_cons.mp apart
    obtain ⟨txHash, checked, accepted⟩ := apply_ok.mp applied
    obtain rfl : checked = s := by
      obtain ⟨priority, call⟩ := accepted.checks
      exact free_t.writesNothing call
    exact (ih free apart).trans (peekUtxo_congr (accepted.get_ref notInput (notOutput txHash accepted.hash)))

omit [Host] in
/-- Opening a block under another header with the number of the first differs in the header only. -/
theorem openBlock_sameBut {header header' : Header} (number : header'.number = header.number) (s : Storage) :
    (openBlock header s).SameBut headerKey (openBlock header' s) := by
  rw [openBlock, openBlock, number]
  exact (((Store.SameBut.refl headerKey s).set_left (encode header)).symm.set_left (encode header')).set _ _

/-- The block with its extrinsics in another order, under the root of that order. -/
def Block.withExtrinsics (block : Block V C) (xs : Vec (Transaction V C)) : Block V C :=
  ⟨{ block.header with extrinsicsRoot := Host.orderedTrieRoot .v0 (xs.toList.map encode) }, xs⟩

theorem executeBlock_reordered
    (blind : ∀ t : Transaction V C, (applyTuxedoTransaction t).Respects (Store.SameBut headerKey))
    {block : Block V C} {xs : Vec (Transaction V C)} {s s' : Storage}
    (same : SameOrders Commuting block.extrinsics.toList xs.toList) (first : InherentsFirst V xs.toList)
    (executed : executeBlock block s = .ok () s') : executeBlock (Block.withExtrinsics block xs) s = .ok () s' := by
  obtain ⟨_, ⟨s₁, applied, rfl⟩, stateRoot, _⟩ := executeBlock_ok.mp executed
  have number : (Block.withExtrinsics block xs).header.number = block.header.number := rfl
  have opened := openBlock_sameBut number s
  obtain ⟨s₂, applied₂, after⟩ := (applied.reorder same).sameBut blind opened
  exact executeBlock_ok.mpr ⟨first, ⟨s₂, applied₂, after.clear_eq.symm⟩, stateRoot, rfl⟩

/-- Authors that choose different orders close with one storage and one state root. -/
theorem authorBlock_reordered [LeavesTransient V C] {header closed : Header} {xs ys : List (Transaction V C)}
    {s s' : Storage} (same : SameOrders Commuting xs ys) (unnoted : s.get extrinsicKey = none)
    (fits : xs.length < 2 ^ 32) (authored : authorBlock header xs s = .ok closed s') :
    authorBlock header ys s =
      .ok { closed with extrinsicsRoot := Host.orderedTrieRoot .v0 (ys.map encode) } s' := by
  obtain ⟨⟨s₁, applied, rfl⟩, rfl⟩ := (authorBlock_ok unnoted fits).mp authored
  have fits' : ys.length < 2 ^ 32 := same.length_eq ▸ fits
  exact (authorBlock_ok unnoted fits').mpr ⟨⟨s₁, applied.reorder same, rfl⟩, rfl⟩

/-- An author that could close a block with its inherents and any one of the lists can close one with all
of them, woven in any way. -/
theorem authorBlock_woven [LeavesTransient V C] {header : Header} {opening : List (Transaction V C)}
    {threads : List (List (Transaction V C))} {s : Storage} (unnoted : s.get extrinsicKey = none)
    (fits : (opening ++ threads.flatten).length < 2 ^ 32) (apart : threads.Pairwise (Unrelated Commuting))
    (opens : ∃ closed s', authorBlock header opening s = .ok closed s')
    (each : ∀ xs ∈ threads, ∃ closed s', authorBlock header (opening ++ xs) s = .ok closed s') :
    ∃ s', ∀ zs, Woven threads zs → ∃ closed, authorBlock header (opening ++ zs) s = .ok closed s' := by
  rw [List.length_append] at fits
  have small : ∀ xs : List (Transaction V C), xs.length ≤ threads.flatten.length →
      (opening ++ xs).length < 2 ^ 32 := by
    intro xs short
    rw [List.length_append]
    omega
  obtain ⟨_, _, opens⟩ := opens
  obtain ⟨⟨s₁, opened, _⟩, _⟩ := (authorBlock_ok unnoted (by omega)).mp opens
  have alone : ∀ xs ∈ threads, ∃ s', Applied s₁ xs s' := by
    intro xs member
    obtain ⟨_, _, authored⟩ := each xs member
    have short := (List.sublist_flatten_of_mem member).length_le
    obtain ⟨⟨s₂, applied, _⟩, _⟩ := (authorBlock_ok unnoted (small xs short)).mp authored
    obtain ⟨_, first, later⟩ := applied_append.mp applied
    exact ⟨s₂, first.unique opened ▸ later⟩
  obtain ⟨s', woven⟩ := applied_woven apart alone
  refine ⟨s'.clear headerKey, fun zs weaving => ?_⟩
  have whole := (weaving.sameOrders apart).length_eq
  have applied := applied_append.mpr ⟨s₁, opened, woven zs weaving⟩
  exact ⟨_, (authorBlock_ok unnoted (small zs whole.ge)).mpr ⟨⟨s', applied, rfl⟩, rfl⟩⟩

/-- Each of these blocks imports, to the one storage. -/
theorem woven_imports [LeavesTransient V C]
    (blind : ∀ t : Transaction V C, (applyTuxedoTransaction t).Respects (Store.SameBut headerKey)) {header : Header}
    {opening : List (Transaction V C)} {threads : List (List (Transaction V C))} {s : Storage}
    (unnoted : s.get extrinsicKey = none)
    (inherents : ∀ t ∈ opening, ConstraintChecker.isInherent (V := V) t.checker = true)
    (others : ∀ xs ∈ threads, ∀ t ∈ xs, ConstraintChecker.isInherent (V := V) t.checker = false)
    (fits : (opening ++ threads.flatten).length < 2 ^ 32) (apart : threads.Pairwise (Unrelated Commuting))
    (opens : ∃ closed s', authorBlock header opening s = .ok closed s')
    (each : ∀ xs ∈ threads, ∃ closed s', authorBlock header (opening ++ xs) s = .ok closed s') :
    ∃ s', ∀ (xs : Vec (Transaction V C)) (zs : List (Transaction V C)), Woven threads zs → xs.toList = opening ++ zs →
      ∃ closed, authorBlock header xs.toList s = .ok closed s' ∧ executeBlock ⟨closed, xs⟩ s = .ok () s' := by
  obtain ⟨s', woven⟩ := authorBlock_woven unnoted fits apart opens each
  refine ⟨s', fun xs zs weaving listed => ?_⟩
  obtain ⟨closed, authored⟩ := woven zs weaving
  have first : InherentsFirst V xs.toList := by
    refine ⟨opening, zs, listed, inherents, fun t member => ?_⟩
    obtain ⟨ys, thread, inside⟩ := List.mem_flatten.mp (((weaving.sameOrders apart).mem_iff t).mp member)
    exact others ys thread t inside
  rw [← listed] at authored
  exact ⟨closed, authored, (executeBlock_of_authored blind unnoted first authored).1⟩

end
end Tuxedo.Executive
