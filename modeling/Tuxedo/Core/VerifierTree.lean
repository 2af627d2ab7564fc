import Tuxedo.Core.Verifier

/-!
# Trees of verifiers

The `#[tuxedo_verifier]` macro writes one arm for each variant of the enum, and the combined
redeemer with one `as_` method for each. A variant may be an aggregate itself. An arm panics on
a redeemer of another variant.
-/

namespace Tuxedo
open Scale

/-! ### Aggregation -/

/-- A variant of the enum, with the variant of the combined redeemer that goes with it. -/
structure VerifierVariant (V R : Type) where
  Inner : Type
  verifier : Verifier Inner
  unwrap : V → Option Inner
  asVariant : R → Option verifier.Redeemer

/-- The `verify` that the macro writes. -/
def VerifierVariant.verify {V R : Type} (variants : List (VerifierVariant V R)) (outer : V) (simplifiedTx : Bytes)
    (blockNumber : BlockNumber) (redeemer : R) : Option Bool :=
  match variants with
  | [] => none
  | v :: variants =>
    match v.unwrap outer with
    | some inner => do
      let redeemer ← v.asVariant redeemer
      v.verifier.verify inner simplifiedTx blockNumber redeemer
    | none => verify variants outer simplifiedTx blockNumber redeemer

/-- Every value and every redeemer belongs to one of the variants. -/
structure IsVerifierEnum {V R : Type} (variants : List (VerifierVariant V R)) : Prop where
  covers : ∀ outer, ∃ i, ((variants.get i).unwrap outer).isSome
  apart : ∀ outer i j, ((variants.get i).unwrap outer).isSome → ((variants.get j).unwrap outer).isSome → i = j
  redeemerCovers : ∀ redeemer, ∃ i, ((variants.get i).asVariant redeemer).isSome
  redeemerApart : ∀ redeemer i j, ((variants.get i).asVariant redeemer).isSome →
    ((variants.get j).asVariant redeemer).isSome → i = j

/-- The verifier is the one that the macro writes for the enum. -/
structure AggregatesVerifiers {V : Type} (verifier : Verifier V)
    (variants : List (VerifierVariant V verifier.Redeemer)) : Prop where
  isEnum : IsVerifierEnum variants
  verify : verifier.verify = VerifierVariant.verify variants

/-- A verifier that is built from others with the macro. -/
inductive VerifierTree : (V : Type) → Verifier V → Type 1
  | leaf (V : Type) (verifier : Verifier V) : VerifierTree V verifier
  | aggregate {V : Type} {verifier : Verifier V} (variants : List (VerifierVariant V verifier.Redeemer))
      (aggregates : AggregatesVerifiers verifier variants)
      (subtree : (i : Fin variants.length) → VerifierTree (variants.get i).Inner (variants.get i).verifier) :
      VerifierTree V verifier

/-! ### Where a redeemer goes -/

/-- On every level the redeemer is of the verifier's variant, and so goes down to a leaf, with this
answer. -/
inductive Routed : {V : Type} → {verifier : Verifier V} → VerifierTree V verifier → V → verifier.Redeemer →
    (Bytes → BlockNumber → Option Bool) → Prop
  | leaf {V : Type} {verifier : Verifier V} {outer : V} {redeemer : verifier.Redeemer} :
      Routed (.leaf V verifier) outer redeemer fun simplifiedTx blockNumber =>
        verifier.verify outer simplifiedTx blockNumber redeemer
  | variant {V : Type} {verifier : Verifier V} {variants : List (VerifierVariant V verifier.Redeemer)}
      {aggregates : AggregatesVerifiers verifier variants}
      {subtree : (i : Fin variants.length) → VerifierTree (variants.get i).Inner (variants.get i).verifier}
      {outer : V} {redeemer : verifier.Redeemer} (i : Fin variants.length) {inner : (variants.get i).Inner}
      {innerRedeemer : (variants.get i).verifier.Redeemer} {answer : Bytes → BlockNumber → Option Bool}
      (unwraps : (variants.get i).unwrap outer = some inner)
      (matched : (variants.get i).asVariant redeemer = some innerRedeemer)
      (below : Routed (subtree i) inner innerRedeemer answer) :
      Routed (.aggregate variants aggregates subtree) outer redeemer answer

/-- The first arm that unwraps the value is the one that runs. -/
theorem VerifierVariant.verify_of_unwrap {V R : Type} {variants : List (VerifierVariant V R)} {outer : V}
    (apart : ∀ i j, ((variants.get i).unwrap outer).isSome → ((variants.get j).unwrap outer).isSome → i = j)
    (i : Fin variants.length) {inner : (variants.get i).Inner} (unwraps : (variants.get i).unwrap outer = some inner)
    (simplifiedTx : Bytes) (blockNumber : BlockNumber) (redeemer : R) :
    VerifierVariant.verify variants outer simplifiedTx blockNumber redeemer =
      ((variants.get i).asVariant redeemer).bind fun redeemer =>
        (variants.get i).verifier.verify inner simplifiedTx blockNumber redeemer := by
  induction variants with
  | nil => exact i.elim0
  | cons v variants ih =>
    unfold VerifierVariant.verify
    cases i using Fin.cases with
    | zero =>
      replace unwraps : v.unwrap outer = some inner := unwraps
      rw [unwraps]
      rfl
    | succ i =>
      have other : v.unwrap outer = none := by
        rw [← Option.not_isSome_iff_eq_none]
        intro first
        have same := apart 0 i.succ first (Option.isSome_of_eq_some unwraps)
        cases same
      rw [other]
      refine ih (fun i j first second => ?_) i unwraps
      exact Fin.succ_inj.mp (apart i.succ j.succ first second)

section
variable {V : Type} {verifier : Verifier V} {tree : VerifierTree V verifier} {outer : V}
  {redeemer : verifier.Redeemer} {answer : Bytes → BlockNumber → Option Bool}

theorem Routed.verify_eq (routed : Routed tree outer redeemer answer) (simplifiedTx : Bytes)
    (blockNumber : BlockNumber) :
    verifier.verify outer simplifiedTx blockNumber redeemer = answer simplifiedTx blockNumber := by
  induction routed with
  | leaf => rfl
  | @variant V verifier variants aggregates _ outer redeemer i _ _ _ unwraps matched _ ih =>
    rw [aggregates.verify, VerifierVariant.verify_of_unwrap (aggregates.isEnum.apart outer) i unwraps, matched]
    exact ih

/-- A redeemer that does not go down to a leaf is a panic. -/
theorem VerifierTree.verify_unrouted (tree : VerifierTree V verifier) {outer : V} {redeemer : verifier.Redeemer}
    (unrouted : ¬∃ answer, Routed tree outer redeemer answer) (simplifiedTx : Bytes) (blockNumber : BlockNumber) :
    verifier.verify outer simplifiedTx blockNumber redeemer = none := by
  induction tree with
  | leaf V verifier => exact (unrouted ⟨_, .leaf⟩).elim
  | aggregate variants aggregates subtree ih =>
    obtain ⟨i, unwraps⟩ := aggregates.isEnum.covers outer
    obtain ⟨inner, unwraps⟩ := Option.isSome_iff_exists.mp unwraps
    rw [aggregates.verify, VerifierVariant.verify_of_unwrap (aggregates.isEnum.apart outer) i unwraps]
    cases matched : (variants.get i).asVariant redeemer with
    | none => rfl
    | some innerRedeemer =>
      refine ih i fun ⟨answer, below⟩ => unrouted ⟨answer, ?_⟩
      exact .variant i unwraps matched below

/-- The verifier answers, with the answer of the leaf, when the redeemer goes down to a leaf that
answers. -/
theorem VerifierTree.verify_answers_iff (tree : VerifierTree V verifier) (outer : V) (simplifiedTx : Bytes)
    (blockNumber : BlockNumber) (redeemer : verifier.Redeemer) :
    (∃ verified, verifier.verify outer simplifiedTx blockNumber redeemer = some verified ∧
      (∀ answer, Routed tree outer redeemer answer → answer simplifiedTx blockNumber = some verified) ∧
      ((¬∃ answer, Routed tree outer redeemer answer) → verified = false)) ↔
    ∃ answer, Routed tree outer redeemer answer ∧ answer simplifiedTx blockNumber ≠ none := by
  constructor
  · rintro ⟨verified, answered, routes, _⟩
    by_cases routed : ∃ answer, Routed tree outer redeemer answer
    · obtain ⟨answer, routed⟩ := routed
      exact ⟨answer, routed, by simp [routes answer routed]⟩
    · rw [tree.verify_unrouted routed] at answered
      cases answered
  · rintro ⟨answer, routed, answered⟩
    obtain ⟨verified, found⟩ := Option.ne_none_iff_exists'.mp answered
    refine ⟨verified, (routed.verify_eq ..).trans found, fun other routed' => ?_, fun unrouted => ?_⟩
    · rw [← routed'.verify_eq, routed.verify_eq, found]
    · exact (unrouted ⟨answer, routed⟩).elim

end
end Tuxedo
