import Tuxedo.Executive.Chains
import Tuxedo.Lib.MapM

/-!
# The hooks of the inherents

What the hooks of an adapted piece do with one inherent, and what the hooks of the runtime get
from the parent block.
-/

namespace Tuxedo
open Scale

section
variable {V C : Type}

/-! ### One inherent -/

/-- A check without error has met exactly one inherent. -/
theorem InherentAdapter.checkInherents_okay [InherentHooks V C] {data : InherentData}
    {inherents : List (Transaction V (InherentAdapter C))} {result result' : CheckInherentsResult}
    (h : checkInherents data inherents result = some result') (okay : result'.okay = true) :
    ∃ x, inherents = [x] ∧ InherentHooks.checkInherent data (unwrapTransaction x) result = some result' := by
  unfold checkInherents at h
  split at h
  · rw [CheckInherentsResult.putError_okay h] at okay
    cases okay
  · exact ⟨_, rfl, h⟩
  · rw [CheckInherentsResult.putError_okay h] at okay
    cases okay

theorem InherentAdapter.createInherents_one [InherentHooks V C] (s : Storage) (data : InherentData)
    (previous : Transaction V (InherentAdapter C)) (txHash : H256) :
    createInherents s data [(previous, txHash)] =
      (InherentHooks.createInherent s data (unwrapTransaction previous, txHash)).map fun current =>
        [wrapTransaction current] := by
  simp only [createInherents]
  cases InherentHooks.createInherent s data (unwrapTransaction previous, txHash) <;> rfl

/-! ### Variants -/

namespace Aggregate

theorem genesisTransactions_cons {v : Variant V C} {variants : List (Variant V C)} {txs : List (Transaction V C)}
    (h : genesisTransactions (v :: variants) = some txs) :
    ∃ first later, v.genesisTransactions = some first ∧ genesisTransactions variants = some later ∧
      txs = first ++ later := by
  obtain ⟨first, own, h⟩ := Option.bind_eq_some_iff.mp h
  obtain ⟨later, others, h⟩ := Option.bind_eq_some_iff.mp h
  exact ⟨first, later, own, others, (Option.some.inj h).symm⟩

end Aggregate
end

/-! ### The previous inherents -/

namespace Executive
variable {V C : Type} [Host] [Verifier V] [Codec C] [ConstraintChecker V C]

/-- The hooks get the inherents of the parent, each with its hash. -/
theorem Chain.previous {past : List (Transaction V C)} {parent : Block V C} {s : Storage}
    (chain : Chain past parent s) : ∃ previous : List (Transaction V C × H256),
      previous.map Prod.fst = openingInherents parent ∧ (∀ p ∈ previous, p.1.id? = some p.2) ∧
      ∀ (s₁ : Storage) (data : InherentData), data.Holds parentInherentIdentifier parent →
        inherentExtrinsics s₁ data = ConstraintChecker.createInherents s₁ data previous := by
  have hashed : ∀ x ∈ openingInherents parent, x.id?.map (fun id => (x, id)) =
      some (x, x.id?.getD (FixedBytes.zero 32)) := by
    intro x member
    obtain ⟨txHash, hash⟩ := chain.hashed x ((List.takeWhile_prefix _).subset member)
    simp [hash]
  refine ⟨(openingInherents parent).map fun x => (x, x.id?.getD (FixedBytes.zero 32)), by simp [Function.comp_def],
    ?_, ?_⟩
  · intro p member
    obtain ⟨x, inherent, rfl⟩ := List.mem_map.mp member
    obtain ⟨txHash, hash⟩ := chain.hashed x ((List.takeWhile_prefix _).subset inherent)
    simp [hash]
  · intro s₁ data holds
    simp [inherentExtrinsics, InherentData.getData_of_holds holds, List.mapM_of_some hashed]

end Executive
end Tuxedo
