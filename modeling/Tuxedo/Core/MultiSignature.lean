import Tuxedo.Core.Verifier
import Tuxedo.Lib.MapM
import Mathlib.Data.Finset.Card
import Mathlib.Data.List.Perm.Lattice

/-!
# Threshold multisignatures

The answer comes from the filters alone: the signatures are checked, and the answers of the
checks are dropped. The range of the indices is compared with the number of signatures and not
with the number of signatories.
-/

namespace Tuxedo.ThresholdMultiSignature
open Scale

/-! ### The filters -/

/-- The list passes every filter before the signatures are checked. -/
structure Screened (v : ThresholdMultiSignature) (sigs : List SignatureAndIndex) : Prop where
  signatories : v.signatories.toList.Nodup
  enough : v.threshold.toNat ≤ sigs.length
  range : ∀ sig ∈ sigs, sig.index.toNat < sigs.length
  indices : (sigs.map fun sig => sig.index).Nodup

theorem dedup_length_lt_iff {α : Type} [DecidableEq α] {xs : List α} : xs.dedup.length < xs.length ↔ ¬xs.Nodup := by
  rw [← List.dedup_eq_self, ← (List.dedup_sublist xs).length_eq]
  have shorter := (List.dedup_sublist xs).length_le
  omega

variable [Host] {v : ThresholdMultiSignature} {message : Bytes} {sigs : List SignatureAndIndex}

theorem verify_of_unscreened (unscreened : ¬v.Screened sigs) : v.verify message sigs = some false := by
  unfold verify
  split
  · rfl
  · rename_i signatories
    split
    · rfl
    · rename_i enough
      split
      · rfl
      · rename_i range
        split
        · rfl
        · rename_i indices
          refine (unscreened ⟨?_, by omega, ?_, ?_⟩).elim
          · simpa [hasDuplicateSignatories, dedup_length_lt_iff] using signatories
          · simpa using range
          · have shorter : ¬(sigs.map fun sig => sig.index).dedup.length < (sigs.map fun sig => sig.index).length := by
              simpa using indices
            exact not_not.mp (mt dedup_length_lt_iff.mpr shorter)

/-- Past the filters, only the places of the signatories count. -/
theorem verify_of_screened (screened : v.Screened sigs) :
    v.verify message sigs =
      if ∃ sig ∈ sigs, v.signatories.toList.length ≤ sig.index.toNat then none else some true := by
  have distinct : ¬v.hasDuplicateSignatories = true := by
    simpa [hasDuplicateSignatories, dedup_length_lt_iff] using screened.signatories
  have enough := screened.enough
  have range : ¬(sigs.any fun sig => sigs.length ≤ sig.index.toNat) = true := by simpa using screened.range
  have indices : ¬(sigs.map fun sig => sig.index).dedup.length < sigs.length := by
    have shorter := mt dedup_length_lt_iff.mp (not_not.mpr screened.indices)
    simpa using shorter
  unfold verify
  rw [if_neg distinct, if_neg (by omega), if_neg range, if_neg indices]
  split
  · rename_i outside
    obtain ⟨sig, listed, outside⟩ := outside
    have stuck : sigs.mapM (fun sig => do
        let signatory ← v.signatories.toList[sig.index.toNat]?
        let _ := Host.sr25519Verify sig.signature message signatory
        return ()) = none := by
      refine List.mapM_eq_none_iff.mpr ⟨sig, listed, ?_⟩
      rw [List.getElem?_eq_none outside]
      rfl
    rw [stuck]
    rfl
  · rename_i inside
    have collected : sigs.mapM (fun sig => do
        let signatory ← v.signatories.toList[sig.index.toNat]?
        let _ := Host.sr25519Verify sig.signature message signatory
        return ()) = some (sigs.map fun _ => ()) := by
      refine List.mapM_of_some fun sig listed => ?_
      have place : sig.index.toNat < v.signatories.toList.length := by
        by_contra outside
        exact inside ⟨sig, listed, by omega⟩
      rw [List.getElem?_eq_getElem place]
      rfl
    rw [collected]
    simp [enough]

theorem verify_eq_true_iff : v.verify message sigs = some true ↔
    v.Screened sigs ∧ ∀ sig ∈ sigs, sig.index.toNat < v.signatories.toList.length := by
  by_cases screened : v.Screened sigs
  · rw [verify_of_screened screened]
    simp [screened]
  · rw [verify_of_unscreened screened]
    simp [screened]

theorem verify_eq_none_iff : v.verify message sigs = none ↔
    v.Screened sigs ∧ ∃ sig ∈ sigs, v.signatories.toList.length ≤ sig.index.toNat := by
  by_cases screened : v.Screened sigs
  · rw [verify_of_screened screened]
    simp [screened]
  · rw [verify_of_unscreened screened]
    simp [screened]

/-! ### Soundness -/

/-- The signature of the entry is one of the signatory that it names. -/
def accepts (v : ThresholdMultiSignature) (message : Bytes) (sig : SignatureAndIndex) : Bool :=
  v.signatories.toList[sig.index.toNat]?.any fun signatory => Host.sr25519Verify sig.signature message signatory

/-- The signatory at the position has signed. -/
def Signed (v : ThresholdMultiSignature) (message : Bytes) (sigs : List SignatureAndIndex) (position : Nat) : Prop :=
  ∃ sig ∈ sigs, sig.index.toNat = position ∧
    ∃ signatory, v.signatories.toList[position]? = some signatory ∧ Host.sr25519Verify sig.signature message signatory

/-- The positions of the signatories that have signed. -/
noncomputable def signers (v : ThresholdMultiSignature) (message : Bytes) (sigs : List SignatureAndIndex) :
    Finset Nat :=
  open Classical in (Finset.range v.signatories.toList.length).filter (v.Signed message sigs)

theorem signers_eq :
    v.signers message sigs = ((sigs.filter (v.accepts message)).map fun sig => sig.index.toNat).toFinset := by
  ext position
  simp only [signers, Signed, accepts, Finset.mem_filter, Finset.mem_range, List.mem_toFinset, List.mem_map,
    List.mem_filter, Option.any_eq_true]
  constructor
  · rintro ⟨-, sig, listed, rfl, signed⟩
    exact ⟨sig, ⟨listed, signed⟩, rfl⟩
  · rintro ⟨sig, ⟨listed, signatory, named, signed⟩, rfl⟩
    exact ⟨(List.getElem?_eq_some_iff.mp named).1, sig, listed, rfl, signatory, named, signed⟩

theorem card_signers (indices : (sigs.map fun sig => sig.index).Nodup) :
    (v.signers message sigs).card = sigs.countP (v.accepts message) := by
  have distinct : ((sigs.filter (v.accepts message)).map fun sig => sig.index.toNat).Nodup := by
    have kept : ((sigs.filter (v.accepts message)).map fun sig => sig.index).Nodup :=
      indices.sublist (List.filter_sublist.map _)
    have numbers := kept.map (f := UInt8.toNat) fun a b same => UInt8.toNat_inj.mp same
    rwa [List.map_map] at numbers
  rw [signers_eq, List.toFinset_card_of_nodup distinct, List.length_map, List.countP_eq_length_filter]

/-- An accepted list carries the signatures that the threshold asks for unless the dropped answers
would have refused it. -/
theorem verify_sound_iff (v : ThresholdMultiSignature) (message : Bytes) (sigs : List SignatureAndIndex) :
    (v.verify message sigs = some true →
      v.signatories.toList.Nodup ∧ v.threshold.toNat ≤ (v.signers message sigs).card) ↔
    ¬(v.Screened sigs ∧ (∀ sig ∈ sigs, sig.index.toNat < v.signatories.toList.length) ∧
      sigs.countP (v.accepts message) < v.threshold.toNat) := by
  rw [verify_eq_true_iff]
  constructor
  · rintro sound ⟨screened, named, few⟩
    obtain ⟨-, signed⟩ := sound ⟨screened, named⟩
    rw [card_signers screened.indices] at signed
    omega
  · rintro enough ⟨screened, named⟩
    refine ⟨screened.signatories, ?_⟩
    rw [card_signers screened.indices]
    by_contra few
    exact enough ⟨screened, named, by omega⟩

omit [Host] in
theorem verify_unsigned :
    letI := Host.unsigned
    let v : ThresholdMultiSignature := ⟨1, ⟨[FixedBytes.zero 32], by decide⟩⟩
    let sigs : List SignatureAndIndex := [⟨FixedBytes.zero 64, 0⟩]
    v.verify [] sigs = some true ∧ (v.signers [] sigs).card < v.threshold.toNat := by
  let := Host.unsigned
  refine ⟨by decide, ?_⟩
  rw [card_signers (by decide)]
  decide

/-! ### Completeness -/

/-- Enough signatories have signed, each at its own index. -/
structure Eligible (v : ThresholdMultiSignature) (message : Bytes) (sigs : List SignatureAndIndex) : Prop where
  signatories : v.signatories.toList.Nodup
  count : v.signatories.toList.length ≤ 256
  indices : (sigs.map fun sig => sig.index).Nodup
  range : ∀ sig ∈ sigs, sig.index.toNat < v.signatories.toList.length
  signed : ∀ sig ∈ sigs, v.accepts message sig
  enough : v.threshold.toNat ≤ sigs.length

omit [Host] in
theorem perm_range_iff {xs : List Nat} (distinct : xs.Nodup) :
    xs.Perm (List.range xs.length) ↔ ∀ x ∈ xs, x < xs.length := by
  constructor
  · intro perm x listed
    exact List.mem_range.mp (perm.subset listed)
  · intro below
    have within : xs ⊆ List.range xs.length := fun x listed => List.mem_range.mpr (below x listed)
    exact (List.subperm_of_subset distinct within).perm_of_length_le (by simp)

/-- The signatories that have signed are let through when they are the first ones of the list. -/
theorem verify_complete_iff (v : ThresholdMultiSignature) (message : Bytes) (sigs : List SignatureAndIndex)
    (eligible : v.Eligible message sigs) :
    v.verify message sigs = some true ↔
      (sigs.map fun sig => sig.index.toNat).Perm (List.range sigs.length) := by
  have distinct : (sigs.map fun sig => sig.index.toNat).Nodup := by
    have numbers := eligible.indices.map (f := UInt8.toNat) fun a b same => UInt8.toNat_inj.mp same
    rwa [List.map_map] at numbers
  have first := perm_range_iff distinct
  rw [List.length_map, List.forall_mem_map] at first
  rw [first, verify_eq_true_iff]
  constructor
  · intro accepted
    exact accepted.1.range
  · intro range
    exact ⟨⟨eligible.signatories, eligible.enough, range, eligible.indices⟩, eligible.range⟩

/-- The secret key of the zero public key is zero, and this is its signature on every message. -/
def zeroSignature : Signature := ⟨List.replicate 63 0 ++ [0x80], by simp⟩

@[reducible] def signedByZero : Host :=
  Host.native (fun sig _ signatory => signatory = FixedBytes.zero 32 ∧ sig = zeroSignature)
    (fun _ _ => FixedBytes.zero 32) (fun _ _ => FixedBytes.zero 32)

omit [Host] in
/-- Two of three have signed, the second one first. -/
theorem verify_complete_two :
    letI := Host.signing
    let v : ThresholdMultiSignature :=
      ⟨2, ⟨[.zero 32, ⟨List.replicate 32 1, rfl⟩, ⟨List.replicate 32 2, rfl⟩], by decide⟩⟩
    let sigs : List SignatureAndIndex := [⟨signedBy ⟨List.replicate 32 1, rfl⟩, 1⟩, ⟨signedBy (.zero 32), 0⟩]
    v.Eligible [] sigs ∧ v.verify [] sigs = some true := by
  let := Host.signing
  intro v sigs
  have eligible : v.Eligible [] sigs := ⟨by decide, by decide, by decide, by decide, by decide, by decide⟩
  exact ⟨eligible, (verify_complete_iff v [] sigs eligible).mpr (by decide)⟩

omit [Host] in
theorem verify_incomplete :
    letI := signedByZero
    let v : ThresholdMultiSignature := ⟨1, ⟨[⟨List.replicate 32 1, by simp⟩, FixedBytes.zero 32], by decide⟩⟩
    let sigs : List SignatureAndIndex := [⟨zeroSignature, 1⟩]
    v.Eligible [] sigs ∧ v.verify [] sigs = some false := by
  let := signedByZero
  refine ⟨⟨by decide, by decide, by decide, by decide, by decide, by decide⟩, by decide⟩

/-! ### Panics -/

/-- The check panics on the lists whose range is right for the signatures and too wide for the
signatories. -/
theorem verify_total_iff (v : ThresholdMultiSignature) (message : Bytes) (sigs : List SignatureAndIndex) :
    (∃ answer, v.verify message sigs = some answer) ∧
        (Verifier.newUnspendable = some v → v.verify message sigs = some false) ↔
      ¬(v.Screened sigs ∧ ∃ sig ∈ sigs, v.signatories.toList.length ≤ sig.index.toNat) := by
  rw [← @verify_eq_none_iff _ v message sigs]
  constructor
  · rintro ⟨⟨answer, answered⟩, -⟩
    simp [answered]
  · intro total
    obtain ⟨answer, answered⟩ := Option.ne_none_iff_exists'.mp total
    refine ⟨⟨answer, answered⟩, fun unspendable => ?_⟩
    obtain rfl : ⟨1, Vec.empty⟩ = v := Option.some.inj unspendable
    -- An accepted list holds an entry, and its index names no signatory.
    cases answer with
    | false => exact answered
    | true =>
      obtain ⟨screened, named⟩ := verify_eq_true_iff.mp answered
      obtain ⟨sig, listed⟩ := List.exists_mem_of_length_pos screened.enough
      cases named sig listed

omit [Host] in
theorem verify_unspendable_panics :
    letI := Host.unsigned
    let v : ThresholdMultiSignature := ⟨1, Vec.empty⟩
    Verifier.newUnspendable = some v ∧ v.verify [] [⟨FixedBytes.zero 64, 0⟩] = none := by
  let := Host.unsigned
  exact ⟨rfl, by decide⟩

end Tuxedo.ThresholdMultiSignature
