import Tuxedo.Runtime.Pieces
import Tuxedo.Executive.Inputs

/-!
# Replay

Only the outputs that are there now guard against a second application. What consumes an
output cannot come back, what consumes nothing can.
-/

namespace Tuxedo.Template
open Scale Executive TransparentUtxoSet TuxedoGenesisConfigBuilder

/-- The reference is one that the transaction writes an output to. -/
def Writes [Host] (t : Transaction) (r : OutputRef) : Prop := ∃ output, creates t r = some output

/-- Creates outputs without consuming any. -/
def Minting (t : Transaction) : Prop := t.inputs.toList = [] ∧ t.outputs.toList ≠ []

section
variable [Host]

theorem minting_of_creating {t : Transaction} (creating : Ledger.Creating creates t)
    (inputless : ∀ r, r ∉ consumes t) : Minting t := by
  obtain ⟨r, output, made⟩ := creating
  have inside := List.mem_of_getElem? (creates_eq_some.mp made).2
  refine ⟨?_, List.ne_nil_of_mem inside⟩
  cases inputs : t.inputs.toList with
  | nil => rfl
  | cons input rest => exact absurd (show input.outputRef ∈ inputRefs t by simp [inputRefs, inputs]) (inputless _)

theorem not_writes_twice {t t' : Transaction} {ts : Set Transaction} (free : CollisionFree ts)
    (member : t ∈ ts) (member' : t' ∈ ts) (unlike : Ledger.Unlike consumes creates t t') :
    ∀ r, Writes t r → ¬Writes t' r := by
  rintro r ⟨output, made⟩ ⟨output', made'⟩
  exact unlike.1 ⟨r, output', made'⟩ (free.apart t member t' member' r output output' made made')

/-- From a genesis on, no reference is written by two steps or consumed by two steps, provided
that no minting transaction is applied again. -/
theorem refs_written_once (genesis : Vec Transaction) (base start final : Storage) (ts : List Transaction)
    (bare : ∀ r, peekUtxo OuterVerifier base r = none) (built : build genesis base = .ok start)
    (run : Run start ts final) (free : CollisionFree {t | t ∈ genesis.toList ∨ t ∈ ts})
    (notGenesis : ∀ t ∈ ts, Minting t → t ∉ genesis.toList)
    (notTwice : ts.Pairwise fun t t' => Minting t' → t ≠ t') :
    (∀ t₀ ∈ genesis.toList, ∀ t ∈ ts, ∀ r, Writes t₀ r → ¬Writes t r) ∧
    (ts.Pairwise fun t t' => ∀ r, Writes t r → ¬Writes t' r) ∧
    ts.Pairwise fun t t' => ∀ r ∈ inputRefs t, r ∉ inputRefs t' := by
  have history := build_history bare built
  obtain ⟨unlikeGenesis, unlike, _⟩ := run.ledger.unlike history free.apart
    (fun t₀ earlier t member creating inputless same =>
      notGenesis t member (minting_of_creating creating inputless) (same ▸ earlier))
    (notTwice.imp fun unrepeated creating inputless => unrepeated (minting_of_creating creating inputless))
  refine ⟨?_, ?_, unlike.imp fun h => h.2⟩
  · intro t₀ earlier t member
    exact not_writes_twice free (Or.inl earlier) (Or.inr member) (unlikeGenesis t₀ earlier t member)
  · exact unlike.imp_of_mem fun member member' h => not_writes_twice free (Or.inr member) (Or.inr member') h

end

/-! A mint comes back once its coin is burned. -/

def mintCoin : Transaction := ⟨Vec.empty, Vec.empty, Vec.singleton (grabCoin 100), .money .mint⟩

def mintedRef : OutputRef :=
  letI := Host.unsigned
  ⟨(mintCoin.id?).getD (FixedBytes.zero 32), 0⟩

def burnCoin : Transaction :=
  ⟨Vec.singleton ⟨mintedRef, .redemption (Vec.singleton 1)⟩, Vec.empty, Vec.empty, .money .spend⟩

/-- The storage that a genesis without transactions builds. -/
def emptyGenesis : Storage :=
  (Store.empty.set extrinsicKey (encode (Vec.empty : Vec Transaction))).set heightKey (encode (0 : UInt32))

/-- The coin is minted, burned and minted again, and the two transactions have hashes of their own. -/
theorem mintBurn_computed :
    letI := Host.unsigned
    (∀ t ∈ [mintCoin, burnCoin], ∀ t' ∈ [mintCoin, burnCoin],
      Host.blake2_256 (preimage t) = Host.blake2_256 (preimage t') → preimage t = preimage t') ∧
    (([mintCoin, burnCoin, mintCoin].forM fun t => applyTuxedoTransaction t).toOption emptyGenesis).any
      (fun _ => true) = true := by
  decide +kernel

theorem mintBurn_free {ts : Set Transaction} (within : ∀ t ∈ ts, t ∈ [mintCoin, burnCoin]) :
    letI := Host.unsigned
    CollisionFree ts := by
  let := Host.unsigned
  exact collisionFree_of_list within mintBurn_computed.1

theorem mintBurn_applied :
    letI := Host.unsigned
    ∃ burnt final, Applied emptyGenesis [mintCoin, burnCoin] burnt ∧
      Applied emptyGenesis [mintCoin, burnCoin, mintCoin] final := by
  let := Host.unsigned
  obtain ⟨_, final, ran, _⟩ := Exec.exists_of_any mintBurn_computed.2
  have applied := applied_of_forM ran
  cases applied with
  | apply mint later =>
    cases later with
    | apply burn => exact ⟨_, final, .apply mint (.apply burn (.done _)), applied_of_forM ran⟩

theorem refs_written_once_mintBurn :
    letI := Host.unsigned
    ∃ final, build (Vec.empty : Vec Transaction) Store.empty = .ok emptyGenesis ∧
      Run emptyGenesis [mintCoin, burnCoin] final ∧ ∀ r, Writes mintCoin r → ¬Writes burnCoin r := by
  let := Host.unsigned
  obtain ⟨final, _, applied, _⟩ := mintBurn_applied
  have run := applied.run
  have once := refs_written_once Vec.empty Store.empty emptyGenesis final [mintCoin, burnCoin]
    (fun r => by simp [peekUtxo]) rfl run
    (mintBurn_free fun t member => member.elim (fun none => by cases none) id)
    (fun t _ _ none => by cases none) (by simp [Minting, burnCoin, Vec.singleton])
  exact ⟨final, rfl, run, List.rel_of_pairwise_cons once.2.1 List.mem_cons_self⟩

theorem mint_written_twice :
    letI := Host.unsigned
    ¬∀ (genesis : Vec Transaction) (base start final : Storage) (ts : List Transaction),
      (∀ r, peekUtxo OuterVerifier base r = none) → build genesis base = .ok start → Run start ts final →
      CollisionFree {t | t ∈ genesis.toList ∨ t ∈ ts} →
      ts.Pairwise fun t t' => ∀ r, Writes t r → ¬Writes t' r := by
  let := Host.unsigned
  intro once
  obtain ⟨_, final, _, applied⟩ := mintBurn_applied
  have free : CollisionFree {t | t ∈ (Vec.empty : Vec Transaction).toList ∨ t ∈ [mintCoin, burnCoin, mintCoin]} := by
    apply mintBurn_free
    rintro t (none | member)
    · cases none
    · rcases List.mem_cons.mp member with same | member
      · exact same ▸ List.mem_cons_self
      · rcases List.mem_cons.mp member with same | member
        · exact same ▸ List.mem_cons_of_mem _ List.mem_cons_self
        · exact List.mem_singleton.mp member ▸ List.mem_cons_self
  have pairwise := once Vec.empty Store.empty emptyGenesis final [mintCoin, burnCoin, mintCoin]
    (fun r => by simp [peekUtxo]) rfl applied.run free
  have writes : Writes mintCoin mintedRef := ⟨grabCoin 100, by decide +kernel⟩
  exact List.rel_of_pairwise_cons pairwise (List.mem_cons_of_mem _ List.mem_cons_self) mintedRef writes writes

end Tuxedo.Template
