import Tuxedo.Executive.Typed
import Tuxedo.Executive.Authoring

/-!
# Chains of blocks

Blocks with consecutive numbers over a genesis, each of which passes the check of its inherents
and executes.
-/

namespace Tuxedo.Executive
open Scale TransparentUtxoSet TuxedoGenesisConfigBuilder TuxedoGenesisBlockBuilder

section
variable {V C : Type} [Host] [Verifier V] [Codec C] [ConstraintChecker V C]

def isInherent (t : Transaction V C) : Bool := ConstraintChecker.isInherent (V := V) t.checker

/-- The transactions so far, the last block and the storage after it. -/
inductive Chain : List (Transaction V C) → Block V C → Storage → Prop
  | genesis {txs : Vec (Transaction V C)} {base built : Storage} (version : StateVersion)
      (bare : ∀ r, peekUtxo V base r = none) (builds : build txs base = .ok built)
      (inherents : ConstraintChecker.genesisTransactions = some (txs.toList.filter isInherent)) :
      Chain txs.toList (buildGenesisBlock version built).1 (buildGenesisBlock (V := V) (C := C) version built).2
  | next {past : List (Transaction V C)} {parent block : Block V C} {s s' : Storage} {data : InherentData}
      {result : CheckInherentsResult} (chain : Chain past parent s)
      (number : block.header.number.toNat = parent.header.number.toNat + 1)
      (checked : checkInherents block data = some result) (okay : result.okay = true)
      (executed : executeBlock block s = .ok () s') : Chain (past ++ block.extrinsics.toList) block s'

/-- The genesis block holds the transactions that the genesis was built from. -/
theorem genesisBlock_extrinsics {txs : Vec (Transaction V C)} {base built : Storage} (version : StateVersion)
    (builds : build txs base = .ok built) :
    (buildGenesisBlock (V := V) (C := C) version built).1.extrinsics = txs := by
  simp [buildGenesisBlock, build_extrinsics builds]

/-- Without collisions no transaction of a genesis overwrites the outputs of another. -/
theorem build_present {txs : Vec (Transaction V C)} {base built : Storage} (bare : ∀ r, peekUtxo V base r = none)
    (builds : build txs base = .ok built) (free : CollisionFree {t | t ∈ txs.toList}) {t : Transaction V C}
    (member : t ∈ txs.toList) {r : OutputRef} {output : Output V} (made : creates t r = some output) :
    peekUtxo V built r = some output := by
  obtain ⟨start, same, whole⟩ := build_ok builds
  rw [whole.after]
  obtain ⟨found, present⟩ :=
    peek_storeAll_present (s := start) (Or.inl ⟨t, member, output, made⟩)
  rcases peek_storeAll_source present with ⟨t', member', made'⟩ | before
  · obtain rfl := free.apart t member t' member' r output found made made'
    rw [made] at made'
    rw [present, made']
  · rw [same.peek r, bare r] at before
    cases before

theorem genesis_present {txs : Vec (Transaction V C)} {base built : Storage} (version : StateVersion)
    (bare : ∀ r, peekUtxo V base r = none) (builds : build txs base = .ok built)
    (free : CollisionFree {t | t ∈ txs.toList}) {t : Transaction V C} (member : t ∈ txs.toList) {r : OutputRef}
    {output : Output V} (made : creates t r = some output) :
    peekUtxo V (buildGenesisBlock (V := V) (C := C) version built).2 r = some output := by
  have cleared : SameUtxos built (buildGenesisBlock (V := V) (C := C) version built).2 := .clear (by decide)
  rw [cleared.peek r, build_present bare builds free member made]

omit [Host] [Verifier V] [Codec C] in
theorem filter_inherents {kind : Transaction V C → Bool} (inherent : ∀ x, kind x = true → isInherent x = true)
    (xs : List (Transaction V C)) : (xs.filter isInherent).filter kind = xs.filter kind := by
  rw [List.filter_filter]
  apply List.filter_congr
  intro x _
  cases member : kind x with
  | false => rfl
  | true => exact inherent x member

namespace Chain
variable {past : List (Transaction V C)} {parent : Block V C} {s : Storage}

theorem inherentsFirst (chain : Chain past parent s) : InherentsFirst V parent.extrinsics.toList := by
  cases chain with
  | genesis version bare builds inherents =>
    rw [genesisBlock_extrinsics version builds]
    exact (buildTransactions_ok builds).inOrder
  | next chain number checked okay executed => exact (executeBlock_ok.mp executed).1

theorem openingInherents_eq (chain : Chain past parent s) :
    openingInherents parent = parent.extrinsics.toList.filter isInherent :=
  takeWhile_eq_filter chain.inherentsFirst

/-- The last block has one inherent of a kind, if the genesis brings one and the check of the
inherents asks for one. -/
theorem one_of_kind (chain : Chain past parent s) {kind : Transaction V C → Bool}
    (inherent : ∀ x, kind x = true → isInherent x = true)
    (built : ∀ {txs : List (Transaction V C)}, ConstraintChecker.genesisTransactions = some txs →
      ∃ x, txs.filter kind = [x])
    (checked_one : ∀ {data : InherentData} {xs : List (Transaction V C)} {result : CheckInherentsResult},
      (∀ x ∈ xs, isInherent x = true) → ConstraintChecker.checkInherents data xs .new = some result →
      result.okay = true → ∃ x, xs.filter kind = [x]) :
    ∃ x, parent.extrinsics.toList.filter kind = [x] := by
  rw [← filter_inherents inherent]
  have opening := chain.openingInherents_eq
  cases chain with
  | genesis version bare builds inherents =>
    rw [genesisBlock_extrinsics version builds]
    exact built inherents
  | next chain number checked okay executed =>
    rw [checkInherents, opening] at checked
    exact checked_one (fun x member => (List.mem_filter.mp member).2) checked okay

theorem hashed (chain : Chain past parent s) : ∀ t ∈ parent.extrinsics.toList, ∃ txHash, t.id? = some txHash := by
  cases chain with
  | genesis version bare builds inherents =>
    rw [genesisBlock_extrinsics version builds]
    exact (buildTransactions_ok builds).hashed
  | next chain number checked okay executed =>
    obtain ⟨_, ⟨s₁, applied, _⟩, _⟩ := executeBlock_ok.mp executed
    exact applied.hashed

/-- The one inherent of a kind is an opening inherent and has a hash. -/
theorem opening_of_kind (chain : Chain past parent s) {kind : Transaction V C → Bool}
    (inherent : ∀ x, kind x = true → isInherent x = true) {x : Transaction V C}
    (one : parent.extrinsics.toList.filter kind = [x]) :
    (openingInherents parent).filter kind = [x] ∧ x ∈ parent.extrinsics.toList ∧ kind x = true ∧
      ∃ txHash, x.id? = some txHash := by
  have found : x ∈ parent.extrinsics.toList.filter kind := by
    rw [one]
    exact List.mem_singleton_self x
  obtain ⟨member, belongs⟩ := List.mem_filter.mp found
  refine ⟨?_, member, belongs, chain.hashed x member⟩
  rw [chain.openingInherents_eq, filter_inherents inherent, one]

theorem sourced [KeepsUtxos V C] (chain : Chain past parent s) : Sourced V past s := by
  induction chain with
  | @genesis txs base built version bare builds inherents =>
    obtain ⟨start, same, made⟩ := build_ok builds
    refine Sourced.same (s := built) ?_ (.clear (by decide))
    intro r output present
    rw [made.after] at present
    rcases peek_storeAll_source present with found | before
    · exact found
    · rw [same.peek r, bare r] at before
      cases before
  | next chain number checked okay executed ih => exact ih.run (executeBlock_run executed)

/-- No extrinsics are noted between two blocks. -/
theorem unnoted [LeavesTransient V C] (chain : Chain past parent s) : s.get extrinsicKey = none := by
  induction chain with
  | genesis version bare builds inherents => exact Store.get_clear_self _ _
  | next chain number checked okay executed ih => exact (executeBlock_clears ih executed).2

end Chain

/-- Blocks executed one after the other, whatever was checked off chain. -/
inductive Imported : Storage → List (Block V C) → Storage → Prop
  | done (s : Storage) : Imported s [] s
  | execute {s s₁ s' : Storage} {block : Block V C} {blocks : List (Block V C)}
      (executed : executeBlock block s = .ok () s₁) (later : Imported s₁ blocks s') : Imported s (block :: blocks) s'

end
end Tuxedo.Executive
