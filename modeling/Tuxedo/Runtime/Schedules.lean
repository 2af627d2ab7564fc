import Tuxedo.Executive.Schedules
import Tuxedo.Runtime.Collation
import Tuxedo.Runtime.Effects
import Tuxedo.Runtime.Replay

/-!
# Schedules of the two runtimes

Everything but a runtime upgrade and the parachain inherent may change places with what it does
not touch. What different users send one after another therefore fits into one block in any mixture.
-/

namespace Tuxedo
open Scale Executive TransparentUtxoSet Traces
open Parachain (RelayChain)

section
variable [Host]

/-- Neither upgrades the runtime, and neither touches what the other looks at. -/
structure Template.Swappable (t₁ t₂ : Template.Transaction) : Prop where
  plain₁ : ∀ upgrade, t₁.checker ≠ .runtimeUpgrade upgrade
  plain₂ : ∀ upgrade, t₂.checker ≠ .runtimeUpgrade upgrade
  independent : Independent t₁ t₂

instance : Std.Symm Template.Swappable where
  symm _ _ swappable := ⟨swappable.plain₂, swappable.plain₁, swappable.independent.symm⟩

theorem Template.Swappable.commuting {t₁ t₂ : Template.Transaction} (swappable : Swappable t₁ t₂) :
    Commuting t₁ t₂ :=
  ⟨OuterConstraintChecker.sideEffectFree swappable.plain₁, OuterConstraintChecker.sideEffectFree swappable.plain₂,
    swappable.independent⟩

theorem Template.apply_blind {k : Bytes} (width : k.length ≠ 36) (notHeight : k ≠ heightKey) (notCode : k ≠ codeKey)
    (t : Template.Transaction) : (applyTuxedoTransaction t).Respects (Store.SameBut k) :=
  apply_respects width notHeight (OuterConstraintChecker.check_respects notHeight notCode t.checker)

end

section
variable [Host] [RelayChain]

/-- Both belong to the wrapped runtime, where neither upgrades it. -/
structure ParachainRuntime.Swappable (t₁ t₂ : ParachainRuntime.Transaction) : Prop where
  plain₁ : ∃ checker, t₁.checker = .inner checker ∧ ∀ upgrade, checker ≠ .runtimeUpgrade upgrade
  plain₂ : ∃ checker, t₂.checker = .inner checker ∧ ∀ upgrade, checker ≠ .runtimeUpgrade upgrade
  independent : Independent t₁ t₂

theorem ParachainRuntime.Swappable.commuting {t₁ t₂ : ParachainRuntime.Transaction} (swappable : Swappable t₁ t₂) :
    Commuting t₁ t₂ := by
  obtain ⟨checker₁, shape₁, plain₁⟩ := swappable.plain₁
  obtain ⟨checker₂, shape₂, plain₂⟩ := swappable.plain₂
  exact ⟨shape₁ ▸ inner_sideEffectFree plain₁, shape₂ ▸ inner_sideEffectFree plain₂, swappable.independent⟩

end

/-- A block executes to the same storage when its extrinsics are reordered without exchanging two
that depend on each other, and authors of either order close it with the same state root. -/
theorem reordered_blocks_agree [Host] :
    (∀ (block : Template.Block) (xs : Vec Template.Transaction) (s s' : Storage),
      SameOrders Template.Swappable block.extrinsics.toList xs.toList →
      (InherentsFirst Template.OuterVerifier xs.toList → executeBlock block s = .ok () s' →
        executeBlock (Block.withExtrinsics block xs) s = .ok () s') ∧
      ∀ header closed, BlockState Template.OuterVerifier Template.OuterConstraintChecker s →
        authorBlock header block.extrinsics.toList s = .ok closed s' →
        authorBlock header xs.toList s =
          .ok { closed with extrinsicsRoot := Host.orderedTrieRoot .v0 (xs.toList.map encode) } s') ∧
    ∀ [RelayChain] (block : ParachainRuntime.Block) (xs : Vec ParachainRuntime.Transaction) (s s' : Storage),
      SameOrders ParachainRuntime.Swappable block.extrinsics.toList xs.toList →
      (InherentsFirst Template.OuterVerifier xs.toList → executeBlock block s = .ok () s' →
        executeBlock (Block.withExtrinsics block xs) s = .ok () s') ∧
      ∀ header closed, BlockState Template.OuterVerifier ParachainRuntime.ParachainConstraintChecker s →
        authorBlock header block.extrinsics.toList s = .ok closed s' →
        authorBlock header xs.toList s =
          .ok { closed with extrinsicsRoot := Host.orderedTrieRoot .v0 (xs.toList.map encode) } s' := by
  constructor
  · intro block xs s s' orders
    have same := orders.weaken fun _ _ => Template.Swappable.commuting
    constructor
    · intro first executed
      exact executeBlock_reordered (Template.apply_blind (by decide) (by decide) (by decide)) same first executed
    · intro header closed state authored
      exact authorBlock_reordered same state.unnoted block.extrinsics.length_lt authored
  · intro _ block xs s s' orders
    have same := orders.weaken fun _ _ => ParachainRuntime.Swappable.commuting
    constructor
    · intro first executed
      exact executeBlock_reordered (ParachainRuntime.apply_blind (by decide) (by decide) (by decide)) same first
        executed
    · intro header closed state authored
      exact authorBlock_reordered same state.unnoted block.extrinsics.length_lt authored

/-! Two coins are minted in either order. -/

namespace Template

def mintOther : Transaction := ⟨Vec.empty, Vec.empty, Vec.singleton (grabCoin 50), .money .mint⟩

def mintBlock : Block :=
  ⟨⟨FixedBytes.zero 32, 1, FixedBytes.zero 32, FixedBytes.zero 32, Vec.empty⟩, ⟨[mintCoin, mintOther], by decide⟩⟩

theorem mints_computed :
    letI := Host.unsigned
    mintCoin.id? ≠ mintOther.id? ∧
      (Exec.toOption (executeBlock mintBlock) emptyGenesis).any (fun _ => true) = true := by
  decide +kernel

theorem mints_swappable :
    letI := Host.unsigned
    Swappable mintCoin mintOther := by
  let := Host.unsigned
  refine ⟨nofun, nofun, ?_, ?_, fun txHash hash hash' => mints_computed.1 (hash.trans hash'.symm)⟩
  · intro r member
    cases member
  · intro r member
    cases member

theorem reordered_blocks_agree_mints :
    letI := Host.unsigned
    ∃ s', executeBlock mintBlock emptyGenesis = .ok () s' ∧
      executeBlock (Block.withExtrinsics mintBlock ⟨[mintOther, mintCoin], by decide⟩) emptyGenesis = .ok () s' := by
  let := Host.unsigned
  obtain ⟨_, s', executed, _⟩ := Exec.exists_of_any mints_computed.2
  have orders : SameOrders Swappable mintBlock.extrinsics.toList [mintOther, mintCoin] :=
    SameOrders.swap mints_swappable (by decide) [] []
  have first : InherentsFirst OuterVerifier [mintOther, mintCoin] := ⟨[], _, rfl, by simp, by decide⟩
  exact ⟨s', executed, (reordered_blocks_agree.1 mintBlock ⟨[mintOther, mintCoin], by decide⟩ emptyGenesis s'
    orders).1 first executed⟩

end Template

/-- Lists of transactions that do not touch each other, each of which could follow the inherents in a block,
go into one block in any mixture that keeps each list in its order. All those blocks import, to one storage. -/
theorem woven_blocks_agree [Host] :
    (∀ (header : Header) (opening : List Template.Transaction) (threads : List (List Template.Transaction))
      (s : Storage), BlockState Template.OuterVerifier Template.OuterConstraintChecker s →
      (∀ t ∈ opening, isInherent t = true) → (∀ xs ∈ threads, ∀ t ∈ xs, isInherent t = false) →
      (opening ++ threads.flatten).length < 2 ^ 32 → threads.Pairwise (Unrelated Template.Swappable) →
      (∃ closed s', authorBlock header opening s = .ok closed s') →
      (∀ xs ∈ threads, ∃ closed s', authorBlock header (opening ++ xs) s = .ok closed s') →
      ∃ s', ∀ (xs : Vec Template.Transaction) (zs : List Template.Transaction), Woven threads zs →
        xs.toList = opening ++ zs → ∃ closed, authorBlock header xs.toList s = .ok closed s' ∧
          executeBlock ⟨closed, xs⟩ s = .ok () s') ∧
    ∀ [RelayChain] (header : Header) (opening : List ParachainRuntime.Transaction)
      (threads : List (List ParachainRuntime.Transaction)) (s : Storage),
      BlockState Template.OuterVerifier ParachainRuntime.ParachainConstraintChecker s →
      (∀ t ∈ opening, isInherent t = true) → (∀ xs ∈ threads, ∀ t ∈ xs, isInherent t = false) →
      (opening ++ threads.flatten).length < 2 ^ 32 → threads.Pairwise (Unrelated ParachainRuntime.Swappable) →
      (∃ closed s', authorBlock header opening s = .ok closed s') →
      (∀ xs ∈ threads, ∃ closed s', authorBlock header (opening ++ xs) s = .ok closed s') →
      ∃ s', ∀ (xs : Vec ParachainRuntime.Transaction) (zs : List ParachainRuntime.Transaction), Woven threads zs →
        xs.toList = opening ++ zs → ∃ closed, authorBlock header xs.toList s = .ok closed s' ∧
          executeBlock ⟨closed, xs⟩ s = .ok () s' := by
  constructor
  · intro header opening threads s state inherents others fits apart
    have unrelated := apart.imp fun across x first y second => (across x first y second).commuting
    exact woven_imports (Template.apply_blind (by decide) (by decide) (by decide)) state.unnoted inherents others fits
      unrelated
  · intro _ header opening threads s state inherents others fits apart
    have unrelated := apart.imp fun across x first y second => (across x first y second).commuting
    exact woven_imports (ParachainRuntime.apply_blind (by decide) (by decide) (by decide)) state.unnoted inherents
      others fits unrelated

namespace Template

/-- The storage under the genesis block without transactions. -/
def genesisState : Storage :=
  letI := Host.unsigned
  (TuxedoGenesisBlockBuilder.buildGenesisBlock (V := OuterVerifier) (C := OuterConstraintChecker) .v0 emptyGenesis).2

theorem burn_apart :
    letI := Host.unsigned
    mintCoin.id? = some mintedRef.txHash ∧ burnCoin.id? ≠ mintOther.id? := by
  decide +kernel

theorem burn_swappable :
    letI := Host.unsigned
    Swappable burnCoin mintOther := by
  let := Host.unsigned
  refine ⟨nofun, nofun, ?_, ?_, fun txHash hash hash' => burn_apart.2 (hash.trans hash'.symm)⟩
  · intro r member
    obtain rfl := List.mem_singleton.mp member
    refine ⟨List.not_mem_nil, fun txHash hash created => mints_computed.1 ?_⟩
    rw [burn_apart.1, hash, (mem_outputRefs.mp created).1]
  · intro r member
    cases member

/-- One user mints a coin and burns it, another one mints in between. -/
theorem woven_blocks_agree_mints :
    letI := Host.unsigned
    ∃ closed s', executeBlock ⟨closed, ⟨[mintCoin, mintOther, burnCoin], by decide⟩⟩ genesisState = .ok () s' := by
  let := Host.unsigned
  obtain ⟨first, s₁, authored₁, _⟩ := Exec.exists_of_any
    (x := authorBlock mintBlock.header [mintCoin, burnCoin]) (s := genesisState) (p := fun _ => true)
    (by decide +kernel)
  obtain ⟨second, s₂, authored₂, _⟩ := Exec.exists_of_any
    (x := authorBlock mintBlock.header [mintOther]) (s := genesisState) (p := fun _ => true) (by decide +kernel)
  obtain ⟨none, s₀, authored₀, _⟩ := Exec.exists_of_any
    (x := authorBlock (V := OuterVerifier) (C := OuterConstraintChecker) mintBlock.header [])
    (s := genesisState) (p := fun _ => true) (by decide +kernel)
  obtain ⟨s', woven⟩ := woven_blocks_agree.1 mintBlock.header [] [[mintCoin, burnCoin], [mintOther]] genesisState
    (.genesis .v0 emptyGenesis) (by simp) (by decide) (by decide)
    (by simp [Unrelated, mints_swappable, burn_swappable]) ⟨none, s₀, authored₀⟩
    (by simpa using ⟨⟨first, s₁, authored₁⟩, second, s₂, authored₂⟩)
  have weaving : Woven [[mintCoin, burnCoin], [mintOther]] [mintCoin, mintOther, burnCoin] := by
    have finished : Woven [[], []] ([] : List Transaction) := .done (by simp)
    have burnt := @Woven.next _ [] [[]] burnCoin [] [] finished
    have minted := @Woven.next _ [[burnCoin]] [] mintOther [] [burnCoin] burnt
    exact @Woven.next _ [] [[mintOther]] mintCoin [burnCoin] [mintOther, burnCoin] minted
  obtain ⟨closed, _, executed⟩ := woven ⟨[mintCoin, mintOther, burnCoin], by decide⟩ _ weaving rfl
  exact ⟨closed, s', executed⟩

end Template
end Tuxedo
