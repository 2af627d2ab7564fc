import Tuxedo.Executive.Aggregation
import Tuxedo.Runtime.Parachain

/-!
# The checkers of the runtimes as trees

The template runtime aggregates ten pieces, one of them an inherent. The parachain runtime
aggregates the template's checker with another inherent.
-/

namespace Tuxedo
open Scale Executive

namespace Template
variable [Host]

namespace OuterConstraintChecker

def number : OuterConstraintChecker → Nat
  | .money _ => 0
  | .freeKittyConstraintChecker _ => 1
  | .amoebaMitosis _ => 2
  | .amoebaDeath _ => 3
  | .amoebaCreation _ => 4
  | .poeClaim _ => 5
  | .poeRevoke _ => 6
  | .poeDispute _ => 7
  | .setTimestamp _ => 8
  | .runtimeUpgrade _ => 9

theorem isEnum : IsEnum variants := by
  refine .of_number number (fun c => ?_) ?_
  · cases c <;> exact Nat.le_of_ble_eq_true rfl
  · simp only [variants, List.zipIdx, List.forall_mem_cons]
    refine ⟨?_, ?_, ?_, ?_, ?_, ?_, ?_, ?_, ?_, ?_, fun _ inside => by cases inside⟩ <;>
      exact ⟨fun c => by cases c <;> rfl, fun c => by cases c <;> rfl, fun _ => rfl,
        fun c inner found => by cases c <;> cases found; rfl⟩

theorem aggregates : Aggregates (V := OuterVerifier) (C := OuterConstraintChecker) inferInstance variants where
  isEnum := isEnum
  isInherent := by
    simp only [variants, List.forall_mem_cons]
    refine ⟨?_, ?_, ?_, ?_, ?_, ?_, ?_, ?_, ?_, ?_, by simp⟩ <;> exact fun _ => rfl
  createInherents := rfl
  checkInherents := rfl

def timestampVariant : Variant OuterVerifier OuterConstraintChecker where
  Inner := InherentAdapter (Time.SetTimestamp Runtime)
  checker := inferInstance
  wrap := .setTimestamp
  isVariant := fun | .setTimestamp _ => true | _ => false
  unwrap := fun | .setTimestamp inner => some inner | _ => none

end OuterConstraintChecker

/-- The checker of the template runtime. -/
def tree : Tree OuterVerifier OuterConstraintChecker inferInstance :=
  .aggregate OuterConstraintChecker.variants OuterConstraintChecker.aggregates fun
    | ⟨0, _⟩ => .simple (Money.MoneyConstraintChecker 0)
    | ⟨1, _⟩ => .simple Kitties.FreeKittyConstraintChecker
    | ⟨2, _⟩ => .simple Amoeba.AmoebaMitosis
    | ⟨3, _⟩ => .simple Amoeba.AmoebaDeath
    | ⟨4, _⟩ => .simple Amoeba.AmoebaCreation
    | ⟨5, _⟩ => .simple (Poe.PoeClaim Runtime)
    | ⟨6, _⟩ => .simple Poe.PoeRevoke
    | ⟨7, _⟩ => .simple Poe.PoeDispute
    | ⟨8, _⟩ => .inherent (Time.SetTimestamp Runtime)
    | ⟨9, _⟩ => .simple Upgrade.RuntimeUpgrade
    | ⟨_ + 10, bound⟩ => absurd bound (Nat.not_lt.mpr (Nat.le_add_left 10 _))

/-- The one inherent leaf. -/
def timestampLeaf : InherentLeaf OuterVerifier OuterConstraintChecker :=
  .lift OuterConstraintChecker.timestampVariant
    ⟨Time.SetTimestamp Runtime, inferInstance, fun c => some c.inner, InherentAdapter.mk⟩

theorem inherentLeaves_tree : tree.inherentLeaves = [timestampLeaf] := rfl

end Template

namespace ParachainRuntime
open Template
open Parachain (RelayChain SetParachainInfo)
variable [Host] [RelayChain]

namespace ParachainConstraintChecker

def number : ParachainConstraintChecker → Nat
  | .inner _ => 0
  | .parachainInfo _ => 1

theorem isEnum : IsEnum variants := by
  refine .of_number number (fun c => ?_) ?_
  · cases c <;> exact Nat.le_of_ble_eq_true rfl
  · simp only [variants, List.zipIdx, List.forall_mem_cons]
    refine ⟨?_, ?_, fun _ inside => by cases inside⟩ <;>
      exact ⟨fun c => by cases c <;> rfl, fun c => by cases c <;> rfl, fun _ => rfl,
        fun c inner found => by cases c <;> cases found; rfl⟩

theorem aggregates :
    Aggregates (V := OuterVerifier) (C := ParachainConstraintChecker) inferInstance variants where
  isEnum := isEnum
  isInherent := by
    simp only [variants, List.forall_mem_cons]
    exact ⟨fun _ => rfl, fun _ => rfl, by simp⟩
  createInherents := rfl
  checkInherents := rfl

def innerVariant : Variant OuterVerifier ParachainConstraintChecker where
  Inner := OuterConstraintChecker
  checker := inferInstance
  wrap := .inner
  isVariant := fun | .inner _ => true | _ => false
  unwrap := fun | .inner checker => some checker | _ => none

def infoVariant : Variant OuterVerifier ParachainConstraintChecker where
  Inner := InherentAdapter (SetParachainInfo RuntimeParachainConfig)
  checker := inferInstance
  wrap := .parachainInfo
  isVariant := fun | .parachainInfo _ => true | _ => false
  unwrap := fun | .parachainInfo checker => some checker | _ => none

end ParachainConstraintChecker

/-- The template's tree and the parachain inherent under one more aggregate. -/
def tree : Tree OuterVerifier ParachainConstraintChecker inferInstance :=
  .aggregate ParachainConstraintChecker.variants ParachainConstraintChecker.aggregates fun
    | ⟨0, _⟩ => Template.tree
    | ⟨1, _⟩ => .inherent (SetParachainInfo RuntimeParachainConfig)
    | ⟨_ + 2, bound⟩ => absurd bound (Nat.not_lt.mpr (Nat.le_add_left 2 _))

def wrappedTimestampLeaf : InherentLeaf OuterVerifier ParachainConstraintChecker :=
  timestampLeaf.lift ParachainConstraintChecker.innerVariant

def infoLeaf : InherentLeaf OuterVerifier ParachainConstraintChecker :=
  .lift ParachainConstraintChecker.infoVariant
    ⟨SetParachainInfo RuntimeParachainConfig, inferInstance, fun c => some c.inner, InherentAdapter.mk⟩

theorem inherentLeaves_tree : tree.inherentLeaves = [wrappedTimestampLeaf, infoLeaf] := rfl

end ParachainRuntime

/-! ### The hooks of a tree -/

section
variable {V C : Type} [checker : ConstraintChecker V C]

/-- From one inherent for each leaf, in any order, every leaf makes its next one. The checks call
no leaf after a fatal error and no simple checker with inherents, panic only in a hook, and with
quiet hooks are fatal when a leaf has not exactly one inherent. -/
theorem tree_inherents (tree : Tree V C checker) :
    (∀ (s : Storage) (data : InherentData) (owned : List (OwnInherent V C)) (previous : List (Transaction V C × H256)),
      (owned.map fun own => own.leaf) = tree.inherentLeaves → previous.Perm (owned.map OwnInherent.rewrapped) →
      ConstraintChecker.createInherents s data previous = owned.mapM (fun own => own.createInherent s data) ∧
      ∀ made : OwnInherent V C → Transaction V C, (∀ own ∈ owned, own.createInherent s data = some (made own)) →
        ConstraintChecker.createInherents s data previous = some (owned.map made)) ∧
    ∀ (block : Block V C) (data : InherentData),
      (∀ call, tree.Calls data (openingInherents block) .new call →
        call.before.fatalError = false ∧ (call.kind = .simple → call.received = 0)) ∧
      (checkInherents block data = none → ∃ leaf ∈ tree.inherentLeaves, ∃ x ∈ leaf.own (openingInherents block),
        ∃ result, result.fatalError = false ∧ leaf.hooks.checkInherent data x result = none) ∧
      ((∀ leaf ∈ tree.inherentLeaves, ∀ x ∈ leaf.own (openingInherents block), ∀ result,
          leaf.hooks.checkInherent data x result = some result) →
        ∃ result, checkInherents block data = some result ∧
          (result.fatalError = true ↔
            ∃ leaf ∈ tree.inherentLeaves, (leaf.own (openingInherents block)).length ≠ 1)) := by
  refine ⟨fun s data owned previous leaves same => ?_, fun block data => ?_⟩
  · have created := tree.createInherents_owned s data leaves same
    refine ⟨created, fun made each => ?_⟩
    rw [created]
    exact List.mapM_of_some each
  · have inherent : ∀ x ∈ openingInherents block, checker.isInherent x.checker = true := by
      intro x member
      exact List.all_eq_true.mp List.all_takeWhile x member
    have checked : checkInherents block data = _ := tree.checkInherents_eq data inherent rfl
    refine ⟨fun call calls => calls.sound inherent rfl, fun panics => ?_, fun quiet => ?_⟩
    · rw [checked] at panics
      exact Tree.foldlM_checkLeaf_none panics
    · rw [checked]
      exact Tree.foldlM_checkLeaf_quiet rfl quiet

end

/-! ### The parachain's two inherents -/

namespace ParachainRuntime
open Template
open Parachain (SetParachainInfo)

def ownTimestamp : OwnInherent OuterVerifier ParachainConstraintChecker :=
  let := Host.unsigned
  ⟨.lift ParachainConstraintChecker.innerVariant timestampLeaf,
    ⟨Vec.empty, Vec.empty,
      Vec.singleton ⟨⟨⟨encode (⟨7, 1⟩ : Time.Timestamp), by decide⟩, UtxoData.typeId Time.Timestamp⟩, .upForGrabs ⟨⟩⟩,
      ⟨⟩⟩, FixedBytes.zero 32⟩

def ownInfo : OwnInherent OuterVerifier ParachainConstraintChecker :=
  let := Host.unsigned
  let := plainRelay
  ⟨infoLeaf, ⟨Vec.empty, Vec.empty, Vec.empty, ⟨⟩⟩, FixedBytes.zero 32⟩

/-- A time and the info of relay parent 5. -/
def clockData : InherentData :=
  letI := plainRelay
  let info : Parachain.ParachainInherentData :=
    ⟨⟨Vec.empty, 5, FixedBytes.zero 32, 0⟩, Vec.empty, Vec.empty, Vec.empty⟩
  (Store.empty.set Time.inherentIdentifier ⟨encode (7 : UInt64), by decide⟩).set Parachain.inherentIdentifier
    ⟨encode info, by decide⟩

def clockStorage : Storage := Store.empty.set heightKey (encode (2 : UInt32))

def inherentsBlock : Block :=
  ⟨⟨FixedBytes.zero 32, 1, FixedBytes.zero 32, FixedBytes.zero 32, Vec.empty⟩,
    ⟨[ownTimestamp.rewrapped.1, ownInfo.rewrapped.1], by decide⟩⟩

/-- With the two inherents of the parachain in the other order, both leaves find their own and make the next. -/
theorem tree_inherents_parachain :
    letI := Host.unsigned
    letI := plainRelay
    (∃ stamp info, ownTimestamp.createInherent clockStorage clockData = some stamp ∧
      ownInfo.createInherent clockStorage clockData = some info ∧
      ConstraintChecker.createInherents clockStorage clockData [ownInfo.rewrapped, ownTimestamp.rewrapped] =
        some [stamp, info]) ∧
      ∃ result, checkInherents inherentsBlock clockData = some result ∧ result.fatalError = false := by
  let := Host.unsigned
  let := plainRelay
  have quiet : ∀ leaf ∈ tree.inherentLeaves, ∀ x ∈ leaf.own (openingInherents inherentsBlock), ∀ result,
      leaf.hooks.checkInherent clockData x result = some result := by
    rw [inherentLeaves_tree]
    refine List.forall_mem_cons.mpr ⟨?_, List.forall_mem_cons.mpr ⟨fun _ _ _ => rfl, by simp⟩⟩
    intro x member result
    replace member : x ∈ [ownTimestamp.transaction] := member
    obtain rfl := List.mem_singleton.mp member
    rfl
  obtain ⟨creates, checks⟩ := tree_inherents tree
  refine ⟨?_, ?_⟩
  · have both := (creates clockStorage clockData [ownTimestamp, ownInfo] _ rfl (List.Perm.swap ..)).1
    obtain ⟨stamp, stamped⟩ := Option.isSome_iff_exists.mp
      (show (ownTimestamp.createInherent clockStorage clockData).isSome = true by decide +kernel)
    obtain ⟨info, informed⟩ := Option.isSome_iff_exists.mp
      (show (ownInfo.createInherent clockStorage clockData).isSome = true by decide +kernel)
    refine ⟨stamp, info, stamped, informed, both.trans ?_⟩
    simp [stamped, informed]
  · obtain ⟨result, checked, fatal⟩ := (checks inherentsBlock clockData).2.2 quiet
    refine ⟨result, checked, ?_⟩
    rw [← Bool.not_eq_true, fatal, inherentLeaves_tree]
    decide +kernel

end ParachainRuntime
end Tuxedo
