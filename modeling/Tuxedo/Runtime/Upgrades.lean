import Tuxedo.Executive.Chains
import Tuxedo.Executive.Typed
import Tuxedo.Runtime.Effects

/-!
# The code and the reference to it

An upgrade moves the reference to the code on with the code. Without a reference there is no upgrade.
-/

namespace Tuxedo.Template
open Scale Executive TransparentUtxoSet DynamicallyTypedData Upgrade

section
variable [Host]

def refAt (s : Storage) (r : OutputRef) : Option RuntimeRef := dataAt OuterVerifier RuntimeRef s r

/-- The code that the transaction brings. -/
def wasmOf (t : Transaction) : Option Bytes :=
  t.checker.upgradeOf.map fun upgrade => upgrade.fullWasm.toList

/-- There is one reference, and it is to the stored code. -/
def Current (s : Storage) : Prop :=
  ∃ r code, s.get codeKey = some code ∧ refAt s r = some ⟨Host.blake2_256 code⟩ ∧
    ∀ r' ref, refAt s r' = some ref → r' = r

/-! ### One extrinsic -/

variable {t : Transaction} {txHash : H256} {s checked s' : Storage} {spent : OutputRef} {code new : Bytes}

/-- The upgrade takes the reference to the stored code and leaves one to the new code. -/
structure MovesCode (t : Transaction) (txHash : H256) (s s' : Storage) (spent : OutputRef) (code new : Bytes) :
    Prop where
  stored : s.get codeKey = some code
  before : refAt s spent = some ⟨Host.blake2_256 code⟩
  after : ∀ r, refAt s' r =
    if r = ⟨txHash, 0⟩ then some ⟨Host.blake2_256 new⟩ else if r = spent then none else refAt s r
  written : s'.get codeKey = some new

theorem moves_code (accepted : Accepted t txHash s checked s') (upgrade : wasmOf t = some new) :
    ∃ spent code, MovesCode t txHash s s' spent code new := by
  obtain ⟨inner, found, rfl⟩ := Option.map_eq_some_iff.mp upgrade
  have shape : t.checker = .runtimeUpgrade inner := by
    cases checker : t.checker with
    | runtimeUpgrade other =>
      rw [checker] at found
      rw [Option.some.inj found]
    | _ => simp [checker, OuterConstraintChecker.upgradeOf] at found
  obtain ⟨priority, call⟩ := accepted_call accepted shape
  obtain ⟨⟨noEvictions, ⟨d, code, consumes, stored, was⟩, d', creates, is⟩, rfl⟩ :=
    check_replaces (Exec.mapErr_ok.mp call)
  obtain ⟨spent, redeemed, payload⟩ := refs_singleton accepted.redeemed_present consumes
  have evicted := refs_nil accepted.evicted_present noEvictions
  have inputs : inputRefs t = [spent] := by rw [inputRefs_of_redeemed evicted, redeemed]
  obtain ⟨output, one, rfl⟩ := List.map_eq_singleton_iff.mp creates
  refine ⟨spent, code, stored, dataAt_of_payload payload was, fun r => ?_, ?_⟩
  · have read := accepted.dataAt_single one is r
    simpa [inputs, refAt] using read
  · rw [accepted.get_narrow (by decide)]
    exact Store.get_set_self _ _ _

theorem leaves_code (accepted : Accepted t txHash s checked s') (other : wasmOf t = none) :
    refAt s' = refAt s ∧ s'.get codeKey = s.get codeKey := by
  have plain : ∀ upgrade, t.checker ≠ .runtimeUpgrade upgrade := by
    intro upgrade same
    simp [wasmOf, same, OuterConstraintChecker.upgradeOf] at other
  have piece : t.checker.piece ≠ .runtimeUpgrade := by
    intro same
    cases checker : t.checker with
    | runtimeUpgrade upgrade => exact plain upgrade checker
    | _ =>
      rw [checker] at same
      cases same
  have foreign : ∀ d, t.checker.piece.Owns d → ¬Extracts RuntimeRef d := fun d owns ref =>
    piece (owns.unique (q := .runtimeUpgrade) ref)
  constructor
  · refine accepted.dataAt_unhandled ?_
    have handles := accepted_handles accepted
    exact ⟨fun d member => foreign d (handles.inputs d member), fun d member => foreign d (handles.evicted d member),
      fun d member => foreign d (handles.outputs d member)⟩
  · obtain ⟨priority, call⟩ := accepted_call accepted rfl
    obtain ⟨outcome, reads⟩ := OuterConstraintChecker.check_eq_read plain _ _ _ _
    rw [reads] at call
    obtain ⟨_, rfl⟩ := Exec.read_ok call
    exact accepted.get_narrow (by decide)

/-! ### Runs -/

/-- What the code and the references to it have become after upgrades to these codes. -/
structure CodeRun (wasms : List Bytes) (s s' : Storage) : Prop where
  code : s'.get codeKey = wasms.getLast?.or (s.get codeKey)
  current : Current s → Current s'
  without : (∀ r, refAt s r = none) → wasms = [] ∧ ∀ r, refAt s' r = none

namespace CodeRun
variable {wasms wasms' : List Bytes} {s₁ : Storage}

theorem idle (refs : refAt s' = refAt s) (code : s'.get codeKey = s.get codeKey) : CodeRun [] s s' := by
  refine ⟨code, fun current => ?_, fun none => ⟨rfl, ?_⟩⟩
  · rwa [Current, refs, code]
  · rwa [refs]

theorem trans (first : CodeRun wasms s s₁) (second : CodeRun wasms' s₁ s') : CodeRun (wasms ++ wasms') s s' := by
  refine ⟨?_, fun current => second.current (first.current current), fun none => ?_⟩
  · rw [second.code, first.code, List.getLast?_append, Option.or_assoc]
  · obtain ⟨rfl, none⟩ := first.without none
    exact second.without none

end CodeRun

theorem MovesCode.codeRun (moves : MovesCode t txHash s s' spent code new) : CodeRun [new] s s' := by
  refine ⟨moves.written, fun ⟨r, code', _, _, only⟩ => ?_, fun none => ?_⟩
  · obtain rfl := only spent _ moves.before
    refine ⟨⟨txHash, 0⟩, new, moves.written, by rw [moves.after, if_pos rfl], fun r' ref present => ?_⟩
    rw [moves.after] at present
    split at present
    · assumption
    · split at present
      · cases present
      · rename_i unspent
        exact absurd (only r' ref present) unspent
  · have before := moves.before
    rw [none spent] at before
    cases before

theorem codeRun_of_applied {xs : List Transaction} (applied : Applied s xs s') :
    CodeRun (xs.filterMap wasmOf) s s' := by
  induction applied with
  | done s => exact .idle rfl rfl
  | @apply s s₁ s' x xs applied _ ih =>
    obtain ⟨txHash, checked, accepted⟩ := apply_ok.mp applied
    cases upgrade : wasmOf x with
    | none =>
      obtain ⟨refs, code⟩ := leaves_code accepted upgrade
      rw [List.filterMap_cons_none upgrade]
      exact (CodeRun.idle refs code).trans ih
    | some new =>
      obtain ⟨spent, code, moves⟩ := moves_code accepted upgrade
      rw [List.filterMap_cons_some upgrade]
      exact moves.codeRun.trans ih

theorem executeBlock_codeRun {block : Block} (executed : executeBlock block s = .ok () s') :
    CodeRun (block.extrinsics.toList.filterMap wasmOf) s s' := by
  obtain ⟨_, ⟨s₁, applied, rfl⟩, _⟩ := executeBlock_ok.mp executed
  have opens : CodeRun [] s (openBlock block.header s) := by
    refine .idle (openBlock_same block.header s).dataAt ?_
    rw [openBlock, Store.get_set_ne _ _ (by decide), Store.get_set_ne _ _ (by decide)]
  have closes : CodeRun [] s₁ (s₁.clear headerKey) :=
    .idle (SameUtxos.clear (by decide)).dataAt (Store.get_clear_ne _ (by decide))
  have whole := (opens.trans (codeRun_of_applied applied)).trans closes
  rwa [List.nil_append, List.append_nil] at whole

/-- The stored code is that of the last upgrade, the one reference that there is stays the reference to it,
and where there is no reference there is no upgrade. -/
theorem code_follows_upgrades {blocks : List Block} (run : Imported s blocks s') :
    CodeRun ((blocks.flatMap fun block => block.extrinsics.toList).filterMap wasmOf) s s' := by
  induction run with
  | done s => exact .idle rfl rfl
  | execute executed _ ih =>
    rw [List.flatMap_cons, List.filterMap_append]
    exact (executeBlock_codeRun executed).trans ih

end

def upgradeBlock : Block :=
  ⟨⟨FixedBytes.zero 32, 2, FixedBytes.zero 32, FixedBytes.zero 32, Vec.empty⟩, Vec.singleton upgradeToTwo⟩

theorem current_upgradeStorage :
    letI := Host.unsigned
    Current upgradeStorage := by
  let := Host.unsigned
  have apart : ∀ r, r ≠ codeRef → peekUtxo OuterVerifier upgradeStorage r = none := by
    intro r other
    have same : SameUtxos Store.empty ((Store.empty.set heightKey (encode (1 : UInt32))).set codeKey [1]) :=
      (SameUtxos.set _ (by decide)).trans (.set _ (by decide))
    rw [upgradeStorage, peek_set, if_neg other]
    exact (same.peek r).trans rfl
  refine ⟨codeRef, [1], rfl, by decide +kernel, fun r ref present => ?_⟩
  by_contra other
  obtain ⟨output, there, _⟩ := dataAt_eq_some.mp present
  rw [apart r other] at there
  cases there

theorem code_follows_upgrades_once :
    letI := Host.unsigned
    ∃ s', executeBlock upgradeBlock upgradeStorage = .ok () s' ∧ s'.get codeKey = some [2] ∧ Current s' := by
  let := Host.unsigned
  obtain ⟨_, s', executed, _⟩ := Exec.exists_of_any (x := executeBlock upgradeBlock) (s := upgradeStorage)
    (p := fun _ => true) (by decide +kernel)
  have run := code_follows_upgrades (.execute executed (.done s'))
  exact ⟨s', executed, run.code, run.current current_upgradeStorage⟩

end Tuxedo.Template
