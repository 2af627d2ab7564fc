import Tuxedo.Lib.Ledger
import Tuxedo.Core.Genesis
import Tuxedo.Executive.Transition

/-!
# Runs

The executive refines a ledger of unspent outputs: an accepted transaction is one step of it,
and what opens and closes blocks leaves it alone.
-/

namespace Tuxedo.Executive
open Scale TransparentUtxoSet

/-- A constraint checker that writes at no key of an output reference. -/
class KeepsUtxos (V C : Type) [ConstraintChecker V C] : Prop where
  check_keeps : ∀ {checker : C} {inputs evicted peeks outputs : List DynamicallyTypedData} {s s' : Storage}
    {priority : UInt64}, ConstraintChecker.check (V := V) checker inputs evicted peeks outputs s = .ok priority s' →
    SameUtxos s s'

section
variable {V C : Type}

def consumes (t : Transaction V C) : Set OutputRef := {r | r ∈ inputRefs t}

variable [Host] [Codec V] [Codec C]

/-- The output that a transaction creates at a reference. -/
def creates (t : Transaction V C) (r : OutputRef) : Option (Output V) :=
  if t.id? = some r.txHash then t.outputs.toList[r.index.toNat]? else none

theorem creates_eq_some {t : Transaction V C} {r : OutputRef} {output : Output V} :
    creates t r = some output ↔ t.id? = some r.txHash ∧ t.outputs.toList[r.index.toNat]? = some output := by
  unfold creates
  split
  · rename_i hash
    simp [hash]
  · rename_i hash
    simp [hash]

theorem mem_outputRefs_of_creates {t : Transaction V C} {txHash : H256} {r : OutputRef} {output : Output V}
    (hash : t.id? = some txHash) (made : creates t r = some output) : r ∈ t.outputRefs txHash := by
  obtain ⟨same, at_r⟩ := creates_eq_some.mp made
  rw [hash, Option.some.injEq] at same
  exact mem_outputRefs.mpr ⟨same.symm, (List.getElem?_eq_some_iff.mp at_r).1⟩

theorem creates_eq_none {t : Transaction V C} {txHash : H256} {r : OutputRef} (hash : t.id? = some txHash) :
    creates t r = none ↔ r ∉ t.outputRefs txHash := by
  constructor
  · intro unmade member
    obtain ⟨rfl, small⟩ := mem_outputRefs.mp member
    rw [creates_eq_some.mpr ⟨hash, List.getElem?_eq_getElem small⟩] at unmade
    cases unmade
  · intro outside
    cases made : creates t r with
    | none => rfl
    | some output => exact (outside (mem_outputRefs_of_creates hash made)).elim

/-- A transaction with one output creates one reference. -/
theorem eq_of_creates_single {t : Transaction V C} {txHash : H256} {r : OutputRef} {one output : Output V}
    (single : t.outputs.toList = [one]) (hash : t.id? = some txHash) (made : creates t r = some output) :
    r = ⟨txHash, 0⟩ := by
  obtain ⟨same, small⟩ := mem_outputRefs.mp (mem_outputRefs_of_creates hash made)
  rw [single, List.length_singleton] at small
  have first : r.index = 0 := UInt32.toNat_inj.mp (by simp; omega)
  rw [← same, ← first]

/-- The bytes that are hashed for the references of the outputs. -/
def preimage (t : Transaction V C) : Bytes := compactBytes (encode t).length ++ encodeItems (encode t)

theorem id?_eq_some {t : Transaction V C} {txHash : H256} (hash : t.id? = some txHash) :
    ∃ bytes : Vec UInt8, bytes.toList = encode t ∧ preimage t = encode bytes ∧
      txHash = Host.blake2_256 (preimage t) := by
  obtain ⟨bytes, whole, rfl⟩ := Option.map_eq_some_iff.mp hash
  have same := Vec.ofList?_eq_some.mp whole
  have shape : preimage t = encode bytes := by rw [preimage, encode_vec, same]
  exact ⟨bytes, same, shape, by rw [shape]; rfl⟩

/-- The hash has no collision among these transactions. -/
def CollisionFree (ts : Set (Transaction V C)) : Prop := Set.InjOn Host.blake2_256 (Set.image preimage ts)

theorem CollisionFree.eq_of_id? {ts : Set (Transaction V C)} (free : CollisionFree ts) {t t' : Transaction V C}
    {txHash : H256} (member : t ∈ ts) (member' : t' ∈ ts) (hash : t.id? = some txHash)
    (hash' : t'.id? = some txHash) : t = t' := by
  obtain ⟨bytes, whole, shape, same⟩ := id?_eq_some hash
  obtain ⟨bytes', whole', shape', same'⟩ := id?_eq_some hash'
  have preimages : preimage t = preimage t' :=
    free ⟨t, member, rfl⟩ ⟨t', member', rfl⟩ (same.symm.trans same')
  rw [shape, shape'] at preimages
  apply encode_injective
  rw [← whole, ← whole', encode_injective preimages]

theorem CollisionFree.apart {ts : Set (Transaction V C)} (free : CollisionFree ts) :
    Ledger.Apart creates ts := by
  intro t member t' member' r output output' made made'
  exact free.eq_of_id? member member' (creates_eq_some.mp made).1 (creates_eq_some.mp made').1

theorem CollisionFree.mono {ts ts' : Set (Transaction V C)} (free : CollisionFree ts) (within : ts' ⊆ ts) :
    CollisionFree ts' := Set.InjOn.mono (Set.image_mono within) free

theorem collisionFree_of_list {ts : Set (Transaction V C)} {txs : List (Transaction V C)} (within : ∀ t ∈ ts, t ∈ txs)
    (apart : ∀ t ∈ txs, ∀ t' ∈ txs, Host.blake2_256 (preimage t) = Host.blake2_256 (preimage t') →
      preimage t = preimage t') : CollisionFree ts := by
  rintro _ ⟨t, member, rfl⟩ _ ⟨t', member', rfl⟩ same
  exact apart t (within t member) t' (within t' member') same

end

/-! ### The order of extrinsics -/

section
variable (V : Type) {C : Type} [ConstraintChecker V C]

/-- The inherents come first. -/
def InherentsFirst (xs : List (Transaction V C)) : Prop :=
  ∃ inherents others, xs = inherents ++ others ∧
    (∀ x ∈ inherents, ConstraintChecker.isInherent (V := V) x.checker = true) ∧
    ∀ x ∈ others, ConstraintChecker.isInherent (V := V) x.checker = false

variable {V}

theorem inherentsFirst_cons_inherent {x : Transaction V C} {xs : List (Transaction V C)}
    (inherent : ConstraintChecker.isInherent (V := V) x.checker = true) :
    InherentsFirst V (x :: xs) ↔ InherentsFirst V xs := by
  constructor
  · rintro ⟨inherents, others, split, first, last⟩
    cases inherents with
    | nil =>
      rw [List.nil_append] at split
      subst split
      rw [last x List.mem_cons_self] at inherent
      cases inherent
    | cons head inherents =>
      obtain ⟨rfl, rfl⟩ := List.cons.inj split
      exact ⟨inherents, others, rfl, fun y member => first y (List.mem_cons_of_mem _ member), last⟩
  · rintro ⟨inherents, others, rfl, first, last⟩
    exact ⟨x :: inherents, others, rfl, List.forall_mem_cons.mpr ⟨inherent, first⟩, last⟩

theorem inherentsFirst_cons_other {x : Transaction V C} {xs : List (Transaction V C)}
    (other : ConstraintChecker.isInherent (V := V) x.checker = false) :
    InherentsFirst V (x :: xs) ↔ ∀ y ∈ xs, ConstraintChecker.isInherent (V := V) y.checker = false := by
  constructor
  · rintro ⟨inherents, others, split, first, last⟩
    cases inherents with
    | nil =>
      rw [List.nil_append] at split
      subst split
      exact fun y member => last y (List.mem_cons_of_mem _ member)
    | cons head inherents =>
      obtain ⟨rfl, _⟩ := List.cons.inj split
      rw [first x List.mem_cons_self] at other
      cases other
  · intro last
    exact ⟨[], x :: xs, rfl, by simp, List.forall_mem_cons.mpr ⟨other, last⟩⟩

variable (V) in
/-- The order that the loops over extrinsics check, once a non-inherent has been seen or not. -/
def InOrder (finished : Bool) (xs : List (Transaction V C)) : Prop :=
  if finished then ∀ x ∈ xs, ConstraintChecker.isInherent (V := V) x.checker = false else InherentsFirst V xs

theorem inOrder_nil (finished : Bool) : InOrder V finished ([] : List (Transaction V C)) := by
  unfold InOrder
  split
  · simp
  · exact ⟨[], [], rfl, by simp, by simp⟩

theorem inOrder_cons {finished : Bool} {x : Transaction V C} {xs : List (Transaction V C)} :
    InOrder V finished (x :: xs) ↔
      (ConstraintChecker.isInherent (V := V) x.checker && finished) = false ∧
        InOrder V (finished || !ConstraintChecker.isInherent (V := V) x.checker) xs := by
  unfold InOrder
  cases inherent : ConstraintChecker.isInherent (V := V) x.checker with
  | true => cases finished <;> simp [inherent, inherentsFirst_cons_inherent inherent]
  | false => cases finished <;> simp [inherent, inherentsFirst_cons_other inherent]

/-- Where the inherents come first, the opening inherents are all of them. -/
theorem takeWhile_eq_filter {xs : List (Transaction V C)} (first : InherentsFirst V xs) :
    xs.takeWhile (fun x => ConstraintChecker.isInherent (V := V) x.checker) =
      xs.filter fun x => ConstraintChecker.isInherent (V := V) x.checker := by
  induction xs with
  | nil => rfl
  | cons x xs ih =>
    cases inherent : ConstraintChecker.isInherent (V := V) x.checker with
    | true => simp [inherent, ih ((inherentsFirst_cons_inherent inherent).mp first)]
    | false =>
      have others := (inherentsFirst_cons_other inherent).mp first
      rw [List.takeWhile_cons, List.filter_cons, inherent]
      simp only [Bool.false_eq_true, if_false]
      refine (List.filter_eq_nil_iff.mpr ?_).symm
      intro y member
      simp [others y member]

end

/-! ### Transactions -/

section
variable {V C : Type} [Host] [Verifier V] [Codec C] [ConstraintChecker V C]

theorem Accepted.keeps [KeepsUtxos V C] {t : Transaction V C} {txHash : H256} {s checked s' : Storage}
    (accepted : Accepted t txHash s checked s') : SameUtxos s checked := by
  obtain ⟨priority, call⟩ := accepted.checks
  exact KeepsUtxos.check_keeps call

/-- An accepted transaction is a step of the ledger. -/
theorem Accepted.step [KeepsUtxos V C] {t : Transaction V C} {txHash : H256} {s checked s' : Storage}
    (accepted : Accepted t txHash s checked s') :
    Ledger.Step (consumes t) (creates t) (peekUtxo V s) (peekUtxo V s') := by
  refine ⟨accepted.inputsPresent, ?_, ?_, ?_, ?_⟩
  · intro r output made
    exact accepted.fresh r (mem_outputRefs_of_creates accepted.hash made)
  · intro r output made
    obtain ⟨_, at_r⟩ := creates_eq_some.mp made
    have read := accepted.get_created at_r
    rw [← outputRef_index (mem_outputRefs_of_creates accepted.hash made)] at read
    simp [peekUtxo, read]
  · intro r consumed
    simp [peekUtxo, accepted.get_consumed consumed]
  · intro r unspent unmade
    have outside := (creates_eq_none accepted.hash).mp unmade
    have read := accepted.get_other (k := encode r)
      (fun r' input same => unspent (encode_injective same ▸ input))
      (fun r' output same => outside (encode_injective same ▸ output))
    simp only [peekUtxo, read, accepted.keeps.get_ref r]

theorem apply_step [KeepsUtxos V C] {t : Transaction V C} {s s' : Storage} {u : Unit}
    (applied : applyTuxedoTransaction t s = .ok u s') :
    Ledger.Step (consumes t) (creates t) (peekUtxo V s) (peekUtxo V s') := by
  obtain ⟨_, _, accepted⟩ := apply_ok.mp applied
  exact accepted.step

/-- The transactions applied in order. Between them anything may happen at other keys than
those of output references, as it does when a block is opened or closed. -/
inductive Run : Storage → List (Transaction V C) → Storage → Prop
  | done (s : Storage) : Run s [] s
  | apply {s s₁ s' : Storage} {t : Transaction V C} {ts : List (Transaction V C)}
      (applied : applyTuxedoTransaction t s = .ok () s₁) (later : Run s₁ ts s') : Run s (t :: ts) s'
  | keep {s s₁ s' : Storage} {ts : List (Transaction V C)} (same : SameUtxos s s₁) (later : Run s₁ ts s') :
      Run s ts s'

namespace Run

theorem ledger [KeepsUtxos V C] {s s' : Storage} {ts : List (Transaction V C)} (run : Run s ts s') :
    Ledger.Run consumes creates (peekUtxo V s) ts (peekUtxo V s') := by
  induction run with
  | done s => exact .done _
  | apply applied _ ih => exact .step (apply_step applied) ih
  | @keep s s₁ s' ts same _ ih =>
    have unchanged : peekUtxo V s = peekUtxo V s₁ := funext fun r => (same.peek r).symm
    exact unchanged ▸ ih

theorem trans {s s₁ s' : Storage} {ts ts' : List (Transaction V C)} (first : Run s ts s₁) (second : Run s₁ ts' s') :
    Run s (ts ++ ts') s' := by
  induction first with
  | done s => exact second
  | apply applied _ ih => exact .apply applied (ih second)
  | keep same _ ih => exact .keep same (ih second)

/-- What each application passes on to a history that is longer by it, and housekeeping preserves,
holds of the whole run. -/
theorem history {P : List (Transaction V C) → Storage → Prop} {s s' : Storage} {ts : List (Transaction V C)}
    (run : Run s ts s')
    (applies : ∀ past t future s₁ s₂, ts = past ++ t :: future → Run s past s₁ →
      applyTuxedoTransaction t s₁ = .ok () s₂ → Run s₂ future s' → P past s₁ → P (past ++ [t]) s₂)
    (keeps : ∀ past s₁ s₂, P past s₁ → SameUtxos s₁ s₂ → P past s₂) (initial : P [] s) : P ts s' := by
  have onward : ∀ past future s₁, ts = past ++ future → Run s past s₁ → Run s₁ future s' → P past s₁ → P ts s' := by
    intro past future s₁ split before after there
    induction after generalizing past with
    | done s' => rwa [split, List.append_nil]
    | @apply s₁ s₂ s' t future applied later ih =>
      have reached : Run s (past ++ [t]) s₂ := before.trans (.apply applied (.done s₂))
      refine ih run applies (past ++ [t]) (by rw [split, List.append_assoc]; rfl) reached ?_
      exact applies past t future s₁ s₂ split before applied later there
    | @keep s₁ s₂ s' future same _ ih =>
      have reached := before.trans (.keep same (.done s₂))
      rw [List.append_nil] at reached
      exact ih run applies past split reached (keeps past s₁ s₂ there same)
  exact onward [] ts s rfl (.done s) run initial

/-- What applications and housekeeping preserve holds at the end. -/
theorem invariant {P : Storage → Prop} {s s' : Storage} {ts : List (Transaction V C)} (run : Run s ts s')
    (applies : ∀ t ∈ ts, ∀ s s', P s → applyTuxedoTransaction t s = .ok () s' → P s')
    (keeps : ∀ s s', P s → SameUtxos s s' → P s') (initial : P s) : P s' := by
  refine run.history (P := fun _ => P) ?_ (fun _ => keeps) initial
  intro past t future s₁ s₂ split _ applied _ there
  refine applies t ?_ s₁ s₂ there applied
  rw [split]
  exact List.mem_append_right past List.mem_cons_self

theorem exists_apply {s s' : Storage} {ts : List (Transaction V C)} (run : Run s ts s') {t : Transaction V C}
    (member : t ∈ ts) : ∃ s₁ s₂, applyTuxedoTransaction t s₁ = .ok () s₂ := by
  induction run with
  | done s => cases member
  | apply applied _ ih =>
    rcases List.mem_cons.mp member with rfl | later
    · exact ⟨_, _, applied⟩
    · exact ih later
  | keep _ _ ih => exact ih member

end Run

/-! ### Where outputs come from -/

variable (V) in
/-- Every output that is there comes from one of the transactions. -/
def Sourced (past : List (Transaction V C)) (s : Storage) : Prop :=
  ∀ r output, peekUtxo V s r = some output → ∃ t ∈ past, creates t r = some output

namespace Sourced
variable {past : List (Transaction V C)} {s s' : Storage}

omit [ConstraintChecker V C] in
theorem same (sourced : Sourced V past s) (same : SameUtxos s s') : Sourced V past s' := by
  intro r output present
  rw [same.peek r] at present
  exact sourced r output present

theorem run [KeepsUtxos V C] {ts : List (Transaction V C)} (sourced : Sourced V past s) (run : Run s ts s') :
    Sourced V (past ++ ts) s' := by
  intro r output present
  rcases run.ledger.source present with ⟨t, member, made⟩ | before
  · exact ⟨t, List.mem_append_right _ member, made⟩
  · obtain ⟨t, member, made⟩ := sourced r output before
    exact ⟨t, List.mem_append_left _ member, made⟩

omit [ConstraintChecker V C] in
/-- Another transaction finds none of its own outputs there. -/
theorem fresh (sourced : Sourced V past s) {t : Transaction V C} {txHash : H256}
    (free : CollisionFree {t' | t' ∈ t :: past}) (new : t ∉ past) (hash : t.id? = some txHash) :
    ∀ r ∈ t.outputRefs txHash, peekUtxo V s r = none := by
  intro r member
  cases present : peekUtxo V s r with
  | none => rfl
  | some output =>
    obtain ⟨t', earlier, made⟩ := sourced r output present
    obtain ⟨same, _⟩ := mem_outputRefs.mp member
    have hash' : t'.id? = some txHash := same ▸ (creates_eq_some.mp made).1
    have equal := free.eq_of_id? (List.mem_cons_of_mem _ earlier) List.mem_cons_self hash' hash
    exact absurd (equal ▸ earlier) new

end Sourced

/-! ### Blocks -/

/-- The transactions applied in order, with nothing in between. -/
inductive Applied : Storage → List (Transaction V C) → Storage → Prop
  | done (s : Storage) : Applied s [] s
  | apply {s s₁ s' : Storage} {t : Transaction V C} {ts : List (Transaction V C)}
      (applied : applyTuxedoTransaction t s = .ok () s₁) (later : Applied s₁ ts s') : Applied s (t :: ts) s'

theorem applied_of_forM {s s' : Storage} {ts : List (Transaction V C)} {u : Unit}
    (h : ts.forM (fun t => applyTuxedoTransaction t) s = .ok u s') : Applied s ts s' := by
  induction ts generalizing s with
  | nil =>
    obtain ⟨_, rfl⟩ := Exec.pure_ok h
    exact .done _
  | cons t ts ih =>
    obtain ⟨_, s₁, first, later⟩ := Exec.bind_ok h
    exact .apply first (ih later)

theorem applied_append {s s' : Storage} {ts ts' : List (Transaction V C)} :
    Applied s (ts ++ ts') s' ↔ ∃ s₁, Applied s ts s₁ ∧ Applied s₁ ts' s' := by
  constructor
  · intro applied
    induction ts generalizing s with
    | nil => exact ⟨s, .done s, applied⟩
    | cons t ts ih =>
      cases applied with
      | apply first later =>
        obtain ⟨s₁, middle, last⟩ := ih later
        exact ⟨s₁, .apply first middle, last⟩
  · rintro ⟨s₁, first, second⟩
    induction first with
    | done s => exact second
    | apply applied _ ih => exact .apply applied (ih second)

theorem Applied.unique {s s' s'' : Storage} {ts : List (Transaction V C)} (first : Applied s ts s')
    (second : Applied s ts s'') : s' = s'' := by
  induction first with
  | done s =>
    cases second
    rfl
  | apply applied _ ih =>
    cases second with
    | apply again later =>
      rw [applied] at again
      cases again
      exact ih later

theorem Applied.hashed {s s' : Storage} {ts : List (Transaction V C)} (applied : Applied s ts s') :
    ∀ t ∈ ts, ∃ txHash, t.id? = some txHash := by
  induction applied with
  | done s => simp
  | apply applied _ ih =>
    obtain ⟨txHash, _, accepted⟩ := apply_ok.mp applied
    exact List.forall_mem_cons.mpr ⟨⟨txHash, accepted.hash⟩, ih⟩

theorem Applied.run {s s' : Storage} {ts : List (Transaction V C)} (applied : Applied s ts s') : Run s ts s' := by
  induction applied with
  | done s => exact .done s
  | apply applied _ ih => exact .apply applied ih

theorem executeExtrinsics_cons {finished : Bool} {x : Transaction V C} {xs : List (Transaction V C)}
    {s s' : Storage} {u : Unit} :
    executeExtrinsics finished (x :: xs) s = .ok u s' ↔
      (ConstraintChecker.isInherent (V := V) x.checker && finished) = false ∧
        ∃ s₁, applyTuxedoTransaction x s = .ok () s₁ ∧
          executeExtrinsics (finished || !ConstraintChecker.isInherent (V := V) x.checker) xs s₁ = .ok u s' := by
  rw [executeExtrinsics]
  constructor
  · intro h
    split at h
    · obtain ⟨_, _, panics, _⟩ := Exec.bind_ok h
      cases (Exec.lift_ok panics).1
    · rename_i inOrder
      obtain ⟨_, s₁, applied, h⟩ := Exec.bind_ok h
      exact ⟨Bool.eq_false_iff.mpr inOrder, s₁, Exec.unwrap_ok.mp applied, h⟩
  · rintro ⟨inOrder, s₁, applied, h⟩
    rw [if_neg (by simp [inOrder])]
    exact (Exec.bind_of_ok (Exec.unwrap_ok.mpr applied)).trans h

theorem executeExtrinsics_ok {finished : Bool} {xs : List (Transaction V C)} {s s' : Storage} {u : Unit} :
    executeExtrinsics finished xs s = .ok u s' ↔ InOrder V finished xs ∧ Applied s xs s' := by
  induction xs generalizing finished s with
  | nil =>
    constructor
    · intro h
      obtain ⟨_, rfl⟩ := Exec.pure_ok h
      exact ⟨inOrder_nil finished, .done _⟩
    · rintro ⟨_, applied⟩
      cases applied
      rfl
  | cons x xs ih =>
    rw [executeExtrinsics_cons, inOrder_cons]
    constructor
    · rintro ⟨inOrder, s₁, applied, h⟩
      obtain ⟨rest, later⟩ := ih.mp h
      exact ⟨⟨inOrder, rest⟩, .apply applied later⟩
    · rintro ⟨⟨inOrder, rest⟩, applied⟩
      cases applied with
      | apply applied later => exact ⟨inOrder, _, applied, ih.mpr ⟨rest, later⟩⟩

theorem executeBlock_ok {block : Block V C} {s s' : Storage} {u : Unit} :
    executeBlock block s = .ok u s' ↔
      InherentsFirst V block.extrinsics.toList ∧
      (∃ s₁, Applied (openBlock block.header s) block.extrinsics.toList s₁ ∧ s' = s₁.clear headerKey) ∧
      block.header.stateRoot = Host.storageRoot .v1 s' ∧
      block.header.extrinsicsRoot = Host.orderedTrieRoot .v0 (block.extrinsics.toList.map encode) := by
  constructor
  · intro h
    obtain ⟨_, s₁, opened, h⟩ := Exec.bind_ok h
    obtain rfl := Exec.modify_ok opened
    obtain ⟨_, s₂, executed, h⟩ := Exec.bind_ok h
    obtain ⟨order, applied⟩ := executeExtrinsics_ok.mp executed
    obtain ⟨_, s₃, closed, h⟩ := Exec.bind_ok h
    obtain rfl := Exec.modify_ok closed
    obtain ⟨_, s₄, current, h⟩ := Exec.bind_ok h
    obtain ⟨rfl, rfl⟩ := Exec.get_ok current
    dsimp only at h
    split at h
    · obtain ⟨_, _, panics, _⟩ := Exec.bind_ok h
      cases (Exec.lift_ok panics).1
    · rename_i sameState
      split at h
      · cases (Exec.lift_ok h).1
      · rename_i sameExtrinsics
        obtain ⟨_, rfl⟩ := Exec.pure_ok h
        exact ⟨order, ⟨s₂, applied, rfl⟩, not_not.mp sameState, not_not.mp sameExtrinsics⟩
  · rintro ⟨order, ⟨s₁, applied, rfl⟩, sameState, sameExtrinsics⟩
    have executed : executeExtrinsics false block.extrinsics.toList (openBlock block.header s) = .ok () s₁ :=
      executeExtrinsics_ok.mpr ⟨order, applied⟩
    refine (Exec.bind_of_ok (Exec.modify_of _ _)).trans ?_
    refine (Exec.bind_of_ok executed).trans ?_
    refine (Exec.bind_of_ok (Exec.modify_of _ _)).trans ?_
    refine (Exec.bind_of_ok (Exec.get_of _)).trans ?_
    dsimp only
    rw [if_neg (not_not.mpr sameState), if_neg (not_not.mpr sameExtrinsics)]
    rfl

theorem executeBlock_run {block : Block V C} {s s' : Storage} {u : Unit} (h : executeBlock block s = .ok u s') :
    Run s block.extrinsics.toList s' := by
  obtain ⟨_, ⟨s₁, applied, rfl⟩, _⟩ := executeBlock_ok.mp h
  have closed : Run (V := V) (C := C) s₁ [] (s₁.clear headerKey) := .keep (SameUtxos.clear (by decide)) (.done _)
  have executed := applied.run.trans closed
  rw [List.append_nil] at executed
  exact .keep (openBlock_same _ _) executed

end

/-! ### Genesis -/

section
variable {V C : Type} [Host] [Codec V] [Codec C]
open TuxedoGenesisConfigBuilder

/-- The outputs of all the transactions, written in order. -/
def storeAll (txs : List (Transaction V C)) (s : Storage) : Storage :=
  txs.foldl (fun s t => match t.id? with
    | some txHash => storeOutputs t txHash s
    | none => s) s

omit [Host] [Codec C] in
theorem storeOutputs_eq (t : Transaction V C) (txHash : H256) (s : Storage) :
    storeOutputs t txHash s = s.setAll (outputEntries t txHash) := by
  unfold storeOutputs outputEntries Store.setAll
  rw [List.foldl_map]

theorem peek_storeOutputs {t : Transaction V C} {txHash : H256} (hash : t.id? = some txHash) (s : Storage)
    (r : OutputRef) :
    peekUtxo V (storeOutputs t txHash s) r = (creates t r).or (peekUtxo V s r) := by
  rw [storeOutputs_eq]
  cases made : creates t r with
  | some output =>
    obtain ⟨_, at_r⟩ := creates_eq_some.mp made
    have entry := mem_outputEntries txHash at_r
    rw [← outputRef_index (mem_outputRefs_of_creates hash made)] at entry
    simp [peekUtxo, Store.get_setAll_of_mem (outputEntries_nodup t txHash) entry]
  | none =>
    have outside : encode r ∉ (outputEntries t txHash).map Prod.fst := by
      rw [outputEntries_keys, List.mem_map_of_injective encode_injective]
      exact (creates_eq_none hash).mp made
    simp [peekUtxo, Store.get_setAll_of_notMem outside]

omit [Host] [Codec C] in
theorem get_storeOutputs_narrow (t : Transaction V C) (txHash : H256) (s : Storage) {k : Bytes}
    (width : k.length ≠ 36) : (storeOutputs t txHash s).get k = s.get k := by
  rw [storeOutputs_eq]
  apply Store.get_setAll_of_notMem
  rw [outputEntries_keys]
  intro member
  obtain ⟨r, _, rfl⟩ := List.mem_map.mp member
  exact width (length_encode_outputRef r)

theorem get_storeAll_narrow (txs : List (Transaction V C)) (s : Storage) {k : Bytes} (width : k.length ≠ 36) :
    (storeAll txs s).get k = s.get k := by
  induction txs generalizing s with
  | nil => rfl
  | cons t txs ih =>
    rw [storeAll, List.foldl_cons]
    refine (ih _).trans ?_
    split
    · exact get_storeOutputs_narrow t _ s width
    · rfl

variable [ConstraintChecker V C]

/-- What building a genesis asks of its transactions and does. -/
structure Built (finished : Bool) (txs : List (Transaction V C)) (s s' : Storage) : Prop where
  inOrder : InOrder V finished txs
  noInputs : ∀ t ∈ txs, t.inputs.toList = [] ∧ t.peeks.toList = []
  hashed : ∀ t ∈ txs, ∃ txHash, t.id? = some txHash
  after : s' = storeAll txs s

theorem buildTransactions_ok {finished : Bool} {txs : List (Transaction V C)} {s s' : Storage}
    (h : buildTransactions finished txs s = .ok s') : Built finished txs s s' := by
  induction txs generalizing finished s with
  | nil =>
    obtain rfl := Outcome.pure_ok h
    exact ⟨inOrder_nil finished, by simp, by simp, rfl⟩
  | cons t txs ih =>
    obtain ⟨_, order, h⟩ := Outcome.bind_ok h
    obtain ⟨_, bare, h⟩ := Outcome.bind_ok h
    obtain ⟨txHash, hash, h⟩ := Outcome.bind_ok h
    have later := ih h
    have hash := Outcome.expect_ok hash
    refine ⟨inOrder_cons.mpr ⟨?_, later.inOrder⟩, List.forall_mem_cons.mpr ⟨Outcome.ensure_ok bare, later.noInputs⟩,
      List.forall_mem_cons.mpr ⟨⟨txHash, hash⟩, later.hashed⟩, ?_⟩
    · have guard := Outcome.ensure_ok order
      rw [← Bool.not_eq_true, Bool.and_eq_true]
      exact guard
    · rw [later.after, storeAll, storeAll, List.foldl_cons, hash]

omit [ConstraintChecker V C] in
/-- What is there after writing was there before or is an output of one of the transactions. -/
theorem peek_storeAll_source {txs : List (Transaction V C)} {s : Storage} {r : OutputRef} {output : Output V}
    (present : peekUtxo V (storeAll txs s) r = some output) :
    (∃ t ∈ txs, creates t r = some output) ∨ peekUtxo V s r = some output := by
  induction txs generalizing s with
  | nil => exact Or.inr present
  | cons t txs ih =>
    rw [storeAll, List.foldl_cons] at present
    rcases ih present with ⟨t', member, made⟩ | before
    · exact Or.inl ⟨t', List.mem_cons_of_mem _ member, made⟩
    · split at before
      · rename_i txHash hash
        rw [peek_storeOutputs hash, Option.or_eq_some_iff] at before
        rcases before with made | ⟨_, before⟩
        · exact Or.inl ⟨t, List.mem_cons_self, made⟩
        · exact Or.inr before
      · exact Or.inr before

omit [ConstraintChecker V C] in
/-- A reference that one of the transactions creates is there after writing. -/
theorem peek_storeAll_present {txs : List (Transaction V C)} {s : Storage} {r : OutputRef}
    (made : (∃ t ∈ txs, ∃ output, creates t r = some output) ∨ ∃ output, peekUtxo V s r = some output) :
    ∃ output, peekUtxo V (storeAll txs s) r = some output := by
  induction txs generalizing s with
  | nil =>
    rcases made with ⟨t, member, _⟩ | before
    · cases member
    · exact before
  | cons t txs ih =>
    rw [storeAll, List.foldl_cons]
    apply ih
    rcases made with ⟨t', member, output, made⟩ | ⟨output, before⟩
    · rcases List.mem_cons.mp member with rfl | member
      · right
        rw [(creates_eq_some.mp made).1]
        exact ⟨output, by rw [peek_storeOutputs (creates_eq_some.mp made).1, made]; rfl⟩
      · exact Or.inl ⟨t', member, output, made⟩
    · right
      split
      · rename_i txHash hash
        rw [peek_storeOutputs hash, before]
        cases creates t r with
        | none => exact ⟨output, rfl⟩
        | some other => exact ⟨other, rfl⟩
      · exact ⟨output, before⟩

theorem build_ok {txs : Vec (Transaction V C)} {base s : Storage} (h : build txs base = .ok s) :
    ∃ start, SameUtxos base start ∧ Built false txs.toList start s :=
  ⟨_, (SameUtxos.set _ (by decide)).trans (SameUtxos.set _ (by decide)), buildTransactions_ok h⟩

theorem build_extrinsics {txs : Vec (Transaction V C)} {base s : Storage} (h : build txs base = .ok s) :
    s.get extrinsicKey = some (encode txs) := by
  rw [(buildTransactions_ok h).after, get_storeAll_narrow _ _ (by decide), Store.get_set_ne _ _ (by decide),
    Store.get_set_self]

/-- Every output of a genesis is an output of one of its transactions. -/
theorem build_source {txs : Vec (Transaction V C)} {base s : Storage} (bare : ∀ r, peekUtxo V base r = none)
    (h : build txs base = .ok s) {r : OutputRef} {output : Output V} (present : peekUtxo V s r = some output) :
    ∃ t ∈ txs.toList, creates t r = some output := by
  obtain ⟨start, same, built⟩ := build_ok h
  rw [built.after] at present
  refine (peek_storeAll_source present).resolve_right fun before => ?_
  rw [same.peek r, bare r] at before
  cases before

/-- The transactions of a genesis are the history of its ledger. -/
theorem build_history {txs : Vec (Transaction V C)} {base s : Storage}
    (bare : ∀ r, peekUtxo V base r = none) (h : build txs base = .ok s) :
    Ledger.History consumes creates {t | t ∈ txs.toList} (peekUtxo V s) := by
  obtain ⟨start, _, built⟩ := build_ok h
  constructor
  · intro r output present
    obtain ⟨t, member, made⟩ := build_source bare h present
    exact ⟨t, member, output, made⟩
  · intro t member r consumed
    have none : inputRefs t = [] := by simp [inputRefs, (built.noInputs t member).1]
    simp [consumes, none] at consumed

end
end Tuxedo.Executive
