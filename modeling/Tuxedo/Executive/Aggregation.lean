import Tuxedo.Executive.Inherents

/-!
# Trees of constraint checkers

The macro nests: a variant of an aggregate may be an aggregate itself. The hooks of such a tree
come down to the hooks of its inherent leaves, in the order in which these are declared.
-/

namespace Tuxedo
open Scale

section
variable {V C : Type}

/-! ### Trees -/

/-- What the variants of an enum are: every value belongs to one of them, and is unwrapped by it. -/
structure IsEnum (variants : List (Variant V C)) : Prop where
  matched : ∀ v ∈ variants, ∀ c, v.isVariant c = (v.unwrap c).isSome
  unwrap_eq_some : ∀ v ∈ variants, ∀ c inner, v.unwrap c = some inner ↔ c = v.wrap inner
  apart : ∀ c, variants.Pairwise fun v w => v.isVariant c = true → w.isVariant c = false
  covers : ∀ c, ∃ v ∈ variants, v.isVariant c = true

/-- The variant of the values with a certain number. -/
structure Variant.Numbered (number : C → Nat) (v : Variant V C) (i : Nat) : Prop where
  isVariant : ∀ c, v.isVariant c = decide (number c = i)
  matched : ∀ c, v.isVariant c = (v.unwrap c).isSome
  unwrap_wrap : ∀ inner, v.unwrap (v.wrap inner) = some inner
  wrap_unwrap : ∀ c inner, v.unwrap c = some inner → c = v.wrap inner

theorem IsEnum.of_number {variants : List (Variant V C)} (number : C → Nat)
    (bound : ∀ c, number c < variants.length) (numbered : ∀ p ∈ variants.zipIdx, p.1.Numbered number p.2) :
    IsEnum variants := by
  have each : ∀ i (short : i < variants.length), (variants.get ⟨i, short⟩).Numbered number i := by
    intro i short
    exact numbered (variants.get ⟨i, short⟩, i) (List.mem_zipIdx_iff_getElem?.mpr (List.getElem?_eq_getElem short))
  refine ⟨?_, ?_, fun c => List.pairwise_iff_get.mpr fun i j before mine => ?_, fun c => ?_⟩
  · intro v member
    obtain ⟨i, rfl⟩ := List.get_of_mem member
    exact (each i i.isLt).matched
  · intro v member c inner
    obtain ⟨i, rfl⟩ := List.get_of_mem member
    exact ⟨(each i i.isLt).wrap_unwrap c inner, fun same => by rw [same]; exact (each i i.isLt).unwrap_wrap inner⟩
  · rw [(each i i.isLt).isVariant, decide_eq_true_iff] at mine
    rw [(each j j.isLt).isVariant, decide_eq_false_iff_not, mine]
    exact Nat.ne_of_lt before
  · refine ⟨variants.get ⟨number c, bound c⟩, List.get_mem _ _, ?_⟩
    rw [(each _ (bound c)).isVariant, decide_eq_true_iff]

/-- The checker is the one that the macro writes for the enum. -/
structure Aggregates (checker : ConstraintChecker V C) (variants : List (Variant V C)) : Prop where
  isEnum : IsEnum variants
  isInherent : ∀ v ∈ variants, ∀ inner, checker.isInherent (v.wrap inner) = v.checker.isInherent inner
  createInherents : checker.createInherents = Aggregate.createInherents variants
  checkInherents : checker.checkInherents = Aggregate.checkInherents variants

/-- A checker that is built from simple checkers and adapters with the macro. -/
inductive Tree (V : Type) : (C : Type) → ConstraintChecker V C → Type 1
  | simple (C : Type) [SimpleConstraintChecker C] : Tree V C inferInstance
  | inherent (C : Type) [SimpleConstraintChecker C] [InherentHooks V C] : Tree V (InherentAdapter C) inferInstance
  | aggregate {C : Type} {checker : ConstraintChecker V C} (variants : List (Variant V C))
      (aggregates : Aggregates checker variants)
      (subtree : (i : Fin variants.length) → Tree V (variants.get i).Inner (variants.get i).checker) :
      Tree V C checker

/-- An adapted piece somewhere in a tree, with the conversions from and to the root. -/
structure InherentLeaf (V C : Type) where
  Inner : Type
  hooks : InherentHooks V Inner
  unwrap : C → Option Inner
  wrap : Inner → C

namespace InherentLeaf

/-- The leaf of a subtree, seen from one level above. -/
def lift (v : Variant V C) (leaf : InherentLeaf V v.Inner) : InherentLeaf V C :=
  ⟨leaf.Inner, leaf.hooks, fun c => (v.unwrap c).bind leaf.unwrap, fun inner => v.wrap (leaf.wrap inner)⟩

/-- The transactions of a list that belong to the leaf, unwrapped. -/
def own (leaf : InherentLeaf V C) (inherents : List (Transaction V C)) : List (Transaction V leaf.Inner) :=
  inherents.filterMap (Transaction.transform? leaf.unwrap)

def ownHashed (leaf : InherentLeaf V C) (previous : List (Transaction V C × H256)) :
    List (Transaction V leaf.Inner × H256) :=
  previous.filterMap fun p => (p.1.transform? leaf.unwrap).map fun tx => (tx, p.2)

/-- The transaction belongs to the leaf. -/
def owns (leaf : InherentLeaf V C) (x : Transaction V C) : Bool := (leaf.unwrap x.checker).isSome

/-- The adapter's `create_inherents` on what belongs to the leaf. -/
def createInherent (leaf : InherentLeaf V C) (s : Storage) (data : InherentData)
    (previous : List (Transaction V C × H256)) : Option (Transaction V C) :=
  match leaf.ownHashed previous with
  | [p] => (leaf.hooks.createInherent s data p).map (Transaction.transform leaf.wrap)
  | _ => none

/-- The adapter's `check_inherents` on what belongs to the leaf. -/
def checkInherents (leaf : InherentLeaf V C) (data : InherentData) (inherents : List (Transaction V C))
    (result : CheckInherentsResult) : Option CheckInherentsResult :=
  have := leaf.hooks
  InherentAdapter.checkInherents data ((leaf.own inherents).map InherentAdapter.wrapTransaction) result

end InherentLeaf

namespace Tree

def gather : (variants : List (Variant V C)) →
    ((i : Fin variants.length) → List (InherentLeaf V (variants.get i).Inner)) → List (InherentLeaf V C)
  | [], _ => []
  | v :: variants, leaves =>
    (leaves ⟨0, Nat.zero_lt_succ _⟩).map (InherentLeaf.lift v) ++ gather variants fun i => leaves i.succ

/-- The inherent leaves, depth first in the order of declaration. -/
def inherentLeaves : {C : Type} → {checker : ConstraintChecker V C} → Tree V C checker → List (InherentLeaf V C)
  | _, _, @Tree.simple _ _ _ => []
  | _, _, @Tree.inherent _ C _ hooks => [⟨C, hooks, fun c => some c.inner, InherentAdapter.mk⟩]
  | _, _, .aggregate variants _ subtree => gather variants fun i => (subtree i).inherentLeaves

end Tree

/-! ### What a variant hands down -/

theorem IsEnum.transform?_isSome {variants : List (Variant V C)} {v : Variant V C} (isEnum : IsEnum variants)
    (member : v ∈ variants) (tx : Transaction V C) : v.isVariant tx.checker = (tx.transform? v.unwrap).isSome := by
  rw [isEnum.matched v member, Transaction.transform?, Option.isSome_map]

namespace Variant
variable {variants : List (Variant V C)} {v : Variant V C}

/-- The unwrapping conversion only meets its own variant. -/
theorem createInherents_eq (isEnum : IsEnum variants) (member : v ∈ variants) (s : Storage) (data : InherentData)
    (previous : List (Transaction V C × H256)) :
    v.createInherents s data previous =
      (v.checker.createInherents s data
        (previous.filterMap fun p => (p.1.transform? v.unwrap).map fun tx => (tx, p.2))).map
          fun txs => txs.map (Transaction.transform v.wrap) := by
  have matched : ∀ p : Transaction V C × H256, v.isVariant p.1.checker =
      ((p.1.transform? v.unwrap).map fun tx => (tx, p.2)).isSome := by
    intro p
    rw [Option.isSome_map, isEnum.transform?_isSome member]
  unfold createInherents
  dsimp only
  rw [List.mapM_filter_eq_filterMap matched]
  exact (Option.map_eq_bind ..).symm

theorem checkInherents_eq (isEnum : IsEnum variants) (member : v ∈ variants) (data : InherentData)
    (inherents : List (Transaction V C)) (result : CheckInherentsResult) :
    v.checkInherents data inherents result =
      v.checker.checkInherents data (inherents.filterMap (Transaction.transform? v.unwrap)) result := by
  simp [checkInherents, List.mapM_filter_eq_filterMap (isEnum.transform?_isSome member)]

end Variant

namespace InherentLeaf

theorem owns_eq (leaf : InherentLeaf V C) (x : Transaction V C) :
    leaf.owns x = (x.transform? leaf.unwrap).isSome := by
  rw [owns, Transaction.transform?, Option.isSome_map]

theorem filter_owns_of_own {leaf : InherentLeaf V C} {inherents : List (Transaction V C)}
    {inner : Transaction V leaf.Inner} (one : leaf.own inherents = [inner]) :
    ∃ x, inherents.filter leaf.owns = [x] := by
  have unwraps := List.mapM_filter_eq_filterMap leaf.owns_eq inherents
  rw [show inherents.filterMap _ = [inner] from one] at unwraps
  obtain ⟨x, single, _⟩ := List.mapM_eq_singleton unwraps
  exact ⟨x, single⟩

/-- From the one transaction of the leaf, the hook makes the next one. -/
theorem createInherent_one {leaf : InherentLeaf V C} {previous : List (Transaction V C × H256)}
    {x : Transaction V C} {txHash : H256} (one : previous.filter (fun p => leaf.owns p.1) = [(x, txHash)])
    {s : Storage} {data : InherentData} {next : Transaction V leaf.Inner}
    (creates : ∀ inner, leaf.hooks.createInherent s data (inner, txHash) = some next) :
    leaf.createInherent s data previous = some (next.transform leaf.wrap) := by
  have matched : ∀ p : Transaction V C × H256, leaf.owns p.1 =
      ((p.1.transform? leaf.unwrap).map fun tx => (tx, p.2)).isSome := by
    intro p
    rw [Option.isSome_map, owns_eq]
  have unwraps := List.mapM_filter_eq_filterMap matched previous
  have member : (x, txHash) ∈ previous.filter fun p => leaf.owns p.1 := by
    rw [one]
    exact List.mem_singleton_self _
  obtain ⟨inner, found⟩ := Option.isSome_iff_exists.mp ((leaf.owns_eq x).symm.trans (List.mem_filter.mp member).2)
  rw [one, List.mapM_cons, found] at unwraps
  unfold createInherent
  rw [show leaf.ownHashed previous = [(inner, txHash)] from (Option.some.inj unwraps).symm]
  simp only [creates, Option.map_some]

variable (v : Variant V C) (leaf : InherentLeaf V v.Inner)

theorem transform?_lift (tx : Transaction V C) :
    tx.transform? (leaf.lift v).unwrap = (tx.transform? v.unwrap).bind (Transaction.transform? leaf.unwrap) := by
  unfold Transaction.transform? lift
  dsimp only
  cases v.unwrap tx.checker <;> rfl

theorem own_lift (inherents : List (Transaction V C)) :
    (leaf.lift v).own inherents = leaf.own (inherents.filterMap (Transaction.transform? v.unwrap)) := by
  unfold own
  rw [List.filterMap_filterMap]
  exact List.filterMap_congr fun tx _ => transform?_lift v leaf tx

theorem ownHashed_lift (previous : List (Transaction V C × H256)) :
    (leaf.lift v).ownHashed previous =
      leaf.ownHashed (previous.filterMap fun p => (p.1.transform? v.unwrap).map fun tx => (tx, p.2)) := by
  unfold ownHashed
  rw [List.filterMap_filterMap]
  refine List.filterMap_congr fun p _ => ?_
  rw [transform?_lift]
  cases p.1.transform? v.unwrap <;> rfl

theorem createInherent_lift (s : Storage) (data : InherentData) (previous : List (Transaction V C × H256)) :
    (leaf.lift v).createInherent s data previous =
      (leaf.createInherent s data
        (previous.filterMap fun p => (p.1.transform? v.unwrap).map fun tx => (tx, p.2))).map
          (Transaction.transform v.wrap) := by
  unfold createInherent
  rw [ownHashed_lift]
  generalize leaf.ownHashed _ = owned
  match owned with
  | [] => rfl
  | [p] =>
    simp only [Option.map_map]
    rfl
  | _ :: _ :: _ => rfl

theorem checkInherents_lift (data : InherentData) (inherents : List (Transaction V C))
    (result : CheckInherentsResult) :
    (leaf.lift v).checkInherents data inherents result =
      leaf.checkInherents data (inherents.filterMap (Transaction.transform? v.unwrap)) result := by
  unfold checkInherents
  rw [own_lift]
  rfl

end InherentLeaf

/-! ### The hooks of a tree -/

namespace Tree

theorem createInherents_gather {variants : List (Variant V C)}
    {leaves : (i : Fin variants.length) → List (InherentLeaf V (variants.get i).Inner)} {s : Storage}
    {data : InherentData} {previous : List (Transaction V C × H256)}
    (each : ∀ i, (variants.get i).createInherents s data previous =
      ((leaves i).map (InherentLeaf.lift _)).mapM fun leaf => leaf.createInherent s data previous) :
    Aggregate.createInherents variants s data previous =
      (gather variants leaves).mapM fun leaf => leaf.createInherent s data previous := by
  induction variants with
  | nil => rfl
  | cons v variants ih =>
    unfold Aggregate.createInherents gather
    have first : v.createInherents s data previous = _ := each ⟨0, Nat.zero_lt_succ _⟩
    have later := ih fun i => each i.succ
    rw [List.mapM_append, first, later]
    rfl

/-- Each leaf creates its inherent from what belongs to it, and no other step can panic. -/
theorem createInherents_eq {checker : ConstraintChecker V C} (tree : Tree V C checker) (s : Storage)
    (data : InherentData) (previous : List (Transaction V C × H256)) :
    checker.createInherents s data previous =
      tree.inherentLeaves.mapM fun leaf => leaf.createInherent s data previous := by
  induction tree with
  | simple C => rfl
  | inherent C =>
    match previous with
    | [] => rfl
    | [(x, txHash)] =>
      refine (InherentAdapter.createInherents_one s data x txHash).trans ?_
      rw [inherentLeaves, List.mapM_cons]
      change _ = Option.bind
        (Option.map _ (InherentHooks.createInherent s data (InherentAdapter.unwrapTransaction x, txHash))) _
      cases InherentHooks.createInherent s data (InherentAdapter.unwrapTransaction x, txHash) <;> rfl
    | _ :: _ :: _ => rfl
  | aggregate variants aggregates subtree ih =>
    rw [aggregates.createInherents]
    refine createInherents_gather fun i => ?_
    rw [Variant.createInherents_eq aggregates.isEnum (List.get_mem variants i), ih i, List.mapM_map,
      ← List.mapM_map_right]
    simp only [Function.comp_def, InherentLeaf.createInherent_lift]

/-- One round of the checks: nothing is done after a fatal error. -/
def checkLeaf (data : InherentData) (inherents : List (Transaction V C)) (result : CheckInherentsResult)
    (leaf : InherentLeaf V C) : Option CheckInherentsResult :=
  if result.fatalError then some result else leaf.checkInherents data inherents result

theorem foldlM_checkLeaf_fatal {data : InherentData} {inherents : List (Transaction V C)}
    {result : CheckInherentsResult} (fatal : result.fatalError = true) (leaves : List (InherentLeaf V C)) :
    leaves.foldlM (checkLeaf data inherents) result = some result := by
  induction leaves with
  | nil => rfl
  | cons leaf leaves ih =>
    rw [List.foldlM_cons, checkLeaf, if_pos fatal]
    exact ih

theorem checkInherents_gather {variants : List (Variant V C)}
    {leaves : (i : Fin variants.length) → List (InherentLeaf V (variants.get i).Inner)} {data : InherentData}
    {inherents : List (Transaction V C)} {result : CheckInherentsResult}
    (fresh : result.fatalError = false)
    (each : ∀ i result, result.fatalError = false → (variants.get i).checkInherents data inherents result =
      ((leaves i).map (InherentLeaf.lift _)).foldlM (checkLeaf data inherents) result) :
    Aggregate.checkInherents variants data inherents result =
      (gather variants leaves).foldlM (checkLeaf data inherents) result := by
  induction variants generalizing result with
  | nil => rfl
  | cons v variants ih =>
    unfold Aggregate.checkInherents gather
    have first : v.checkInherents data inherents result = _ := each ⟨0, Nat.zero_lt_succ _⟩ result fresh
    rw [List.foldlM_append, first]
    congr 1
    funext result'
    split
    · rename_i fatal
      exact (foldlM_checkLeaf_fatal fatal _).symm
    · rename_i fresh
      exact ih (by simpa using fresh) fun i => each i.succ

theorem isInherent_handed {checker : ConstraintChecker V C} {variants : List (Variant V C)} {v : Variant V C}
    (aggregates : Aggregates checker variants) (member : v ∈ variants) {inherents : List (Transaction V C)}
    (inherent : ∀ x ∈ inherents, checker.isInherent x.checker = true) :
    ∀ x ∈ inherents.filterMap (Transaction.transform? v.unwrap), v.checker.isInherent x.checker = true := by
  intro x inside
  obtain ⟨outer, present, unwraps⟩ := List.mem_filterMap.mp inside
  obtain ⟨inner, found, rfl⟩ := Option.map_eq_some_iff.mp unwraps
  have wrapped := (aggregates.isEnum.unwrap_eq_some v member _ _).mp found
  rw [← aggregates.isInherent v member inner, ← wrapped]
  exact inherent outer present

/-- On inherents, the checks of a tree are those of its inherent leaves. -/
theorem checkInherents_eq {checker : ConstraintChecker V C} (tree : Tree V C checker) (data : InherentData)
    {inherents : List (Transaction V C)} (inherent : ∀ x ∈ inherents, checker.isInherent x.checker = true)
    {result : CheckInherentsResult} (fresh : result.fatalError = false) :
    checker.checkInherents data inherents result =
      tree.inherentLeaves.foldlM (checkLeaf data inherents) result := by
  induction tree generalizing result with
  | simple C =>
    cases inherents with
    | nil => rfl
    | cons x inherents => exact absurd (inherent x List.mem_cons_self) Bool.false_ne_true
  | inherent C =>
    have own : ∀ xs : List (Transaction V (InherentAdapter C)),
        (xs.filterMap (Transaction.transform? fun c => some c.inner)).map InherentAdapter.wrapTransaction = xs := by
      intro xs
      induction xs with
      | nil => rfl
      | cons x xs ih => exact congrArg (x :: ·) ih
    simp only [inherentLeaves, List.foldlM_cons, List.foldlM_nil, checkLeaf, fresh, InherentLeaf.checkInherents,
      InherentLeaf.own, own, bind_pure]
    rfl
  | aggregate variants aggregates subtree ih =>
    rw [aggregates.checkInherents]
    refine checkInherents_gather fresh fun i result fresh => ?_
    have member := List.get_mem variants i
    rw [Variant.checkInherents_eq aggregates.isEnum member,
      ih i (isInherent_handed aggregates member inherent) fresh, List.foldlM_map]
    congr 1
    funext result leaf
    simp only [checkLeaf, InherentLeaf.checkInherents_lift]

end Tree

/-! ### The calls to the leaves -/

/-- The loop over the variants comes to a variant, with the result as the earlier ones left it. -/
inductive Aggregate.Reaches (data : InherentData) (inherents : List (Transaction V C)) :
    List (Variant V C) → CheckInherentsResult → Variant V C → CheckInherentsResult → Prop
  | here {v : Variant V C} {variants : List (Variant V C)} {result : CheckInherentsResult} :
      Reaches data inherents (v :: variants) result v result
  | later {v w : Variant V C} {variants : List (Variant V C)} {result result' result'' : CheckInherentsResult}
      (checked : v.checkInherents data inherents result = some result') (goesOn : result'.fatalError = false)
      (reached : Reaches data inherents variants result' w result'') :
      Reaches data inherents (v :: variants) result w result''

theorem Aggregate.Reaches.fresh {data : InherentData} {inherents : List (Transaction V C)}
    {variants : List (Variant V C)} {v : Variant V C} {result result' : CheckInherentsResult}
    (reached : Reaches data inherents variants result v result') (fresh : result.fatalError = false) :
    result'.fatalError = false := by
  induction reached with
  | here => exact fresh
  | later _ goesOn _ ih => exact ih goesOn

inductive LeafKind where
  | simple
  | inherent
  deriving DecidableEq

/-- A call of `check_inherents` on a leaf: how many inherents it got, and the result so far. -/
structure LeafCall where
  kind : LeafKind
  received : Nat
  before : CheckInherentsResult

namespace Tree

/-- The calls on leaves that `check_inherents` makes on a tree. -/
inductive Calls (data : InherentData) : {C : Type} → {checker : ConstraintChecker V C} → Tree V C checker →
    List (Transaction V C) → CheckInherentsResult → LeafCall → Prop
  | simple {C : Type} [SimpleConstraintChecker C] {inherents : List (Transaction V C)}
      {result : CheckInherentsResult} :
      Calls data (.simple C) inherents result ⟨.simple, inherents.length, result⟩
  | inherent {C : Type} [SimpleConstraintChecker C] [InherentHooks V C]
      {inherents : List (Transaction V (InherentAdapter C))} {result : CheckInherentsResult} :
      Calls data (.inherent C) inherents result ⟨.inherent, inherents.length, result⟩
  | aggregate {C : Type} {checker : ConstraintChecker V C} {variants : List (Variant V C)}
      {aggregates : Aggregates checker variants}
      {subtree : (i : Fin variants.length) → Tree V (variants.get i).Inner (variants.get i).checker}
      {inherents : List (Transaction V C)} {result result' : CheckInherentsResult} {i : Fin variants.length}
      {relevant : List (Transaction V (variants.get i).Inner)} {call : LeafCall}
      (reached : Aggregate.Reaches data inherents variants result (variants.get i) result')
      (handed : (inherents.filter fun tx => (variants.get i).isVariant tx.checker).mapM
        (Transaction.transform? (variants.get i).unwrap) = some relevant)
      (made : Calls data (subtree i) relevant result' call) :
      Calls data (.aggregate variants aggregates subtree) inherents result call

/-- No leaf is called after a fatal error, and simple checkers get no inherents. -/
theorem Calls.sound {data : InherentData} {checker : ConstraintChecker V C} {tree : Tree V C checker}
    {inherents : List (Transaction V C)} {result : CheckInherentsResult} {call : LeafCall}
    (calls : tree.Calls data inherents result call)
    (inherent : ∀ x ∈ inherents, checker.isInherent x.checker = true) (fresh : result.fatalError = false) :
    call.before.fatalError = false ∧ (call.kind = .simple → call.received = 0) := by
  induction calls with
  | @simple C _ inherents result =>
    refine ⟨fresh, fun _ => ?_⟩
    cases inherents with
    | nil => rfl
    | cons x inherents => exact absurd (inherent x List.mem_cons_self) Bool.false_ne_true
  | inherent => exact ⟨fresh, fun simple => by cases simple⟩
  | @aggregate C checker variants aggregates _ inherents _ _ i relevant _ reached handed _ ih =>
    have member := List.get_mem variants i
    rw [List.mapM_filter_eq_filterMap (aggregates.isEnum.transform?_isSome member)] at handed
    obtain rfl := Option.some.inj handed
    exact ih (isInherent_handed aggregates member inherent) (reached.fresh fresh)

/-! ### The number of inherents of each leaf -/

theorem putError_fatal {result : CheckInherentsResult} (fresh : result.fatalError = false)
    (identifier : InherentIdentifier) (error : Vec UInt8) :
    ∃ result', result.putError identifier error true = some result' ∧ result'.fatalError = true := by
  simp [CheckInherentsResult.putError, fresh]

theorem checkInherents_one {leaf : InherentLeaf V C} {inherents : List (Transaction V C)}
    {x : Transaction V leaf.Inner} (own : leaf.own inherents = [x]) (data : InherentData)
    (result : CheckInherentsResult) :
    leaf.checkInherents data inherents result = leaf.hooks.checkInherent data x result := by
  unfold InherentLeaf.checkInherents
  rw [own]
  rfl

/-- A leaf with no inherent, or with several, ends the checks. -/
theorem checkInherents_not_one {leaf : InherentLeaf V C} {inherents : List (Transaction V C)}
    {result : CheckInherentsResult} (other : (leaf.own inherents).length ≠ 1) (fresh : result.fatalError = false)
    (data : InherentData) :
    ∃ result', leaf.checkInherents data inherents result = some result' ∧ result'.fatalError = true := by
  unfold InherentLeaf.checkInherents
  match own : leaf.own inherents with
  | [] => exact putError_fatal fresh _ _
  | [x] => exact absurd (by rw [own]; rfl) other
  | x :: y :: rest => exact putError_fatal fresh _ _

theorem foldlM_checkLeaf_quiet {data : InherentData} {inherents : List (Transaction V C)}
    {result : CheckInherentsResult} {leaves : List (InherentLeaf V C)} (fresh : result.fatalError = false)
    (quiet : ∀ leaf ∈ leaves, ∀ x ∈ leaf.own inherents, ∀ result,
      leaf.hooks.checkInherent data x result = some result) :
    ∃ result', leaves.foldlM (checkLeaf data inherents) result = some result' ∧
      (result'.fatalError = true ↔ ∃ leaf ∈ leaves, (leaf.own inherents).length ≠ 1) := by
  induction leaves with
  | nil => exact ⟨result, rfl, by simp [fresh]⟩
  | cons leaf leaves ih =>
    obtain ⟨first, rest⟩ := List.forall_mem_cons.mp quiet
    rw [List.foldlM_cons, checkLeaf, if_neg (by simp [fresh])]
    by_cases one : (leaf.own inherents).length = 1
    · obtain ⟨x, own⟩ := List.length_eq_one_iff.mp one
      rw [checkInherents_one own, first x (by rw [own]; exact List.mem_cons_self)]
      obtain ⟨result', run, fatal⟩ := ih rest
      exact ⟨result', run, fatal.trans (by simp [one])⟩
    · obtain ⟨result', ended, fatal⟩ := checkInherents_not_one one fresh data
      rw [ended]
      exact ⟨result', foldlM_checkLeaf_fatal fatal leaves,
        ⟨fun _ => ⟨leaf, List.mem_cons_self, one⟩, fun _ => fatal⟩⟩

/-- A check without error has met exactly one inherent of each leaf, if the hooks change nothing
without an error. -/
theorem foldlM_checkLeaf_okay {data : InherentData} {inherents : List (Transaction V C)}
    {result result' : CheckInherentsResult} {leaves : List (InherentLeaf V C)} (fresh : result.fatalError = false)
    (reports : ∀ leaf ∈ leaves, ∀ x result result', leaf.hooks.checkInherent data x result = some result' →
      result'.okay = true → result' = result)
    (checked : leaves.foldlM (checkLeaf data inherents) result = some result') (okay : result'.okay = true) :
    result' = result ∧ ∀ leaf ∈ leaves, ∃ x, leaf.own inherents = [x] := by
  induction leaves generalizing result with
  | nil => exact ⟨(Option.some.inj checked).symm, by simp⟩
  | cons leaf leaves ih =>
    obtain ⟨first, rest⟩ := List.forall_mem_cons.mp reports
    rw [List.foldlM_cons, checkLeaf, if_neg (by simp [fresh])] at checked
    obtain ⟨between, round, checked⟩ := Option.bind_eq_some_iff.mp checked
    have here : between.okay = true → between = result ∧ ∃ x, leaf.own inherents = [x] := by
      intro okay
      let := leaf.hooks
      obtain ⟨wrapped, single, hook⟩ := InherentAdapter.checkInherents_okay round okay
      obtain ⟨x, own, _⟩ := List.map_eq_singleton_iff.mp single
      exact ⟨first _ _ _ hook okay, x, own⟩
    cases fatal : between.fatalError with
    | true =>
      rw [foldlM_checkLeaf_fatal fatal] at checked
      cases checked
      rw [(here okay).1, fresh] at fatal
      cases fatal
    | false =>
      obtain ⟨rfl, later⟩ := ih fatal rest checked
      obtain ⟨same, one⟩ := here okay
      exact ⟨same, List.forall_mem_cons.mpr ⟨one, later⟩⟩

theorem checkInherents_okay {checker : ConstraintChecker V C} (tree : Tree V C checker) {data : InherentData}
    {inherents : List (Transaction V C)} {result : CheckInherentsResult}
    (reports : ∀ leaf ∈ tree.inherentLeaves, ∀ x result result', leaf.hooks.checkInherent data x result = some result' →
      result'.okay = true → result' = result)
    (inherent : ∀ x ∈ inherents, checker.isInherent x.checker = true)
    (checked : checker.checkInherents data inherents .new = some result) (okay : result.okay = true) :
    ∀ leaf ∈ tree.inherentLeaves, ∃ x, inherents.filter leaf.owns = [x] := by
  intro leaf member
  rw [tree.checkInherents_eq data inherent rfl] at checked
  obtain ⟨_, own⟩ := (foldlM_checkLeaf_okay rfl reports checked okay).2 leaf member
  exact InherentLeaf.filter_owns_of_own own

/-- The checks of the leaves can only panic in a hook. -/
theorem foldlM_checkLeaf_none {data : InherentData} {inherents : List (Transaction V C)}
    {result : CheckInherentsResult} {leaves : List (InherentLeaf V C)}
    (panics : leaves.foldlM (checkLeaf data inherents) result = none) :
    ∃ leaf ∈ leaves, ∃ x ∈ leaf.own inherents, ∃ result', result'.fatalError = false ∧
      leaf.hooks.checkInherent data x result' = none := by
  induction leaves generalizing result with
  | nil => cases panics
  | cons leaf leaves ih =>
    rw [List.foldlM_cons] at panics
    cases round : checkLeaf data inherents result leaf with
    | some result' =>
      rw [round] at panics
      obtain ⟨leaf', member, found⟩ := ih panics
      exact ⟨leaf', List.mem_cons_of_mem leaf member, found⟩
    | none =>
      unfold checkLeaf at round
      split at round
      · cases round
      · rename_i fresh
        replace fresh : result.fatalError = false := by simpa using fresh
        by_cases one : (leaf.own inherents).length = 1
        · obtain ⟨x, own⟩ := List.length_eq_one_iff.mp one
          rw [checkInherents_one own] at round
          exact ⟨leaf, List.mem_cons_self, x, by rw [own]; exact List.mem_cons_self, result, fresh, round⟩
        · obtain ⟨_, ended, _⟩ := checkInherents_not_one one fresh data
          rw [ended] at round
          cases round

/-! ### Leaves are apart -/

theorem mem_gather {variants : List (Variant V C)}
    {leaves : (i : Fin variants.length) → List (InherentLeaf V (variants.get i).Inner)} {leaf : InherentLeaf V C}
    (inside : leaf ∈ gather variants leaves) : ∃ i, ∃ inner ∈ leaves i, leaf = inner.lift (variants.get i) := by
  induction variants with
  | nil => cases inside
  | cons v variants ih =>
    rw [gather, List.mem_append] at inside
    rcases inside with first | later
    · obtain ⟨inner, present, rfl⟩ := List.mem_map.mp first
      exact ⟨⟨0, Nat.zero_lt_succ _⟩, inner, present, rfl⟩
    · obtain ⟨i, found⟩ := ih later
      exact ⟨i.succ, found⟩

/-- A leaf unwraps what it wraps. -/
theorem unwrap_wrap {checker : ConstraintChecker V C} (tree : Tree V C checker) :
    ∀ leaf ∈ tree.inherentLeaves, ∀ inner, leaf.unwrap (leaf.wrap inner) = some inner := by
  induction tree with
  | simple C => simp [inherentLeaves]
  | inherent C => simp [inherentLeaves]
  | aggregate variants aggregates subtree ih =>
    intro leaf inside inner
    obtain ⟨i, below, present, rfl⟩ := mem_gather inside
    have outer := (aggregates.isEnum.unwrap_eq_some _ (List.get_mem variants i) _ (below.wrap inner)).mpr rfl
    change ((variants.get i).unwrap ((variants.get i).wrap (below.wrap inner))).bind below.unwrap = some inner
    rw [outer]
    exact ih i below present inner

/-- No checker belongs to two of the leaves. -/
def Apart (leaf leaf' : InherentLeaf V C) : Prop := ∀ c, leaf.unwrap c ≠ none → leaf'.unwrap c = none

theorem apart_gather {variants : List (Variant V C)}
    {leaves : (i : Fin variants.length) → List (InherentLeaf V (variants.get i).Inner)}
    (matched : ∀ v ∈ variants, ∀ c, v.isVariant c = (v.unwrap c).isSome)
    (apart : ∀ c, variants.Pairwise fun v w => v.isVariant c = true → w.isVariant c = false)
    (each : ∀ i, (leaves i).Pairwise Apart) :
    (gather variants leaves).Pairwise Apart := by
  induction variants with
  | nil => exact List.Pairwise.nil
  | cons v variants ih =>
    rw [gather, List.pairwise_append]
    refine ⟨?_, ih (fun w member => matched w (List.mem_cons_of_mem v member))
      (fun c => (List.pairwise_cons.mp (apart c)).2) fun i => each i.succ, ?_⟩
    · refine List.pairwise_map.mpr ((each ⟨0, Nat.zero_lt_succ _⟩).imp ?_)
      intro leaf leaf' leavesApart c found
      cases unwraps : v.unwrap c with
      | none => simp [InherentLeaf.lift, unwraps] at found
      | some inner =>
        simp only [InherentLeaf.lift, unwraps, Option.bind_some] at found ⊢
        exact leavesApart inner found
    · intro leaf inFirst leaf' inOthers c found
      obtain ⟨below, _, rfl⟩ := List.mem_map.mp inFirst
      obtain ⟨i, below', _, rfl⟩ := mem_gather inOthers
      have member := List.get_mem variants i
      have mine : v.isVariant c = true := by
        rw [matched v List.mem_cons_self]
        cases unwraps : v.unwrap c with
        | none => simp [InherentLeaf.lift, unwraps] at found
        | some inner => rfl
      have notTheirs := (List.pairwise_cons.mp (apart c)).1 _ member mine
      rw [matched _ (List.mem_cons_of_mem v member), Option.isSome_eq_false_iff, Option.isNone_iff_eq_none] at notTheirs
      change ((variants.get i).unwrap c).bind below'.unwrap = none
      rw [notTheirs]
      rfl

theorem inherentLeaves_apart {checker : ConstraintChecker V C} (tree : Tree V C checker) :
    tree.inherentLeaves.Pairwise Apart := by
  induction tree with
  | simple C => exact List.Pairwise.nil
  | inherent C => exact List.pairwise_singleton Apart _
  | aggregate variants aggregates subtree ih =>
    exact apart_gather aggregates.isEnum.matched aggregates.isEnum.apart ih

end Tree

/-! ### One inherent for each leaf -/

/-- A transaction of a leaf, with the hash that it had in the block. -/
structure OwnInherent (V C : Type) where
  leaf : InherentLeaf V C
  transaction : Transaction V leaf.Inner
  hash : H256

namespace OwnInherent

/-- As it stands among the previous inherents. -/
def rewrapped (own : OwnInherent V C) : Transaction V C × H256 :=
  (own.transaction.transform own.leaf.wrap, own.hash)

/-- What the leaf makes of it, rewrapped to the root type. -/
def createInherent (own : OwnInherent V C) (s : Storage) (data : InherentData) : Option (Transaction V C) :=
  (own.leaf.hooks.createInherent s data (own.transaction, own.hash)).map (Transaction.transform own.leaf.wrap)

theorem ownHashed_rewrapped {owned : List (OwnInherent V C)}
    (wraps : ∀ own ∈ owned, ∀ inner, own.leaf.unwrap (own.leaf.wrap inner) = some inner)
    (apart : owned.Pairwise fun own own' => Tree.Apart own.leaf own'.leaf) :
    ∀ own ∈ owned, own.leaf.ownHashed (owned.map rewrapped) = [(own.transaction, own.hash)] := by
  induction owned with
  | nil => simp
  | cons x owned ih =>
    obtain ⟨xWraps, wraps⟩ := List.forall_mem_cons.mp wraps
    obtain ⟨xApart, apart⟩ := List.pairwise_cons.mp apart
    have mine : x.rewrapped.1.transform? x.leaf.unwrap = some x.transaction := by
      simp [rewrapped, Transaction.transform, Transaction.transform?, xWraps]
    refine List.forall_mem_cons.mpr ⟨?_, fun own member => ?_⟩
    · have others : x.leaf.ownHashed (owned.map rewrapped) = [] := by
        refine List.filterMap_eq_nil_iff.mpr fun p inside => ?_
        obtain ⟨y, member, rfl⟩ := List.mem_map.mp inside
        have none : x.leaf.unwrap (y.leaf.wrap y.transaction.checker) = none := by
          by_contra found
          have clash := xApart y member _ found
          rw [wraps y member] at clash
          cases clash
        simp [rewrapped, Transaction.transform, Transaction.transform?, none]
      change List.filterMap _ (x.rewrapped :: _) = _
      rw [List.filterMap_cons_some (by rw [mine]; rfl)]
      exact congrArg _ others
    · have none : x.rewrapped.1.transform? own.leaf.unwrap = none := by
        have notTheirs := xApart own member (x.leaf.wrap x.transaction.checker) (by simp [xWraps])
        simp [rewrapped, Transaction.transform, Transaction.transform?, notTheirs]
      change List.filterMap _ (x.rewrapped :: _) = _
      rw [List.filterMap_cons_none (by rw [none]; rfl)]
      exact ih wraps apart own member

end OwnInherent

/-- With one inherent for each leaf, in any order, every leaf turns its own into the next one. -/
theorem Tree.createInherents_owned {checker : ConstraintChecker V C} (tree : Tree V C checker) (s : Storage)
    (data : InherentData) {owned : List (OwnInherent V C)} {previous : List (Transaction V C × H256)}
    (leaves : (owned.map fun own => own.leaf) = tree.inherentLeaves)
    (same : previous.Perm (owned.map OwnInherent.rewrapped)) :
    checker.createInherents s data previous = owned.mapM fun own => own.createInherent s data := by
  have member : ∀ own ∈ owned, own.leaf ∈ tree.inherentLeaves := by
    intro own inside
    rw [← leaves]
    exact List.mem_map_of_mem inside
  have apart : owned.Pairwise fun own own' => Tree.Apart own.leaf own'.leaf := by
    have apart := tree.inherentLeaves_apart
    rw [← leaves] at apart
    exact List.pairwise_map.mp apart
  rw [tree.createInherents_eq, ← leaves, List.mapM_map]
  refine List.mapM_congr_mem fun own inside => ?_
  have found : own.leaf.ownHashed previous = [(own.transaction, own.hash)] := by
    have listed := OwnInherent.ownHashed_rewrapped (fun own inside => tree.unwrap_wrap _ (member own inside)) apart
      own inside
    have permuted := List.Perm.filterMap (fun p : Transaction V C × H256 =>
      (p.1.transform? own.leaf.unwrap).map fun tx => (tx, p.2)) same
    exact List.perm_singleton.mp (permuted.trans (List.Perm.of_eq listed))
  change InherentLeaf.createInherent own.leaf s data previous = _
  unfold InherentLeaf.createInherent
  rw [found]
  rfl

end
end Tuxedo
