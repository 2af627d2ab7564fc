import Tuxedo.Core.VerifierTree
import Tuxedo.Executive.Inputs
import Tuxedo.Runtime.Template

/-!
# The verifiers of the template runtime

Redeemers are bytes of the submitter. They decode to any variant of the combined redeemer,
whatever verifier guards the output.
-/

namespace Tuxedo.Template
open Scale Executive TransparentUtxoSet

namespace OuterVerifier
variable [Host]

def variants : List (VerifierVariant OuterVerifier OuterVerifierRedeemer) :=
  [{ Inner := Sr25519Signature
     verifier := inferInstance
     unwrap := fun | .sr25519Signature inner => some inner | _ => none
     asVariant := fun | .sr25519Signature inner => some inner | _ => none },
   { Inner := UpForGrabs
     verifier := inferInstance
     unwrap := fun | .upForGrabs inner => some inner | _ => none
     asVariant := fun | .upForGrabs inner => some inner | _ => none },
   { Inner := ThresholdMultiSignature
     verifier := inferInstance
     unwrap := fun | .thresholdMultiSignature inner => some inner | _ => none
     asVariant := fun | .thresholdMultiSignature inner => some inner | _ => none }]

def number : OuterVerifier → Fin 3
  | .sr25519Signature _ => 0
  | .upForGrabs _ => 1
  | .thresholdMultiSignature _ => 2

theorem unwrap_isSome (outer : OuterVerifier) (i : Fin 3) :
    ((variants.get i).unwrap outer).isSome ↔ i = outer.number := by
  match i with
  | 0 | 1 | 2 => cases outer <;> simp [variants, number]

end OuterVerifier

def OuterVerifierRedeemer.number : OuterVerifierRedeemer → Fin 3
  | .sr25519Signature _ => 0
  | .upForGrabs _ => 1
  | .thresholdMultiSignature _ => 2

namespace OuterVerifier
variable [Host]

theorem asVariant_isSome (redeemer : OuterVerifierRedeemer) (i : Fin 3) :
    ((variants.get i).asVariant redeemer).isSome ↔ i = redeemer.number := by
  match i with
  | 0 | 1 | 2 => cases redeemer <;> simp [variants, OuterVerifierRedeemer.number] <;> rfl

theorem aggregates : AggregatesVerifiers (V := OuterVerifier) inferInstance variants where
  isEnum := {
    covers := fun outer => ⟨outer.number, (unwrap_isSome outer _).mpr rfl⟩
    apart := fun outer i j first second =>
      ((unwrap_isSome outer i).mp first).trans ((unwrap_isSome outer j).mp second).symm
    redeemerCovers := fun redeemer => ⟨redeemer.number, (asVariant_isSome redeemer _).mpr rfl⟩
    redeemerApart := fun redeemer i j first second =>
      ((asVariant_isSome redeemer i).mp first).trans ((asVariant_isSome redeemer j).mp second).symm }
  verify := by
    funext outer simplifiedTx blockNumber redeemer
    cases outer <;> cases redeemer <;> rfl

def tree : VerifierTree OuterVerifier inferInstance :=
  .aggregate variants aggregates fun i => .leaf _ (variants.get i).verifier

/-- The redeemer goes down to a leaf when it is of the verifier's variant. -/
theorem routed_iff {outer : OuterVerifier} {redeemer : OuterVerifierRedeemer} :
    (∃ answer, Routed tree outer redeemer answer) ↔ redeemer.number = outer.number := by
  constructor
  · rintro ⟨answer, routed⟩
    cases routed with
    | variant i unwraps matched _ =>
      have verifier := (unwrap_isSome outer i).mp (Option.isSome_of_eq_some unwraps)
      exact ((asVariant_isSome redeemer i).mp (Option.isSome_of_eq_some matched)).symm.trans verifier
  · intro same
    obtain ⟨inner, unwraps⟩ := Option.isSome_iff_exists.mp ((unwrap_isSome outer outer.number).mpr rfl)
    have ofVariant := (asVariant_isSome redeemer outer.number).mpr same.symm
    obtain ⟨innerRedeemer, matched⟩ := Option.isSome_iff_exists.mp ofVariant
    exact ⟨_, @Routed.variant _ _ variants aggregates _ outer redeemer outer.number _ _ _ unwraps matched .leaf⟩

/-- A signature or nobody guards the output. -/
def Simple : OuterVerifier → Prop
  | .sr25519Signature _ => True
  | .upForGrabs _ => True
  | .thresholdMultiSignature _ => False

theorem verify_simple_eq_none_iff {outer : OuterVerifier} (simple : outer.Simple) (simplifiedTx : Bytes)
    (blockNumber : BlockNumber) (redeemer : OuterVerifierRedeemer) :
    Verifier.verify outer simplifiedTx blockNumber redeemer = none ↔ redeemer.number ≠ outer.number := by
  cases outer with
  | thresholdMultiSignature inner => cases simple
  | _ => cases redeemer <;> simp [Verifier.verify, number, OuterVerifierRedeemer.number]

end OuterVerifier

/-! ### Redeemers of the submitter -/

section
variable [Host] {s : Storage} {input : Input} {output : Output} {redeemer : Vec UInt8} {height : BlockNumber}

/-- Validation comes to the input `input`: those before it are authorised. -/
structure ComesTo (t : Transaction) (s : Storage) (input : Input) : Prop where
  unique : t.inputs.toList.Nodup
  split : ∃ before later, t.inputs.toList = before ++ input :: later ∧
    ∀ i ∈ before, ∀ output, peekUtxo OuterVerifier s i.outputRef = some output →
      Authorised OuterVerifier s (encode t.stripped) i.redeemer output

theorem collectInput_panics_iff {E : Type} (found : peekUtxo OuterVerifier s input.outputRef = some output)
    (redeems : input.redeemer = .redemption redeemer) (simple : output.verifier.Simple)
    (stored : blockHeight s = some height) (strippedEncoded : Bytes) (acc : Collected) :
    collectInput (E := E) OuterVerifier s strippedEncoded acc input = .error .panic ↔
      ∃ (value : OuterVerifierRedeemer) (rest : Bytes), decode redeemer.toList = some (value, rest) ∧
        value.number ≠ output.verifier.number := by
  unfold collectInput
  rw [found]
  dsimp only
  rw [redeems]
  dsimp only
  change (okOr (decode (α := OuterVerifierRedeemer) redeemer.toList) _ >>= _) = _ ↔ _
  cases read : decode (α := OuterVerifierRedeemer) redeemer.toList with
  | none => simp [okOr, bind, Except.bind]
  | some p =>
    obtain ⟨value, rest⟩ := p
    have mismatch := OuterVerifier.verify_simple_eq_none_iff simple strippedEncoded height value
    simp only [okOr, stored, expect, bind, Except.bind]
    cases answer : Verifier.verify output.verifier strippedEncoded height value with
    | none => simpa using mismatch.mp answer
    | some verified =>
      rw [answer] at mismatch
      have matched : value.number = output.verifier.number := by simpa using mismatch
      cases verified <;> simp [ensure, pure, Except.pure, matched]

theorem ComesTo.validate_panics {t : Transaction} (comes : ComesTo t s input)
    (panics : ∀ acc, collectInput (E := ConstraintChecker.Error OuterVerifier OuterConstraintChecker) OuterVerifier s
      (encode t.stripped) acc input = .error .panic) :
    validateTuxedoTransaction t s = .error .panic s := by
  obtain ⟨before, later, split, authorised⟩ := comes.split
  have first : before.foldlM (collectInput (E := ConstraintChecker.Error OuterVerifier OuterConstraintChecker)
      OuterVerifier s (encode t.stripped)) {} = .ok _ := (collectInputs_ok OuterVerifier).mpr ⟨authorised, rfl⟩
  have stopped : prepare (E := ConstraintChecker.Error OuterVerifier OuterConstraintChecker) t s = .error .panic := by
    unfold prepare
    rw [Outcome.ensure_of _ ((no_duplicates_iff _).mpr comes.unique), split, List.foldlM_append, first]
    simp only [bind, Except.bind, List.foldlM_cons, panics]
  refine Exec.bind_of_error ?_
  unfold Exec.read
  rw [stopped]

/-- A tree of verifiers answers exactly on the redeemers that go down to a leaf which answers, and
validation of an output of a signature or of nobody panics on the redeemers of other variants. -/
theorem aggregate_verifiers_total_iff :
    (∀ (V : Type) (verifier : Verifier V) (tree : VerifierTree V verifier) (outer : V) (simplifiedTx : Bytes)
      (blockNumber : BlockNumber) (redeemer : verifier.Redeemer),
      (∃ verified, verifier.verify outer simplifiedTx blockNumber redeemer = some verified ∧
        (∀ answer, Routed tree outer redeemer answer → answer simplifiedTx blockNumber = some verified) ∧
        ((¬∃ answer, Routed tree outer redeemer answer) → verified = false)) ↔
      ∃ answer, Routed tree outer redeemer answer ∧ answer simplifiedTx blockNumber ≠ none) ∧
    ∀ (t : Transaction) (s : Storage) (input : Input) (output : Output) (redeemer : Vec UInt8) (height : BlockNumber),
      ComesTo t s input → peekUtxo OuterVerifier s input.outputRef = some output →
      input.redeemer = .redemption redeemer → output.verifier.Simple → blockHeight s = some height →
      ((∀ acc, collectInput (E := ConstraintChecker.Error OuterVerifier OuterConstraintChecker) OuterVerifier s
          (encode t.stripped) acc input ≠ .error .panic) ↔
        ∀ (value : OuterVerifierRedeemer) (rest : Bytes), decode redeemer.toList = some (value, rest) →
          ∃ answer, Routed OuterVerifier.tree output.verifier value answer) ∧
      ∀ (value : OuterVerifierRedeemer) (rest : Bytes), decode redeemer.toList = some (value, rest) →
        (¬∃ answer, Routed OuterVerifier.tree output.verifier value answer) →
        validateTuxedoTransaction t s = .error .panic s := by
  refine ⟨fun V verifier tree => tree.verify_answers_iff, ?_⟩
  intro t s input output redeemer height comes found redeems simple stored
  simp only [OuterVerifier.routed_iff]
  constructor
  · constructor
    · intro total value rest read
      by_contra mismatch
      exact total {} ((collectInput_panics_iff found redeems simple stored _ _).mpr ⟨value, rest, read, mismatch⟩)
    · intro matched acc panics
      obtain ⟨value, rest, read, mismatch⟩ := (collectInput_panics_iff found redeems simple stored _ _).mp panics
      exact mismatch (matched value rest read)
  · intro value rest read mismatch
    refine comes.validate_panics fun acc => ?_
    exact (collectInput_panics_iff found redeems simple stored _ _).mpr ⟨value, rest, read, mismatch⟩

end

/-! The redeemer `[1]` is the one of an output of nobody. -/

def guardedRef : OutputRef := ⟨FixedBytes.zero 32, 0⟩

def guarded (verifier : OuterVerifier) : Output := ⟨⟨Vec.empty, UtxoData.typeId (Money.Coin 0)⟩, verifier⟩

def guardedBy (verifier : OuterVerifier) : Storage :=
  (Store.empty.set heightKey (encode (1 : UInt32))).set (encode guardedRef) (encode (guarded verifier))

def redeemByNobody : Input := ⟨guardedRef, .redemption (Vec.singleton 1)⟩

def takeGuarded : Transaction := ⟨Vec.singleton redeemByNobody, Vec.empty, Vec.empty, .money .spend⟩

theorem comesTo_takeGuarded [Host] (s : Storage) : ComesTo takeGuarded s redeemByNobody :=
  ⟨List.nodup_singleton _, [], [], rfl, by simp⟩

theorem aggregate_verifiers_total_nobody :
    letI := Host.unsigned
    ∀ acc, collectInput (E := ConstraintChecker.Error OuterVerifier OuterConstraintChecker) OuterVerifier
      (guardedBy (.upForGrabs ⟨⟩)) (encode takeGuarded.stripped) acc redeemByNobody ≠ .error .panic := by
  let := Host.unsigned
  refine (aggregate_verifiers_total_iff.2 takeGuarded _ redeemByNobody (guarded (.upForGrabs ⟨⟩)) _ 1
    (comesTo_takeGuarded _) rfl rfl trivial rfl).1.mpr fun value rest read => ?_
  obtain ⟨rfl, -⟩ := Prod.mk.inj (Option.some.inj read)
  exact OuterVerifier.routed_iff.mpr rfl

theorem aggregate_verifier_panics :
    letI := Host.unsigned
    Verifier.verify (.sr25519Signature ⟨FixedBytes.zero 32⟩ : OuterVerifier) [] 1
        (OuterVerifierRedeemer.upForGrabs ()) = none ∧
      validateTuxedoTransaction takeGuarded (guardedBy (.sr25519Signature ⟨FixedBytes.zero 32⟩)) =
        .error .panic (guardedBy (.sr25519Signature ⟨FixedBytes.zero 32⟩)) := by
  let := Host.unsigned
  refine ⟨rfl, (comesTo_takeGuarded _).validate_panics fun acc => ?_⟩
  have found : peekUtxo OuterVerifier (guardedBy (.sr25519Signature ⟨FixedBytes.zero 32⟩)) redeemByNobody.outputRef =
    some (guarded (.sr25519Signature ⟨FixedBytes.zero 32⟩)) := rfl
  exact (collectInput_panics_iff found rfl trivial rfl _ _).mpr ⟨.upForGrabs (), [], rfl, by decide⟩

end Tuxedo.Template
