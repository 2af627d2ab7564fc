import Tuxedo.Core.Executive

/-!
# What an accepted transaction has passed

One lemma for each step of validation, in both directions. `Accepted` says everything that an
application of a transaction checks and does.
-/

namespace Tuxedo.Executive
open Scale TransparentUtxoSet

section
variable (V : Type) [Verifier V]

/-- The verifier answers true on the decoded redeemer, at the stored height. -/
def Accepts (s : Storage) (strippedEncoded : Bytes) (verifier : V) (redeemer : Vec UInt8) : Prop :=
  ∃ value rest height, decode (α := Verifier.Redeemer V) redeemer.toList = some (value, rest) ∧
    blockHeight s = some height ∧ Verifier.verify verifier strippedEncoded height value = some true

/-- An eviction asks no verifier. -/
def Authorised (s : Storage) (strippedEncoded : Bytes) (strategy : RedemptionStrategy) (output : Output V) : Prop :=
  match strategy with
  | .redemption redeemer => Accepts V s strippedEncoded output.verifier redeemer
  | .eviction => True

def payloadAt (s : Storage) (r : OutputRef) : Option DynamicallyTypedData :=
  (peekUtxo V s r).map fun output => output.payload

def redeemedRefs (inputs : List Input) : List OutputRef :=
  inputs.filterMap fun input =>
    match input.redeemer with
    | .redemption _ => some input.outputRef
    | .eviction => none

def evictedRefs (inputs : List Input) : List OutputRef :=
  inputs.filterMap fun input =>
    match input.redeemer with
    | .redemption _ => none
    | .eviction => some input.outputRef

/-- Each input is redeemed or evicted. -/
theorem split_refs_perm (inputs : List Input) :
    (redeemedRefs inputs ++ evictedRefs inputs).Perm (inputs.map fun input => input.outputRef) := by
  induction inputs with
  | nil => exact List.Perm.nil
  | cons input inputs ih =>
    cases strategy : input.redeemer with
    | redemption redeemer =>
      have redeemed : redeemedRefs (input :: inputs) = input.outputRef :: redeemedRefs inputs := by
        simp [redeemedRefs, strategy]
      have evicted : evictedRefs (input :: inputs) = evictedRefs inputs := by simp [evictedRefs, strategy]
      rw [redeemed, evicted]
      exact ih.cons _
    | eviction =>
      have redeemed : redeemedRefs (input :: inputs) = redeemedRefs inputs := by simp [redeemedRefs, strategy]
      have evicted : evictedRefs (input :: inputs) = input.outputRef :: evictedRefs inputs := by
        simp [evictedRefs, strategy]
      rw [redeemed, evicted]
      exact List.perm_middle.trans (ih.cons _)

def missingRefs (s : Storage) (refs : List OutputRef) : List Bytes :=
  (refs.filter fun r => (peekUtxo V s r).isNone).map encode

/-! ### The loops -/

/-- What the loop over the inputs collects when no verifier stops it. -/
def gathered (s : Storage) (inputs : List Input) : Collected where
  inputData := (redeemedRefs inputs).filterMap (payloadAt V s)
  evictedInputData := (evictedRefs inputs).filterMap (payloadAt V s)
  missingInputs := missingRefs V s (inputs.map fun input => input.outputRef)

def Collected.append (a b : Collected) : Collected :=
  ⟨a.inputData ++ b.inputData, a.evictedInputData ++ b.evictedInputData, a.missingInputs ++ b.missingInputs⟩

theorem gathered_cons (s : Storage) (input : Input) (inputs : List Input) :
    gathered V s (input :: inputs) = (gathered V s [input]).append (gathered V s inputs) := by
  have split : ∀ f : Input → Option OutputRef,
      (input :: inputs).filterMap f = [input].filterMap f ++ inputs.filterMap f := by
    intro f
    rw [← List.filterMap_append, List.singleton_append]
  simp only [gathered, Collected.append, redeemedRefs, evictedRefs, split, List.filterMap_append, Collected.mk.injEq,
    true_and]
  simp only [missingRefs, ← List.map_append, ← List.filter_append, List.singleton_append, List.map_cons, List.map_nil]

theorem accepts_iff {E : Type} {s : Storage} {strippedEncoded : Bytes} {verifier : V} {redeemer : Vec UInt8}
    {acc next : Collected} :
    (do
      let redeemer ← okOr (decode (α := Verifier.Redeemer V) redeemer.toList) .verifierError
      let height ← expect (blockHeight s)
      let verified ← expect (Verifier.verify verifier strippedEncoded height redeemer.1)
      ensure (verified = true) .verifierError
      return acc : Outcome (UtxoError E) Collected) = .ok next ↔
      Accepts V s strippedEncoded verifier redeemer ∧ next = acc := by
  constructor
  · intro h
    obtain ⟨decoded, read, h⟩ := Outcome.bind_ok h
    obtain ⟨height, stored, h⟩ := Outcome.bind_ok h
    obtain ⟨verified, answer, h⟩ := Outcome.bind_ok h
    obtain ⟨_, agreed, h⟩ := Outcome.bind_ok h
    have agreed := Outcome.ensure_ok agreed
    subst agreed
    exact ⟨⟨decoded.1, decoded.2, height, Outcome.okOr_ok read, Outcome.expect_ok stored,
      Outcome.expect_ok answer⟩, Outcome.pure_ok h⟩
  · rintro ⟨⟨value, rest, height, read, stored, answer⟩, rfl⟩
    simp [read, stored, answer, okOr, expect, ensure, bind, Except.bind, pure, Except.pure]

theorem collectInput_ok {E : Type} {s : Storage} {strippedEncoded : Bytes} {acc next : Collected} {input : Input} :
    collectInput (E := E) V s strippedEncoded acc input = .ok next ↔
      (∀ output, peekUtxo V s input.outputRef = some output →
        Authorised V s strippedEncoded input.redeemer output) ∧
      next = acc.append (gathered V s [input]) := by
  unfold collectInput
  cases found : peekUtxo V s input.outputRef with
  | none =>
    cases strategy : input.redeemer <;>
      simp [pure, Except.pure, gathered, Collected.append, redeemedRefs, evictedRefs, missingRefs, payloadAt,
        found, strategy, eq_comm]
  | some output =>
    cases strategy : input.redeemer with
    | redemption redeemer =>
      simp only [accepts_iff]
      simp [Authorised, gathered, Collected.append, redeemedRefs, evictedRefs, missingRefs, payloadAt, found, strategy]
    | eviction =>
      simp [pure, Except.pure, Authorised, gathered, Collected.append, redeemedRefs, evictedRefs, missingRefs,
        payloadAt, found, strategy, eq_comm]

theorem collectInputs_ok {E : Type} {s : Storage} {strippedEncoded : Bytes} {inputs : List Input}
    {acc next : Collected} :
    inputs.foldlM (collectInput (E := E) V s strippedEncoded) acc = .ok next ↔
      (∀ input ∈ inputs, ∀ output, peekUtxo V s input.outputRef = some output →
        Authorised V s strippedEncoded input.redeemer output) ∧
      next = acc.append (gathered V s inputs) := by
  induction inputs generalizing acc with
  | nil => simp [pure, Except.pure, gathered, Collected.append, redeemedRefs, evictedRefs, missingRefs, eq_comm]
  | cons input inputs ih =>
    rw [List.foldlM_cons, gathered_cons]
    have assoc : acc.append ((gathered V s [input]).append (gathered V s inputs)) =
        (acc.append (gathered V s [input])).append (gathered V s inputs) := by
      simp [Collected.append]
    rw [assoc, List.forall_mem_cons]
    constructor
    · intro h
      obtain ⟨middle, first, later⟩ := Outcome.bind_ok h
      obtain ⟨authorised, rfl⟩ := (collectInput_ok V).mp first
      obtain ⟨rest, rfl⟩ := ih.mp later
      exact ⟨⟨authorised, rest⟩, rfl⟩
    · rintro ⟨⟨authorised, rest⟩, rfl⟩
      have first : collectInput (E := E) V s strippedEncoded acc input = .ok (acc.append (gathered V s [input])) :=
        (collectInput_ok V).mpr ⟨authorised, rfl⟩
      rw [first]
      exact ih.mpr ⟨rest, rfl⟩

theorem collectPeeks_eq (s : Storage) (refs : List OutputRef) (acc : List DynamicallyTypedData × List Bytes) :
    refs.foldl (collectPeek V s) acc =
      (acc.1 ++ refs.filterMap (payloadAt V s), acc.2 ++ missingRefs V s refs) := by
  induction refs generalizing acc with
  | nil => simp [missingRefs]
  | cons r refs ih =>
    rw [List.foldl_cons, ih]
    cases found : peekUtxo V s r <;> simp [collectPeek, missingRefs, payloadAt, found]

theorem missingRefs_eq_nil {s : Storage} {refs : List OutputRef} :
    missingRefs V s refs = [] ↔ ∀ r ∈ refs, ∃ output, peekUtxo V s r = some output := by
  simp [missingRefs, List.filter_eq_nil_iff, Option.ne_none_iff_exists']

end

/-! ### The whole of validation -/

theorem no_duplicates_iff (inputs : List Input) :
    (inputs.map encode).dedup.length = inputs.length ↔ inputs.Nodup := by
  rw [← List.length_map (f := (encode : Input → Bytes)),
    (List.dedup_sublist (inputs.map encode)).length_eq, List.dedup_eq_self]
  exact List.nodup_map_iff encode_injective

section
variable {V C : Type}

def inputRefs (t : Transaction V C) : List OutputRef := t.inputs.toList.map fun input => input.outputRef

theorem redeemed_mem_inputRefs {t : Transaction V C} : ∀ r ∈ redeemedRefs t.inputs.toList, r ∈ inputRefs t :=
  fun _ member => (split_refs_perm t.inputs.toList).subset (List.mem_append_left _ member)

theorem evicted_mem_inputRefs {t : Transaction V C} : ∀ r ∈ evictedRefs t.inputs.toList, r ∈ inputRefs t :=
  fun _ member => (split_refs_perm t.inputs.toList).subset (List.mem_append_right _ member)

theorem inputRefs_of_redeemed {t : Transaction V C} (noEvictions : evictedRefs t.inputs.toList = []) :
    inputRefs t = redeemedRefs t.inputs.toList := by
  have each : ∀ input ∈ t.inputs.toList, (match input.redeemer with
      | .redemption _ => some input.outputRef
      | .eviction => none) = some input.outputRef := by
    intro input member
    have unevicted := List.filterMap_eq_nil_iff.mp noEvictions input member
    split at unevicted
    · rfl
    · cases unevicted
  rw [redeemedRefs, List.filterMap_congr each, List.filterMap_eq_map']
  rfl

/-- The entries that the outputs add to the storage. -/
def outputEntries [Codec V] (t : Transaction V C) (txHash : H256) : List (Bytes × Bytes) :=
  t.outputs.toList.zipIdx.map fun output =>
    (encode (⟨txHash, UInt32.ofNat output.2⟩ : OutputRef), encode output.1)

variable [Host] [Verifier V] [Codec C]

/-- What validation asks of a transaction before it calls the constraint checker. -/
structure Prechecked (t : Transaction V C) (txHash : H256) (s : Storage) : Prop where
  unique : t.inputs.toList.Nodup
  authorised : ∀ input ∈ t.inputs.toList, ∀ output, peekUtxo V s input.outputRef = some output →
    Authorised V s (encode t.stripped) input.redeemer output
  hash : t.id? = some txHash
  fresh : ∀ r ∈ t.outputRefs txHash, peekUtxo V s r = none

def preparedFor (t : Transaction V C) (txHash : H256) (s : Storage) : Prepared where
  inputData := (redeemedRefs t.inputs.toList).filterMap (payloadAt V s)
  evictedInputData := (evictedRefs t.inputs.toList).filterMap (payloadAt V s)
  peekData := t.peeks.toList.filterMap (payloadAt V s)
  missingInputs := missingRefs V s (inputRefs t) ++ missingRefs V s t.peeks.toList
  provides := (t.outputRefs txHash).map encode

theorem prepare_ok {E : Type} {t : Transaction V C} {s : Storage} {prepared : Prepared} :
    prepare (E := E) t s = .ok prepared ↔ ∃ txHash, Prechecked t txHash s ∧ prepared = preparedFor t txHash s := by
  constructor
  · intro h
    obtain ⟨_, unique, h⟩ := Outcome.bind_ok h
    obtain ⟨collected, loop, h⟩ := Outcome.bind_ok h
    obtain ⟨txHash, hash, h⟩ := Outcome.bind_ok h
    obtain ⟨_, fresh, h⟩ := Outcome.bind_ok h
    obtain ⟨authorised, rfl⟩ := (collectInputs_ok V).mp loop
    refine ⟨txHash, ⟨(no_duplicates_iff _).mp (Outcome.ensure_ok unique), authorised, Outcome.expect_ok hash, ?_⟩, ?_⟩
    · intro r member
      simpa using Outcome.ensure_ok fresh r member
    · rw [Outcome.pure_ok h, collectPeeks_eq]
      simp [preparedFor, gathered, Collected.append, inputRefs]
  · rintro ⟨txHash, ⟨unique, authorised, hash, fresh⟩, rfl⟩
    have loop : t.inputs.toList.foldlM (collectInput (E := E) V s (encode t.stripped)) {} =
        .ok (Collected.append {} (gathered V s t.inputs.toList)) := (collectInputs_ok V).mpr ⟨authorised, rfl⟩
    have absent : ∀ r ∈ t.outputRefs txHash, (peekUtxo V s r).isNone = true := by
      intro r member
      simp [fresh r member]
    unfold prepare
    rw [Outcome.ensure_of _ ((no_duplicates_iff _).mpr unique), loop, hash]
    simp only [bind, Except.bind, expect, Outcome.ensure_of _ absent, collectPeeks_eq]
    simp [pure, Except.pure, preparedFor, gathered, Collected.append, inputRefs]

/-- With the hash at hand, the update clears the inputs and then sets the outputs. -/
theorem updateStorage_eq {t : Transaction V C} {txHash : H256} (hash : t.id? = some txHash) (s : Storage) :
    updateStorage t s = some ((s.clearAll ((inputRefs t).map encode)).setAll (outputEntries t txHash)) := by
  have cleared : ∀ (inputs : List Input) (s : Storage),
      inputs.foldl (fun s input => (consumeUtxo V s input.outputRef).2) s =
        s.clearAll (inputs.map fun input => encode input.outputRef) := by
    intro inputs
    induction inputs with
    | nil => intro s; rfl
    | cons input inputs ih => intro s; exact ih _
  have stored : ∀ (outputs : List (Output V × Nat)) (s : Storage),
      outputs.foldlM (fun s output => do
        let txHash ← t.id?
        return storeUtxo s ⟨txHash, UInt32.ofNat output.2⟩ output.1) s =
      some (s.setAll (outputs.map fun output =>
        (encode (⟨txHash, UInt32.ofNat output.2⟩ : OutputRef), encode output.1))) := by
    intro outputs
    induction outputs with
    | nil => intro s; rfl
    | cons output outputs ih =>
      intro s
      rw [List.foldlM_cons, hash]
      simp only [hash] at ih
      exact ih _
  unfold updateStorage
  rw [stored, cleared]
  simp [outputEntries, inputRefs, Function.comp_def]

variable [ConstraintChecker V C]

/-- Everything that an application checks and does. `checked` is the storage after the
constraint checker, which may have written to it. -/
structure Accepted (t : Transaction V C) (txHash : H256) (s checked s' : Storage) : Prop
    extends Prechecked t txHash s where
  inputsPresent : ∀ r ∈ inputRefs t, ∃ output, peekUtxo V s r = some output
  peeksPresent : ∀ r ∈ t.peeks.toList, ∃ output, peekUtxo V s r = some output
  checks : ∃ priority, ConstraintChecker.check (V := V) t.checker
    ((redeemedRefs t.inputs.toList).filterMap (payloadAt V s))
    ((evictedRefs t.inputs.toList).filterMap (payloadAt V s))
    (t.peeks.toList.filterMap (payloadAt V s)) (outputData t) s = .ok priority checked
  after : s' = (checked.clearAll ((inputRefs t).map encode)).setAll (outputEntries t txHash)

theorem validate_ok {t : Transaction V C} {s s' : Storage} {valid : ValidTransaction}
    (h : validateTuxedoTransaction t s = .ok valid s') :
    ∃ txHash, Prechecked t txHash s ∧ valid.requires = (preparedFor t txHash s).missingInputs ∧
      valid.provides = (t.outputRefs txHash).map encode ∧ (valid.requires = [] → ∃ priority,
        ConstraintChecker.check (V := V) t.checker ((redeemedRefs t.inputs.toList).filterMap (payloadAt V s))
        ((evictedRefs t.inputs.toList).filterMap (payloadAt V s))
        (t.peeks.toList.filterMap (payloadAt V s)) (outputData t) s = .ok priority s') := by
  obtain ⟨prepared, s₁, first, h⟩ := Exec.bind_ok h
  obtain ⟨read, rfl⟩ := Exec.read_ok first
  obtain ⟨txHash, prechecked, rfl⟩ := prepare_ok.mp read
  refine ⟨txHash, prechecked, ?_⟩
  split at h
  · rename_i complete
    obtain ⟨priority, s₂, call, h⟩ := Exec.bind_ok h
    obtain ⟨rfl, rfl⟩ := Exec.pure_ok h
    exact ⟨(List.isEmpty_iff.mp complete).symm, rfl, fun _ => ⟨priority, Exec.mapErr_ok.mp call⟩⟩
  · rename_i incomplete
    obtain ⟨rfl, rfl⟩ := Exec.pure_ok h
    exact ⟨rfl, rfl, fun empty => absurd (List.isEmpty_iff.mpr empty) incomplete⟩

/-- What the pool is told about a transaction with nothing missing. -/
def poolAnswer (t : Transaction V C) (txHash : H256) : ValidTransaction where
  requires := []
  provides := (t.outputRefs txHash).map encode
  priority := 0
  longevity := 18446744073709551615
  propagate := true

/-- With nothing missing, what the checker returns is not looked at. -/
theorem validate_of_call {t : Transaction V C} {txHash : H256} {s s' : Storage} {priority : UInt64}
    (prechecked : Prechecked t txHash s) (inputsPresent : ∀ r ∈ inputRefs t, ∃ output, peekUtxo V s r = some output)
    (peeksPresent : ∀ r ∈ t.peeks.toList, ∃ output, peekUtxo V s r = some output)
    (call : ConstraintChecker.check (V := V) t.checker
      ((redeemedRefs t.inputs.toList).filterMap (payloadAt V s))
      ((evictedRefs t.inputs.toList).filterMap (payloadAt V s))
      (t.peeks.toList.filterMap (payloadAt V s)) (outputData t) s = .ok priority s') :
    validateTuxedoTransaction t s = .ok (poolAnswer t txHash) s' := by
  have complete : (preparedFor t txHash s).missingInputs = [] := by
    simp [preparedFor, (missingRefs_eq_nil V).mpr inputsPresent, (missingRefs_eq_nil V).mpr peeksPresent]
  have prepared := prepare_ok (E := ConstraintChecker.Error V C).mpr ⟨txHash, prechecked, rfl⟩
  refine (Exec.bind_of_ok (Exec.read_of_ok prepared)).trans ?_
  rw [if_pos (by simp [complete])]
  exact (Exec.bind_of_ok (Exec.mapErr_ok.mpr call)).trans rfl

theorem validate_priority {t : Transaction V C} {s s' : Storage} {valid : ValidTransaction}
    (h : validateTuxedoTransaction t s = .ok valid s') : valid.priority = 0 := by
  obtain ⟨prepared, s₁, _, h⟩ := Exec.bind_ok h
  split at h
  · obtain ⟨_, s₂, _, h⟩ := Exec.bind_ok h
    obtain ⟨rfl, _⟩ := Exec.pure_ok h
    rfl
  · obtain ⟨rfl, _⟩ := Exec.pure_ok h
    rfl

theorem apply_ok {t : Transaction V C} {s s' : Storage} {u : Unit} :
    applyTuxedoTransaction t s = .ok u s' ↔ ∃ txHash checked, Accepted t txHash s checked s' := by
  constructor
  · intro h
    obtain ⟨valid, s₁, validated, h⟩ := Exec.bind_ok h
    obtain ⟨_, s₂, required, h⟩ := Exec.bind_ok h
    obtain ⟨complete, rfl⟩ := Exec.lift_ok required
    obtain ⟨s₃, s₄, current, h⟩ := Exec.bind_ok h
    obtain ⟨rfl, rfl⟩ := Exec.get_ok current
    obtain ⟨updated, s₅, written, h⟩ := Exec.bind_ok h
    obtain ⟨update, rfl⟩ := Exec.lift_ok written
    obtain ⟨txHash, prechecked, requires, _, call⟩ := validate_ok validated
    have complete := Outcome.ensure_ok complete
    have update := Outcome.expect_ok update
    rw [updateStorage_eq prechecked.hash] at update
    rw [complete] at requires
    obtain ⟨noInput, noPeek⟩ := List.append_eq_nil_iff.mp requires.symm
    rw [Exec.set_ok h]
    exact ⟨txHash, _, prechecked, (missingRefs_eq_nil V).mp noInput, (missingRefs_eq_nil V).mp noPeek, call complete,
      (Option.some.inj update).symm⟩
  · rintro ⟨txHash, checked, prechecked, inputsPresent, peeksPresent, ⟨priority, call⟩, rfl⟩
    have validated := validate_of_call prechecked inputsPresent peeksPresent call
    refine (Exec.bind_of_ok validated).trans ?_
    refine (Exec.bind_of_ok (Exec.lift_of_ok (Outcome.ensure_of _ rfl) _)).trans ?_
    refine (Exec.bind_of_ok (Exec.get_of _)).trans ?_
    rw [updateStorage_eq prechecked.hash]
    exact (Exec.bind_of_ok (Exec.lift_of_ok rfl _)).trans rfl

end

end Tuxedo.Executive
