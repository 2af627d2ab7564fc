import Tuxedo.Executive.Runs

/-!
# The values of one type

What is stored under the output references, seen through one type of data.
-/

namespace Tuxedo.Executive
open Scale TransparentUtxoSet DynamicallyTypedData

section
variable (V T : Type) [Codec V] [UtxoData T]

/-- The value of the type that is stored at a reference. -/
def dataAt (s : Storage) (r : OutputRef) : Option T :=
  (peekUtxo V s r).bind fun output => (output.payload.extract T).toOption

variable {V T}

theorem toOption_extract {d : DynamicallyTypedData} {value : T} :
    (d.extract T).toOption = some value ↔ d.extract T = .ok value := by
  cases d.extract T <;> simp [Except.toOption]

theorem dataAt_eq_some {s : Storage} {r : OutputRef} {value : T} :
    dataAt V T s r = some value ↔
      ∃ output, peekUtxo V s r = some output ∧ output.payload.extract T = .ok value := by
  simp only [dataAt, Option.bind_eq_some_iff, toOption_extract]

theorem dataAt_set (s : Storage) (r r' : OutputRef) (output : Output V) :
    dataAt V T (s.set (encode r) (encode output)) r' =
      if r' = r then (output.payload.extract T).toOption else dataAt V T s r' := by
  rw [dataAt, peek_set]
  split
  · rfl
  · rfl

theorem dataAt_height (height : Bytes) (r : OutputRef) : dataAt V T (Store.empty.set heightKey height) r = none := by
  rw [dataAt, peek_height]
  rfl

theorem dataAt_of_absent {s : Storage} {r : OutputRef} (absent : peekUtxo V s r = none) : dataAt V T s r = none := by
  simp [dataAt, absent]

theorem dataAt_of_untyped {s : Storage} {r : OutputRef} {output : Output V} (present : peekUtxo V s r = some output)
    (untyped : ¬Extracts T output.payload) : dataAt V T s r = none := by
  cases found : dataAt V T s r with
  | none => rfl
  | some value =>
    obtain ⟨output', present', extracted⟩ := dataAt_eq_some.mp found
    rw [present] at present'
    cases present'
    exact (untyped ⟨value, extracted⟩).elim

theorem SameUtxos.dataAt {s s' : Storage} (same : SameUtxos s s') : dataAt V T s' = dataAt V T s := by
  funext r
  simp only [Executive.dataAt, same.peek r]

end

/-! ### The payloads that a checker gets -/

section
variable {V : Type} [Verifier V] {s : Storage} {refs : List OutputRef}

theorem dataAt_of_payload {T : Type} [UtxoData T] {r : OutputRef} {d : DynamicallyTypedData} {value : T}
    (payload : payloadAt V s r = some d) (extracted : d.extract T = .ok value) : dataAt V T s r = some value := by
  obtain ⟨output, present, rfl⟩ := Option.map_eq_some_iff.mp payload
  exact dataAt_eq_some.mpr ⟨output, present, extracted⟩

theorem refs_nil (present : ∀ r ∈ refs, ∃ output, peekUtxo V s r = some output)
    (payloads : refs.filterMap (payloadAt V s) = []) : refs = [] := by
  cases refs with
  | nil => rfl
  | cons r refs =>
    obtain ⟨output, found⟩ := present r List.mem_cons_self
    simp [payloadAt, found] at payloads

theorem refs_cons (present : ∀ r ∈ refs, ∃ output, peekUtxo V s r = some output) {d : DynamicallyTypedData}
    {ds : List DynamicallyTypedData} (payloads : refs.filterMap (payloadAt V s) = d :: ds) :
    ∃ r rest, refs = r :: rest ∧ payloadAt V s r = some d ∧ (∀ r ∈ rest, ∃ output, peekUtxo V s r = some output) ∧
      rest.filterMap (payloadAt V s) = ds := by
  cases refs with
  | nil => cases payloads
  | cons r refs =>
    obtain ⟨⟨output, found⟩, later⟩ := List.forall_mem_cons.mp present
    have payload : payloadAt V s r = some output.payload := by simp [payloadAt, found]
    rw [List.filterMap_cons, payload] at payloads
    obtain ⟨rfl, rest⟩ := List.cons.inj payloads
    exact ⟨r, refs, rfl, payload, later, rest⟩

theorem refs_singleton (present : ∀ r ∈ refs, ∃ output, peekUtxo V s r = some output) {d : DynamicallyTypedData}
    (payloads : refs.filterMap (payloadAt V s) = [d]) : ∃ r, refs = [r] ∧ payloadAt V s r = some d := by
  obtain ⟨r, rest, rfl, payload, later, others⟩ := refs_cons present payloads
  obtain rfl := refs_nil later others
  exact ⟨r, rfl, payload⟩

end

section
variable {V C T : Type} [Host] [Verifier V] [Codec C] [ConstraintChecker V C] [KeepsUtxos V C] [UtxoData T]
  {t : Transaction V C} {txHash : H256} {s checked s' : Storage}

omit [KeepsUtxos V C] in
theorem Accepted.redeemed_present (accepted : Accepted t txHash s checked s') :
    ∀ r ∈ redeemedRefs t.inputs.toList, ∃ output, peekUtxo V s r = some output :=
  fun r member => accepted.inputsPresent r (redeemed_mem_inputRefs r member)

omit [KeepsUtxos V C] in
theorem Accepted.evicted_present (accepted : Accepted t txHash s checked s') :
    ∀ r ∈ evictedRefs t.inputs.toList, ∃ output, peekUtxo V s r = some output :=
  fun r member => accepted.inputsPresent r (evicted_mem_inputRefs r member)

/-- A transaction that neither consumes nor creates a value of the type leaves all of them. -/
theorem Accepted.dataAt_eq (accepted : Accepted t txHash s checked s')
    (spared : ∀ r ∈ inputRefs t, dataAt V T s r = none)
    (untyped : ∀ output ∈ t.outputs.toList, ¬Extracts T output.payload) : dataAt V T s' = dataAt V T s := by
  have step := accepted.step
  funext r
  by_cases consumed : r ∈ inputRefs t
  · rw [spared r consumed, dataAt_of_absent (step.read_consumed r consumed)]
  · cases made : creates t r with
    | some output =>
      have member := List.mem_of_getElem? (creates_eq_some.mp made).2
      rw [dataAt_of_untyped (step.read_created r output made) (untyped output member),
        dataAt_of_absent (step.fresh r output made)]
    | none => simp only [dataAt, step.read_other r consumed made]

/-- The same for a checker that handles nothing of the type. -/
theorem Accepted.dataAt_unhandled (accepted : Accepted t txHash s checked s')
    (handles : Handles (fun d => ¬Extracts T d) ((redeemedRefs t.inputs.toList).filterMap (payloadAt V s))
      ((evictedRefs t.inputs.toList).filterMap (payloadAt V s)) (outputData t)) :
    dataAt V T s' = dataAt V T s := by
  apply accepted.dataAt_eq
  · intro r input
    obtain ⟨output, present, untyped⟩ := accepted.consumed_handled handles input
    exact dataAt_of_untyped present untyped
  · intro output member
    exact Accepted.created_handled handles member

theorem Accepted.dataAt_created (accepted : Accepted t txHash s checked s') {r : OutputRef} {output : Output V}
    {value : T} (made : creates t r = some output) (extracted : output.payload.extract T = .ok value) :
    dataAt V T s' r = some value :=
  dataAt_eq_some.mpr ⟨output, accepted.step.read_created r output made, extracted⟩

theorem Accepted.dataAt_kept (accepted : Accepted t txHash s checked s') {r : OutputRef} {value : T}
    (present : dataAt V T s r = some value) (unspent : r ∉ inputRefs t) : dataAt V T s' r = some value := by
  obtain ⟨output, there, extracted⟩ := dataAt_eq_some.mp present
  exact dataAt_eq_some.mpr ⟨output, accepted.step.kept there unspent, extracted⟩

/-- A value that is there afterwards is created now or has been there. -/
theorem Accepted.dataAt_source (accepted : Accepted t txHash s checked s') {r : OutputRef} {value : T}
    (after : dataAt V T s' r = some value) :
    (∃ output, creates t r = some output ∧ output.payload.extract T = .ok value) ∨
      (r ∉ inputRefs t ∧ dataAt V T s r = some value) := by
  obtain ⟨output, there, extracted⟩ := dataAt_eq_some.mp after
  rcases accepted.step.source there with made | ⟨unspent, before⟩
  · exact Or.inl ⟨output, made, extracted⟩
  · exact Or.inr ⟨unspent, dataAt_eq_some.mpr ⟨output, before, extracted⟩⟩

/-- A transaction with one output of the type adds its value and takes away those it consumes. -/
theorem Accepted.dataAt_single (accepted : Accepted t txHash s checked s') {output : Output V} {value : T}
    (one : t.outputs.toList = [output]) (extracted : output.payload.extract T = .ok value) (r : OutputRef) :
    dataAt V T s' r =
      if r = ⟨txHash, 0⟩ then some value else if r ∈ inputRefs t then none else dataAt V T s r := by
  have step := accepted.step
  have made : creates t ⟨txHash, 0⟩ = some output := creates_eq_some.mpr ⟨accepted.hash, by simp [one]⟩
  split
  · rename_i new
    subst new
    exact dataAt_eq_some.mpr ⟨output, step.read_created _ _ made, extracted⟩
  · rename_i other
    split
    · rename_i consumed
      exact dataAt_of_absent (step.read_consumed r consumed)
    · rename_i unspent
      have unmade : creates t r = none :=
        Option.eq_none_iff_forall_ne_some.mpr fun _ made => other (eq_of_creates_single one accepted.hash made)
      simp only [dataAt, step.read_other r unspent unmade]

end
end Tuxedo.Executive
