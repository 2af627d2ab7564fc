import Tuxedo.Executive.Typed
import Tuxedo.Lib.Descent
import Tuxedo.Runtime.Pieces

/-!
# The lineage of the amoebas

A creation founds a line and a mitosis divides one. The generation of an amoeba counts the mitoses
on its line, in 32 bits.
-/

namespace Tuxedo.Template
open Scale Executive TransparentUtxoSet DynamicallyTypedData Amoeba Descent

def amoebaUtxo (s : Storage) (r : OutputRef) : Option AmoebaDetails := dataAt OuterVerifier AmoebaDetails s r

section
variable [Host]

/-- Where the amoeba at a reference comes from, once the transaction is applied. -/
def amoebaOrigin (t : Transaction) (r : OutputRef) : Origin OutputRef :=
  if (creates t r).isSome then
    match t.checker, inputRefs t with
    | .amoebaCreation _, _ => .founded
    | .amoebaMitosis _, [mother] => .daughter mother
    | _, _ => .absent
  else if r ∈ inputRefs t then .absent
  else .stays

/-- The mitoses between the creation that founded the line of an amoeba and the amoeba. -/
def mitoses (ts : List Transaction) (r : OutputRef) : Option (List Transaction) := lineage amoebaOrigin ts r

/-- The generation of every living amoeba is the number of mitoses on its line. -/
def GenerationsCount (ts : List Transaction) (s : Storage) : Prop :=
  ∀ r amoeba, amoebaUtxo s r = some amoeba →
    ∃ line, mitoses ts r = some line ∧ amoeba.generation.toNat = line.length

/-- If the transaction is a mitosis, the generation of its mother is not the last one. -/
def HasNextGeneration (s : Storage) (t : Transaction) : Prop :=
  t.checker = .amoebaMitosis ⟨⟩ → ∀ r ∈ inputRefs t, ∀ mother, amoebaUtxo s r = some mother →
    mother.generation.toNat + 1 < 2 ^ 32

/-! ### One transaction -/

variable {t : Transaction} {txHash : H256} {s checked s' : Storage} {r : OutputRef} {output : Output}

theorem origin_founded (made : creates t r = some output) (creation : t.checker = .amoebaCreation ⟨⟩) :
    amoebaOrigin t r = .founded := by
  simp [amoebaOrigin, made, creation]

theorem origin_daughter {q : OutputRef} (made : creates t r = some output) (mitosis : t.checker = .amoebaMitosis ⟨⟩)
    (one : inputRefs t = [q]) : amoebaOrigin t r = .daughter q := by
  simp [amoebaOrigin, made, mitosis, one]

theorem origin_stays (unmade : creates t r = none) (unspent : r ∉ inputRefs t) : amoebaOrigin t r = .stays := by
  simp [amoebaOrigin, unmade, unspent]

/-- What an accepted mitosis consumes and creates. -/
structure Divides (t : Transaction) (s : Storage) (q : OutputRef) (mother first second : AmoebaDetails) : Prop where
  inputs : inputRefs t = [q]
  before : amoebaUtxo s q = some mother
  outputs : ∃ o₁ o₂, t.outputs.toList = [o₁, o₂] ∧ o₁.payload.extract AmoebaDetails = .ok first ∧
    o₂.payload.extract AmoebaDetails = .ok second
  firstNext : first.generation = mother.generation + 1
  secondNext : second.generation = mother.generation + 1

theorem accepted_mitosis (accepted : Accepted t txHash s checked s') (mitosis : t.checker = .amoebaMitosis ⟨⟩) :
    ∃ q mother first second, Divides t s q mother first second := by
  obtain ⟨priority, call⟩ := accepted_call accepted mitosis
  obtain ⟨passed, _⟩ := Exec.lift_ok (Exec.mapErr_ok.mp call)
  obtain ⟨mother, first, second, division, firstNext, secondNext, _⟩ := AmoebaMitosis.check_iff.mp passed
  obtain ⟨a, one, motherIs⟩ := division.mother
  obtain ⟨b, c, two, firstIs, secondIs⟩ := division.daughters
  have redeemed := accepted.redeemed_present
  have evicted := refs_nil accepted.evicted_present division.noEvictions
  obtain ⟨q, alone, payload⟩ := refs_singleton redeemed one
  have inputs : inputRefs t = [q] := by rw [inputRefs_of_redeemed evicted, alone]
  obtain ⟨o₁, _, whole, rfl, later⟩ := List.map_eq_cons_iff.mp two
  obtain ⟨o₂, rfl, rfl⟩ := List.map_eq_singleton_iff.mp later
  exact ⟨q, mother, first, second, inputs, dataAt_of_payload payload motherIs, ⟨o₁, o₂, whole, firstIs, secondIs⟩,
    firstNext, secondNext⟩

theorem accepted_creation (accepted : Accepted t txHash s checked s') (creation : t.checker = .amoebaCreation ⟨⟩) :
    ∃ o eve, t.outputs.toList = [o] ∧ o.payload.extract AmoebaDetails = .ok eve ∧ eve.generation = 0 := by
  obtain ⟨priority, call⟩ := accepted_call accepted creation
  obtain ⟨passed, _⟩ := Exec.lift_ok (Exec.mapErr_ok.mp call)
  obtain ⟨_, _, ⟨a, eve, one, eveIs, first⟩, _⟩ := AmoebaCreation.check_iff.mp passed
  obtain ⟨o, whole, rfl⟩ := List.map_eq_singleton_iff.mp one
  exact ⟨o, eve, whole, eveIs, first⟩

theorem accepted_death (accepted : Accepted t txHash s checked s') (death : t.checker = .amoebaDeath ⟨⟩) :
    t.outputs.toList = [] := by
  obtain ⟨priority, call⟩ := accepted_call accepted death
  obtain ⟨passed, _⟩ := Exec.lift_ok (Exec.mapErr_ok.mp call)
  obtain ⟨_, _, none, _⟩ := AmoebaDeath.check_iff.mp passed
  exact List.map_eq_nil_iff.mp none

/-- Who is there after a transaction has come as the origin says. What a daughter inherits may depend
on her mother's being there. -/
theorem accepted_comes (accepted : Accepted t txHash s checked s') {heir : AmoebaDetails → AmoebaDetails → Prop}
    (inherits : ∀ q ∈ inputRefs t, ∀ mother daughter, t.checker = .amoebaMitosis ⟨⟩ → amoebaUtxo s q = some mother →
      daughter.generation = mother.generation + 1 → heir mother daughter)
    {amoeba : AmoebaDetails} (present : amoebaUtxo s' r = some amoeba) :
    Comes (fun eve => eve.generation = 0) heir (amoebaUtxo s) amoeba r (amoebaOrigin t r) := by
  rcases accepted.dataAt_source present with ⟨output, made, extracted⟩ | ⟨unspent, before⟩
  · have member := List.mem_of_getElem? (creates_eq_some.mp made).2
    have mine : Piece.amoeba.Owns output.payload := ⟨amoeba, extracted⟩
    have piece := (created_owned accepted member).unique mine
    cases checker : t.checker with
    | amoebaMitosis inner =>
      obtain ⟨q, mother, first, second, divides⟩ := accepted_mitosis accepted checker
      rw [origin_daughter made checker divides.inputs]
      have consumed : q ∈ inputRefs t := by rw [divides.inputs]; exact List.mem_singleton_self q
      refine .daughter divides.before (inherits q consumed mother amoeba checker divides.before ?_)
      obtain ⟨o₁, o₂, whole, firstIs, secondIs⟩ := divides.outputs
      rw [whole] at member
      rcases List.mem_pair.mp member with rfl | rfl
      · obtain rfl := Except.ok.inj (extracted.symm.trans firstIs)
        exact divides.firstNext
      · obtain rfl := Except.ok.inj (extracted.symm.trans secondIs)
        exact divides.secondNext
    | amoebaDeath inner =>
      rw [accepted_death accepted checker] at member
      cases member
    | amoebaCreation inner =>
      obtain ⟨o, eve, whole, eveIs, first⟩ := accepted_creation accepted checker
      rw [origin_founded made checker]
      rw [whole] at member
      obtain rfl := List.mem_singleton.mp member
      obtain rfl := Except.ok.inj (extracted.symm.trans eveIs)
      exact .founded first
    | _ => rw [checker] at piece; cases piece
  · obtain ⟨_, there, _⟩ := dataAt_eq_some.mp before
    rw [origin_stays (accepted.step.unmade there) unspent]
    exact .stays before

/-- Both daughters are there after the mitosis, and their line is their mother's with the mitosis. -/
theorem Divides.first_daughter {q : OutputRef} {mother first second : AmoebaDetails}
    (divides : Divides t s q mother first second) (accepted : Accepted t txHash s checked s')
    (mitosis : t.checker = .amoebaMitosis ⟨⟩) (past : List Transaction) :
    amoebaUtxo s' ⟨txHash, 0⟩ = some first ∧
      mitoses (past ++ [t]) ⟨txHash, 0⟩ = (mitoses past q).map fun line => line ++ [t] := by
  obtain ⟨o₁, o₂, whole, firstIs, _⟩ := divides.outputs
  have made : creates t ⟨txHash, 0⟩ = some o₁ := creates_eq_some.mpr ⟨accepted.hash, by simp [whole]⟩
  exact ⟨accepted.dataAt_created made firstIs, lineage_daughter (origin_daughter made mitosis divides.inputs)⟩

/-! ### Runs -/

variable {genesis : Storage} {past ts : List Transaction}

theorem traced_same {P : List Transaction → AmoebaDetails → Prop} (traced : Traced amoebaOrigin P past (amoebaUtxo s))
    (same : SameUtxos s s') : Traced amoebaOrigin P past (amoebaUtxo s') := by
  have unchanged : amoebaUtxo s' = amoebaUtxo s := same.dataAt
  rwa [unchanged]

/-- Along every run the generation is the number of mitoses as far as 32 bits tell. -/
theorem generation_wraps (empty : ∀ r, amoebaUtxo genesis r = none) (run : Run genesis ts s) :
    Traced amoebaOrigin (fun line amoeba => amoeba.generation = UInt32.ofNat line.length) ts (amoebaUtxo s) := by
  refine run.history (P := fun past s => Traced amoebaOrigin _ past (amoebaUtxo s)) ?_ ?_ (.nil empty)
  · intro past t future s₁ s₂ _ _ applied _ traced
    obtain ⟨txHash, checked, accepted⟩ := apply_ok.mp applied
    refine traced.step (fun r amoeba => accepted_comes accepted fun q _ mother daughter _ _ next => next) ?_ ?_
    · intro eve first
      exact first
    · intro line mother daughter counted next
      rw [next, counted, List.length_append, List.length_singleton]
      exact (UInt32.ofNat_add _ _).symm
  · exact fun past s₁ s₂ => traced_same

omit [Host] in
theorem count_exact {generation : UInt32} {count : Nat} (wraps : generation = UInt32.ofNat count) :
    generation.toNat = count ↔ count < 2 ^ 32 := by
  have remainder : generation.toNat = count % 2 ^ 32 := by rw [wraps, UInt32.toNat_ofNat']
  omega

/-- There are not enough mitoses in a short run to wrap around. -/
theorem short_runs_count (empty : ∀ r, amoebaUtxo genesis r = none) (run : Run genesis ts s)
    (short : ts.length < 2 ^ 32) : GenerationsCount ts s := by
  intro r amoeba present
  obtain ⟨line, found, wraps⟩ := generation_wraps empty run r amoeba present
  have fewer := (lineage_sublist found).length_le
  exact ⟨line, found, (count_exact wraps).mpr (by omega)⟩

/-- A step whose mother has a next generation passes the count on. -/
theorem count_step (counted : GenerationsCount past s) (accepted : Accepted t txHash s checked s')
    (next : HasNextGeneration s t) : GenerationsCount (past ++ [t]) s' := by
  have comes : ∀ r amoeba, amoebaUtxo s' r = some amoeba →
      Comes (fun eve => eve.generation = 0)
        (fun mother daughter => daughter.generation.toNat = mother.generation.toNat + 1) (amoebaUtxo s) amoeba r
        (amoebaOrigin t r) := by
    intro r amoeba
    refine accepted_comes accepted fun q consumed mother daughter mitosis before successor => ?_
    exact (AmoebaMitosis.next_exact successor).mpr (next mitosis q consumed mother before)
  refine Traced.step counted comes ?_ ?_
  · intro eve first
    rw [first]
    rfl
  · intro line mother daughter count inherits
    rw [inherits, count, List.length_append, List.length_singleton]

/-- A step that keeps the count has had a mother with a next generation. -/
theorem next_of_counts (counted : GenerationsCount past s) (accepted : Accepted t txHash s checked s')
    (counted' : GenerationsCount (past ++ [t]) s') : HasNextGeneration s t := by
  intro mitosis r consumed mother there
  obtain ⟨q, mother', first, second, divides⟩ := accepted_mitosis accepted mitosis
  rw [divides.inputs] at consumed
  obtain rfl := List.mem_singleton.mp consumed
  obtain rfl := Option.some.inj (there.symm.trans divides.before)
  obtain ⟨born, extended⟩ := divides.first_daughter accepted mitosis past
  obtain ⟨line, found, count⟩ := counted r mother there
  obtain ⟨line', found', count'⟩ := counted' _ first born
  rw [extended, found] at found'
  obtain rfl := Option.some.inj found'
  rw [List.length_append, List.length_singleton, ← count] at count'
  exact (AmoebaMitosis.next_exact divides.firstNext).mp count'

/-- The states that a run reaches count their mitoses if and only if no mitosis of it has a mother of
the last generation. -/
theorem counts_iff (empty : ∀ r, amoebaUtxo genesis r = none) :
    (∀ ts₁ ts₂ s₁, ts = ts₁ ++ ts₂ → Run genesis ts₁ s₁ → Run s₁ ts₂ s → GenerationsCount ts₁ s₁) ↔
      ∀ ts₁ t ts₂ s₁ s₂, ts = ts₁ ++ t :: ts₂ → Run genesis ts₁ s₁ → applyTuxedoTransaction t s₁ = .ok () s₂ →
        Run s₂ ts₂ s → HasNextGeneration s₁ t := by
  constructor
  · intro counts ts₁ t ts₂ s₁ s₂ split before applied after
    obtain ⟨txHash, checked, accepted⟩ := apply_ok.mp applied
    have here := counts ts₁ (t :: ts₂) s₁ split before (.apply applied after)
    have next := counts (ts₁ ++ [t]) ts₂ s₂ (by simp [split]) (before.trans (.apply applied (.done s₂))) after
    exact next_of_counts here accepted next
  · rintro steps ts₁ ts₂ s₁ rfl before after
    refine before.history ?_ (fun past s s' => traced_same) (Traced.nil empty)
    intro past t future s₀ s₂ split reached applied later counted
    obtain ⟨txHash, checked, accepted⟩ := apply_ok.mp applied
    refine count_step counted accepted (steps past t (future ++ ts₂) s₀ s₂ ?_ reached applied (later.trans after))
    rw [split, List.append_assoc]
    rfl

/-- An accepted mitosis counts exactly where the mother's generation is not the last one, and that is
also where the build with overflow checks does not panic. In a run every state reached counts the
mitoses if and only if no mitosis has such a mother; a living amoeba counts those of its line as long
as they are fewer than 2^32. -/
theorem generations_count_iff :
    (∀ (inputData evictedInputData peeks outputData : List DynamicallyTypedData) (priority : UInt64),
      AmoebaMitosis.check inputData evictedInputData peeks outputData = .ok priority →
      ∃ mother first second, Division inputData evictedInputData outputData mother first second ∧
        (first.generation.toNat = mother.generation.toNat + 1 ∧
          second.generation.toNat = mother.generation.toNat + 1 ↔ mother.generation.toNat + 1 < 2 ^ 32)) ∧
    (∀ inputData evictedInputData peeks outputData : List DynamicallyTypedData,
      AmoebaMitosis.check inputData evictedInputData peeks outputData ≠ .error .panic ∧
      (AmoebaMitosis.OverflowChecks.check inputData evictedInputData peeks outputData = .error .panic ↔
        ∃ mother first second, Division inputData evictedInputData outputData mother first second ∧
          ¬mother.generation.toNat + 1 < 2 ^ 32)) ∧
    ∀ (genesis s : Storage) (ts : List Transaction), (∀ r, amoebaUtxo genesis r = none) → Run genesis ts s →
      ((∀ ts₁ ts₂ s₁, ts = ts₁ ++ ts₂ → Run genesis ts₁ s₁ → Run s₁ ts₂ s → GenerationsCount ts₁ s₁) ↔
        ∀ ts₁ t ts₂ s₁ s₂, ts = ts₁ ++ t :: ts₂ → Run genesis ts₁ s₁ → applyTuxedoTransaction t s₁ = .ok () s₂ →
          Run s₂ ts₂ s → HasNextGeneration s₁ t) ∧
      ∀ r amoeba, amoebaUtxo s r = some amoeba → ∃ line, mitoses ts r = some line ∧
        (amoeba.generation.toNat = line.length ↔ line.length < 2 ^ 32) := by
  refine ⟨?_, fun _ _ _ _ => ⟨AmoebaMitosis.check_answers, AmoebaMitosis.OverflowChecks.check_panics_iff⟩, ?_⟩
  · intro inputData evictedInputData peeks outputData priority passed
    obtain ⟨mother, first, second, division, firstNext, secondNext, _⟩ := AmoebaMitosis.check_iff.mp passed
    refine ⟨mother, first, second, division, ?_⟩
    rw [AmoebaMitosis.next_exact firstNext, AmoebaMitosis.next_exact secondNext, and_self]
  · intro genesis s ts empty run
    refine ⟨counts_iff empty, fun r amoeba present => ?_⟩
    obtain ⟨line, found, wraps⟩ := generation_wraps empty run r amoeba present
    exact ⟨line, found, count_exact wraps⟩

end

/-! An amoeba is created and divides. One of the last generation has daughters of the first. -/

def amoebaOf (generation : UInt32) : AmoebaDetails := ⟨generation, FixedBytes.zero 4⟩

def amoebaPayload (generation : UInt32) : DynamicallyTypedData :=
  ⟨⟨encode (amoebaOf generation), by simp [amoebaOf, encode, FixedBytes.zero]⟩, UtxoData.typeId AmoebaDetails⟩

def amoebaOutput (generation : UInt32) : Output := ⟨amoebaPayload generation, .upForGrabs ⟨⟩⟩

def createEve : Transaction := ⟨Vec.empty, Vec.empty, Vec.singleton (amoebaOutput 0), .amoebaCreation ⟨⟩⟩

def eveHash : H256 :=
  ⟨[140, 222, 233, 48, 11, 56, 132, 53, 146, 77, 48, 195, 234, 47, 243, 65, 46, 255, 101, 144, 134, 129, 145, 69, 176,
    218, 231, 45, 95, 118, 118, 204], rfl⟩

def divideEve : Transaction where
  inputs := Vec.singleton ⟨⟨eveHash, 0⟩, .redemption (Vec.singleton 1)⟩
  peeks := Vec.empty
  outputs := ⟨[amoebaOutput 1, amoebaOutput 1], by simp⟩
  checker := .amoebaMitosis ⟨⟩

def divisionHash : H256 :=
  ⟨[205, 124, 94, 225, 35, 78, 204, 2, 203, 91, 61, 205, 161, 225, 156, 18, 58, 237, 8, 244, 33, 191, 217, 130, 1, 158,
    226, 231, 207, 63, 43, 88], rfl⟩

def barrenStorage : Storage := Store.empty.set heightKey (encode (1 : UInt32))

theorem generations_count_daughter :
    letI := Host.unsigned
    ∃ s, Run barrenStorage [createEve, divideEve] s ∧ ∃ daughter line,
      amoebaUtxo s ⟨divisionHash, 0⟩ = some daughter ∧ mitoses [createEve, divideEve] ⟨divisionHash, 0⟩ = some line ∧
      daughter.generation.toNat = line.length ∧ daughter.generation = 1 := by
  let := Host.unsigned
  obtain ⟨_, s₁, applied, computed⟩ := Exec.exists_of_any (x := applyTuxedoTransaction createEve) (s := barrenStorage)
    (p := fun first => ((applyTuxedoTransaction divideEve).toOption first.2).any fun second =>
      amoebaUtxo second.2 ⟨divisionHash, 0⟩ = some (amoebaOf 1)) (by decide +kernel)
  obtain ⟨_, s, applied', found⟩ := Exec.exists_of_any computed
  have present := of_decide_eq_true found
  have run : Run barrenStorage [createEve, divideEve] s := .apply applied (.apply applied' (.done s))
  obtain ⟨_, _, runs⟩ := generations_count_iff
  obtain ⟨_, living⟩ := runs barrenStorage s [createEve, divideEve] (dataAt_height _) run
  obtain ⟨line, traced, counts⟩ := living _ _ present
  have fewer : line.length ≤ 2 := (lineage_sublist traced).length_le
  exact ⟨s, run, amoebaOf 1, line, present, traced, counts.mpr (by omega), rfl⟩

theorem mitosis_wraps :
    Division [amoebaPayload 4294967295] [] [amoebaPayload 0, amoebaPayload 0] (amoebaOf 4294967295) (amoebaOf 0)
        (amoebaOf 0) ∧
      AmoebaMitosis.check [amoebaPayload 4294967295] [] [] [amoebaPayload 0, amoebaPayload 0] = .ok 0 ∧
      (amoebaOf 0).generation.toNat ≠ (amoebaOf 4294967295).generation.toNat + 1 ∧
      AmoebaMitosis.OverflowChecks.check [amoebaPayload 4294967295] [] [] [amoebaPayload 0, amoebaPayload 0] =
        .error .panic := by
  have division : Division [amoebaPayload 4294967295] [] [amoebaPayload 0, amoebaPayload 0] (amoebaOf 4294967295)
      (amoebaOf 0) (amoebaOf 0) := ⟨rfl, ⟨_, rfl, rfl⟩, _, _, rfl, rfl, rfl⟩
  refine ⟨division, ?_, by decide, ?_⟩
  · exact AmoebaMitosis.check_iff.mpr ⟨_, _, _, division, by decide, by decide, rfl⟩
  · exact AmoebaMitosis.OverflowChecks.check_panics division (by decide)

end Tuxedo.Template
