import Tuxedo.Executive.Typed
import Tuxedo.Lib.Pedigree
import Tuxedo.Runtime.Pieces

/-!
# The pedigree of the kitties

Only a breeding touches kitties. It is a birth in the herd that the state holds, so a kitty's DNA
names it for good.
-/

namespace Tuxedo.Template
open Scale Executive TransparentUtxoSet DynamicallyTypedData Kitties Pedigree

def kittyUtxo (s : Storage) (r : OutputRef) : Option KittyData := dataAt OuterVerifier KittyData s r

def DistinctDna (s : Storage) : Prop :=
  ∀ r r' kitty kitty', kittyUtxo s r = some kitty → kittyUtxo s r' = some kitty' → kitty.dna = kitty'.dna → r = r'

/-- The DNA and the counts of mom and dad, as a breeding hashes them. -/
abbrev BreedingTuple := KittyDNA × KittyDNA × U128 × U128

def breedingTuple (t : Transaction) : Option BreedingTuple :=
  match t.checker, outputData t with
  | .freeKittyConstraintChecker _, newMom :: newDad :: _ =>
    match newMom.extract KittyData, newDad.extract KittyData with
    | .ok mom, .ok dad => some (mom.dna, dad.dna, mom.numBreedings, dad.numBreedings)
    | _, _ => none
  | _, _ => none

def breedingTuples (ts : List Transaction) : List BreedingTuple := ts.filterMap breedingTuple

/-- How often the DNA is a parent's. -/
def breedingsOf (dna : KittyDNA) (ts : List Transaction) : Nat :=
  (breedingTuples ts).countP fun tuple => dna = tuple.1 ∨ dna = tuple.2.1

/-! ### The herd of a state -/

def individual (kitty : KittyData) : Individual KittyDNA :=
  ⟨kitty.dna, kitty.numBreedings.toNat, kitty.freeBreedings.toNat⟩

def herd (s : Storage) : Herd OutputRef KittyDNA := fun r => (kittyUtxo s r).map individual

def mating (tuple : BreedingTuple) : Mating KittyDNA := ⟨tuple.1, tuple.2.1, tuple.2.2.1.toNat, tuple.2.2.2.toNat⟩

theorem herd_eq_some {s : Storage} {r : OutputRef} {i : Individual KittyDNA} :
    herd s r = some i ↔ ∃ kitty, kittyUtxo s r = some kitty ∧ individual kitty = i := Option.map_eq_some_iff

theorem distinct_herd {s : Storage} : Distinct (herd s) ↔ DistinctDna s := by
  constructor
  · intro distinct r r' kitty kitty' present present' same
    exact distinct r r' _ _ (herd_eq_some.mpr ⟨kitty, present, rfl⟩) (herd_eq_some.mpr ⟨kitty', present', rfl⟩) same
  · intro distinct r r' i i' present present' same
    obtain ⟨kitty, there, rfl⟩ := herd_eq_some.mp present
    obtain ⟨kitty', there', rfl⟩ := herd_eq_some.mp present'
    exact distinct r r' kitty kitty' there there' same

theorem individual_older {old new : KittyData} (aged : Aged old new) : individual new = (individual old).older := by
  simp only [individual, Individual.older, aged.dna, aged.numBreedings, aged.freeBreedings]

section
variable [Host]

def dnaOf (m : Mating KittyDNA) : KittyDNA :=
  hashOf (m.mother, m.father, BitVec.ofNat 128 m.motherUsed, BitVec.ofNat 128 m.fatherUsed)

theorem dnaOf_mating (tuple : BreedingTuple) : dnaOf (mating tuple) = hashOf tuple := by
  simp [dnaOf, mating]

/-! ### One transaction -/

variable {t : Transaction} {txHash : H256} {s checked s' : Storage}

omit [Host] in
theorem breedingTuple_of_other (other : t.checker.piece ≠ .kitties) : breedingTuple t = none := by
  unfold breedingTuple
  split
  · rename_i checker _
    rw [checker] at other
    exact absurd rfl other
  · rfl

/-- A transaction of another piece leaves the herd alone. -/
theorem herd_other (accepted : Accepted t txHash s checked s') (other : t.checker.piece ≠ .kitties) :
    herd s' = herd s := by
  have notKitty : ∀ d, t.checker.piece.Owns d → ¬Extracts KittyData d := by
    intro d owns kitty
    have mine : Piece.kitties.Owns d := kitty
    exact other (owns.unique mine)
  obtain ⟨inputs, evicted, outputs⟩ := accepted_handles accepted
  have same : dataAt OuterVerifier KittyData s' = dataAt OuterVerifier KittyData s :=
    accepted.dataAt_unhandled ⟨fun d member => notKitty d (inputs d member),
      fun d member => notKitty d (evicted d member), fun d member => notKitty d (outputs d member)⟩
  funext r
  exact congrArg (Option.map individual) (congrFun same r)

/-- What an accepted breeding consumes and creates. -/
structure Litter (t : Transaction) (txHash : H256) (s : Storage) (r₁ r₂ : OutputRef)
    (mom dad newMom newDad child : KittyData) : Prop where
  inputs : ∀ r, r ∈ inputRefs t ↔ r = r₁ ∨ r = r₂
  momAt : kittyUtxo s r₁ = some mom
  dadAt : kittyUtxo s r₂ = some dad
  outputs : ∃ o₁ o₂ o₃, t.outputs.toList = [o₁, o₂, o₃] ∧ o₁.payload.extract KittyData = .ok newMom ∧
    o₂.payload.extract KittyData = .ok newDad ∧ o₃.payload.extract KittyData = .ok child
  bred : Bred mom dad newMom newDad child
  tuple : breedingTuple t = some (newMom.dna, newDad.dna, newMom.numBreedings, newDad.numBreedings)

theorem accepted_litter (accepted : Accepted t txHash s checked s') (breeds : t.checker.piece = .kitties) :
    ∃ r₁ r₂ mom dad newMom newDad child, Litter t txHash s r₁ r₂ mom dad newMom newDad child := by
  cases checker : t.checker with
  | freeKittyConstraintChecker inner =>
    obtain ⟨priority, call⟩ := accepted_call accepted checker
    obtain ⟨passed, _⟩ := Exec.lift_ok (Exec.mapErr_ok.mp call)
    obtain ⟨noEvictions, a, b, c, d, e, mom, dad, newMom, newDad, child, two, three, momIs, dadIs, newMomIs, newDadIs,
      childIs, bred⟩ := check_family passed
    have redeemed := accepted.redeemed_present
    have evicted := refs_nil accepted.evicted_present noEvictions
    obtain ⟨r₁, rest, first, payload₁, later, others⟩ := refs_cons redeemed two
    obtain ⟨r₂, rfl, payload₂⟩ := refs_singleton later others
    have inputs : ∀ r, r ∈ inputRefs t ↔ r = r₁ ∨ r = r₂ := by
      intro r
      rw [inputRefs_of_redeemed evicted, first]
      simp
    obtain ⟨o₁, _, whole, rfl, later⟩ := List.map_eq_cons_iff.mp three
    obtain ⟨o₂, _, rfl, rfl, last⟩ := List.map_eq_cons_iff.mp later
    obtain ⟨o₃, rfl, rfl⟩ := List.map_eq_singleton_iff.mp last
    have tuple : breedingTuple t = some (newMom.dna, newDad.dna, newMom.numBreedings, newDad.numBreedings) := by
      simp [breedingTuple, checker, three, newMomIs, newDadIs]
    exact ⟨r₁, r₂, mom, dad, newMom, newDad, child, inputs, dataAt_of_payload payload₁ momIs,
      dataAt_of_payload payload₂ dadIs, ⟨o₁, o₂, o₃, whole, newMomIs, newDadIs, childIs⟩, bred, tuple⟩
  | _ => rw [checker] at breeds; cases breeds

namespace Litter
variable {r₁ r₂ : OutputRef} {mom dad newMom newDad child : KittyData}

def birth (txHash : H256) (r₁ r₂ : OutputRef) (mom dad child : KittyData) : Birth OutputRef KittyDNA where
  motherAt := r₁
  fatherAt := r₂
  motherTo := ⟨txHash, 0⟩
  fatherTo := ⟨txHash, 1⟩
  childAt := ⟨txHash, 2⟩
  mother := individual mom
  father := individual dad
  child := individual child

theorem mating_birth (bred : Bred mom dad newMom newDad child) : (birth txHash r₁ r₂ mom dad child).mating =
    mating (newMom.dna, newDad.dna, newMom.numBreedings, newDad.numBreedings) := by
  simp only [mating, bred.mom.dna, bred.dad.dna, bred.mom.numBreedings, bred.dad.numBreedings]
  rfl

/-- The references of the three outputs, and what they hold. -/
theorem created (litter : Litter t txHash s r₁ r₂ mom dad newMom newDad child)
    (accepted : Accepted t txHash s checked s') :
    kittyUtxo s' ⟨txHash, 0⟩ = some newMom ∧ kittyUtxo s' ⟨txHash, 1⟩ = some newDad ∧
      kittyUtxo s' ⟨txHash, 2⟩ = some child := by
  obtain ⟨o₁, o₂, o₃, whole, newMomIs, newDadIs, childIs⟩ := litter.outputs
  have made₁ : creates t ⟨txHash, 0⟩ = some o₁ := creates_eq_some.mpr ⟨accepted.hash, by simp [whole]⟩
  have made₂ : creates t ⟨txHash, 1⟩ = some o₂ := creates_eq_some.mpr ⟨accepted.hash, by simp [whole]⟩
  have made₃ : creates t ⟨txHash, 2⟩ = some o₃ := creates_eq_some.mpr ⟨accepted.hash, by simp [whole]⟩
  exact ⟨accepted.dataAt_created made₁ newMomIs, accepted.dataAt_created made₂ newDadIs,
    accepted.dataAt_created made₃ childIs⟩

theorem source (litter : Litter t txHash s r₁ r₂ mom dad newMom newDad child)
    (accepted : Accepted t txHash s checked s') {r : OutputRef} {kitty : KittyData}
    (present : kittyUtxo s' r = some kitty) :
    (r = ⟨txHash, 0⟩ ∧ kitty = newMom) ∨ (r = ⟨txHash, 1⟩ ∧ kitty = newDad) ∨ (r = ⟨txHash, 2⟩ ∧ kitty = child) ∨
      (kittyUtxo s r = some kitty ∧ r ≠ r₁ ∧ r ≠ r₂) := by
  rcases accepted.dataAt_source present with ⟨output, made, extracted⟩ | ⟨unspent, before⟩
  · obtain ⟨new₁, new₂, new₃⟩ := litter.created accepted
    obtain ⟨o₁, o₂, o₃, whole, _⟩ := litter.outputs
    have member := mem_outputRefs_of_creates accepted.hash made
    rw [outputRefs_eq_range, whole] at member
    have places : r = ⟨txHash, 0⟩ ∨ r = ⟨txHash, 1⟩ ∨ r = ⟨txHash, 2⟩ := by simpa [List.range_succ] using member
    rcases places with rfl | rfl | rfl
    · exact Or.inl ⟨rfl, Option.some.inj (present.symm.trans new₁)⟩
    · exact Or.inr (Or.inl ⟨rfl, Option.some.inj (present.symm.trans new₂)⟩)
    · exact Or.inr (Or.inr (Or.inl ⟨rfl, Option.some.inj (present.symm.trans new₃)⟩))
  · obtain ⟨notMom, notDad⟩ := not_or.mp (mt (litter.inputs r).mpr unspent)
    exact Or.inr (Or.inr (Or.inr ⟨before, notMom, notDad⟩))

/-- The breeding is a birth in the herd. -/
theorem gives (litter : Litter t txHash s r₁ r₂ mom dad newMom newDad child)
    (accepted : Accepted t txHash s checked s') :
    (birth txHash r₁ r₂ mom dad child).Gives dnaOf (herd s) (herd s') := by
  obtain ⟨new₁, new₂, new₃⟩ := litter.created accepted
  have bred := litter.bred
  refine ⟨herd_eq_some.mpr ⟨mom, litter.momAt, rfl⟩, herd_eq_some.mpr ⟨dad, litter.dadAt, rfl⟩, ?_, bred.mom.free,
    bred.dad.free, ?_, herd_eq_some.mpr ⟨newMom, new₁, individual_older bred.mom⟩,
    herd_eq_some.mpr ⟨newDad, new₂, individual_older bred.dad⟩, herd_eq_some.mpr ⟨child, new₃, rfl⟩, ?_, ?_⟩
  · -- One kitty is not of both kinds.
    intro same
    obtain rfl : r₁ = r₂ := same
    obtain rfl := Option.some.inj (litter.momAt.symm.trans litter.dadAt)
    exact bred.kinds rfl
  · rw [mating_birth bred, dnaOf_mating]
    exact bred.dna
  · intro r i present notMom notDad
    obtain ⟨kitty, there, rfl⟩ := herd_eq_some.mp present
    have unspent : r ∉ inputRefs t := mt (litter.inputs r).mp (not_or.mpr ⟨notMom, notDad⟩)
    exact herd_eq_some.mpr ⟨kitty, accepted.dataAt_kept there unspent, rfl⟩
  · intro r i present
    obtain ⟨kitty, there, rfl⟩ := herd_eq_some.mp present
    rcases litter.source accepted there with ⟨rfl, rfl⟩ | ⟨rfl, rfl⟩ | ⟨rfl, rfl⟩ | ⟨before, notMom, notDad⟩
    · exact Or.inl ⟨rfl, individual_older bred.mom⟩
    · exact Or.inr (Or.inl ⟨rfl, individual_older bred.dad⟩)
    · exact Or.inr (Or.inr (Or.inl ⟨rfl, rfl⟩))
    · exact Or.inr (Or.inr (Or.inr ⟨herd_eq_some.mpr ⟨kitty, before, rfl⟩, notMom, notDad⟩))

end Litter

/-! ### Runs -/

theorem herd_run {ts : List Transaction} (run : Run s ts s') :
    Pedigree.Run dnaOf (herd s) ((breedingTuples ts).map mating) (herd s') := by
  induction run with
  | done s => exact .done _
  | @apply s s₁ s' t ts applied _ ih =>
    obtain ⟨txHash, checked, accepted⟩ := apply_ok.mp applied
    by_cases breeds : t.checker.piece = .kitties
    · obtain ⟨r₁, r₂, mom, dad, newMom, newDad, child, litter⟩ := accepted_litter accepted breeds
      rw [breedingTuples, List.filterMap_cons_some litter.tuple, List.map_cons, ← Litter.mating_birth litter.bred]
      exact .birth (litter.gives accepted) ih
    · rw [breedingTuples, List.filterMap_cons_none (breedingTuple_of_other breeds), ← herd_other accepted breeds]
      exact ih
  | @keep s s₁ s' ts same _ ih =>
    have unchanged : herd s₁ = herd s := by
      funext r
      exact congrArg (Option.map individual) (congrFun same.dataAt r)
    rw [← unchanged]
    exact ih

/-- The hash gives no tuple of the transactions the DNA of another, or of a kitty that is there. -/
theorem sound_herd {ts : List Transaction} (distinct : DistinctDna s)
    (unbred : ∀ r kitty, kittyUtxo s r = some kitty → ∀ tuple ∈ breedingTuples ts, kitty.dna ≠ hashOf tuple) :
    Sound dnaOf {m | m ∈ (breedingTuples ts).map mating} (herd s) := by
  refine .of_unbred (distinct_herd.mpr distinct) fun m member r i present => ?_
  obtain ⟨tuple, inside, rfl⟩ := List.mem_map.mp member
  obtain ⟨kitty, there, rfl⟩ := herd_eq_some.mp present
  rw [dnaOf_mating]
  exact unbred r kitty there tuple inside

theorem dnaOf_injOn {ts : List Transaction}
    (injective : Set.InjOn (hashOf : BreedingTuple → H256) {tuple | tuple ∈ breedingTuples ts}) :
    Set.InjOn dnaOf {m | m ∈ (breedingTuples ts).map mating} := by
  intro m member m' member' same
  obtain ⟨tuple, inside, rfl⟩ := List.mem_map.mp member
  obtain ⟨tuple', inside', rfl⟩ := List.mem_map.mp member'
  rw [dnaOf_mating, dnaOf_mating] at same
  exact congrArg mating (injective inside inside' same)

/-- A kitty stays under its DNA, and each breeding that it takes part in moves one from one counter to
the other. -/
theorem kitty_stays {ts births : List Transaction} (run : Run s births s')
    (sound : Sound dnaOf {m | m ∈ (breedingTuples ts).map mating} (herd s))
    (within : ∀ m ∈ (breedingTuples births).map mating, m ∈ (breedingTuples ts).map mating)
    (apart : Set.InjOn dnaOf {m | m ∈ (breedingTuples ts).map mating}) {r : OutputRef} {kitty : KittyData}
    (present : kittyUtxo s r = some kitty) :
    ∃ r' kitty', kittyUtxo s' r' = some kitty' ∧ kitty'.dna = kitty.dna ∧
      kitty'.numBreedings.toNat + kitty'.freeBreedings.toNat =
        kitty.numBreedings.toNat + kitty.freeBreedings.toNat ∧
      kitty'.numBreedings.toNat = kitty.numBreedings.toNat + breedingsOf kitty.dna births := by
  obtain ⟨r', i', later, name, sum, used⟩ :=
    (herd_run run).persists sound within apart (herd_eq_some.mpr ⟨kitty, present, rfl⟩)
  obtain ⟨kitty', there, rfl⟩ := herd_eq_some.mp later
  rw [List.countP_map] at used
  exact ⟨r', kitty', there, name, sum, used⟩

/-- The DNA is a parent's in a breeding that consumes its kitty. -/
theorem breeds_iff {dna : KittyDNA} (applied : applyTuxedoTransaction t s = .ok () s') :
    (∃ tuple, breedingTuple t = some tuple ∧ (dna = tuple.1 ∨ dna = tuple.2.1)) ↔
      ∃ r ∈ inputRefs t, ∃ kitty, kittyUtxo s r = some kitty ∧ kitty.dna = dna := by
  obtain ⟨txHash, checked, accepted⟩ := apply_ok.mp applied
  by_cases breeds : t.checker.piece = .kitties
  · obtain ⟨r₁, r₂, mom, dad, newMom, newDad, child, litter⟩ := accepted_litter accepted breeds
    have momDna := litter.bred.mom.dna
    have dadDna := litter.bred.dad.dna
    constructor
    · rintro ⟨tuple, found, parent⟩
      cases litter.tuple.symm.trans found
      rcases parent with rfl | rfl
      · exact ⟨r₁, (litter.inputs r₁).mpr (Or.inl rfl), mom, litter.momAt, momDna.symm⟩
      · exact ⟨r₂, (litter.inputs r₂).mpr (Or.inr rfl), dad, litter.dadAt, dadDna.symm⟩
    · rintro ⟨r, input, kitty, present, rfl⟩
      refine ⟨_, litter.tuple, ?_⟩
      rcases (litter.inputs r).mp input with rfl | rfl
      · obtain rfl := Option.some.inj (present.symm.trans litter.momAt)
        exact Or.inl momDna.symm
      · obtain rfl := Option.some.inj (present.symm.trans litter.dadAt)
        exact Or.inr dadDna.symm
  · constructor
    · rintro ⟨tuple, found, _⟩
      rw [breedingTuple_of_other breeds] at found
      cases found
    · rintro ⟨r, input, kitty, present, _⟩
      obtain ⟨output, there, owns⟩ := consumed_owned accepted input
      obtain ⟨output', there', extracted⟩ := dataAt_eq_some.mp present
      cases there.symm.trans there'
      have mine : Piece.kitties.Owns output.payload := ⟨kitty, extracted⟩
      exact absurd (owns.unique mine) breeds

/-- No two kitties of a state that a run reaches share their DNA, where the hash keeps the breeding
tuples of the run apart. A kitty stays with the sum of its counters, and breeds at most as often as
it could for free. -/
theorem kitty_dna_unique (genesis s : Storage) (ts : List Transaction) (run : Run genesis ts s)
    (distinct : DistinctDna genesis)
    (unbred : ∀ r kitty, kittyUtxo genesis r = some kitty → ∀ tuple ∈ breedingTuples ts, kitty.dna ≠ hashOf tuple)
    (injective : Set.InjOn (hashOf : BreedingTuple → H256) {tuple | tuple ∈ breedingTuples ts}) :
    DistinctDna s ∧
    (∀ ts₁ ts₂ s₁, ts = ts₁ ++ ts₂ → Run genesis ts₁ s₁ → Run s₁ ts₂ s → ∀ r kitty, kittyUtxo s₁ r = some kitty →
      ∃ r' kitty', kittyUtxo s r' = some kitty' ∧ kitty'.dna = kitty.dna ∧ kitty.numBreedings ≤ kitty'.numBreedings ∧
        kitty'.numBreedings.toNat + kitty'.freeBreedings.toNat =
          kitty.numBreedings.toNat + kitty.freeBreedings.toNat ∧
        breedingsOf kitty.dna ts₂ ≤ kitty.freeBreedings.toNat) ∧
    ∀ (t : Transaction) (s s' : Storage) (dna : KittyDNA), applyTuxedoTransaction t s = .ok () s' →
      (breedingsOf dna [t] = 1 ↔ ∃ r ∈ inputRefs t, ∃ kitty, kittyUtxo s r = some kitty ∧ kitty.dna = dna) := by
  have start := sound_herd distinct unbred
  have apart := dnaOf_injOn injective
  refine ⟨?_, ?_, ?_⟩
  · exact distinct_herd.mp ((herd_run run).sound start (fun _ member => member) apart).distinct
  · rintro ts₁ ts₂ s₁ rfl before after r kitty present
    have split : (breedingTuples (ts₁ ++ ts₂)).map mating =
        (breedingTuples ts₁).map mating ++ (breedingTuples ts₂).map mating := by
      rw [breedingTuples, List.filterMap_append, List.map_append]
      rfl
    have first : ∀ m ∈ (breedingTuples ts₁).map mating, m ∈ (breedingTuples (ts₁ ++ ts₂)).map mating := by
      rw [split]
      exact fun m => List.mem_append_left _
    have second : ∀ m ∈ (breedingTuples ts₂).map mating, m ∈ (breedingTuples (ts₁ ++ ts₂)).map mating := by
      rw [split]
      exact fun m => List.mem_append_right _
    have middle := (herd_run before).sound start first apart
    obtain ⟨r', kitty', there, dna, sum, count⟩ := kitty_stays after middle second apart present
    refine ⟨r', kitty', there, dna, ?_, sum, by omega⟩
    rw [BitVec.le_def]
    omega
  · intro t s s' dna applied
    rw [← breeds_iff applied, breedingsOf, breedingTuples]
    cases tuple : breedingTuple t with
    | none => simp [tuple]
    | some tuple' => simp [tuple, or_iff_not_imp_left]

end

/-! A mom and a dad have a daughter, and she has a son with another dad. -/

theorem length_encode_kitty (kitty : KittyData) : (encode kitty).length = 58 := by
  obtain ⟨parent, freeBreedings, dna, numBreedings⟩ := kitty
  rcases parent with status | status <;> cases status <;> simp [encode, dna.length_eq]

def kittyOutput (kitty : KittyData) : Output :=
  ⟨⟨⟨encode kitty, by rw [length_encode_kitty]; decide⟩, UtxoData.typeId KittyData⟩, .upForGrabs ⟨⟩⟩

def kittyRef (index : UInt32) : OutputRef := ⟨FixedBytes.zero 32, index⟩

def oldDna (n : UInt8) : KittyDNA := ⟨List.replicate 32 n, by simp⟩

def daughterDna : KittyDNA :=
  ⟨[194, 71, 156, 176, 49, 232, 27, 249, 59, 165, 160, 40, 104, 219, 145, 0, 28, 230, 124, 22, 58, 96, 77, 158, 111,
    57, 63, 136, 86, 178, 178, 128], rfl⟩

def sonDna : KittyDNA :=
  ⟨[42, 151, 155, 84, 162, 129, 10, 187, 25, 34, 129, 11, 229, 22, 112, 115, 186, 123, 104, 191, 129, 156, 114, 196,
    109, 90, 94, 152, 22, 156, 199, 230], rfl⟩

def firstBreeding : H256 :=
  ⟨[29, 212, 184, 53, 203, 239, 44, 117, 74, 96, 215, 113, 143, 160, 234, 65, 70, 171, 143, 30, 129, 36, 101, 202, 108,
    183, 34, 102, 177, 77, 65, 118], rfl⟩

def mom : KittyData := ⟨.mom .rearinToGo, 2, oldDna 1, 3⟩

def dad : KittyData := ⟨.dad .rearinToGo, 2, oldDna 2, 3⟩

def otherDad : KittyData := ⟨.dad .rearinToGo, 1, oldDna 3, 0⟩

def daughter : KittyData := ⟨.mom .rearinToGo, 2, daughterDna, 0⟩

def son : KittyData := ⟨.dad .rearinToGo, 2, sonDna, 0⟩

def breed (momAt dadAt : OutputRef) (mom dad child : KittyData) : Transaction where
  inputs := ⟨[⟨momAt, .redemption (Vec.singleton 1)⟩, ⟨dadAt, .redemption (Vec.singleton 1)⟩], by simp⟩
  peeks := Vec.empty
  outputs := ⟨[kittyOutput ⟨.mom .hadBirthRecently, mom.freeBreedings - 1, mom.dna, mom.numBreedings + 1⟩,
    kittyOutput ⟨.dad .tired, dad.freeBreedings - 1, dad.dna, dad.numBreedings + 1⟩, kittyOutput child], by simp⟩
  checker := .freeKittyConstraintChecker ⟨⟩

def firstLitter : Transaction := breed (kittyRef 0) (kittyRef 1) mom dad daughter

def secondLitter : Transaction := breed ⟨firstBreeding, 2⟩ (kittyRef 2) daughter otherDad son

def kittyStorage : Storage :=
  (((Store.empty.set heightKey (encode (1 : UInt32))).set (encode (kittyRef 0)) (encode (kittyOutput mom))).set
    (encode (kittyRef 1)) (encode (kittyOutput dad))).set (encode (kittyRef 2)) (encode (kittyOutput otherDad))

theorem kittyUtxo_kittyStorage {r : OutputRef} {kitty : KittyData} (found : kittyUtxo kittyStorage r = some kitty) :
    (r, kitty) ∈ [(kittyRef 0, mom), (kittyRef 1, dad), (kittyRef 2, otherDad)] := by
  rw [kittyUtxo, kittyStorage, dataAt_set, dataAt_set, dataAt_set, dataAt_height] at found
  split at found
  · rename_i third
    obtain rfl : otherDad = kitty := Option.some.inj found
    simp [third]
  · split at found
    · rename_i second
      obtain rfl : dad = kitty := Option.some.inj found
      simp [second]
    · split at found
      · rename_i first
        obtain rfl : mom = kitty := Option.some.inj found
        simp [first]
      · cases found

theorem kitty_dna_unique_litters :
    letI := Host.unsigned
    ∃ s, Run kittyStorage [firstLitter, secondLitter] s ∧ DistinctDna s ∧
      ∃ r kitty, kittyUtxo s r = some kitty ∧ kitty.dna = oldDna 1 ∧
        kitty.numBreedings.toNat + kitty.freeBreedings.toNat = 5 := by
  let := Host.unsigned
  obtain ⟨_, s₁, applied, computed⟩ := Exec.exists_of_any (x := applyTuxedoTransaction firstLitter) (s := kittyStorage)
    (p := fun first => ((applyTuxedoTransaction secondLitter).toOption first.2).any fun second =>
      (kittyUtxo second.2 ⟨firstBreeding, 0⟩).isSome) (by decide +kernel)
  obtain ⟨_, s, applied', _⟩ := Exec.exists_of_any computed
  have run : Run kittyStorage [firstLitter, secondLitter] s := .apply applied (.apply applied' (.done s))
  have names : (([(kittyRef 0, mom), (kittyRef 1, dad), (kittyRef 2, otherDad)].map fun a => a.2.dna) ++
      (breedingTuples [firstLitter, secondLitter]).map hashOf).Nodup := by decide +kernel
  obtain ⟨old, new, apart⟩ := List.nodup_append.mp names
  have distinct : DistinctDna kittyStorage := by
    intro r r' kitty kitty' present present' same
    have member := kittyUtxo_kittyStorage present
    have member' := kittyUtxo_kittyStorage present'
    exact congrArg Prod.fst (List.inj_on_of_nodup_map old member member' same)
  obtain ⟨distinct', stays, _⟩ := kitty_dna_unique kittyStorage s [firstLitter, secondLitter] run distinct
    (fun r kitty present tuple bred =>
      apart _ (List.mem_map_of_mem (kittyUtxo_kittyStorage present)) _ (List.mem_map_of_mem bred))
    (fun tuple member tuple' member' => List.inj_on_of_nodup_map new member member')
  obtain ⟨r, kitty, there, dna, _, sum, _⟩ :=
    stays [] [firstLitter, secondLitter] kittyStorage rfl (.done _) run (kittyRef 0) mom rfl
  exact ⟨s, run, distinct', r, kitty, there, dna, sum⟩

end Tuxedo.Template
