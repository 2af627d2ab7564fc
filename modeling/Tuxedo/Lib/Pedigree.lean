import Mathlib.Data.Set.Function
import Mathlib.Tactic.Common

/-!
# Pedigrees

Individuals at places, each with a name and two counters. A birth moves both parents and counts
once for each of them, and the child's name is made from the names and the counts of the parents.
Counts never fall, so no name is made twice where the making of names is injective.
-/

namespace Pedigree
variable {ρ N : Type*}

structure Individual (N : Type*) where
  name : N
  used : Nat
  left : Nat

/-- What a child's name is made from. The counts are those with the birth. -/
structure Mating (N : Type*) where
  mother : N
  father : N
  motherUsed : Nat
  fatherUsed : Nat

abbrev Herd (ρ N : Type*) := ρ → Option (Individual N)

def Individual.older (i : Individual N) : Individual N := ⟨i.name, i.used + 1, i.left - 1⟩

namespace Mating

def Parent (m : Mating N) (name : N) : Prop := name = m.mother ∨ name = m.father

instance [DecidableEq N] (m : Mating N) : DecidablePred m.Parent :=
  fun name => inferInstanceAs (Decidable (name = m.mother ∨ name = m.father))

end Mating

/-- The family before and after, with its places. -/
structure Birth (ρ N : Type*) where
  motherAt : ρ
  fatherAt : ρ
  motherTo : ρ
  fatherTo : ρ
  childAt : ρ
  mother : Individual N
  father : Individual N
  child : Individual N

def Birth.mating (b : Birth ρ N) : Mating N := ⟨b.mother.name, b.father.name, b.mother.used + 1, b.father.used + 1⟩

/-- Where a birth brings who was there before. -/
def Birth.moves [DecidableEq ρ] (b : Birth ρ N) (r : ρ) : ρ :=
  if r = b.motherAt then b.motherTo else if r = b.fatherAt then b.fatherTo else r

/-- The birth leads from one herd to the other. -/
structure Birth.Gives (nameOf : Mating N → N) (b : Birth ρ N) (h h' : Herd ρ N) : Prop where
  mother : h b.motherAt = some b.mother
  father : h b.fatherAt = some b.father
  apart : b.motherAt ≠ b.fatherAt
  motherLeft : 0 < b.mother.left
  fatherLeft : 0 < b.father.left
  named : b.child.name = nameOf b.mating
  motherOlder : h' b.motherTo = some b.mother.older
  fatherOlder : h' b.fatherTo = some b.father.older
  born : h' b.childAt = some b.child
  others : ∀ r i, h r = some i → r ≠ b.motherAt → r ≠ b.fatherAt → h' r = some i
  source : ∀ r i, h' r = some i → (r = b.motherTo ∧ i = b.mother.older) ∨ (r = b.fatherTo ∧ i = b.father.older) ∨
    (r = b.childAt ∧ i = b.child) ∨ (h r = some i ∧ r ≠ b.motherAt ∧ r ≠ b.fatherAt)

def Distinct (h : Herd ρ N) : Prop := ∀ r r' i i', h r = some i → h r' = some i' → i.name = i'.name → r = r'

/-- Who has a name that one of the matings gives has a mother there, and she counts the mating. -/
def Descends (nameOf : Mating N → N) (ms : Set (Mating N)) (h : Herd ρ N) : Prop :=
  ∀ m ∈ ms, ∀ r i, h r = some i → i.name = nameOf m →
    ∃ r' mother, h r' = some mother ∧ mother.name = m.mother ∧ m.motherUsed ≤ mother.used

structure Sound (nameOf : Mating N → N) (ms : Set (Mating N)) (h : Herd ρ N) : Prop where
  distinct : Distinct h
  descends : Descends nameOf ms h

/-- Where nobody has a name that one of the matings gives, there is nothing to descend from. -/
theorem Sound.of_unbred {nameOf : Mating N → N} {ms : Set (Mating N)} {h : Herd ρ N} (distinct : Distinct h)
    (unbred : ∀ m ∈ ms, ∀ r i, h r = some i → i.name ≠ nameOf m) : Sound nameOf ms h :=
  ⟨distinct, fun m member r i present named => absurd named (unbred m member r i present)⟩

/-! ### One birth -/

namespace Birth.Gives
variable {nameOf : Mating N → N} {b : Birth ρ N} {h h' : Herd ρ N} {ms : Set (Mating N)}

theorem persists [DecidableEq N] (gives : b.Gives nameOf h h') (distinct : Distinct h) {r : ρ} {i : Individual N}
    (present : h r = some i) :
    ∃ r' i', h' r' = some i' ∧ i'.name = i.name ∧ i'.used + i'.left = i.used + i.left ∧
      i'.used = i.used + if b.mating.Parent i.name then 1 else 0 := by
  have motherLeft := gives.motherLeft
  have fatherLeft := gives.fatherLeft
  by_cases mother : r = b.motherAt
  · subst mother
    obtain rfl : i = b.mother := Option.some.inj (present.symm.trans gives.mother)
    refine ⟨b.motherTo, _, gives.motherOlder, rfl, ?_, ?_⟩
    · simp only [Individual.older]
      omega
    · have parent : b.mating.Parent b.mother.name := Or.inl rfl
      rw [if_pos parent]
      rfl
  · by_cases father : r = b.fatherAt
    · subst father
      obtain rfl : i = b.father := Option.some.inj (present.symm.trans gives.father)
      refine ⟨b.fatherTo, _, gives.fatherOlder, rfl, ?_, ?_⟩
      · simp only [Individual.older]
        omega
      · have parent : b.mating.Parent b.father.name := Or.inr rfl
        rw [if_pos parent]
        rfl
    · have other : ¬b.mating.Parent i.name := by
        rintro (same | same)
        · exact mother (distinct _ _ _ _ present gives.mother same)
        · exact father (distinct _ _ _ _ present gives.father same)
      refine ⟨r, i, gives.others r i present mother father, rfl, rfl, ?_⟩
      rw [if_neg other]
      rfl

/-- Who had the child's name before would count this mating already. -/
theorem unborn (gives : b.Gives nameOf h h') (sound : Sound nameOf ms h) (member : b.mating ∈ ms) {r : ρ}
    {i : Individual N} (present : h r = some i) : i.name ≠ b.child.name := by
  intro same
  obtain ⟨r', mother, there, named, counted⟩ :=
    sound.descends b.mating member r i present (same.trans gives.named)
  obtain rfl := sound.distinct _ _ _ _ there gives.mother named
  obtain rfl : mother = b.mother := Option.some.inj (there.symm.trans gives.mother)
  exact Nat.not_succ_le_self _ counted

/-- Everybody but the child was there before under the same name. -/
theorem before [DecidableEq ρ] (gives : b.Gives nameOf h h') {r : ρ} {i : Individual N} (present : h' r = some i) :
    (r = b.childAt ∧ i = b.child) ∨ ∃ q j, h q = some j ∧ j.name = i.name ∧ r = b.moves q := by
  rcases gives.source r i present with ⟨rfl, rfl⟩ | ⟨rfl, rfl⟩ | child | ⟨there, notMother, notFather⟩
  · exact Or.inr ⟨b.motherAt, b.mother, gives.mother, rfl, by simp [moves]⟩
  · exact Or.inr ⟨b.fatherAt, b.father, gives.father, rfl, by simp [moves, gives.apart.symm]⟩
  · exact Or.inl child
  · exact Or.inr ⟨r, i, there, rfl, by simp [moves, notMother, notFather]⟩

theorem distinct [DecidableEq ρ] (gives : b.Gives nameOf h h') (sound : Sound nameOf ms h)
    (member : b.mating ∈ ms) : Distinct h' := by
  intro r r' i i' present present' same
  rcases gives.before present with ⟨rfl, rfl⟩ | ⟨q, j, there, named, rfl⟩
  · rcases gives.before present' with ⟨rfl, _⟩ | ⟨q', j', there', named', _⟩
    · rfl
    · exact absurd (named'.trans same.symm) (gives.unborn sound member there')
  · rcases gives.before present' with ⟨_, rfl⟩ | ⟨q', j', there', named', rfl⟩
    · exact absurd (named.trans same) (gives.unborn sound member there)
    · exact congrArg b.moves (sound.distinct _ _ _ _ there there' (named.trans (same.trans named'.symm)))

theorem sound [DecidableEq ρ] [DecidableEq N] (gives : b.Gives nameOf h h') (sound : Sound nameOf ms h)
    (member : b.mating ∈ ms) (injective : Set.InjOn nameOf ms) : Sound nameOf ms h' := by
  refine ⟨gives.distinct sound member, fun m inside r i present named => ?_⟩
  rcases gives.before present with ⟨_, rfl⟩ | ⟨q, j, there, same, _⟩
  · obtain rfl : m = b.mating := injective inside member (named.symm.trans gives.named)
    exact ⟨b.motherTo, _, gives.motherOlder, rfl, Nat.le_refl _⟩
  · obtain ⟨q', mother, ancestor, name, counted⟩ := sound.descends m inside q j there (same.trans named)
    obtain ⟨r', mother', later, name', _, grown⟩ := gives.persists sound.distinct ancestor
    exact ⟨r', mother', later, name'.trans name, by omega⟩

end Birth.Gives

/-! ### Runs -/

inductive Run (nameOf : Mating N → N) : Herd ρ N → List (Mating N) → Herd ρ N → Prop
  | done (h : Herd ρ N) : Run nameOf h [] h
  | birth {h h₁ h' : Herd ρ N} {b : Birth ρ N} {ms : List (Mating N)} (gives : b.Gives nameOf h h₁)
      (later : Run nameOf h₁ ms h') : Run nameOf h (b.mating :: ms) h'

namespace Run
variable [DecidableEq ρ] [DecidableEq N] {nameOf : Mating N → N} {h h' : Herd ρ N} {ms : Set (Mating N)}
  {births : List (Mating N)}

theorem sound (run : Run nameOf h births h') (sound : Sound nameOf ms h) (within : ∀ m ∈ births, m ∈ ms)
    (injective : Set.InjOn nameOf ms) : Sound nameOf ms h' := by
  induction run with
  | done h => exact sound
  | birth gives _ ih =>
    obtain ⟨first, rest⟩ := List.forall_mem_cons.mp within
    exact ih (gives.sound sound first injective) rest

/-- A name stays, with a count of the births that it is a parent of. -/
theorem persists (run : Run nameOf h births h') (sound : Sound nameOf ms h) (within : ∀ m ∈ births, m ∈ ms)
    (injective : Set.InjOn nameOf ms) {r : ρ} {i : Individual N} (present : h r = some i) :
    ∃ r' i', h' r' = some i' ∧ i'.name = i.name ∧ i'.used + i'.left = i.used + i.left ∧
      i'.used = i.used + births.countP fun m => m.Parent i.name := by
  induction run generalizing r i with
  | done h => exact ⟨r, i, present, rfl, rfl, rfl⟩
  | @birth h h₁ h' b births gives _ ih =>
    obtain ⟨first, rest⟩ := List.forall_mem_cons.mp within
    obtain ⟨r₁, i₁, there, name, sum, used⟩ := gives.persists sound.distinct present
    obtain ⟨r', i', later, name', sum', used'⟩ := ih (gives.sound sound first injective) rest there
    refine ⟨r', i', later, name'.trans name, sum'.trans sum, ?_⟩
    rw [used', used, name, List.countP_cons]
    by_cases parent : b.mating.Parent i.name <;> simp [parent]
    omega

end Run
end Pedigree
