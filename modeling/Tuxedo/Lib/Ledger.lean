import Mathlib.Data.Set.Insert
import Mathlib.Tactic.Common

/-!
# Ledgers of unspent outputs

A ledger maps references to outputs. A transaction consumes references that are there and
creates references that are not. Nothing here says what an output or a transaction is.
-/

namespace Ledger
variable {R O T : Type}

/-- One transaction on a ledger. -/
structure Step (consumed : Set R) (created u u' : R → Option O) : Prop where
  present : ∀ r ∈ consumed, ∃ output, u r = some output
  fresh : ∀ r output, created r = some output → u r = none
  read_created : ∀ r output, created r = some output → u' r = some output
  read_consumed : ∀ r ∈ consumed, u' r = none
  read_other : ∀ r ∉ consumed, created r = none → u' r = u r

namespace Step
variable {consumed : Set R} {created u u' : R → Option O}

/-- An output that is there afterwards was created now or has been there. -/
theorem source (step : Step consumed created u u') {r : R} {output : O} (after : u' r = some output) :
    created r = some output ∨ (r ∉ consumed ∧ u r = some output) := by
  by_cases spent : r ∈ consumed
  · rw [step.read_consumed r spent] at after
    cases after
  · cases made : created r with
    | none => exact Or.inr ⟨spent, (step.read_other r spent made).symm.trans after⟩
    | some other =>
      rw [step.read_created r other made] at after
      exact Or.inl after

/-- What is there is not created. -/
theorem unmade (step : Step consumed created u u') {r : R} {output : O} (before : u r = some output) :
    created r = none := by
  cases made : created r with
  | none => rfl
  | some other =>
    have absent := step.fresh r other made
    rw [before] at absent
    cases absent

theorem kept (step : Step consumed created u u') {r : R} {output : O} (before : u r = some output)
    (unspent : r ∉ consumed) : u' r = some output := (step.read_other r unspent (step.unmade before)).trans before

/-- An output is lost by being consumed, and in no other way. -/
theorem lost (step : Step consumed created u u') {r : R} {output : O} (before : u r = some output)
    (after : u' r ≠ some output) : r ∈ consumed := by
  by_contra unspent
  exact after (step.kept before unspent)

theorem idle (unspent : ∀ r, r ∉ consumed) (unmade : ∀ r, created r = none) : Step consumed created u u where
  present r spent := absurd spent (unspent r)
  fresh r output made := by
    rw [unmade] at made
    cases made
  read_created r output made := by
    rw [unmade] at made
    cases made
  read_consumed r spent := absurd spent (unspent r)
  read_other _ _ _ := rfl

/-- One reference is consumed and one is created. -/
theorem move [DecidableEq R] {spent made : R} {old new : O} (consumes : ∀ r, r ∈ consumed ↔ r = spent)
    (creates : ∀ r, created r = if r = made then some new else none) (before : u spent = some old)
    (fresh : u made = none) (after : ∀ r, u' r = if r = made then some new else if r = spent then none else u r) :
    Step consumed created u u' := by
  have apart : spent ≠ made := by
    intro same
    rw [same, fresh] at before
    cases before
  have made_of : ∀ r output, created r = some output → r = made ∧ output = new := by
    intro r output creation
    rw [creates] at creation
    split at creation
    · rename_i same
      exact ⟨same, (Option.some.inj creation).symm⟩
    · cases creation
  refine ⟨?_, ?_, ?_, ?_, ?_⟩
  · intro r member
    rw [(consumes r).mp member]
    exact ⟨old, before⟩
  · intro r output creation
    rw [(made_of r output creation).1, fresh]
  · intro r output creation
    obtain ⟨rfl, rfl⟩ := made_of r output creation
    rw [after, if_pos rfl]
  · intro r member
    rw [(consumes r).mp member, after, if_neg apart, if_pos rfl]
  · intro r unspent unmade
    have other : r ≠ made := by
      intro same
      rw [creates, if_pos same] at unmade
      cases unmade
    rw [after, if_neg other, if_neg fun same => unspent ((consumes r).mpr same)]

end Step

/-! ### Histories -/

section
variable (consumes : T → Set R) (creates : T → R → Option O)

inductive Run : (R → Option O) → List T → (R → Option O) → Prop
  | done (u : R → Option O) : Run u [] u
  | step {u u₁ u' : R → Option O} {t : T} {ts : List T} (first : Step (consumes t) (creates t) u u₁)
      (later : Run u₁ ts u') : Run u (t :: ts) u'

def Creating (t : T) : Prop := ∃ r output, creates t r = some output

/-- No two transactions of the set create one reference. -/
def Apart (ts : Set T) : Prop :=
  ∀ t ∈ ts, ∀ t' ∈ ts, ∀ r output output', creates t r = some output → creates t' r = some output' → t = t'

/-- What the transactions of the past leave behind: the outputs that are there come from them,
and what they consumed came from them and stays away. -/
structure History (past : Set T) (u : R → Option O) : Prop where
  source : ∀ r output, u r = some output → ∃ t ∈ past, ∃ made, creates t r = some made
  spent : ∀ t ∈ past, ∀ r ∈ consumes t, u r = none ∧ ∃ t' ∈ past, ∃ made, creates t' r = some made

variable {consumes creates} {past : Set T} {u u' : R → Option O} {t : T}

/-- A transaction of the past that consumed something cannot be applied again. -/
theorem History.not_again (history : History consumes creates past u) (step : Step (consumes t) (creates t) u u')
    (consuming : ∃ r, r ∈ consumes t) : t ∉ past := by
  intro again
  obtain ⟨r, member⟩ := consuming
  obtain ⟨output, present⟩ := step.present r member
  rw [(history.spent t again r member).1] at present
  cases present

theorem History.step (history : History consumes creates past u) (apart : Apart creates (insert t past))
    (step : Step (consumes t) (creates t) u u')
    (new : Creating creates t → (∀ r, r ∉ consumes t) → t ∉ past) :
    (Creating creates t → t ∉ past) ∧ History consumes creates (insert t past) u' := by
  have once : Creating creates t → t ∉ past := by
    intro creating
    by_cases consuming : ∃ r, r ∈ consumes t
    · exact history.not_again step consuming
    · exact new creating (not_exists.mp consuming)
  refine ⟨once, ?_, ?_⟩
  · intro r output after
    rcases step.source after with made | ⟨_, before⟩
    · exact ⟨t, Set.mem_insert t past, output, made⟩
    · obtain ⟨t', member, made⟩ := history.source r output before
      exact ⟨t', Set.mem_insert_of_mem t member, made⟩
  · intro t₀ member r consumed
    rcases Set.mem_insert_iff.mp member with rfl | earlier
    · obtain ⟨output, before⟩ := step.present r consumed
      obtain ⟨t', member, made⟩ := history.source r output before
      exact ⟨step.read_consumed r consumed, t', Set.mem_insert_of_mem t₀ member, made⟩
    · obtain ⟨gone, t', creator, made, creation⟩ := history.spent t₀ earlier r consumed
      refine ⟨?_, t', Set.mem_insert_of_mem t creator, made, creation⟩
      -- The only transaction that could bring the reference back is its creator, which is past.
      have unmade : creates t r = none := by
        cases again : creates t r with
        | none => rfl
        | some output =>
          have same := apart t (Set.mem_insert t past) t' (Set.mem_insert_of_mem t creator) r output made again creation
          exact absurd (same ▸ creator) (once ⟨r, output, again⟩)
      have unspent : r ∉ consumes t := by
        intro spent
        obtain ⟨output, present⟩ := step.present r spent
        rw [gone] at present
        cases present
      exact (step.read_other r unspent unmade).trans gone

/-- An output that is there at the end was created on the way or has been there. -/
theorem Run.source {ts : List T} (run : Run consumes creates u ts u') {r : R} {output : O}
    (after : u' r = some output) : (∃ t ∈ ts, creates t r = some output) ∨ u r = some output := by
  induction run with
  | done u => exact Or.inr after
  | step first _ ih =>
    rcases ih after with ⟨t, member, made⟩ | between
    · exact Or.inl ⟨t, List.mem_cons_of_mem _ member, made⟩
    · rcases first.source between with made | ⟨_, before⟩
      · exact Or.inl ⟨_, List.mem_cons_self, made⟩
      · exact Or.inr before

theorem Run.split {ts ts' : List T} (run : Run consumes creates u (ts ++ ts') u') :
    ∃ u₁, Run consumes creates u ts u₁ ∧ Run consumes creates u₁ ts' u' := by
  induction ts generalizing u with
  | nil => exact ⟨u, .done u, run⟩
  | cons t ts ih =>
    cases run with
    | step first later =>
      obtain ⟨u₁, before, after⟩ := ih later
      exact ⟨u₁, .step first before, after⟩

/-- The second of two transactions does not repeat the first and spends nothing that it spent. -/
def Unlike (consumes : T → Set R) (creates : T → R → Option O) (t t' : T) : Prop :=
  (Creating creates t' → t ≠ t') ∧ ∀ r ∈ consumes t, r ∉ consumes t'

/-- The second does not repeat the first if it creates something out of nothing. -/
def Unrepeated (consumes : T → Set R) (creates : T → R → Option O) (t t' : T) : Prop :=
  Creating creates t' → (∀ r, r ∉ consumes t') → t ≠ t'

/-- Along a run, a transaction that creates something is applied once and a reference is
consumed once, provided that no transaction that consumes nothing is repeated. -/
theorem Run.unlike {ts : List T} (run : Run consumes creates u ts u')
    (history : History consumes creates past u) (apart : Apart creates (past ∪ {t | t ∈ ts}))
    (notPast : ∀ t₀ ∈ past, ∀ t ∈ ts, Unrepeated consumes creates t₀ t)
    (notTwice : ts.Pairwise (Unrepeated consumes creates)) :
    (∀ t₀ ∈ past, ∀ t ∈ ts, Unlike consumes creates t₀ t) ∧ ts.Pairwise (Unlike consumes creates) ∧
      History consumes creates (past ∪ {t | t ∈ ts}) u' := by
  induction run generalizing past with
  | done u => simpa using history
  | @step u u₁ u' t ts first later ih =>
    obtain ⟨unrepeated, notTwice⟩ := List.pairwise_cons.mp notTwice
    have cover : insert t past ∪ {t' | t' ∈ ts} = past ∪ {t' | t' ∈ t :: ts} := by
      ext t'
      simp only [Set.mem_union, Set.mem_insert_iff, Set.mem_ofPred_eq, List.mem_cons]
      tauto
    have near : Apart creates (insert t past) := by
      intro t₁ member₁ t₂ member₂
      exact apart t₁ (cover ▸ Set.mem_union_left _ member₁) t₂ (cover ▸ Set.mem_union_left _ member₂)
    have new : Creating creates t → (∀ r, r ∉ consumes t) → t ∉ past := fun creating inputless earlier =>
      notPast t earlier t List.mem_cons_self creating inputless rfl
    obtain ⟨once, next⟩ := history.step near first new
    have laterUnrepeated : ∀ t₀ ∈ insert t past, ∀ t' ∈ ts, Unrepeated consumes creates t₀ t' := by
      intro t₀ earlier t' member
      rcases Set.mem_insert_iff.mp earlier with rfl | earlier
      · exact unrepeated t' member
      · exact notPast t₀ earlier t' (List.mem_cons_of_mem _ member)
    obtain ⟨unlikePast, pairwise, final⟩ := ih next (cover ▸ apart) laterUnrepeated notTwice
    refine ⟨?_, List.pairwise_cons.mpr ⟨unlikePast t (Set.mem_insert t past), pairwise⟩, cover ▸ final⟩
    intro t₀ earlier t' member
    rcases List.mem_cons.mp member with rfl | member
    · refine ⟨fun creating same => once creating (same ▸ earlier), ?_⟩
      intro r spent again
      obtain ⟨output, present⟩ := first.present r again
      rw [(history.spent t₀ earlier r spent).1] at present
      cases present
    · exact unlikePast t₀ (Set.mem_insert_of_mem t earlier) t' member

end

/-! ### Views -/

section
variable {M : Type} {consumed : Set R} {created u u' : R → Option O}

/-- An update that may create again what is already there. -/
structure Update (consumed : Set R) (created u u' : R → Option O) : Prop where
  apart : ∀ r output, created r = some output → r ∉ consumed
  agrees : ∀ r output before, created r = some output → u r = some before → before = output
  read_created : ∀ r output, created r = some output → u' r = some output
  read_consumed : ∀ r ∈ consumed, u' r = none
  read_other : ∀ r ∉ consumed, created r = none → u' r = u r

theorem Step.update (step : Step consumed created u u') : Update consumed created u u' where
  apart r output made spent := by
    obtain ⟨before, present⟩ := step.present r spent
    rw [step.fresh r output made] at present
    cases present
  agrees r output before made present := by
    rw [step.fresh r output made] at present
    cases present
  read_created := step.read_created
  read_consumed := step.read_consumed
  read_other := step.read_other

/-- What a reader keeps of the outputs. -/
def view (keep : O → Option M) (u : R → Option O) (r : R) : Option M := (u r).bind keep

/-- Adding what it keeps of the new outputs and dropping what is consumed, a reader follows the
ledger. -/
theorem Update.view_eq (update : Update consumed created u u') {keep : O → Option M} {seen seen' : R → Option M}
    (before : ∀ r, seen r = view keep u r) (dropped : ∀ r ∈ consumed, seen' r = none)
    (added : ∀ r ∉ consumed, seen' r = ((created r).bind keep).or (seen r)) (r : R) : seen' r = view keep u' r := by
  by_cases spent : r ∈ consumed
  · rw [dropped r spent, view, update.read_consumed r spent]
    rfl
  · rw [added r spent, before r]
    cases made : created r with
    | none => rw [view, view, update.read_other r spent made, Option.bind_none, Option.none_or]
    | some output =>
      rw [view, view, update.read_created r output made, Option.bind_some]
      cases kept : keep output with
      | some m => rfl
      | none =>
        cases present : u r with
        | none => rfl
        | some old => rw [update.agrees r output old made present, Option.bind_some, kept, Option.none_or]

end
end Ledger
