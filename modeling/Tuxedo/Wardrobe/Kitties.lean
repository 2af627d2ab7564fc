import Tuxedo.Core.ConstraintChecker

/-!
# Kitties

The free breeding game. Arithmetic on the counters is machine arithmetic.
-/

namespace Tuxedo.Kitties
open Scale

structure FreeKittyConstraintChecker where
  deriving DecidableEq

instance : Codec FreeKittyConstraintChecker := .ofFields Unit (fun _ => ()) (fun _ => ⟨⟩) (fun _ => rfl)

inductive DadKittyStatus where
  | rearinToGo
  | tired
  deriving DecidableEq

inductive MomKittyStatus where
  | rearinToGo
  | hadBirthRecently
  deriving DecidableEq

inductive Parent where
  | mom (status : MomKittyStatus)
  | dad (status : DadKittyStatus)
  deriving DecidableEq

/-- The status is the index of its variant. -/
instance : Codec Parent :=
  .ofVariants (fun
      | .mom _ => 0
      | .dad _ => 1)
    (fun
      | .mom .rearinToGo => [0]
      | .mom .hadBirthRecently => [1]
      | .dad .rearinToGo => [0]
      | .dad .tired => [1])
    (fun i bytes =>
      match i, bytes with
      | 0, 0 :: bytes => some (.mom .rearinToGo, bytes)
      | 0, 1 :: bytes => some (.mom .hadBirthRecently, bytes)
      | 1, 0 :: bytes => some (.dad .rearinToGo, bytes)
      | 1, 1 :: bytes => some (.dad .tired, bytes)
      | _, _ => none)
    (fun parent rest => by rcases parent with status | status <;> cases status <;> rfl)

abbrev KittyDNA := H256

structure KittyData where
  parent : Parent
  freeBreedings : UInt64
  dna : KittyDNA
  numBreedings : U128
  deriving DecidableEq

instance : UtxoData KittyData where
  toCodec := .ofFields (Parent × UInt64 × KittyDNA × U128)
    (fun k => (k.parent, k.freeBreedings, k.dna, k.numBreedings))
    (fun p => ⟨p.1, p.2.1, p.2.2.1, p.2.2.2⟩) (fun _ => rfl)
  typeId := ⟨[75, 105, 116, 116], rfl⟩

inductive ConstraintCheckerError where
  | badlyTyped
  | noEvictionsAllowed
  | minimumSpendAndBreedNotMet
  | twoParentsDoNotExist
  | notEnoughFamilyMembers
  | momNotReadyYet
  | dadTooTired
  | twoMomsNotValid
  | twoDadsNotValid
  | newMomIsStillRearinToGo
  | newDadIsStillRearinToGo
  | newParentFreeBreedingsIncorrect
  | newParentDnaDoesntMatchOld
  | newParentNumberBreedingsIncorrect
  | newChildDnaIncorrect
  | newChildFreeBreedingsIncorrect
  | newChildHasNonZeroBreedings
  | newChildIncorrectParentInfo
  | tooManyBreedingsForKitty
  | notEnoughFreeBreedings
  deriving DecidableEq

def numFreeBreedings : UInt64 := 2

def checkedSucc (n : U128) : Option U128 := if n.toNat + 1 < 2 ^ 128 then some (n + 1) else none

def checkMomCanBreed (mom : KittyData) : Outcome ConstraintCheckerError Unit := do
  match mom.parent with
  | .mom .hadBirthRecently => .error (.err .momNotReadyYet)
  | .mom .rearinToGo => pure ()
  | .dad _ => .error (.err .twoDadsNotValid)
  let _ ← okOr (checkedSucc mom.numBreedings) .tooManyBreedingsForKitty

def checkDadCanBreed (dad : KittyData) : Outcome ConstraintCheckerError Unit := do
  match dad.parent with
  | .dad .tired => .error (.err .dadTooTired)
  | .dad .rearinToGo => pure ()
  | .mom _ => .error (.err .twoMomsNotValid)
  let _ ← okOr (checkedSucc dad.numBreedings) .tooManyBreedingsForKitty

def checkFreeBreedings (mom dad : KittyData) : Outcome ConstraintCheckerError Unit :=
  ensure (¬(mom.freeBreedings = 0 ∨ dad.freeBreedings = 0)) .notEnoughFreeBreedings

def canBreed (mom dad : KittyData) : Outcome ConstraintCheckerError Unit := do
  checkMomCanBreed mom
  checkDadCanBreed dad
  checkFreeBreedings mom dad

/-- `n - 1`, in a build with overflow checks or without. -/
def decrement (checks : Bool) (n : UInt64) : Outcome ConstraintCheckerError UInt64 :=
  if checks then expect (if n = 0 then none else some (n - 1)) else .ok (n - 1)

/-- `n + 1`, in a build with overflow checks or without. -/
def increment (checks : Bool) (n : U128) : Outcome ConstraintCheckerError U128 :=
  if checks then expect (checkedSucc n) else .ok (n + 1)

def checkNewMom (checks : Bool) (oldMom newMom : KittyData) : Outcome ConstraintCheckerError Unit := do
  match newMom.parent with
  | .mom .rearinToGo => .error (.err .newMomIsStillRearinToGo)
  | .mom .hadBirthRecently => pure ()
  | .dad _ => .error (.err .twoDadsNotValid)
  let freeBreedings ← decrement checks oldMom.freeBreedings
  ensure (newMom.freeBreedings = freeBreedings) .newParentFreeBreedingsIncorrect
  let numBreedings ← increment checks oldMom.numBreedings
  ensure (newMom.numBreedings = numBreedings) .newParentNumberBreedingsIncorrect
  ensure (newMom.dna = oldMom.dna) .newParentDnaDoesntMatchOld

def checkNewDad (checks : Bool) (oldDad newDad : KittyData) : Outcome ConstraintCheckerError Unit := do
  match newDad.parent with
  | .dad .rearinToGo => .error (.err .newDadIsStillRearinToGo)
  | .dad .tired => pure ()
  | .mom _ => .error (.err .twoMomsNotValid)
  let freeBreedings ← decrement checks oldDad.freeBreedings
  ensure (newDad.freeBreedings = freeBreedings) .newParentFreeBreedingsIncorrect
  let numBreedings ← increment checks oldDad.numBreedings
  ensure (newDad.numBreedings = numBreedings) .newParentNumberBreedingsIncorrect
  ensure (newDad.dna = oldDad.dna) .newParentDnaDoesntMatchOld

def checkChild [Host] (newMom newDad child : KittyData) : Outcome ConstraintCheckerError Unit := do
  let newDna := hashOf (newMom.dna, newDad.dna, newMom.numBreedings, newDad.numBreedings)
  ensure (child.dna = newDna) .newChildDnaIncorrect
  ensure (child.freeBreedings = numFreeBreedings) .newChildFreeBreedingsIncorrect
  ensure (child.numBreedings = 0) .newChildHasNonZeroBreedings
  match child.parent with
  | .mom .hadBirthRecently => .error (.err .newChildIncorrectParentInfo)
  | .dad .tired => .error (.err .newChildIncorrectParentInfo)
  | _ => pure ()

/-- `TryFrom` of a kitty, at an index that panics when it is out of bounds. -/
def kittyAt (data : List DynamicallyTypedData) (index : Nat) : Outcome ConstraintCheckerError KittyData := do
  let datum ← expect data[index]?
  orErr (datum.extract KittyData) .badlyTyped

def checkNewFamily [Host] (checks : Bool) (oldMom oldDad : KittyData) (newFamily : List DynamicallyTypedData) :
    Outcome ConstraintCheckerError Unit := do
  ensure (newFamily.length = 3) .notEnoughFamilyMembers
  let newMom ← kittyAt newFamily 0
  let newDad ← kittyAt newFamily 1
  let child ← kittyAt newFamily 2
  checkNewMom checks oldMom newMom
  checkNewDad checks oldDad newDad
  checkChild newMom newDad child

/-- `check`, in a build with overflow checks or without. -/
def checkIn [Host] (checks : Bool) (inputData evictedInputData _peeks outputData : List DynamicallyTypedData) :
    Outcome ConstraintCheckerError UInt64 := do
  ensure (evictedInputData.isEmpty) .noEvictionsAllowed
  ensure (inputData.length = 2) .twoParentsDoNotExist
  let mom ← kittyAt inputData 0
  let dad ← kittyAt inputData 1
  canBreed mom dad
  ensure (outputData.length = 3) .notEnoughFamilyMembers
  checkNewFamily checks mom dad outputData
  return 0

def check [Host] (inputData evictedInputData peeks outputData : List DynamicallyTypedData) :
    Outcome ConstraintCheckerError UInt64 :=
  checkIn false inputData evictedInputData peeks outputData

/-- The check in a build whose arithmetic panics when it does not fit. -/
def OverflowChecks.check [Host] (inputData evictedInputData peeks outputData : List DynamicallyTypedData) :
    Outcome ConstraintCheckerError UInt64 :=
  checkIn true inputData evictedInputData peeks outputData

instance [Host] : SimpleConstraintChecker FreeKittyConstraintChecker where
  Error := ConstraintCheckerError
  check _ inputData evictedInputData peeks outputData :=
    Exec.lift (check inputData evictedInputData peeks outputData)

/-! ### What a passed check says -/

open DynamicallyTypedData

theorem kittyAt_ok {data : List DynamicallyTypedData} {i : Nat} {kitty : KittyData} :
    kittyAt data i = .ok kitty ↔ ∃ d, data[i]? = some d ∧ d.extract KittyData = .ok kitty := by
  constructor
  · intro h
    obtain ⟨d, found, h⟩ := Outcome.bind_ok h
    exact ⟨d, Outcome.expect_ok found, Outcome.orErr_ok h⟩
  · rintro ⟨d, found, extracted⟩
    unfold kittyAt
    rw [found]
    exact Outcome.orErr_of_ok extracted _

theorem kittyAt_answers {data : List DynamicallyTypedData} {i : Nat} (inside : i < data.length) :
    (kittyAt data i).Answers := by
  unfold kittyAt
  rw [List.getElem?_eq_getElem inside]
  exact Outcome.orErr_answers _ _

/-- A parent after the breeding. -/
structure Aged (old new : KittyData) : Prop where
  free : 0 < old.freeBreedings.toNat
  dna : new.dna = old.dna
  freeBreedings : new.freeBreedings.toNat = old.freeBreedings.toNat - 1
  numBreedings : new.numBreedings.toNat = old.numBreedings.toNat + 1

/-- The family before and after a breeding. -/
structure Bred [Host] (mom dad newMom newDad child : KittyData) : Prop where
  kinds : mom.parent ≠ dad.parent
  mom : Aged mom newMom
  dad : Aged dad newDad
  dna : child.dna = hashOf (newMom.dna, newDad.dna, newMom.numBreedings, newDad.numBreedings)
  freeBreedings : child.freeBreedings = numFreeBreedings
  numBreedings : child.numBreedings = 0

/-! ### The parents before -/

/-- A kitty with free breedings left and room in its count. -/
structure Able (kitty : KittyData) : Prop where
  free : kitty.freeBreedings ≠ 0
  room : kitty.numBreedings.toNat + 1 < 2 ^ 128

/-- Where a kitty is able the arithmetic fits. -/
theorem Able.decrement {kitty : KittyData} (able : Able kitty) (checks : Bool) :
    decrement checks kitty.freeBreedings = .ok (kitty.freeBreedings - 1) := by
  unfold Kitties.decrement
  rw [if_neg able.free]
  cases checks <;> rfl

theorem Able.increment {kitty : KittyData} (able : Able kitty) (checks : Bool) :
    increment checks kitty.numBreedings = .ok (kitty.numBreedings + 1) := by
  unfold Kitties.increment checkedSucc
  rw [if_pos able.room]
  cases checks <;> rfl

/-- A mom and a dad that can breed. -/
structure Couple (mom dad : KittyData) : Prop where
  momReady : mom.parent = .mom .rearinToGo
  dadReady : dad.parent = .dad .rearinToGo
  momAble : Able mom
  dadAble : Able dad

theorem Couple.kinds {mom dad : KittyData} (couple : Couple mom dad) : mom.parent ≠ dad.parent := by
  rw [couple.momReady, couple.dadReady]
  decide

theorem checkedSucc_isSome {n : U128} {e : ConstraintCheckerError} :
    (do let _ ← okOr (checkedSucc n) e) = .ok () ↔ n.toNat + 1 < 2 ^ 128 := by
  unfold checkedSucc
  constructor
  · intro h
    obtain ⟨_, found, _⟩ := Outcome.bind_ok h
    have found := Outcome.okOr_ok found
    split at found
    · assumption
    · cases found
  · intro room
    rw [if_pos room]
    rfl

theorem checkMomCanBreed_ok {mom : KittyData} :
    checkMomCanBreed mom = .ok () ↔ mom.parent = .mom .rearinToGo ∧ mom.numBreedings.toNat + 1 < 2 ^ 128 := by
  unfold checkMomCanBreed
  split
  · rename_i resting
    exact iff_of_false (fun h => by cases h) (by simp [resting])
  · rename_i ready
    rw [ready]
    simpa using checkedSucc_isSome
  · rename_i other
    exact iff_of_false (fun h => by cases h) (by simp [other])

theorem checkDadCanBreed_ok {dad : KittyData} :
    checkDadCanBreed dad = .ok () ↔ dad.parent = .dad .rearinToGo ∧ dad.numBreedings.toNat + 1 < 2 ^ 128 := by
  unfold checkDadCanBreed
  split
  · rename_i resting
    exact iff_of_false (fun h => by cases h) (by simp [resting])
  · rename_i ready
    rw [ready]
    simpa using checkedSucc_isSome
  · rename_i other
    exact iff_of_false (fun h => by cases h) (by simp [other])

theorem canBreed_ok {mom dad : KittyData} : canBreed mom dad = .ok () ↔ Couple mom dad := by
  constructor
  · intro h
    obtain ⟨_, momAble, h⟩ := Outcome.bind_ok h
    obtain ⟨_, dadAble, free⟩ := Outcome.bind_ok h
    obtain ⟨momKind, momRoom⟩ := checkMomCanBreed_ok.mp momAble
    obtain ⟨dadKind, dadRoom⟩ := checkDadCanBreed_ok.mp dadAble
    obtain ⟨momFree, dadFree⟩ := not_or.mp (Outcome.ensure_ok free)
    exact ⟨momKind, dadKind, ⟨momFree, momRoom⟩, dadFree, dadRoom⟩
  · rintro ⟨momKind, dadKind, ⟨momFree, momRoom⟩, dadFree, dadRoom⟩
    unfold canBreed
    rw [Outcome.bind_of_ok (checkMomCanBreed_ok.mpr ⟨momKind, momRoom⟩),
      Outcome.bind_of_ok (checkDadCanBreed_ok.mpr ⟨dadKind, dadRoom⟩)]
    exact Outcome.ensure_of _ (not_or.mpr ⟨momFree, dadFree⟩)

theorem canBreed_answers (mom dad : KittyData) : (canBreed mom dad).Answers := by
  have counts : ∀ n : U128, (do let _ ← okOr (checkedSucc n) .tooManyBreedingsForKitty :
      Outcome ConstraintCheckerError Unit).Answers := fun n =>
    (Outcome.okOr_answers _ _).bind fun _ _ => Outcome.pure_answers _
  refine Outcome.Answers.bind ?_ fun _ _ => Outcome.Answers.bind ?_ fun _ _ => Outcome.ensure_answers _ _
  · unfold checkMomCanBreed
    split
    · nofun
    · exact counts _
    · nofun
  · unfold checkDadCanBreed
    split
    · nofun
    · exact counts _
    · nofun

/-! ### The family after -/

/-- The machine arithmetic on the counters is exact. -/
theorem Able.aged_iff {old new : KittyData} (able : Able old) :
    Aged old new ↔ new.freeBreedings = old.freeBreedings - 1 ∧ new.numBreedings = old.numBreedings + 1 ∧
      new.dna = old.dna := by
  have positive : 0 < old.freeBreedings.toNat := Nat.pos_of_ne_zero fun zero => able.free (UInt64.toNat_inj.mp zero)
  have pred : (old.freeBreedings - 1).toNat = old.freeBreedings.toNat - 1 := by
    rw [UInt64.toNat_sub_of_le]
    · rfl
    · exact UInt64.le_iff_toNat_le.mpr positive
  have succ : (old.numBreedings + 1).toNat = old.numBreedings.toNat + 1 := by
    rw [BitVec.toNat_add]
    exact Nat.mod_eq_of_lt able.room
  constructor
  · rintro ⟨_, dna, freeBreedings, numBreedings⟩
    exact ⟨UInt64.toNat_inj.mp (freeBreedings.trans pred.symm),
      BitVec.eq_of_toNat_eq (numBreedings.trans succ.symm), dna⟩
  · rintro ⟨freeBreedings, numBreedings, dna⟩
    exact ⟨positive, dna, by rw [freeBreedings, pred], by rw [numBreedings, succ]⟩

/-- The checks that a new mother and a new father share. -/
theorem Able.aged_checks {old new : KittyData} (able : Able old) :
    (do ensure (new.freeBreedings = old.freeBreedings - 1) .newParentFreeBreedingsIncorrect
        ensure (new.numBreedings = old.numBreedings + 1) .newParentNumberBreedingsIncorrect
        ensure (new.dna = old.dna) .newParentDnaDoesntMatchOld : Outcome ConstraintCheckerError Unit) = .ok () ↔
      Aged old new := by
  rw [able.aged_iff]
  constructor
  · intro h
    obtain ⟨_, freeBreedings, h⟩ := Outcome.bind_ok h
    obtain ⟨_, numBreedings, dna⟩ := Outcome.bind_ok h
    exact ⟨Outcome.ensure_ok freeBreedings, Outcome.ensure_ok numBreedings, Outcome.ensure_ok dna⟩
  · rintro ⟨freeBreedings, numBreedings, dna⟩
    refine (Outcome.bind_of_ok (Outcome.ensure_of _ freeBreedings)).trans ?_
    exact (Outcome.bind_of_ok (Outcome.ensure_of _ numBreedings)).trans (Outcome.ensure_of _ dna)

theorem checkNewMom_ok {oldMom newMom : KittyData} (able : Able oldMom) :
    checkNewMom false oldMom newMom = .ok () ↔ newMom.parent = .mom .hadBirthRecently ∧ Aged oldMom newMom := by
  unfold checkNewMom
  split
  · rename_i ready
    exact iff_of_false (fun h => by cases h) (by simp [ready])
  · rename_i resting
    exact able.aged_checks.trans (and_iff_right resting).symm
  · rename_i other
    exact iff_of_false (fun h => by cases h) (by simp [other])

theorem checkNewDad_ok {oldDad newDad : KittyData} (able : Able oldDad) :
    checkNewDad false oldDad newDad = .ok () ↔ newDad.parent = .dad .tired ∧ Aged oldDad newDad := by
  unfold checkNewDad
  split
  · rename_i ready
    exact iff_of_false (fun h => by cases h) (by simp [ready])
  · rename_i resting
    exact able.aged_checks.trans (and_iff_right resting).symm
  · rename_i other
    exact iff_of_false (fun h => by cases h) (by simp [other])

theorem checkNewMom_answers (oldMom newMom : KittyData) : (checkNewMom false oldMom newMom).Answers := by
  unfold checkNewMom
  split
  · nofun
  · refine (Outcome.pure_answers _).bind fun _ _ => (Outcome.ensure_answers _ _).bind fun _ _ => ?_
    refine (Outcome.pure_answers _).bind fun _ _ => (Outcome.ensure_answers _ _).bind fun _ _ => ?_
    exact Outcome.ensure_answers _ _
  · nofun

theorem checkNewDad_answers (oldDad newDad : KittyData) : (checkNewDad false oldDad newDad).Answers := by
  unfold checkNewDad
  split
  · nofun
  · refine (Outcome.pure_answers _).bind fun _ _ => (Outcome.ensure_answers _ _).bind fun _ _ => ?_
    refine (Outcome.pure_answers _).bind fun _ _ => (Outcome.ensure_answers _ _).bind fun _ _ => ?_
    exact Outcome.ensure_answers _ _
  · nofun

/-- A child as the two parents make it. -/
structure Born [Host] (newMom newDad child : KittyData) : Prop where
  dna : child.dna = hashOf (newMom.dna, newDad.dna, newMom.numBreedings, newDad.numBreedings)
  freeBreedings : child.freeBreedings = numFreeBreedings
  numBreedings : child.numBreedings = 0
  ready : child.parent = .mom .rearinToGo ∨ child.parent = .dad .rearinToGo

theorem checkChild_ok [Host] {newMom newDad child : KittyData} :
    checkChild newMom newDad child = .ok () ↔ Born newMom newDad child := by
  have ready : (match child.parent with
      | .mom .hadBirthRecently => .error (.err .newChildIncorrectParentInfo)
      | .dad .tired => .error (.err .newChildIncorrectParentInfo)
      | _ => pure () : Outcome ConstraintCheckerError Unit) = .ok () ↔
      child.parent = .mom .rearinToGo ∨ child.parent = .dad .rearinToGo := by
    cases child.parent with
    | mom status => cases status <;> simp [pure, Except.pure]
    | dad status => cases status <;> simp [pure, Except.pure]
  constructor
  · intro h
    obtain ⟨_, dna, h⟩ := Outcome.bind_ok h
    obtain ⟨_, freeBreedings, h⟩ := Outcome.bind_ok h
    obtain ⟨_, numBreedings, h⟩ := Outcome.bind_ok h
    exact ⟨Outcome.ensure_ok dna, Outcome.ensure_ok freeBreedings, Outcome.ensure_ok numBreedings, ready.mp h⟩
  · rintro ⟨dna, freeBreedings, numBreedings, kind⟩
    refine (Outcome.bind_of_ok (Outcome.ensure_of _ dna)).trans ?_
    refine (Outcome.bind_of_ok (Outcome.ensure_of _ freeBreedings)).trans ?_
    exact (Outcome.bind_of_ok (Outcome.ensure_of _ numBreedings)).trans (ready.mpr kind)

/-- The two parents after the breeding, and their child. -/
structure Family [Host] (mom dad newMom newDad child : KittyData) : Prop where
  momRests : newMom.parent = .mom .hadBirthRecently
  dadRests : newDad.parent = .dad .tired
  momAged : Aged mom newMom
  dadAged : Aged dad newDad
  born : Born newMom newDad child

/-- Three payloads that are such a family, in this order. -/
def NewFamily [Host] (mom dad : KittyData) (newFamily : List DynamicallyTypedData) : Prop :=
  ∃ c d e newMom newDad child, newFamily = [c, d, e] ∧ c.extract KittyData = .ok newMom ∧
    d.extract KittyData = .ok newDad ∧ e.extract KittyData = .ok child ∧ Family mom dad newMom newDad child

theorem checkNewFamily_ok [Host] {oldMom oldDad : KittyData} {newFamily : List DynamicallyTypedData}
    (couple : Couple oldMom oldDad) :
    checkNewFamily false oldMom oldDad newFamily = .ok () ↔ NewFamily oldMom oldDad newFamily := by
  constructor
  · intro h
    obtain ⟨_, three, h⟩ := Outcome.bind_ok h
    obtain ⟨c, d, e, rfl⟩ := List.length_eq_three.mp (Outcome.ensure_ok three)
    obtain ⟨newMom, momRead, h⟩ := Outcome.bind_ok h
    obtain ⟨newDad, dadRead, h⟩ := Outcome.bind_ok h
    obtain ⟨child, childRead, h⟩ := Outcome.bind_ok h
    obtain ⟨_, newMomPassed, h⟩ := Outcome.bind_ok h
    obtain ⟨_, newDadPassed, childPassed⟩ := Outcome.bind_ok h
    obtain ⟨_, at0, mom⟩ := kittyAt_ok.mp momRead
    obtain ⟨_, at1, dad⟩ := kittyAt_ok.mp dadRead
    obtain ⟨_, at2, kid⟩ := kittyAt_ok.mp childRead
    cases at0
    cases at1
    cases at2
    obtain ⟨momRests, momAged⟩ := (checkNewMom_ok couple.momAble).mp newMomPassed
    obtain ⟨dadRests, dadAged⟩ := (checkNewDad_ok couple.dadAble).mp newDadPassed
    exact ⟨c, d, e, newMom, newDad, child, rfl, mom, dad, kid, momRests, dadRests, momAged, dadAged,
      checkChild_ok.mp childPassed⟩
  · rintro ⟨c, d, e, newMom, newDad, child, rfl, mom, dad, kid, momRests, dadRests, momAged, dadAged, born⟩
    unfold checkNewFamily
    rw [Outcome.bind_of_ok (Outcome.ensure_of _ (show [c, d, e].length = 3 from rfl)),
      Outcome.bind_of_ok (kittyAt_ok.mpr ⟨c, rfl, mom⟩),
      Outcome.bind_of_ok (kittyAt_ok.mpr ⟨d, rfl, dad⟩), Outcome.bind_of_ok (kittyAt_ok.mpr ⟨e, rfl, kid⟩),
      Outcome.bind_of_ok ((checkNewMom_ok couple.momAble).mpr ⟨momRests, momAged⟩),
      Outcome.bind_of_ok ((checkNewDad_ok couple.dadAble).mpr ⟨dadRests, dadAged⟩)]
    exact checkChild_ok.mpr born

/-! ### The check -/

section
variable [Host] {inputData evictedInputData peeks outputData : List DynamicallyTypedData} {priority : UInt64}

/-- A breeding: two parents that can breed, and their new family. -/
structure Breeds (inputData evictedInputData outputData : List DynamicallyTypedData) : Prop where
  noEvictions : evictedInputData = []
  family : ∃ a b mom dad, inputData = [a, b] ∧ a.extract KittyData = .ok mom ∧ b.extract KittyData = .ok dad ∧
    Couple mom dad ∧ NewFamily mom dad outputData

theorem check_iff : check inputData evictedInputData peeks outputData = .ok priority ↔
    Breeds inputData evictedInputData outputData ∧ priority = 0 := by
  constructor
  · intro h
    obtain ⟨_, noEvictions, h⟩ := Outcome.bind_ok h
    obtain ⟨_, two, h⟩ := Outcome.bind_ok h
    obtain ⟨a, b, rfl⟩ := List.length_eq_two.mp (Outcome.ensure_ok two)
    obtain ⟨mom, momRead, h⟩ := Outcome.bind_ok h
    obtain ⟨dad, dadRead, h⟩ := Outcome.bind_ok h
    obtain ⟨_, able, h⟩ := Outcome.bind_ok h
    obtain ⟨_, _, h⟩ := Outcome.bind_ok h
    obtain ⟨_, family, h⟩ := Outcome.bind_ok h
    obtain ⟨_, at0, momIs⟩ := kittyAt_ok.mp momRead
    obtain ⟨_, at1, dadIs⟩ := kittyAt_ok.mp dadRead
    cases at0
    cases at1
    have couple := canBreed_ok.mp able
    refine ⟨⟨List.isEmpty_iff.mp (Outcome.ensure_ok noEvictions), a, b, mom, dad, rfl, momIs, dadIs, couple, ?_⟩, ?_⟩
    · exact (checkNewFamily_ok couple).mp family
    · exact Outcome.pure_ok h
  · rintro ⟨⟨rfl, a, b, mom, dad, rfl, momIs, dadIs, couple, family⟩, rfl⟩
    have three : outputData.length = 3 := by
      obtain ⟨c, d, e, _, _, _, rfl, _⟩ := family
      rfl
    unfold check checkIn
    rw [Outcome.bind_of_ok (Outcome.ensure_of _ List.isEmpty_nil),
      Outcome.bind_of_ok (Outcome.ensure_of _ (show [a, b].length = 2 from rfl)),
      Outcome.bind_of_ok (kittyAt_ok.mpr ⟨a, rfl, momIs⟩), Outcome.bind_of_ok (kittyAt_ok.mpr ⟨b, rfl, dadIs⟩),
      Outcome.bind_of_ok (canBreed_ok.mpr couple), Outcome.bind_of_ok (Outcome.ensure_of _ three),
      Outcome.bind_of_ok ((checkNewFamily_ok couple).mpr family)]
    rfl

/-- The payloads are a mom and a dad, and the two after the breeding with their child. -/
theorem check_family (h : check inputData evictedInputData peeks outputData = .ok priority) :
    evictedInputData = [] ∧ ∃ a b c d e mom dad newMom newDad child, inputData = [a, b] ∧ outputData = [c, d, e] ∧
      a.extract KittyData = .ok mom ∧ b.extract KittyData = .ok dad ∧ c.extract KittyData = .ok newMom ∧
      d.extract KittyData = .ok newDad ∧ e.extract KittyData = .ok child ∧ Bred mom dad newMom newDad child := by
  obtain ⟨⟨none, a, b, mom, dad, rfl, momIs, dadIs, couple, family⟩, _⟩ := check_iff.mp h
  obtain ⟨c, d, e, newMom, newDad, child, rfl, newMomIs, newDadIs, childIs, family⟩ := family
  exact ⟨none, a, b, c, d, e, mom, dad, newMom, newDad, child, rfl, rfl, momIs, dadIs, newMomIs, newDadIs, childIs,
    couple.kinds, family.momAged, family.dadAged, family.born.dna, family.born.freeBreedings,
    family.born.numBreedings⟩

theorem check_ok (h : check inputData evictedInputData peeks outputData = .ok priority) :
    evictedInputData = [] ∧ Handles (Extracts KittyData) inputData evictedInputData outputData := by
  obtain ⟨none, a, b, c, d, e, mom, dad, newMom, newDad, child, rfl, rfl, momIs, dadIs, newMomIs, newDadIs, childIs,
    _⟩ := check_family h
  have inputs : ∀ d ∈ [a, b], Extracts KittyData d := by simp [Extracts, momIs, dadIs]
  have outputs : ∀ x ∈ [c, d, e], Extracts KittyData x := by simp [Extracts, newMomIs, newDadIs, childIs]
  exact ⟨none, inputs, by simp [none], outputs⟩

/-! ### No panic and no overflow -/

theorem checkChild_answers (newMom newDad child : KittyData) : (checkChild newMom newDad child).Answers := by
  refine (Outcome.ensure_answers _ _).bind fun _ _ => (Outcome.ensure_answers _ _).bind fun _ _ => ?_
  refine (Outcome.ensure_answers _ _).bind fun _ _ => ?_
  split
  · nofun
  · nofun
  · exact Outcome.pure_answers _

/-- The length is checked before the family is indexed. -/
theorem checkNewFamily_answers (oldMom oldDad : KittyData) (newFamily : List DynamicallyTypedData) :
    (checkNewFamily false oldMom oldDad newFamily).Answers := by
  refine (Outcome.ensure_answers _ _).bind fun _ checked => ?_
  have three := Outcome.ensure_ok checked
  refine (kittyAt_answers (by omega)).bind fun newMom _ => (kittyAt_answers (by omega)).bind fun newDad _ => ?_
  refine (kittyAt_answers (by omega)).bind fun child _ => (checkNewMom_answers _ _).bind fun _ _ => ?_
  exact (checkNewDad_answers _ _).bind fun _ _ => checkChild_answers _ _ _

theorem check_answers : (check inputData evictedInputData peeks outputData).Answers := by
  refine (Outcome.ensure_answers _ _).bind fun _ _ => (Outcome.ensure_answers _ _).bind fun _ checked => ?_
  have two := Outcome.ensure_ok checked
  refine (kittyAt_answers (by omega)).bind fun mom _ => (kittyAt_answers (by omega)).bind fun dad _ => ?_
  refine (canBreed_answers _ _).bind fun _ _ => (Outcome.ensure_answers _ _).bind fun _ _ => ?_
  exact (checkNewFamily_answers _ _ _).bind fun _ _ => Outcome.pure_answers _

end

theorem checkNewMom_eq {oldMom : KittyData} (able : Able oldMom) (checks : Bool) (newMom : KittyData) :
    checkNewMom checks oldMom newMom = checkNewMom false oldMom newMom := by
  unfold checkNewMom
  simp only [able.decrement, able.increment]

theorem checkNewDad_eq {oldDad : KittyData} (able : Able oldDad) (checks : Bool) (newDad : KittyData) :
    checkNewDad checks oldDad newDad = checkNewDad false oldDad newDad := by
  unfold checkNewDad
  simp only [able.decrement, able.increment]

/-- `can_breed` has passed before the unchecked arithmetic is reached. -/
theorem OverflowChecks.check_eq [Host] (inputData evictedInputData peeks outputData : List DynamicallyTypedData) :
    check inputData evictedInputData peeks outputData =
      Kitties.check inputData evictedInputData peeks outputData := by
  refine Outcome.bind_congr fun _ _ => Outcome.bind_congr fun _ _ => Outcome.bind_congr fun mom _ => ?_
  refine Outcome.bind_congr fun dad _ => Outcome.bind_congr fun _ able => Outcome.bind_congr fun _ _ => ?_
  have couple := canBreed_ok.mp able
  have family : checkNewFamily true mom dad outputData = checkNewFamily false mom dad outputData := by
    unfold checkNewFamily
    simp only [checkNewMom_eq couple.momAble true, checkNewDad_eq couple.dadAble true]
  rw [family]

/-- The check passes exactly the breedings. It never panics, and neither does the build whose
arithmetic panics on overflow: the two are the same function. -/
theorem kitty_check_spec [Host] (inputData evictedInputData peeks outputData : List DynamicallyTypedData) :
    (∀ priority, check inputData evictedInputData peeks outputData = .ok priority ↔
      Breeds inputData evictedInputData outputData ∧ priority = 0) ∧
    check inputData evictedInputData peeks outputData ≠ .error .panic ∧
    OverflowChecks.check inputData evictedInputData peeks outputData =
      check inputData evictedInputData peeks outputData :=
  ⟨fun _ => check_iff, check_answers, OverflowChecks.check_eq _ _ _ _⟩

end Tuxedo.Kitties
