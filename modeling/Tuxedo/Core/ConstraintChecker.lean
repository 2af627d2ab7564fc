import Tuxedo.Core.Verifier

/-!
# Constraint checkers and their aggregation

A constraint checker may write storage, and keeps what it wrote when it fails. The inherent
hooks run off chain or while authoring; `none` is a panic in them.
-/

namespace Tuxedo
open Scale

abbrev InherentIdentifier := FixedBytes 8

abbrev InherentData := Store InherentIdentifier (Vec UInt8)

namespace InherentData

/-- The outer `none` is undecodable data, the inner one is absent data. -/
def getData (α : Type) [Codec α] (data : InherentData) (identifier : InherentIdentifier) :
    Option (Option α) :=
  match data.get identifier with
  | none => some none
  | some bytes => (decode bytes.toList).map fun value => some value.1

/-- The data that a provider put under an identifier. -/
def Holds {α : Type} [Codec α] (data : InherentData) (identifier : InherentIdentifier) (value : α) : Prop :=
  ∃ bytes, data.get identifier = some bytes ∧ bytes.toList = encode value

theorem getData_of_holds {α : Type} [Codec α] {data : InherentData} {identifier : InherentIdentifier}
    {value : α} (holds : data.Holds identifier value) :
    data.getData α identifier = some (some value) := by
  obtain ⟨bytes, stored, same⟩ := holds
  simp [getData, stored, same]

end InherentData

structure CheckInherentsResult where
  okay : Bool
  fatalError : Bool
  errors : InherentData
  deriving DecidableEq

namespace CheckInherentsResult

def new : CheckInherentsResult := ⟨true, false, Store.empty⟩

/-- A second report after a fatal one, or under the same identifier, is an error, and callers
expect that there is none. A fatal error drops the others. -/
def putError (result : CheckInherentsResult) (identifier : InherentIdentifier) (error : Vec UInt8)
    (fatal : Bool) : Option CheckInherentsResult :=
  if result.fatalError then none
  else
    let errors := if fatal then Store.empty else result.errors
    match errors.get identifier with
    | some _ => none
    | none => some ⟨false, fatal, errors.set identifier error⟩

theorem putError_okay {result result' : CheckInherentsResult} {identifier : InherentIdentifier}
    {error : Vec UInt8} {fatal : Bool} (h : result.putError identifier error fatal = some result') :
    result'.okay = false := by
  unfold putError at h
  split at h
  · cases h
  · dsimp only at h
    split at h
    · cases h
    · cases h
      rfl

end CheckInherentsResult

class SimpleConstraintChecker (C : Type) where
  Error : Type
  check : C → (inputData evictedInputData peekData outputData : List DynamicallyTypedData) →
    Exec Storage Error UInt64

/-- Every payload that is consumed or created satisfies the predicate. -/
structure Handles (P : DynamicallyTypedData → Prop)
    (inputData evictedInputData outputData : List DynamicallyTypedData) : Prop where
  inputs : ∀ d ∈ inputData, P d
  evicted : ∀ d ∈ evictedInputData, P d
  outputs : ∀ d ∈ outputData, P d

class ConstraintChecker (V C : Type) where
  Error : Type
  check : C → (inputData evictedInputData peekData outputData : List DynamicallyTypedData) →
    Exec Storage Error UInt64
  isInherent : C → Bool
  createInherents : Storage → InherentData → List (Transaction V C × H256) → Option (List (Transaction V C))
  checkInherents : InherentData → List (Transaction V C) → CheckInherentsResult → Option CheckInherentsResult
  genesisTransactions : Option (List (Transaction V C))

/-- Every simple checker gets a dummy set of inherent hooks. -/
instance {V C : Type} [SimpleConstraintChecker C] : ConstraintChecker V C where
  Error := SimpleConstraintChecker.Error C
  check := SimpleConstraintChecker.check
  isInherent _ := false
  createInherents _ _ _ := some []
  checkInherents _ inherents result := if inherents.isEmpty then some result else none
  genesisTransactions := some []

/-! ### Inherents -/

class InherentHooks (V C : Type) where
  createInherent : Storage → InherentData → Transaction V C × H256 → Option (Transaction V C)
  checkInherent : InherentData → Transaction V C → CheckInherentsResult → Option CheckInherentsResult
  genesisTransactions : Option (List (Transaction V C))

/-- `*b"12345678"`. -/
def leafInherentIdentifier : InherentIdentifier := ⟨[49, 50, 51, 52, 53, 54, 55, 56], rfl⟩

/-- `*b"prnt_blk"`. -/
def parentInherentIdentifier : InherentIdentifier := ⟨[112, 114, 110, 116, 95, 98, 108, 107], rfl⟩

/-- The encoded text of an error. -/
def errorText (text : String) : Vec UInt8 :=
  (Vec.ofList? (compactBytes text.toUTF8.size ++ text.toUTF8.toList)).getD Vec.empty

structure InherentAdapter (C : Type) where
  inner : C
  deriving DecidableEq

instance {C : Type} [Codec C] : Codec (InherentAdapter C) :=
  .ofFields C (fun a => a.inner) (fun c => ⟨c⟩) (fun _ => rfl)

namespace InherentAdapter
variable {V C : Type}

def wrapTransaction : Transaction V C → Transaction V (InherentAdapter C) := Transaction.transform InherentAdapter.mk

def unwrapTransaction : Transaction V (InherentAdapter C) → Transaction V C :=
  Transaction.transform InherentAdapter.inner

variable [InherentHooks V C]

def createInherents (s : Storage) (data : InherentData) :
    List (Transaction V (InherentAdapter C) × H256) → Option (List (Transaction V (InherentAdapter C)))
  | [(previous, hash)] => do
    let current ← InherentHooks.createInherent s data (unwrapTransaction previous, hash)
    return [wrapTransaction current]
  | _ => none

def checkInherents (data : InherentData) (inherents : List (Transaction V (InherentAdapter C)))
    (result : CheckInherentsResult) : Option CheckInherentsResult :=
  match inherents with
  | [] =>
    result.putError leafInherentIdentifier
      (errorText "Tuxedo inherent expected exactly one inherent extrinsic but found zero") true
  | [inherent] => InherentHooks.checkInherent data (unwrapTransaction inherent) result
  | _ =>
    result.putError leafInherentIdentifier
      (errorText "Tuxedo inherent expected exactly one inherent extrinsic but found multiple") true

end InherentAdapter

instance {V C : Type} [SimpleConstraintChecker C] [InherentHooks V C] :
    ConstraintChecker V (InherentAdapter C) where
  Error := SimpleConstraintChecker.Error C
  check a := SimpleConstraintChecker.check a.inner
  isInherent _ := true
  createInherents := InherentAdapter.createInherents
  checkInherents := InherentAdapter.checkInherents
  genesisTransactions := (InherentHooks.genesisTransactions : Option (List (Transaction V C))).map
    fun txs => txs.map InherentAdapter.wrapTransaction

/-! ### Aggregation

The `#[tuxedo_constraint_checker]` macro writes one block for each variant of the enum. A
`Variant` is what such a block refers to. -/

structure Variant (V C : Type) where
  Inner : Type
  checker : ConstraintChecker V Inner
  /-- The match arm of the block. -/
  isVariant : C → Bool
  /-- `From<Outer> for Inner`, which panics on another variant. -/
  unwrap : C → Option Inner
  /-- `From<Inner> for Outer`. -/
  wrap : Inner → C

namespace Variant
variable {V C : Type}

def createInherents (v : Variant V C) (s : Storage) (data : InherentData)
    (previous : List (Transaction V C × H256)) : Option (List (Transaction V C)) := do
  let relevant := previous.filter fun p => v.isVariant p.1.checker
  let relevant ← relevant.mapM fun p => (p.1.transform? v.unwrap).map fun tx => (tx, p.2)
  let inherents ← v.checker.createInherents s data relevant
  return inherents.map (Transaction.transform v.wrap)

def checkInherents (v : Variant V C) (data : InherentData) (inherents : List (Transaction V C))
    (result : CheckInherentsResult) : Option CheckInherentsResult := do
  let relevant := inherents.filter fun tx => v.isVariant tx.checker
  let relevant ← relevant.mapM (Transaction.transform? v.unwrap)
  v.checker.checkInherents data relevant result

def genesisTransactions (v : Variant V C) : Option (List (Transaction V C)) :=
  v.checker.genesisTransactions.map fun txs => txs.map (Transaction.transform v.wrap)

end Variant

namespace Aggregate
variable {V C : Type}

def createInherents (variants : List (Variant V C)) (s : Storage) (data : InherentData)
    (previous : List (Transaction V C × H256)) : Option (List (Transaction V C)) :=
  match variants with
  | [] => some []
  | v :: variants => do
    let inherents ← v.createInherents s data previous
    let later ← createInherents variants s data previous
    return inherents ++ later

/-- Stops at the first fatal error. -/
def checkInherents (variants : List (Variant V C)) (data : InherentData) (inherents : List (Transaction V C))
    (result : CheckInherentsResult) : Option CheckInherentsResult :=
  match variants with
  | [] => some result
  | v :: variants => do
    let result ← v.checkInherents data inherents result
    if result.fatalError then return result
    checkInherents variants data inherents result

def genesisTransactions (variants : List (Variant V C)) : Option (List (Transaction V C)) :=
  match variants with
  | [] => some []
  | v :: variants => do
    let transactions ← v.genesisTransactions
    let later ← genesisTransactions variants
    return transactions ++ later

end Aggregate
end Tuxedo
