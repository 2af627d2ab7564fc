import Tuxedo.Core.ConstraintChecker

/-!
# The executive

Validation and application of transactions, authoring, execution and inherents of blocks.
-/

namespace Tuxedo
open Scale

/-! ### The UTXO set -/

namespace TransparentUtxoSet
variable (V : Type) [Codec V]

/-- Undecodable bytes read as an absent output. -/
def peekUtxo (s : Storage) (r : OutputRef) : Option (Output V) :=
  (s.get (encode r)).bind fun d => (decode d).map Prod.fst

def consumeUtxo (s : Storage) (r : OutputRef) : Option (Output V) × Storage :=
  (peekUtxo V s r, s.clear (encode r))

variable {V}

def storeUtxo (s : Storage) (r : OutputRef) (output : Output V) : Storage := s.set (encode r) (encode output)

end TransparentUtxoSet

namespace Executive
open TransparentUtxoSet
variable {V C : Type} [Host] [Verifier V] [Codec C] [ConstraintChecker V C]

/-- `none` is the panic of a runtime with no stored height. -/
def blockHeight (s : Storage) : Option BlockNumber :=
  (s.get heightKey).bind fun d => (decode d).map Prod.fst

/-! ### Transactions -/

/-- What the loop over the inputs collects. -/
structure Collected where
  inputData : List DynamicallyTypedData := []
  evictedInputData : List DynamicallyTypedData := []
  missingInputs : List Bytes := []

variable (V) in
def collectInput {E : Type} (s : Storage) (strippedEncoded : Bytes) (acc : Collected) (input : Input) :
    Outcome (UtxoError E) Collected :=
  match peekUtxo V s input.outputRef with
  | some inputUtxo =>
    match input.redeemer with
    | .redemption redeemer => do
      let redeemer ← okOr (decode (α := Verifier.Redeemer V) redeemer.toList) .verifierError
      let height ← expect (blockHeight s)
      let verified ← expect (Verifier.verify inputUtxo.verifier strippedEncoded height redeemer.1)
      ensure (verified = true) .verifierError
      return { acc with inputData := acc.inputData ++ [inputUtxo.payload] }
    | .eviction => return { acc with evictedInputData := acc.evictedInputData ++ [inputUtxo.payload] }
  | none => return { acc with missingInputs := acc.missingInputs ++ [encode input.outputRef] }

variable (V) in
def collectPeek (s : Storage) (acc : List DynamicallyTypedData × List Bytes) (r : OutputRef) :
    List DynamicallyTypedData × List Bytes :=
  match peekUtxo V s r with
  | some peekUtxo => (acc.1 ++ [peekUtxo.payload], acc.2)
  | none => (acc.1, acc.2 ++ [encode r])

/-- What validation knows when it comes to call the constraint checker. -/
structure Prepared where
  inputData : List DynamicallyTypedData
  evictedInputData : List DynamicallyTypedData
  peekData : List DynamicallyTypedData
  missingInputs : List Bytes
  provides : List Bytes

/-- `validate_tuxedo_transaction` up to the constraint checker. -/
def prepare {E : Type} (t : Transaction V C) (s : Storage) : Outcome (UtxoError E) Prepared := do
  -- The set of the source holds encodings of whole inputs, redeemers included.
  ensure ((t.inputs.toList.map encode).dedup.length = t.inputs.toList.length) .duplicateInput
  let collected ← t.inputs.toList.foldlM (collectInput V s (encode t.stripped)) {}
  let peeked := t.peeks.toList.foldl (collectPeek V s) ([], collected.missingInputs)
  let txHash ← expect t.id?
  ensure (∀ r ∈ t.outputRefs txHash, (peekUtxo V s r).isNone) .preExistingOutput
  return {
    inputData := collected.inputData
    evictedInputData := collected.evictedInputData
    peekData := peeked.1
    missingInputs := peeked.2
    provides := (t.outputRefs txHash).map encode }

def outputData (t : Transaction V C) : List DynamicallyTypedData :=
  t.outputs.toList.map fun output => output.payload

/-- With inputs missing, the pool still gets an answer and the constraint checker is not called. -/
def validateTuxedoTransaction (t : Transaction V C) :
    Exec Storage (UtxoError (ConstraintChecker.Error V C)) ValidTransaction := do
  let prepared ← Exec.read (prepare t)
  if prepared.missingInputs.isEmpty then
    let _ ← Exec.mapErr .constraintCheckerError (ConstraintChecker.check (V := V) t.checker
      prepared.inputData prepared.evictedInputData prepared.peekData (outputData t))
    return {
      requires := []
      provides := prepared.provides
      priority := 0
      longevity := 18446744073709551615
      propagate := true }
  else
    return {
      requires := prepared.missingInputs
      provides := prepared.provides
      priority := 0
      longevity := 18446744073709551615
      propagate := true }

def updateStorage (t : Transaction V C) (s : Storage) : Option Storage :=
  let consumed := t.inputs.toList.foldl (fun s input => (consumeUtxo V s input.outputRef).2) s
  t.outputs.toList.zipIdx.foldlM (fun s output => do
    let txHash ← t.id?
    return storeUtxo s ⟨txHash, UInt32.ofNat output.2⟩ output.1) consumed

def applyTuxedoTransaction (t : Transaction V C) :
    Exec Storage (UtxoError (ConstraintChecker.Error V C)) Unit := do
  let validTransaction ← validateTuxedoTransaction t
  Exec.lift (ensure (validTransaction.requires = []) .missingInput)
  let s ← get
  let s ← Exec.lift (expect (updateStorage t s))
  set s

/-! ### Authoring -/

/-- Every block allows all extrinsics. -/
def openBlock (header : Header) (s : Storage) : Storage :=
  (s.set headerKey (encode header)).set heightKey (encode header.number)

/-- The transient list of applied extrinsics. -/
def notedExtrinsics (s : Storage) : Vec (Vec UInt8) :=
  ((s.get extrinsicKey).bind fun d => (decode d).map Prod.fst).getD Vec.empty

/-- Encoding a list that is too long aborts. -/
def noteExtrinsic (x : Transaction V C) (s : Storage) : Option Storage := do
  let encoded ← Vec.ofList? (encode x)
  let extrinsics ← Vec.ofList? ((notedExtrinsics s).toList ++ [encoded])
  return s.set extrinsicKey (encode extrinsics)

def applyExtrinsic (x : Transaction V C) : Exec Storage InvalidTransaction Unit := do
  let s ← get
  let s ← Exec.lift (expect (noteExtrinsic x s))
  set s
  Exec.mapErr UtxoError.into (applyTuxedoTransaction x)

def closeBlock {ε : Type} : Exec Storage ε Header := do
  let s ← get
  let header ← Exec.lift (expect ((s.get headerKey).bind fun d => (decode (α := Header) d).map Prod.fst))
  let extrinsics := (notedExtrinsics (s.clear headerKey)).toList.map fun x => x.toList
  let s := (s.clear headerKey).clear extrinsicKey
  set s
  return {
    header with
    extrinsicsRoot := Host.orderedTrieRoot .v0 extrinsics
    stateRoot := Host.storageRoot .v1 s }

/-- The authoring workflow: open the block, apply the extrinsics in order, close it. -/
def authorBlock (header : Header) (extrinsics : List (Transaction V C)) :
    Exec Storage InvalidTransaction Header := do
  modify (openBlock header)
  extrinsics.forM applyExtrinsic
  closeBlock

/-! ### Importing -/

/-- The flag says that a non-inherent has been seen. -/
def executeExtrinsics : Bool → List (Transaction V C) → Exec Storage Empty Unit
  | _, [] => return ()
  | finishedWithOpeningInherents, x :: xs => do
    let inherent := ConstraintChecker.isInherent (V := V) x.checker
    if inherent && finishedWithOpeningInherents then Exec.lift (.error .panic)
    Exec.unwrap (applyTuxedoTransaction x)
    executeExtrinsics (finishedWithOpeningInherents || !inherent) xs

def executeBlock (block : Block V C) : Exec Storage Empty Unit := do
  modify (openBlock block.header)
  executeExtrinsics false block.extrinsics.toList
  modify fun s => s.clear headerKey
  let s ← get
  if block.header.stateRoot ≠ Host.storageRoot .v1 s then Exec.lift (.error .panic)
  if block.header.extrinsicsRoot ≠ Host.orderedTrieRoot .v0 (block.extrinsics.toList.map encode) then
    Exec.lift (.error .panic)

/-! ### The pool and the inherents -/

/-- Inherents only come from the block author. -/
def validateTransaction (t : Transaction V C) : Exec Storage InvalidTransaction ValidTransaction :=
  if ConstraintChecker.isInherent (V := V) t.checker then Exec.lift (.error (.err .call))
  else Exec.mapErr UtxoError.into (validateTuxedoTransaction t)

def openingInherents (block : Block V C) : List (Transaction V C) :=
  block.extrinsics.toList.takeWhile fun tx => ConstraintChecker.isInherent (V := V) tx.checker

def inherentExtrinsics (s : Storage) (data : InherentData) : Option (List (Transaction V C)) := do
  let parent ← data.getData (Block V C) parentInherentIdentifier
  let parent ← parent
  let previous ← (openingInherents parent).mapM fun tx => tx.id?.map fun id => (tx, id)
  ConstraintChecker.createInherents s data previous

def checkInherents (block : Block V C) (data : InherentData) : Option CheckInherentsResult :=
  ConstraintChecker.checkInherents data (openingInherents block) .new

end Executive
end Tuxedo
