import Tuxedo.Scale.Collections
import Tuxedo.Lib.Exec
import Tuxedo.Lib.Store
import Tuxedo.Lib.Blake2b

/-!
# Common types

The data that every Tuxedo runtime shares, with its encodings, and the host functions that
a runtime calls.
-/

namespace Tuxedo
open Scale

abbrev H256 := FixedBytes 32

abbrev BlockNumber := UInt32

abbrev Storage := Store Bytes Bytes

inductive StateVersion where
  | v0
  | v1
  deriving DecidableEq

/-- The host functions of the runtime. Roots are functions of the storage map and of the list. -/
class Host where
  blake2_256 : Bytes → H256
  sr25519Verify : FixedBytes 64 → Bytes → FixedBytes 32 → Bool
  storageRoot : StateVersion → Storage → H256
  orderedTrieRoot : StateVersion → List Bytes → H256

/-- A host with the hash that it really has, over given signatures and roots. -/
@[reducible] def Host.native (sr25519Verify : FixedBytes 64 → Bytes → FixedBytes 32 → Bool)
    (storageRoot : StateVersion → Storage → H256) (orderedTrieRoot : StateVersion → List Bytes → H256) : Host where
  blake2_256 := Blake2b.blake2b256
  sr25519Verify
  storageRoot
  orderedTrieRoot

/-- A native host on which no signature verifies, for calls that read no root. -/
@[reducible] def Host.unsigned : Host :=
  Host.native (fun _ _ _ => false) (fun _ _ => FixedBytes.zero 32) (fun _ _ => FixedBytes.zero 32)

/-- A native host on which the signatures of a key are those that begin with it. -/
@[reducible] def Host.signing : Host :=
  Host.native (fun signature _ signatory => signature.toList.take 32 = signatory.toList) (fun _ _ => FixedBytes.zero 32)
    (fun _ _ => FixedBytes.zero 32)

/-- `BlakeTwo256::hash_of` hashes the encoding of its argument. -/
def hashOf [Host] {α : Type} [Codec α] (a : α) : H256 := Host.blake2_256 (encode a)

/-! ### Dynamic typing -/

structure DynamicallyTypedData where
  data : Vec UInt8
  typeId : FixedBytes 4
  deriving DecidableEq

instance : Codec DynamicallyTypedData :=
  .ofFields (Vec UInt8 × FixedBytes 4) (fun d => (d.data, d.typeId)) (fun p => ⟨p.1, p.2⟩) (fun _ => rfl)

class UtxoData (T : Type) extends Codec T where
  typeId : FixedBytes 4

inductive DynamicTypingError where
  | wrongType
  | decodingFailed
  deriving DecidableEq

namespace DynamicallyTypedData

/-- Decoding reads from the front of the data and ignores what is left. -/
def extract (T : Type) [UtxoData T] (d : DynamicallyTypedData) : Except DynamicTypingError T :=
  if d.typeId = UtxoData.typeId T then
    match decode d.data.toList with
    | some (value, _) => .ok value
    | none => .error .decodingFailed
  else .error .wrongType

/-- `none` when the encoding does not fit a vector. -/
def into? {T : Type} [UtxoData T] (value : T) : Option DynamicallyTypedData :=
  (Vec.ofList? (encode value)).map fun data => ⟨data, UtxoData.typeId T⟩

theorem extract_ok_typeId {T : Type} [UtxoData T] {d : DynamicallyTypedData} {value : T}
    (h : d.extract T = .ok value) : d.typeId = UtxoData.typeId T := by
  unfold extract at h
  split at h
  · assumption
  · cases h

theorem extract_into? {T : Type} [UtxoData T] {value : T} {d : DynamicallyTypedData}
    (h : into? value = some d) : d.extract T = .ok value := by
  obtain ⟨data, stored, rfl⟩ := Option.map_eq_some_iff.mp h
  simp [extract, Vec.ofList?_eq_some.mp stored]

theorem into?_data {T : Type} [UtxoData T] {value : T} {d : DynamicallyTypedData} (h : into? value = some d) :
    d.data.toList = encode value := by
  obtain ⟨data, stored, rfl⟩ := Option.map_eq_some_iff.mp h
  exact Vec.ofList?_eq_some.mp stored

theorem exists_into? {T : Type} [UtxoData T] (value : T) (small : (encode value).length < 2 ^ 32) :
    ∃ d, into? value = some d := by
  refine ⟨⟨⟨encode value, small⟩, UtxoData.typeId T⟩, ?_⟩
  rw [into?, Vec.ofList?, dif_pos small]
  rfl

def Extracts (T : Type) [UtxoData T] (d : DynamicallyTypedData) : Prop := ∃ value, d.extract T = .ok value

theorem Extracts.typeId {T : Type} [UtxoData T] {d : DynamicallyTypedData} (extracts : Extracts T d) :
    d.typeId = UtxoData.typeId T := by
  obtain ⟨_, h⟩ := extracts
  exact extract_ok_typeId h

theorem extracts_of_ok {T E : Type} [UtxoData T] {d : DynamicallyTypedData} {e : E} {value : T}
    (h : orErr (d.extract T) e = .ok value) : Extracts T d := ⟨value, Outcome.orErr_ok h⟩

end DynamicallyTypedData

/-! ### Transactions -/

structure OutputRef where
  txHash : H256
  index : UInt32
  deriving DecidableEq

instance : Codec OutputRef :=
  .ofFields (H256 × UInt32) (fun r => (r.txHash, r.index)) (fun p => ⟨p.1, p.2⟩) (fun _ => rfl)

@[simp] theorem length_encode_outputRef (r : OutputRef) : (encode r).length = 36 := by
  change (encode r.txHash ++ encode r.index).length = 36
  simp

inductive RedemptionStrategy where
  | redemption (redeemer : Vec UInt8)
  | eviction
  deriving DecidableEq

instance : Codec RedemptionStrategy :=
  .ofVariants (fun
      | .redemption _ => 0
      | .eviction => 1)
    (fun
      | .redemption redeemer => encode redeemer
      | .eviction => [])
    (fun i bytes =>
      match i with
      | 0 => (decode bytes).map (Prod.map .redemption id)
      | 1 => some (.eviction, bytes)
      | _ => none)
    (fun strategy rest => by cases strategy <;> simp)

/-- `Default` of the strategy: a redemption with no bytes. -/
def RedemptionStrategy.default : RedemptionStrategy := .redemption Vec.empty

structure Input where
  outputRef : OutputRef
  redeemer : RedemptionStrategy
  deriving DecidableEq

instance : Codec Input :=
  .ofFields (OutputRef × RedemptionStrategy) (fun i => (i.outputRef, i.redeemer)) (fun p => ⟨p.1, p.2⟩)
    (fun _ => rfl)

structure Output (V : Type) where
  payload : DynamicallyTypedData
  verifier : V
  deriving DecidableEq

instance {V : Type} [Codec V] : Codec (Output V) :=
  .ofFields (DynamicallyTypedData × V) (fun o => (o.payload, o.verifier)) (fun p => ⟨p.1, p.2⟩) (fun _ => rfl)

theorem length_encode_output_le {V : Type} [Codec V] (output : Output V) :
    (encode output).length ≤ output.payload.data.toList.length + 9 + (encode output.verifier).length := by
  have data := length_encode_bytes_le output.payload.data
  change (encode output.payload.data ++ encode output.payload.typeId ++ encode output.verifier).length ≤ _
  rw [List.length_append, List.length_append, length_encode_fixed]
  omega

structure Transaction (V C : Type) where
  inputs : Vec Input
  peeks : Vec OutputRef
  outputs : Vec (Output V)
  checker : C
  deriving DecidableEq

namespace Transaction
variable {V C : Type}

/-- `From` from an aggregate to a piece panics on another variant, here `none`. -/
def transform? {D : Type} (convert : C → Option D) (t : Transaction V C) : Option (Transaction V D) :=
  (convert t.checker).map fun checker => ⟨t.inputs, t.peeks, t.outputs, checker⟩

def transform {D : Type} (convert : C → D) (t : Transaction V C) : Transaction V D :=
  ⟨t.inputs, t.peeks, t.outputs, convert t.checker⟩

/-- The four fields in the order of the encoding. -/
def body [Codec V] [Codec C] (t : Transaction V C) : Bytes :=
  encode t.inputs ++ (encode t.peeks ++ (encode t.outputs ++ encode t.checker))

/-- The length is cast to `u32`. The decoder throws it away. -/
instance [Codec V] [Codec C] : Codec (Transaction V C) where
  encode t := compactBytes (t.body.length % 2 ^ 32) ++ t.body
  decode bytes := do
    let (_, bytes) ← decodeCompact bytes
    let (inputs, bytes) ← decode bytes
    let (peeks, bytes) ← decode bytes
    let (outputs, bytes) ← decode bytes
    let (checker, bytes) ← decode bytes
    return (⟨inputs, peeks, outputs, checker⟩, bytes)
  decode_encode t rest := by
    have small : t.body.length % 2 ^ 32 < 2 ^ 32 := Nat.mod_lt _ (by decide)
    rw [List.append_assoc, decodeCompact_compactBytes small]
    simp [body, List.append_assoc]

theorem encode_eq [Codec V] [Codec C] (t : Transaction V C) :
    encode t = compactBytes (t.body.length % 2 ^ 32) ++ t.body := rfl

/-- `BlakeTwo256::hash_of(&transaction.encode())`. Encoding the bytes as a vector aborts when
they are too many, here `none`. -/
def id? [Host] [Codec V] [Codec C] (t : Transaction V C) : Option H256 :=
  (Vec.ofList? (encode t)).map hashOf

theorem id?_isSome_iff [Host] [Codec V] [Codec C] (t : Transaction V C) :
    (∃ txHash, t.id? = some txHash) ↔ (encode t).length < 2 ^ 32 := by
  unfold id? Vec.ofList?
  constructor
  · rintro ⟨txHash, hash⟩
    split at hash
    · assumption
    · cases hash
  · intro small
    rw [dif_pos small]
    exact ⟨_, rfl⟩

theorem exists_id? [Host] [Codec V] [Codec C] {t : Transaction V C} (small : t.body.length < 2 ^ 32 - 5) :
    ∃ txHash, t.id? = some txHash := by
  rw [id?_isSome_iff, encode_eq, List.length_append]
  have count := length_compactBytes_le (t.body.length % 2 ^ 32)
  omega

/-- The references under which the outputs are stored. -/
def outputRefs (t : Transaction V C) (txHash : H256) : List OutputRef :=
  t.outputs.toList.zipIdx.map fun output => ⟨txHash, UInt32.ofNat output.2⟩

/-- The transaction with its redeemers stripped. -/
def stripped (t : Transaction V C) : Transaction V C :=
  { t with inputs := t.inputs.map fun input => { input with redeemer := .default } }

end Transaction

inductive UtxoError (E : Type) where
  | duplicateInput
  | preExistingOutput
  | constraintCheckerError (error : E)
  | verifierError
  | missingInput
  deriving DecidableEq

inductive InvalidTransaction where
  | call
  | future
  | badProof
  | custom (code : UInt8)
  deriving DecidableEq

def UtxoError.into {E : Type} : UtxoError E → InvalidTransaction
  | duplicateInput => .custom 255
  | preExistingOutput => .custom 254
  | constraintCheckerError _ => .custom 0
  | verifierError => .badProof
  | missingInput => .future

structure ValidTransaction where
  requires : List Bytes
  provides : List Bytes
  priority : UInt64
  longevity : UInt64
  propagate : Bool
  deriving DecidableEq

/-! ### Blocks -/

inductive DigestItem where
  | other (data : Vec UInt8)
  | consensus (engine : FixedBytes 4) (data : Vec UInt8)
  | seal (engine : FixedBytes 4) (data : Vec UInt8)
  | preRuntime (engine : FixedBytes 4) (data : Vec UInt8)
  | runtimeEnvironmentUpdated
  deriving DecidableEq

instance : Codec DigestItem :=
  .ofVariants (fun
      | .other _ => 0
      | .consensus _ _ => 4
      | .seal _ _ => 5
      | .preRuntime _ _ => 6
      | .runtimeEnvironmentUpdated => 8)
    (fun
      | .other data => encode data
      | .consensus engine data => encode (engine, data)
      | .seal engine data => encode (engine, data)
      | .preRuntime engine data => encode (engine, data)
      | .runtimeEnvironmentUpdated => [])
    (fun i bytes =>
      match i with
      | 0 => (decode bytes).map (Prod.map .other id)
      | 4 => (decode bytes).map (Prod.map (Function.uncurry DigestItem.consensus) id)
      | 5 => (decode bytes).map (Prod.map (Function.uncurry DigestItem.seal) id)
      | 6 => (decode bytes).map (Prod.map (Function.uncurry DigestItem.preRuntime) id)
      | 8 => some (.runtimeEnvironmentUpdated, bytes)
      | _ => none)
    (fun item rest => by cases item <;> simp)

structure Header where
  parentHash : H256
  number : BlockNumber
  stateRoot : H256
  extrinsicsRoot : H256
  digest : Vec DigestItem
  deriving DecidableEq

/-- The extrinsics root of a header over no extrinsics. -/
def emptyTrieRoot : H256 :=
  ⟨[3, 23, 10, 46, 117, 151, 183, 183, 227, 216, 76, 5, 57, 29, 19, 154, 98, 177, 87, 231, 135, 134, 216, 192, 130,
    242, 157, 207, 76, 17, 19, 20], rfl⟩

instance : Codec Header :=
  .ofFields (H256 × Compact × H256 × H256 × Vec DigestItem)
    (fun h => (h.parentHash, ⟨h.number⟩, h.stateRoot, h.extrinsicsRoot, h.digest))
    (fun p => ⟨p.1, p.2.1.value, p.2.2.1, p.2.2.2.1, p.2.2.2.2⟩) (fun _ => rfl)

def Header.hash [Host] (header : Header) : H256 := hashOf header

structure Block (V C : Type) where
  header : Header
  extrinsics : Vec (Transaction V C)
  deriving DecidableEq

instance {V C : Type} [Codec V] [Codec C] : Codec (Block V C) :=
  .ofFields (Header × Vec (Transaction V C)) (fun b => (b.header, b.extrinsics)) (fun p => ⟨p.1, p.2⟩)
    (fun _ => rfl)

/-! ### Storage keys -/

/-- `b"header"`. -/
def headerKey : Bytes := [104, 101, 97, 100, 101, 114]

/-- `b"height"`. -/
def heightKey : Bytes := [104, 101, 105, 103, 104, 116]

/-- `b"extrinsics"`. -/
def extrinsicKey : Bytes := [101, 120, 116, 114, 105, 110, 115, 105, 99, 115]

/-- `b":code"`. -/
def codeKey : Bytes := [58, 99, 111, 100, 101]

end Tuxedo
