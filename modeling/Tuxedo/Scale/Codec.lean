import Mathlib.Algebra.Group.Nat.Defs
import Mathlib.Data.List.Basic
import Mathlib.Tactic.Common

/-!
# Self-delimiting codecs

A `Codec` reads back what it wrote and leaves the bytes behind it, as SCALE codecs do.
Fixed-width integers are little-endian. An enumeration is an index byte and the fields of
the variant.
-/

namespace Scale

abbrev Bytes := List UInt8

class Codec (α : Type) where
  encode : α → Bytes
  decode : Bytes → Option (α × Bytes)
  decode_encode : ∀ a rest, decode (encode a ++ rest) = some (a, rest)

export Codec (encode decode decode_encode)

attribute [simp] decode_encode

section
variable {α β : Type} [Codec α]

@[simp] theorem decode_encode_nil (a : α) : decode (encode a) = some (a, []) := by
  simpa using decode_encode a []

theorem encode_append_inj {a b : α} {r s : Bytes} (h : encode a ++ r = encode b ++ s) :
    a = b ∧ r = s := by
  have read : decode (encode a ++ r) = some (b, s) := by rw [h, decode_encode]
  rw [decode_encode] at read
  simpa using read

theorem encode_injective : Function.Injective (encode : α → Bytes) := by
  intro a b h
  exact (encode_append_inj (r := []) (s := []) (by simpa using h)).1

/-- A codec for `β` through the codec of the tuple of its fields. -/
@[reducible] def Codec.ofFields (α : Type) [Codec α] (fields : β → α) (make : α → β)
    (inv : ∀ b, make (fields b) = b) : Codec β where
  encode b := encode (fields b)
  decode bytes := (decode bytes).map (Prod.map make id)
  decode_encode b rest := by simp [inv]

/-- A codec for an enumeration: `index` numbers the variants and `parse` reads the fields
of a variant. -/
@[reducible] def Codec.ofVariants (index : β → UInt8) (fields : β → Bytes)
    (parse : UInt8 → Bytes → Option (β × Bytes))
    (inv : ∀ b rest, parse (index b) (fields b ++ rest) = some (b, rest)) : Codec β where
  encode b := index b :: fields b
  decode
    | [] => none
    | i :: bytes => parse i bytes
  decode_encode b rest := inv b rest

end

instance : Codec Unit where
  encode _ := []
  decode bytes := some ((), bytes)
  decode_encode _ _ := rfl

instance {α β : Type} [Codec α] [Codec β] : Codec (α × β) where
  encode p := encode p.1 ++ encode p.2
  decode bytes := do
    let (a, bytes) ← decode bytes
    let (b, bytes) ← decode bytes
    return ((a, b), bytes)
  decode_encode p rest := by simp [List.append_assoc]

/-! ### Fixed widths -/

/-- The first `n` bytes and the rest. -/
def takeBytes (n : Nat) (bytes : Bytes) : Option (Bytes × Bytes) :=
  if n ≤ bytes.length then some (bytes.take n, bytes.drop n) else none

theorem takeBytes_append {n : Nat} {bytes : Bytes} (width : bytes.length = n) (rest : Bytes) :
    takeBytes n (bytes ++ rest) = some (bytes, rest) := by
  subst width
  simp [takeBytes]

/-- The `n` low bytes of `v`, least significant first. -/
def leBytes : Nat → Nat → Bytes
  | 0, _ => []
  | n + 1, v => UInt8.ofNat v :: leBytes n (v / 256)

def ofLeBytes : Bytes → Nat
  | [] => 0
  | b :: bytes => b.toNat + 256 * ofLeBytes bytes

@[simp] theorem length_leBytes (n v : Nat) : (leBytes n v).length = n := by
  induction n generalizing v with
  | zero => rfl
  | succ n ih => simp [leBytes, ih]

theorem ofLeBytes_leBytes (n v : Nat) : ofLeBytes (leBytes n v) = v % 256 ^ n := by
  induction n generalizing v with
  | zero => simp [leBytes, ofLeBytes, Nat.mod_one]
  | succ n ih =>
    rw [leBytes, ofLeBytes, ih, Nat.pow_succ', Nat.mod_mul]
    simp

theorem ofLeBytes_leBytes_of_lt {n v : Nat} (small : v < 256 ^ n) : ofLeBytes (leBytes n v) = v := by
  rw [ofLeBytes_leBytes, Nat.mod_eq_of_lt small]

/-- A codec for a machine word of `n` bytes. -/
@[reducible] def Codec.ofWord {α : Type} (n : Nat) (toNat : α → Nat) (ofNat : Nat → α)
    (small : ∀ a, toNat a < 256 ^ n) (inv : ∀ a, ofNat (toNat a) = a) : Codec α where
  encode a := leBytes n (toNat a)
  decode bytes := (takeBytes n bytes).map (Prod.map (fun word => ofNat (ofLeBytes word)) id)
  decode_encode a rest := by
    simp [takeBytes_append (length_leBytes n _), ofLeBytes_leBytes_of_lt (small a), inv]

instance : Codec UInt8 :=
  .ofWord 1 UInt8.toNat UInt8.ofNat (fun a => a.toNat_lt) (fun _ => UInt8.ofNat_toNat)

instance : Codec UInt32 :=
  .ofWord 4 UInt32.toNat UInt32.ofNat (fun a => a.toNat_lt) (fun _ => UInt32.ofNat_toNat)

instance : Codec UInt64 :=
  .ofWord 8 UInt64.toNat UInt64.ofNat (fun a => a.toNat_lt) (fun _ => UInt64.ofNat_toNat)

abbrev U128 := BitVec 128

instance : Codec U128 :=
  .ofWord 16 BitVec.toNat (BitVec.ofNat 128) (fun a => a.isLt) (fun a => by simp)

/-- An array of `n` bytes. -/
structure FixedBytes (n : Nat) where
  toList : Bytes
  length_eq : toList.length = n
  deriving DecidableEq

instance {n : Nat} : Codec (FixedBytes n) where
  encode a := a.toList
  decode bytes :=
    if width : (bytes.take n).length = n then some (⟨bytes.take n, width⟩, bytes.drop n) else none
  decode_encode a rest := by
    obtain ⟨bytes, width⟩ := a
    subst width
    simp

def FixedBytes.zero (n : Nat) : FixedBytes n := ⟨List.replicate n 0, List.length_replicate⟩

@[simp] theorem length_encode_fixed {n : Nat} (a : FixedBytes n) : (encode a).length = n := a.length_eq

@[simp] theorem length_encode_u32 (a : UInt32) : (encode a).length = 4 := length_leBytes 4 _

end Scale
