import Mathlib.Data.List.Basic
import Mathlib.Tactic.Common

/-!
# Bytes as hexadecimal text

Text is read as the bytes of its characters. Letters are read in both cases and written in the lower one.
-/

namespace Hex

def digit (n : UInt8) : UInt8 := if n < 10 then 48 + n else 87 + n

/-- The value of a digit. -/
def value (c : UInt8) : Option UInt8 :=
  if 48 ≤ c ∧ c ≤ 57 then some (c - 48)
  else if 97 ≤ c ∧ c ≤ 102 then some (c - 87)
  else if 65 ≤ c ∧ c ≤ 70 then some (c - 55)
  else none

def pair (high low : UInt8) : Option UInt8 := do
  let high ← value high
  let low ← value low
  return 16 * high + low

def encode (bytes : List UInt8) : List UInt8 := bytes.flatMap fun byte => [digit (byte / 16), digit (byte % 16)]

def decode : List UInt8 → Option (List UInt8)
  | [] => some []
  | [_] => none
  | high :: low :: text => do
    let byte ← pair high low
    let bytes ← decode text
    return byte :: bytes

theorem value_digit {n : UInt8} (small : n < 16) : value (digit n) = some n := by
  unfold digit value
  grind

theorem value_lt {c n : UInt8} (h : value c = some n) : c < 128 := by
  unfold value at h
  grind

theorem pair_digits (byte : UInt8) : pair (digit (byte / 16)) (digit (byte % 16)) = some byte := by
  have high : byte / 16 < 16 := by
    have small := byte.toNat_lt
    rw [UInt8.lt_iff_toNat_lt]
    simp only [UInt8.toNat_div, UInt8.reduceToNat]
    omega
  have low : byte % 16 < 16 := by
    rw [UInt8.lt_iff_toNat_lt]
    simp only [UInt8.toNat_mod, UInt8.reduceToNat]
    omega
  rw [pair, value_digit high, value_digit low]
  show some _ = some byte
  congr 1
  apply UInt8.toNat_inj.mp
  have whole := Nat.div_add_mod byte.toNat 16
  have small := byte.toNat_lt
  simp only [UInt8.toNat_add, UInt8.toNat_mul, UInt8.toNat_div, UInt8.toNat_mod, UInt8.reduceToNat]
  omega

theorem pair_isSome {high low : UInt8} : (pair high low).isSome ↔ (value high).isSome ∧ (value low).isSome := by
  unfold pair
  cases value high <;> cases value low <;> simp

theorem decode_cons {high low : UInt8} {text bytes : List UInt8} :
    decode (high :: low :: text) = some bytes ↔
      ∃ byte rest, pair high low = some byte ∧ decode text = some rest ∧ bytes = byte :: rest := by
  rw [decode]
  cases pair high low <;> cases decode text <;> simp [eq_comm]

@[simp] theorem decode_encode (bytes : List UInt8) : decode (encode bytes) = some bytes := by
  induction bytes with
  | nil => rfl
  | cons byte bytes ih => exact decode_cons.mpr ⟨byte, bytes, pair_digits byte, ih, rfl⟩

/-- Only digits are read, two for each byte. -/
theorem digits_of_decode {text bytes : List UInt8} (h : decode text = some bytes) :
    text.length = 2 * bytes.length ∧ ∀ c ∈ text, (value c).isSome := by
  induction text using decode.induct generalizing bytes with
  | case1 =>
    cases h
    simp
  | case2 c => cases h
  | case3 high low text ih =>
    obtain ⟨byte, rest, paired, read, rfl⟩ := decode_cons.mp h
    obtain ⟨count, digits⟩ := ih read
    obtain ⟨first, second⟩ := pair_isSome.mp (Option.isSome_of_eq_some paired)
    refine ⟨by simp only [List.length_cons]; omega, ?_⟩
    exact List.forall_mem_cons.mpr ⟨first, List.forall_mem_cons.mpr ⟨second, digits⟩⟩

/-- An even number of digits is always read. -/
theorem decode_of_digits {text : List UInt8} (even : 2 ∣ text.length) (digits : ∀ c ∈ text, (value c).isSome) :
    ∃ bytes, decode text = some bytes := by
  induction text using decode.induct with
  | case1 => exact ⟨[], rfl⟩
  | case2 c =>
    rw [List.length_singleton] at even
    omega
  | case3 high low text ih =>
    obtain ⟨first, digits⟩ := List.forall_mem_cons.mp digits
    obtain ⟨second, digits⟩ := List.forall_mem_cons.mp digits
    have shorter : 2 ∣ text.length := by
      simp only [List.length_cons] at even
      omega
    obtain ⟨bytes, rest⟩ := ih shorter digits
    obtain ⟨byte, paired⟩ := Option.isSome_iff_exists.mp (pair_isSome.mpr ⟨first, second⟩)
    exact ⟨byte :: bytes, decode_cons.mpr ⟨byte, bytes, paired, rest, rfl⟩⟩

end Hex
