import Tuxedo.Scale.Codec

/-!
# BLAKE2b-256

The hash with no key and a digest of 32 bytes. Words are naturals below `2 ^ 64`, which the
kernel computes with quickly.
-/

namespace Blake2b
open Scale

def wordSize : Nat := 2 ^ 64

def iv : List Nat := [
  0x6a09e667f3bcc908, 0xbb67ae8584caa73b, 0x3c6ef372fe94f82b, 0xa54ff53a5f1d36f1,
  0x510e527fade682d1, 0x9b05688c2b3e6c1f, 0x1f83d9abfb41bd6b, 0x5be0cd19137e2179]

def sigma : List (List Nat) := [
  [0, 1, 2, 3, 4, 5, 6, 7, 8, 9, 10, 11, 12, 13, 14, 15],
  [14, 10, 4, 8, 9, 15, 13, 6, 1, 12, 0, 2, 11, 7, 5, 3],
  [11, 8, 12, 0, 5, 2, 15, 13, 10, 14, 3, 6, 7, 1, 9, 4],
  [7, 9, 3, 1, 13, 12, 11, 14, 2, 6, 5, 10, 4, 0, 15, 8],
  [9, 0, 5, 7, 2, 4, 10, 15, 14, 1, 11, 12, 6, 8, 3, 13],
  [2, 12, 6, 10, 0, 11, 8, 3, 4, 13, 7, 5, 15, 14, 1, 9],
  [12, 5, 1, 15, 14, 13, 4, 10, 0, 7, 6, 3, 9, 2, 8, 11],
  [13, 11, 7, 14, 12, 1, 3, 9, 5, 0, 15, 4, 8, 6, 2, 10],
  [6, 15, 14, 9, 11, 3, 0, 8, 12, 2, 13, 7, 1, 4, 10, 5],
  [10, 2, 8, 4, 7, 6, 1, 5, 15, 11, 9, 14, 3, 12, 13, 0],
  [0, 1, 2, 3, 4, 5, 6, 7, 8, 9, 10, 11, 12, 13, 14, 15],
  [14, 10, 4, 8, 9, 15, 13, 6, 1, 12, 0, 2, 11, 7, 5, 3]]

def rotateRight (n x : Nat) : Nat := (x >>> n) ||| ((x <<< (64 - n)) % wordSize)

/-- The mixing function on the positions `a b c d` of the work vector. -/
def mix (v : List Nat) (a b c d x y : Nat) : List Nat :=
  let word := fun i => v.getD i 0
  let a₁ := (word a + word b + x) % wordSize
  let d₁ := rotateRight 32 (word d ^^^ a₁)
  let c₁ := (word c + d₁) % wordSize
  let b₁ := rotateRight 24 (word b ^^^ c₁)
  let a₂ := (a₁ + b₁ + y) % wordSize
  let d₂ := rotateRight 16 (d₁ ^^^ a₂)
  let c₂ := (c₁ + d₂) % wordSize
  let b₂ := rotateRight 63 (b₁ ^^^ c₂)
  (((v.set a a₂).set b b₂).set c c₂).set d d₂

def round (m v s : List Nat) : List Nat :=
  let word := fun i => m.getD (s.getD i 0) 0
  let v := mix v 0 4 8 12 (word 0) (word 1)
  let v := mix v 1 5 9 13 (word 2) (word 3)
  let v := mix v 2 6 10 14 (word 4) (word 5)
  let v := mix v 3 7 11 15 (word 6) (word 7)
  let v := mix v 0 5 10 15 (word 8) (word 9)
  let v := mix v 1 6 11 12 (word 10) (word 11)
  let v := mix v 2 7 8 13 (word 12) (word 13)
  mix v 3 4 9 14 (word 14) (word 15)

/-- The sixteen words of a block, padded with zeros. -/
def words (block : Bytes) : List Nat :=
  (List.range 16).map fun i => ofLeBytes ((block.drop (8 * i)).take 8)

/-- One block, after `count` bytes. -/
def compress (h : List Nat) (block : Bytes) (count : Nat) (last : Bool) : List Nat :=
  let tail := iv.set 4 (iv.getD 4 0 ^^^ count)
  let tail := if last then tail.set 6 (iv.getD 6 0 ^^^ (wordSize - 1)) else tail
  let v := sigma.foldl (round (words block)) (h ++ tail)
  (List.range 8).map fun i => h.getD i 0 ^^^ v.getD i 0 ^^^ v.getD (i + 8) 0

/-- The blocks in order, with fuel for one call a block. -/
def blocks : Nat → List Nat → Bytes → Nat → List Nat
  | 0, h, _, _ => h
  | fuel + 1, h, bytes, count =>
    if bytes.length ≤ 128 then compress h bytes (count + bytes.length) true
    else blocks fuel (compress h (bytes.take 128) (count + 128) false) (bytes.drop 128) (count + 128)

def digest (bytes : Bytes) : Bytes :=
  let h := iv.set 0 (iv.getD 0 0 ^^^ 0x01010020)
  ((blocks (bytes.length / 128 + 1) h bytes 0).take 4).flatMap (leBytes 8)

theorem length_words (ws : List Nat) : (ws.flatMap (leBytes 8)).length = 8 * ws.length := by
  induction ws with
  | nil => rfl
  | cons w ws ih => simp [ih, Nat.mul_add, Nat.add_comm]

theorem length_compress (h : List Nat) (block : Bytes) (count : Nat) (last : Bool) :
    (compress h block count last).length = 8 := by simp [compress]

theorem length_blocks (fuel : Nat) (h : List Nat) (bytes : Bytes) (count : Nat) (eight : h.length = 8) :
    (blocks fuel h bytes count).length = 8 := by
  induction fuel generalizing h bytes count with
  | zero => exact eight
  | succ fuel ih =>
    unfold blocks
    split
    · exact length_compress _ _ _ _
    · exact ih _ _ _ (length_compress _ _ _ _)

theorem length_digest (bytes : Bytes) : (digest bytes).length = 32 := by
  have eight := length_blocks (bytes.length / 128 + 1) (iv.set 0 (iv.getD 0 0 ^^^ 0x01010020)) bytes 0 (by simp [iv])
  rw [digest, length_words, List.length_take, eight]
  rfl

def blake2b256 (bytes : Bytes) : FixedBytes 32 := ⟨digest bytes, length_digest bytes⟩

example : (blake2b256 [97, 98, 99]).toList = [
    0xbd, 0xdd, 0x81, 0x3c, 0x63, 0x42, 0x39, 0x72, 0x31, 0x71, 0xef, 0x3f, 0xee, 0x98, 0x57, 0x9b,
    0x94, 0x96, 0x4e, 0x3b, 0xb1, 0xcb, 0x3e, 0x42, 0x72, 0x62, 0xc8, 0xc0, 0x68, 0xd5, 0x23, 0x19] := by
  decide +kernel

end Blake2b
