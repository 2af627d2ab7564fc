import Tuxedo.Scale.Codec

/-!
# Compact lengths and vectors

`Vec` carries the bound that the codec puts on a length: longer vectors abort when they are
encoded, so no function of the model meets one.
-/

namespace Scale

/-- The four classes of a compact `u32`: the two low bits of the first byte tell them apart. -/
def compactBytes (n : Nat) : Bytes :=
  if n < 2 ^ 6 then leBytes 1 (4 * n)
  else if n < 2 ^ 14 then leBytes 2 (4 * n + 1)
  else if n < 2 ^ 30 then leBytes 4 (4 * n + 2)
  else 3 :: leBytes 4 n

/-- A value in a class wider than it needs is out of range. -/
def decodeCompact : Bytes → Option (Nat × Bytes)
  | [] => none
  | first :: rest =>
    match first.toNat % 4 with
    | 0 => some (first.toNat / 4, rest)
    | 1 => do
      let (word, rest) ← takeBytes 2 (first :: rest)
      let n := ofLeBytes word / 4
      if 2 ^ 6 ≤ n then some (n, rest) else none
    | 2 => do
      let (word, rest) ← takeBytes 4 (first :: rest)
      let n := ofLeBytes word / 4
      if 2 ^ 14 ≤ n then some (n, rest) else none
    | _ => do
      if first.toNat / 4 ≠ 0 then none
      let (word, rest) ← takeBytes 4 rest
      let n := ofLeBytes word
      if 2 ^ 30 ≤ n then some (n, rest) else none

theorem leBytes_succ_head (n v : Nat) : ∃ tail, leBytes (n + 1) v = UInt8.ofNat v :: tail := ⟨_, rfl⟩

theorem decodeCompact_compactBytes {n : Nat} (small : n < 2 ^ 32) (rest : Bytes) :
    decodeCompact (compactBytes n ++ rest) = some (n, rest) := by
  unfold compactBytes
  split
  · rename_i one
    simp [leBytes, decodeCompact]
    omega
  · split
    · rename_i one two
      have class1 : (UInt8.ofNat (4 * n + 1)).toNat % 4 = 1 := by simp
      have value : ofLeBytes (leBytes 2 (4 * n + 1)) = 4 * n + 1 := ofLeBytes_leBytes_of_lt (by omega)
      have read := takeBytes_append (length_leBytes 2 (4 * n + 1)) rest
      obtain ⟨tail, shape⟩ := leBytes_succ_head 1 (4 * n + 1)
      rw [shape] at read value ⊢
      simp only [List.cons_append] at read
      simp only [List.cons_append, decodeCompact, class1, read, Option.bind_eq_bind, Option.bind_some, value]
      rw [if_pos (by omega)]
      congr 2
      omega
    · split
      · rename_i one two four
        have class2 : (UInt8.ofNat (4 * n + 2)).toNat % 4 = 2 := by simp
        have value : ofLeBytes (leBytes 4 (4 * n + 2)) = 4 * n + 2 := ofLeBytes_leBytes_of_lt (by omega)
        have read := takeBytes_append (length_leBytes 4 (4 * n + 2)) rest
        obtain ⟨tail, shape⟩ := leBytes_succ_head 3 (4 * n + 2)
        rw [shape] at read value ⊢
        simp only [List.cons_append] at read
        simp only [List.cons_append, decodeCompact, class2, read, Option.bind_eq_bind, Option.bind_some, value]
        rw [if_pos (by omega)]
        congr 2
        omega
      · rename_i one two four
        have value : ofLeBytes (leBytes 4 n) = n := ofLeBytes_leBytes_of_lt (by omega)
        have read := takeBytes_append (length_leBytes 4 n) rest
        simp [decodeCompact, read, value]
        omega

theorem length_compactBytes_le (n : Nat) : (compactBytes n).length ≤ 5 := by
  unfold compactBytes
  split
  · simp
  · split
    · simp
    · split <;> simp

/-- A `u32` that is written in its compact form. -/
structure Compact where
  value : UInt32
  deriving DecidableEq

instance : Codec Compact where
  encode a := compactBytes a.value.toNat
  decode bytes := (decodeCompact bytes).map (Prod.map (fun n => ⟨UInt32.ofNat n⟩) id)
  decode_encode a rest := by
    simp [decodeCompact_compactBytes a.value.toNat_lt]

/-- A vector, with fewer elements than a compact length can count. -/
structure Vec (α : Type) where
  toList : List α
  length_lt : toList.length < 2 ^ 32
  deriving DecidableEq

namespace Vec
variable {α : Type}

theorem nil_small : ([] : List α).length < 2 ^ 32 := by simp

def empty : Vec α := ⟨[], nil_small⟩

def singleton (a : α) : Vec α := ⟨[a], by simp⟩

/-- `none` when the list is too long to be a vector. -/
def ofList? (xs : List α) : Option (Vec α) :=
  if small : xs.length < 2 ^ 32 then some ⟨xs, small⟩ else none

@[ext] theorem ext {v w : Vec α} (same : v.toList = w.toList) : v = w := by
  cases v
  cases w
  cases same
  rfl

theorem ofList?_eq_some {xs : List α} {v : Vec α} : ofList? xs = some v ↔ v.toList = xs := by
  unfold ofList?
  split
  · rename_i small
    constructor
    · intro h
      cases h
      rfl
    · intro h
      subst h
      rfl
  · rename_i large
    refine ⟨fun h => (by cases h), fun h => ?_⟩
    subst h
    exact (large v.length_lt).elim

def map {β : Type} (f : α → β) (v : Vec α) : Vec β := ⟨v.toList.map f, by simpa using v.length_lt⟩

@[simp] theorem toList_map {β : Type} (f : α → β) (v : Vec α) : (v.map f).toList = v.toList.map f := rfl

end Vec

section
variable {α : Type} [Codec α]

def encodeItems (xs : List α) : Bytes := xs.flatMap encode

def decodeItems : Nat → Bytes → Option (List α × Bytes)
  | 0, bytes => some ([], bytes)
  | n + 1, bytes => do
    let (x, bytes) ← decode bytes
    let (xs, bytes) ← decodeItems n bytes
    return (x :: xs, bytes)

theorem decodeItems_encodeItems (xs : List α) (rest : Bytes) :
    decodeItems xs.length (encodeItems xs ++ rest) = some (xs, rest) := by
  induction xs with
  | nil => rfl
  | cons x xs ih =>
    simp only [encodeItems] at ih
    simp [encodeItems, decodeItems, List.append_assoc, ih]

instance : Codec (Vec α) where
  encode v := compactBytes v.toList.length ++ encodeItems v.toList
  decode bytes := do
    let (n, bytes) ← decodeCompact bytes
    let (xs, bytes) ← decodeItems n bytes
    let v ← Vec.ofList? xs
    return (v, bytes)
  decode_encode v rest := by
    have whole : Vec.ofList? v.toList = some v := Vec.ofList?_eq_some.mpr rfl
    simp [List.append_assoc, decodeCompact_compactBytes v.length_lt, decodeItems_encodeItems, whole]

theorem encode_vec (v : Vec α) : encode v = compactBytes v.toList.length ++ encodeItems v.toList := rfl

theorem length_encodeItems_le {n : Nat} {xs : List α} (each : ∀ x ∈ xs, (encode x).length ≤ n) :
    (encodeItems xs).length ≤ n * xs.length := by
  induction xs with
  | nil => simp [encodeItems]
  | cons x xs ih =>
    obtain ⟨first, rest⟩ := List.forall_mem_cons.mp each
    have later := ih rest
    rw [encodeItems, List.flatMap_cons, List.length_append, List.length_cons, Nat.mul_succ]
    rw [encodeItems] at later
    omega

theorem length_encode_vec_le {n : Nat} {v : Vec α} (each : ∀ x ∈ v.toList, (encode x).length ≤ n) :
    (encode v).length ≤ n * v.toList.length + 5 := by
  have count := length_compactBytes_le v.toList.length
  have items := length_encodeItems_le each
  rw [encode_vec, List.length_append]
  omega

theorem length_encode_singleton (a : α) : (encode (Vec.singleton a)).length = (encode a).length + 1 := by
  simp [encode_vec, Vec.singleton, encodeItems, compactBytes]
  omega

end

theorem encodeItems_bytes (bytes : Bytes) : encodeItems bytes = bytes := by
  induction bytes with
  | nil => rfl
  | cons b bytes ih =>
    simp only [encodeItems] at ih
    simp only [encodeItems, List.flatMap_cons, ih]
    show leBytes 1 b.toNat ++ bytes = b :: bytes
    simp [leBytes]

theorem length_encode_bytes_le (v : Vec UInt8) : (encode v).length ≤ v.toList.length + 5 := by
  have count := length_compactBytes_le v.toList.length
  rw [encode_vec, encodeItems_bytes, List.length_append]
  omega

end Scale
