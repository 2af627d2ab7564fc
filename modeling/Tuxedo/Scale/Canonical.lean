import Tuxedo.Scale.Collections

/-!
# Canonical codecs

A codec is canonical when it only accepts what it writes. The combinators of the two modules
before make canonical codecs from canonical ones.
-/

namespace Scale

class Canonical (α : Type) [Codec α] : Prop where
  eq_encode : ∀ {bytes rest : Bytes} {a : α}, decode bytes = some (a, rest) → bytes = encode a ++ rest

export Canonical (eq_encode)

section
variable {α β : Type} [Codec α] [Canonical α]

theorem Canonical.ofFields {fields : β → α} {make : α → β} (inv : ∀ b, make (fields b) = b)
    (exact : ∀ a, fields (make a) = a) : @Canonical β (.ofFields α fields make inv) :=
  let := Codec.ofFields α fields make inv
  { eq_encode := fun {bytes rest b} h => by
      obtain ⟨⟨a, rest'⟩, read, same⟩ := Option.map_eq_some_iff.mp h
      cases same
      rw [eq_encode read]
      exact congrArg (fun a => encode a ++ rest') (exact a).symm }

/-- The fields of one variant. -/
theorem parse_variant {bytes rest : Bytes} {b : β} {make : α → β}
    (h : (decode bytes).map (Prod.map make id) = some (b, rest)) : ∃ a, b = make a ∧ bytes = encode a ++ rest := by
  obtain ⟨⟨a, rest'⟩, read, same⟩ := Option.map_eq_some_iff.mp h
  cases same
  exact ⟨a, rfl, eq_encode read⟩

end

theorem Canonical.ofVariants {β : Type} {index : β → UInt8} {fields : β → Bytes}
    {parse : UInt8 → Bytes → Option (β × Bytes)}
    (inv : ∀ b rest, parse (index b) (fields b ++ rest) = some (b, rest))
    (exact : ∀ {i bytes b rest}, parse i bytes = some (b, rest) → i = index b ∧ bytes = fields b ++ rest) :
    @Canonical β (.ofVariants index fields parse inv) :=
  let := Codec.ofVariants index fields parse inv
  { eq_encode := fun {bytes rest b} h => by
      cases bytes with
      | nil => cases h
      | cons i bytes =>
        obtain ⟨rfl, rfl⟩ := exact h
        rfl }

instance : Canonical Unit where
  eq_encode h := by
    cases h
    rfl

instance {α β : Type} [Codec α] [Codec β] [Canonical α] [Canonical β] : Canonical (α × β) where
  eq_encode {bytes rest p} h := by
    obtain ⟨⟨a, bytes₁⟩, first, h⟩ := Option.bind_eq_some_iff.mp h
    obtain ⟨⟨b, bytes₂⟩, second, h⟩ := Option.bind_eq_some_iff.mp h
    cases h
    rw [eq_encode first, eq_encode second]
    exact (List.append_assoc _ _ _).symm

/-! ### Fixed widths -/

theorem takeBytes_eq_some {n : Nat} {bytes word rest : Bytes} (h : takeBytes n bytes = some (word, rest)) :
    word.length = n ∧ bytes = word ++ rest := by
  unfold takeBytes at h
  split at h
  · rename_i long
    cases h
    exact ⟨List.length_take_of_le long, (List.take_append_drop n bytes).symm⟩
  · cases h

theorem ofLeBytes_lt (bytes : Bytes) : ofLeBytes bytes < 256 ^ bytes.length := by
  induction bytes with
  | nil => simp [ofLeBytes]
  | cons b bytes ih =>
    have low := b.toNat_lt
    rw [ofLeBytes, List.length_cons, Nat.pow_succ]
    omega

theorem leBytes_ofLeBytes (bytes : Bytes) : leBytes bytes.length (ofLeBytes bytes) = bytes := by
  induction bytes with
  | nil => rfl
  | cons b bytes ih =>
    have low := b.toNat_lt
    have head : UInt8.ofNat (b.toNat + 256 * ofLeBytes bytes) = b := by
      apply UInt8.toNat_inj.mp
      simp
    have tail : (b.toNat + 256 * ofLeBytes bytes) / 256 = ofLeBytes bytes := by omega
    rw [List.length_cons, ofLeBytes, leBytes, head, tail, ih]

theorem Canonical.ofWord {α : Type} {n : Nat} {toNat : α → Nat} {ofNat : Nat → α} (small : ∀ a, toNat a < 256 ^ n)
    (inv : ∀ a, ofNat (toNat a) = a) (exact : ∀ m < 256 ^ n, toNat (ofNat m) = m) :
    @Canonical α (.ofWord n toNat ofNat small inv) :=
  let := Codec.ofWord n toNat ofNat small inv
  { eq_encode := fun {bytes rest a} h => by
      obtain ⟨⟨word, rest'⟩, taken, same⟩ := Option.map_eq_some_iff.mp h
      cases same
      obtain ⟨width, rfl⟩ := takeBytes_eq_some taken
      have value : toNat (ofNat (ofLeBytes word)) = ofLeBytes word := exact _ (width ▸ ofLeBytes_lt word)
      change word ++ rest' = leBytes n (toNat (ofNat (ofLeBytes word))) ++ rest'
      rw [value, ← width, leBytes_ofLeBytes] }

instance : Canonical UInt8 :=
  .ofWord (fun a => a.toNat_lt) (fun _ => UInt8.ofNat_toNat) fun m small => by simpa using Nat.mod_eq_of_lt small

instance : Canonical UInt32 :=
  .ofWord (fun a => a.toNat_lt) (fun _ => UInt32.ofNat_toNat) fun m small => by simpa using Nat.mod_eq_of_lt small

instance {n : Nat} : Canonical (FixedBytes n) where
  eq_encode {bytes rest a} h := by
    change (if width : (bytes.take n).length = n then some ((⟨bytes.take n, width⟩ : FixedBytes n), bytes.drop n)
      else none) = _ at h
    split at h
    · cases h
      exact (List.take_append_drop n bytes).symm
    · cases h

/-! ### Compact lengths and vectors -/

/-- A word with its class in the two low bits is the only one that reads as its value. -/
theorem takeBytes_class {first : UInt8} {tail word rest : Bytes} {k c : Nat}
    (taken : takeBytes (k + 1) (first :: tail) = some (word, rest)) (low : first.toNat % 4 = c) :
    ofLeBytes word < 256 ^ (k + 1) ∧ first :: tail = leBytes (k + 1) (4 * (ofLeBytes word / 4) + c) ++ rest := by
  obtain ⟨width, whole⟩ := takeBytes_eq_some taken
  cases word with
  | nil => cases width
  | cons b word =>
    obtain ⟨rfl, rfl⟩ := List.cons.inj whole
    have value : 4 * (ofLeBytes (first :: word) / 4) + c = ofLeBytes (first :: word) := by
      rw [ofLeBytes]
      omega
    refine ⟨width ▸ ofLeBytes_lt _, ?_⟩
    rw [value, ← width, leBytes_ofLeBytes]
    rfl

theorem decodeCompact_eq_some {bytes rest : Bytes} {n : Nat} (h : decodeCompact bytes = some (n, rest)) :
    n < 2 ^ 32 ∧ bytes = compactBytes n ++ rest := by
  cases bytes with
  | nil => cases h
  | cons first tail =>
    have low := first.toNat_lt
    rw [decodeCompact] at h
    split at h
    · rename_i class0
      cases h
      have value : UInt8.ofNat (4 * (first.toNat / 4)) = first := by
        apply UInt8.toNat_inj.mp
        rw [UInt8.toNat_ofNat']
        omega
      rw [compactBytes, if_pos (by omega)]
      refine ⟨by omega, ?_⟩
      rw [leBytes, leBytes, value]
      rfl
    · rename_i class1
      obtain ⟨⟨word, rest'⟩, taken, h⟩ := Option.bind_eq_some_iff.mp h
      obtain ⟨small, whole⟩ := takeBytes_class taken class1
      dsimp only at h
      split at h
      · cases h
        rw [compactBytes, if_neg (by omega), if_pos (by omega)]
        exact ⟨by omega, whole⟩
      · cases h
    · rename_i class2
      obtain ⟨⟨word, rest'⟩, taken, h⟩ := Option.bind_eq_some_iff.mp h
      obtain ⟨small, whole⟩ := takeBytes_class taken class2
      dsimp only at h
      split at h
      · cases h
        rw [compactBytes, if_neg (by omega), if_neg (by omega), if_pos (by omega)]
        exact ⟨by omega, whole⟩
      · cases h
    · rename_i other0 other1 other2
      split at h
      · cases h
      · rename_i bare
        obtain ⟨⟨word, rest'⟩, taken, found⟩ := Option.bind_eq_some_iff.mp h
        obtain ⟨width, rfl⟩ := takeBytes_eq_some taken
        have small := ofLeBytes_lt word
        rw [width] at small
        dsimp only at found
        split at found
        · cases found
          have three : first = 3 := by
            apply UInt8.toNat_inj.mp
            change first.toNat = 3
            have not0 : first.toNat % 4 ≠ 0 := other0
            have not1 : first.toNat % 4 ≠ 1 := other1
            have not2 : first.toNat % 4 ≠ 2 := other2
            omega
          rw [compactBytes, if_neg (by omega), if_neg (by omega), if_neg (by omega), ← width, leBytes_ofLeBytes, three]
          exact ⟨by omega, rfl⟩
        · cases found

section
variable {α : Type} [Codec α] [Canonical α]

theorem decodeItems_eq_some {n : Nat} {bytes rest : Bytes} {xs : List α} (h : decodeItems n bytes = some (xs, rest)) :
    xs.length = n ∧ bytes = encodeItems xs ++ rest := by
  induction n generalizing bytes xs with
  | zero =>
    cases h
    exact ⟨rfl, rfl⟩
  | succ n ih =>
    obtain ⟨⟨x, bytes₁⟩, first, h⟩ := Option.bind_eq_some_iff.mp h
    obtain ⟨⟨xs, bytes₂⟩, later, h⟩ := Option.bind_eq_some_iff.mp h
    cases h
    obtain ⟨count, rfl⟩ := ih later
    refine ⟨by rw [List.length_cons, count], ?_⟩
    rw [eq_encode first]
    exact (List.append_assoc _ _ _).symm

theorem decode_vec_eq_some {α : Type} [Codec α] {bytes rest : Bytes} {v : Vec α} :
    decode bytes = some (v, rest) ↔
      ∃ n items, decodeCompact bytes = some (n, items) ∧ decodeItems n items = some (v.toList, rest) := by
  constructor
  · intro h
    obtain ⟨⟨n, items⟩, counted, h⟩ := Option.bind_eq_some_iff.mp h
    obtain ⟨⟨xs, rest'⟩, read, h⟩ := Option.bind_eq_some_iff.mp h
    obtain ⟨w, whole, h⟩ := Option.bind_eq_some_iff.mp h
    cases h
    obtain rfl := Vec.ofList?_eq_some.mp whole
    exact ⟨n, items, counted, read⟩
  · rintro ⟨n, items, counted, read⟩
    have whole : Vec.ofList? v.toList = some v := Vec.ofList?_eq_some.mpr rfl
    refine Option.bind_eq_some_iff.mpr ⟨(n, items), counted, ?_⟩
    exact Option.bind_eq_some_iff.mpr ⟨(v.toList, rest), read, Option.bind_eq_some_iff.mpr ⟨v, whole, rfl⟩⟩

instance : Canonical (Vec α) where
  eq_encode {bytes rest v} h := by
    obtain ⟨n, items, counted, read⟩ := decode_vec_eq_some.mp h
    obtain ⟨_, rfl⟩ := decodeCompact_eq_some counted
    obtain ⟨rfl, rfl⟩ := decodeItems_eq_some read
    rw [encode_vec, List.append_assoc]

end
end Scale
