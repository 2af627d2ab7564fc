import Tuxedo.Core.Genesis
import Tuxedo.Scale.Canonical

/-!
# Opaque extrinsics

The node and the wallet take the extrinsics of a block for byte vectors, and the runtime takes
them for transactions.
-/

namespace Tuxedo
open Scale

abbrev OpaqueExtrinsic := Vec UInt8

structure OpaqueBlock where
  header : Header
  extrinsics : Vec OpaqueExtrinsic
  deriving DecidableEq

instance : Codec OpaqueBlock :=
  .ofFields (Header × Vec OpaqueExtrinsic) (fun b => (b.header, b.extrinsics)) (fun p => ⟨p.1, p.2⟩) (fun _ => rfl)

/-- `build_genesis_block` as the node runs it, with the opaque block. -/
def TuxedoGenesisBlockBuilder.buildOpaqueGenesisBlock [Host] (stateVersion : StateVersion) (genesisStorage : Storage) :
    OpaqueBlock × Storage :=
  let extrinsics : Vec OpaqueExtrinsic :=
    ((genesisStorage.get extrinsicKey).bind fun d => (decode d).map Prod.fst).getD Vec.empty
  let state := genesisStorage.clear extrinsicKey
  let header : Header := {
    parentHash := FixedBytes.zero 32
    number := 0
    stateRoot := Host.storageRoot stateVersion state
    extrinsicsRoot := Host.orderedTrieRoot stateVersion (extrinsics.toList.map encode)
    digest := Vec.empty }
  (⟨header, extrinsics⟩, state)

/-! ### A transaction as bytes -/

theorem encode_extrinsic (x : OpaqueExtrinsic) : encode x = compactBytes x.toList.length ++ x.toList := by
  rw [encode_vec, encodeItems_bytes]

namespace Transaction
variable {V C : Type} [Codec V] [Codec C]

/-- The four fields as one vector of bytes. -/
def toOpaque (t : Transaction V C) (small : t.body.length < 2 ^ 32) : OpaqueExtrinsic := ⟨t.body, small⟩

theorem encode_toOpaque (t : Transaction V C) (small : t.body.length < 2 ^ 32) :
    encode (t.toOpaque small) = encode t := by
  rw [encode_extrinsic, encode_eq, Nat.mod_eq_of_lt small]
  rfl

theorem encode_eq_of_map {xs : Vec OpaqueExtrinsic} {ts : Vec (Transaction V C)}
    (same : xs.toList.map encode = ts.toList.map encode) : encode xs = encode ts := by
  have count : xs.toList.length = ts.toList.length := by simpa using congrArg List.length same
  have items : encodeItems xs.toList = encodeItems ts.toList := by
    rw [encodeItems, encodeItems, List.flatMap_def, List.flatMap_def, same]
  rw [encode_vec, encode_vec, count, items]

/-- A vector of transactions is, byte for byte, a vector of opaque extrinsics. -/
theorem exists_opaque {ts : Vec (Transaction V C)} (small : ∀ t ∈ ts.toList, t.body.length < 2 ^ 32) :
    ∃ xs : Vec OpaqueExtrinsic, encode xs = encode ts ∧ xs.toList.map encode = ts.toList.map encode := by
  let xs : Vec OpaqueExtrinsic := ⟨ts.toList.pmap toOpaque small, by simpa using ts.length_lt⟩
  have same : xs.toList.map encode = ts.toList.map encode := by
    change (ts.toList.pmap toOpaque small).map encode = _
    simp only [List.map_pmap, encode_toOpaque, List.pmap_eq_map]
  exact ⟨xs, encode_eq_of_map same, same⟩

end Transaction

/-! ### Bytes that hold transactions -/

instance : Canonical DynamicallyTypedData := .ofFields (fun _ => rfl) (fun _ => rfl)

instance : Canonical OutputRef := .ofFields (fun _ => rfl) (fun _ => rfl)

instance : Canonical RedemptionStrategy :=
  .ofVariants decode_encode fun {i bytes strategy rest} h => by
    split at h
    · obtain ⟨_, rfl, rfl⟩ := parse_variant h
      exact ⟨rfl, rfl⟩
    · cases h
      exact ⟨rfl, rfl⟩
    · cases h

instance : Canonical Input := .ofFields (fun _ => rfl) (fun _ => rfl)

instance {V : Type} [Codec V] [Canonical V] : Canonical (Output V) := .ofFields (fun _ => rfl) (fun _ => rfl)

namespace Transaction
variable (V C : Type) [Codec V] [Codec C]

/-- The fields behind the length. -/
def decodeBody (bytes : Bytes) : Option (Transaction V C × Bytes) := do
  let (inputs, bytes) ← decode bytes
  let (peeks, bytes) ← decode bytes
  let (outputs, bytes) ← decode bytes
  let (checker, bytes) ← decode bytes
  return (⟨inputs, peeks, outputs, checker⟩, bytes)

/-- The fields of each of the next `n` transactions take as many bytes as the length before
them says. -/
def exactItems : Nat → Bytes → Bool
  | 0, _ => true
  | n + 1, bytes =>
    match decodeCompact bytes with
    | none => false
    | some (length, fields) =>
      match decodeBody V C fields with
      | none => false
      | some (_, later) => fields.length == length + later.length && exactItems n later

/-- Every length in a vector of transactions is that of the fields behind it. -/
def ExactLengths (bytes : Bytes) : Prop :=
  ∃ n items, decodeCompact bytes = some (n, items) ∧ exactItems V C n items = true

variable {V C}

theorem decode_eq_some {bytes rest : Bytes} {t : Transaction V C} :
    decode bytes = some (t, rest) ↔
      ∃ length fields, decodeCompact bytes = some (length, fields) ∧ decodeBody V C fields = some (t, rest) := by
  change ((decodeCompact bytes).bind fun p => decodeBody V C p.2) = some (t, rest) ↔ _
  rw [Option.bind_eq_some_iff]
  constructor
  · rintro ⟨⟨length, fields⟩, counted, read⟩
    exact ⟨length, fields, counted, read⟩
  · rintro ⟨length, fields, counted, read⟩
    exact ⟨(length, fields), counted, read⟩

theorem decodeBody_eq_some [Canonical V] [Canonical C] {bytes rest : Bytes} {t : Transaction V C}
    (h : decodeBody V C bytes = some (t, rest)) : bytes = t.body ++ rest := by
  obtain ⟨⟨inputs, bytes₁⟩, first, h⟩ := Option.bind_eq_some_iff.mp h
  obtain ⟨⟨peeks, bytes₂⟩, second, h⟩ := Option.bind_eq_some_iff.mp h
  obtain ⟨⟨outputs, bytes₃⟩, third, h⟩ := Option.bind_eq_some_iff.mp h
  obtain ⟨⟨checker, bytes₄⟩, fourth, h⟩ := Option.bind_eq_some_iff.mp h
  cases h
  rw [eq_encode first, eq_encode second, eq_encode third, eq_encode fourth]
  simp only [body, List.append_assoc]

theorem exactItems_succ {n : Nat} {bytes : Bytes} :
    exactItems V C (n + 1) bytes = true ↔
      ∃ length fields t later, decodeCompact bytes = some (length, fields) ∧
        decodeBody V C fields = some (t, later) ∧ fields.length = length + later.length ∧
        exactItems V C n later = true := by
  constructor
  · intro h
    rw [exactItems] at h
    split at h
    · cases h
    · rename_i length fields counted
      split at h
      · cases h
      · rename_i t later read
        obtain ⟨width, exact⟩ := Bool.and_eq_true_iff.mp h
        exact ⟨length, fields, t, later, counted, read, by simpa using width, exact⟩
  · rintro ⟨length, fields, t, later, counted, read, width, exact⟩
    simp [exactItems, counted, read, width, exact]

/-- One length that says what its fields take: the opaque extrinsic is the transaction. -/
theorem exact_iff [Canonical V] [Canonical C] {bytes fields later : Bytes} {length : Nat} {t : Transaction V C}
    (counted : decodeCompact bytes = some (length, fields)) (read : decodeBody V C fields = some (t, later)) :
    fields.length = length + later.length ↔
      ∃ x : OpaqueExtrinsic, decode bytes = some (x, later) ∧ encode x = encode t := by
  obtain ⟨small, rfl⟩ := decodeCompact_eq_some counted
  obtain rfl := decodeBody_eq_some read
  rw [List.length_append, Nat.add_right_cancel_iff]
  constructor
  · rintro rfl
    refine ⟨t.toOpaque small, ?_, t.encode_toOpaque small⟩
    have whole : compactBytes t.body.length ++ (t.body ++ later) = encode (t.toOpaque small) ++ later := by
      rw [encode_toOpaque, encode_eq, Nat.mod_eq_of_lt small, List.append_assoc]
    rw [whole, decode_encode]
  · rintro ⟨x, opaqueRead, same⟩
    have whole := eq_encode opaqueRead
    rw [encode_extrinsic, List.append_assoc] at whole
    have counts := congrArg decodeCompact whole
    rw [decodeCompact_compactBytes small, decodeCompact_compactBytes x.length_lt] at counts
    obtain ⟨rfl, fieldsSame⟩ := Prod.mk.inj (Option.some.inj counts)
    exact congrArg List.length (List.append_cancel_right fieldsSame)

theorem exactItems_iff [Canonical V] [Canonical C] {n : Nat} {bytes rest : Bytes} {ts : List (Transaction V C)}
    (h : decodeItems n bytes = some (ts, rest)) :
    exactItems V C n bytes = true ↔
      ∃ xs : List OpaqueExtrinsic, decodeItems n bytes = some (xs, rest) ∧ xs.map encode = ts.map encode := by
  induction n generalizing bytes ts with
  | zero =>
    cases h
    exact ⟨fun _ => ⟨[], rfl, rfl⟩, fun _ => rfl⟩
  | succ n ih =>
    obtain ⟨⟨t, bytes₁⟩, first, h⟩ := Option.bind_eq_some_iff.mp h
    obtain ⟨⟨ts, bytes₂⟩, later, h⟩ := Option.bind_eq_some_iff.mp h
    cases h
    obtain ⟨length, fields, counted, read⟩ := decode_eq_some.mp first
    rw [exactItems_succ]
    constructor
    · rintro ⟨length', fields', t', later', counted', read', width, exact⟩
      rw [counted] at counted'
      cases counted'
      rw [read] at read'
      cases read'
      obtain ⟨x, opaqueRead, same⟩ := (exact_iff counted read).mp width
      obtain ⟨xs, items, sames⟩ := (ih later).mp exact
      refine ⟨x :: xs, ?_, by rw [List.map_cons, List.map_cons, same, sames]⟩
      simp [decodeItems, opaqueRead, items]
    · rintro ⟨xs, items, sames⟩
      obtain ⟨⟨x, bytes₃⟩, opaqueRead, items⟩ := Option.bind_eq_some_iff.mp items
      obtain ⟨⟨xs, bytes₄⟩, items, whole⟩ := Option.bind_eq_some_iff.mp items
      cases whole
      obtain ⟨same, sames⟩ := List.cons.inj sames
      -- The opaque extrinsic and the transaction are one encoding, so they end at one place.
      have ends : bytes₃ = bytes₁ := by
        rw [eq_encode opaqueRead, same, decode_encode] at first
        exact (Prod.mk.inj (Option.some.inj first)).2
      subst ends
      refine ⟨length, fields, t, bytes₃, counted, read, ?_, (ih later).mpr ⟨xs, items, sames⟩⟩
      exact (exact_iff counted read).mpr ⟨x, opaqueRead, same⟩

/-- Whoever reads opaque extrinsics sees the transactions of the runtime, in the encoding of
what the runtime decodes, exactly when every length is that of the fields behind it. -/
theorem opaque_agrees_iff [Canonical V] [Canonical C] (bytes rest : Bytes) (txs : Vec (Transaction V C))
    (h : decode bytes = some (txs, rest)) :
    ((∃ xs : Vec OpaqueExtrinsic, decode bytes = some (xs, rest) ∧
        xs.toList.map encode = txs.toList.map encode) ∧ bytes = encode txs ++ rest) ↔ ExactLengths V C bytes := by
  obtain ⟨n, items, counted, read⟩ := decode_vec_eq_some.mp h
  constructor
  · rintro ⟨⟨xs, opaqueRead, same⟩, -⟩
    obtain ⟨n', items', counted', opaqueItems⟩ := decode_vec_eq_some.mp opaqueRead
    rw [counted] at counted'
    cases counted'
    exact ⟨n, items, counted, (exactItems_iff read).mpr ⟨xs.toList, opaqueItems, same⟩⟩
  · rintro ⟨n', items', counted', exact⟩
    rw [counted] at counted'
    cases counted'
    obtain ⟨xs, opaqueItems, same⟩ := (exactItems_iff read).mp exact
    have count : xs.length = txs.toList.length := by simpa using congrArg List.length same
    let opaques : Vec OpaqueExtrinsic := ⟨xs, count ▸ txs.length_lt⟩
    have opaqueRead : decode bytes = some (opaques, rest) := decode_vec_eq_some.mpr ⟨n, items, counted, opaqueItems⟩
    have whole : encode opaques = encode txs := encode_eq_of_map same
    exact ⟨⟨opaques, opaqueRead, same⟩, by rw [eq_encode opaqueRead, whole]⟩

end Transaction

end Tuxedo
