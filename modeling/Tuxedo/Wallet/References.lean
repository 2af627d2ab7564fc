import Tuxedo.Lib.Hex
import Tuxedo.Wallet.Balances
import Tuxedo.Wallet.Spend
import Tuxedo.Wallet.Synchronize

/-!
# References as text

The wallet prints the references of outputs in hexadecimal, reads them back from its command line, and
asks the node about them in the same form.
-/

namespace Tuxedo.Wallet
open Scale Executive TransparentUtxoSet Template DynamicallyTypedData

/-- A string as its UTF-8 bytes. -/
abbrev Text := Bytes

def zeroX : Text := [48, 120]

inductive TextError where
  /-- What the command line reports of a bad argument. -/
  | valueValidation
  /-- `hex::decode` of an answer of the node. -/
  | hex
  | wallet (error : Error)
  deriving DecidableEq

/-- The first two bytes are not there, or do not end with a character. -/
def Cut (s : Text) : Prop := s.length < 2 ∨ s[2]?.any (fun c => 128 ≤ c && c < 192) = true

instance (s : Text) : Decidable (Cut s) := inferInstanceAs (Decidable (_ ∨ _))

/-- `&s[..2]` panics on a string that it would cut. -/
def strip0xPrefix (s : Text) : Outcome TextError Text :=
  if Cut s then .error .panic
  else if s.take 2 = zeroX then .ok (s.drop 2)
  else .ok s

def h256FromString (s : Text) : Outcome TextError H256 := do
  let s ← strip0xPrefix s
  let bytes ← okOr (Hex.decode s) .valueValidation
  if width : bytes.length = 32 then return ⟨bytes, width⟩ else .error (.err .valueValidation)

def outputRefFromString (s : Text) : Outcome TextError OutputRef := do
  let s ← strip0xPrefix s
  let bytes ← okOr (Hex.decode s) .valueValidation
  okOr ((decode bytes).map Prod.fst) .valueValidation

/-- `rpc::node_get_block_hash`, which unwraps what it parses. -/
def nodeGetBlockHash (answer : UInt32 → Option Text) (height : UInt32) : Outcome TextError (Option H256) :=
  match answer height with
  | none => .ok none
  | some s => do
    let hash ← expect (h256FromString s).toOption
    return some hash

/-- `rpc::fetch_storage` with the texts that go over the wire. -/
def fetchStorageText (answer : Text → Option Text) (outputRef : OutputRef) : Outcome TextError Template.Output := do
  let responseHex ← okOr (answer (Hex.encode (encode outputRef)))
    (.wallet (.message "Data cannot be retrieved from storage"))
  let responseHex ← strip0xPrefix responseHex
  let responseBytes ← okOr (Hex.decode responseHex) .hex
  okOr ((decode responseBytes).map Prod.fst) (.wallet .codec)

/-- What `verify-coin` prints: the coin in the node's storage, and what the wallet's table says. -/
structure Shown where
  value : U128
  verifier : OuterVerifier
  known : Option (H256 × U128)

def liftWallet {α : Type} : Outcome Error α → Outcome TextError α
  | .ok a => .ok a
  | .error halt => .error (halt.map .wallet)

/-- `Command::VerifyCoin` from its argument on. -/
def verifyCoin (answer : Text → Option Text) (db : Db) (arg : Text) : Outcome TextError Shown := do
  let outputRef ← outputRefFromString arg
  let utxo ← fetchStorageText answer outputRef
  let coinInStorage ← liftWallet (extractPayload (Money.Coin 0) utxo.payload)
  let known ← liftWallet (getUnspent db outputRef)
  return ⟨coinInStorage.value, utxo.verifier, known⟩

/-! ### The prefix -/

theorem strip_ok {s s' : Text} (h : strip0xPrefix s = .ok s') : s = s' ∨ s = zeroX ++ s' := by
  unfold strip0xPrefix at h
  split at h
  · cases h
  · split at h
    · rename_i named
      cases h
      rw [← named]
      exact Or.inr (List.take_append_drop 2 s).symm
    · cases h
      exact Or.inl rfl

/-- Digits name bytes with the prefix or without it. -/
def Reads (s : Text) (bytes : Bytes) : Prop :=
  ∃ digits, (s = digits ∨ s = zeroX ++ digits) ∧ Hex.decode digits = some bytes

theorem not_cut_of_digits {digits : Text} {bytes : Bytes} (read : Hex.decode digits = some bytes)
    (some : bytes ≠ []) : ¬Cut digits ∧ ¬Cut (zeroX ++ digits) ∧ digits.take 2 ≠ zeroX := by
  obtain ⟨count, values⟩ := Hex.digits_of_decode read
  have positive := List.length_pos_iff.mpr some
  have ascii : ∀ c ∈ digits, c < 128 := by
    intro c member
    obtain ⟨n, value⟩ := Option.isSome_iff_exists.mp (values c member)
    exact Hex.value_lt value
  have plain : ∀ i : Nat, digits[i]?.any (fun c => 128 ≤ c && c < 192) = true → False := by
    intro i test
    obtain ⟨c, at_i, high⟩ := (Option.any_eq_true _ _).mp test
    have low := ascii c (List.mem_of_getElem? at_i)
    rw [Bool.and_eq_true, decide_eq_true_eq, decide_eq_true_eq] at high
    exact absurd low (UInt8.not_lt.mpr high.1)
  refine ⟨?_, ?_, ?_⟩
  · intro cut
    rcases cut with short | test
    · omega
    · exact plain 2 test
  · intro cut
    rcases cut with short | test
    · simp only [zeroX, List.length_append, List.length_cons, List.length_nil] at short
      omega
    · exact plain 0 test
  · intro named
    have marked : (120 : UInt8) ∈ digits.take 2 := by
      rw [named]
      decide
    exact absurd (values 120 (List.mem_of_mem_take marked)) (by decide)

/-- Stripping and decoding succeed on what `Reads` says. -/
theorem reads_iff {s : Text} {bytes : Bytes} (some : bytes ≠ []) :
    Reads s bytes ↔ ∃ s', strip0xPrefix s = .ok s' ∧ Hex.decode s' = .some bytes := by
  constructor
  · intro h
    obtain ⟨digits, which, read⟩ := h
    obtain ⟨bare, prefixed, unnamed⟩ := not_cut_of_digits read some
    refine ⟨digits, ?_, read⟩
    unfold strip0xPrefix
    rcases which with rfl | rfl
    · rw [if_neg bare, if_neg unnamed]
    · rw [if_neg prefixed]
      rfl
  · intro h
    obtain ⟨s', stripped, read⟩ := h
    exact ⟨s', strip_ok stripped, read⟩

theorem reads_unique {s : Text} {bytes bytes' : Bytes} (some : bytes ≠ []) (some' : bytes' ≠ [])
    (first : Reads s bytes) (second : Reads s bytes') : bytes = bytes' := by
  obtain ⟨s₁, stripped, read⟩ := (reads_iff some).mp first
  obtain ⟨s₂, stripped', read'⟩ := (reads_iff some').mp second
  cases stripped.symm.trans stripped'
  exact Option.some.inj (read.symm.trans read')

/-! ### References and hashes -/

/-- The string names the reference. What follows the bytes of the reference is ignored. -/
def Names (s : Text) (r : OutputRef) : Prop := ∃ rest, Reads s (encode r ++ rest)

theorem encode_outputRef_append_ne_nil (r : OutputRef) (rest : Bytes) : encode r ++ rest ≠ [] := by
  intro none
  have count := congrArg List.length none
  rw [List.length_append, length_encode_outputRef] at count
  exact absurd count (by simp)

theorem outputRefFromString_ok {s : Text} {r : OutputRef} : outputRefFromString s = .ok r ↔ Names s r := by
  constructor
  · intro h
    obtain ⟨s', stripped, h⟩ := Outcome.bind_ok h
    obtain ⟨bytes, read, h⟩ := Outcome.bind_ok h
    obtain ⟨⟨r', rest⟩, decoded, rfl⟩ := Option.map_eq_some_iff.mp (Outcome.okOr_ok h)
    have whole : bytes = encode r' ++ rest := eq_encode decoded
    exact ⟨rest, s', strip_ok stripped, whole ▸ Outcome.okOr_ok read⟩
  · intro h
    obtain ⟨rest, reads⟩ := h
    obtain ⟨s', stripped, read⟩ := (reads_iff (encode_outputRef_append_ne_nil r rest)).mp reads
    refine (Outcome.bind_of_ok stripped).trans ((Outcome.bind_of_ok (Outcome.okOr_of_some read _)).trans ?_)
    rw [decode_encode]
    rfl

theorem names_encode (r : OutputRef) : Names (Hex.encode (encode r)) r :=
  ⟨[], _, Or.inl rfl, by rw [List.append_nil, Hex.decode_encode]⟩

theorem names_unique {s : Text} {r r' : OutputRef} (first : Names s r) (second : Names s r') : r = r' := by
  obtain ⟨rest, reads⟩ := first
  obtain ⟨rest', reads'⟩ := second
  exact (encode_append_inj (reads_unique (encode_outputRef_append_ne_nil r rest)
    (encode_outputRef_append_ne_nil r' rest') reads reads')).1

/-- A string names a reference when it has 72 digits or more, an even number of them. -/
theorem names_iff_digits {s : Text} : (∃ r, Names s r) ↔ ∃ digits, (s = digits ∨ s = zeroX ++ digits) ∧
    2 ∣ digits.length ∧ 72 ≤ digits.length ∧ ∀ c ∈ digits, (Hex.value c).isSome := by
  constructor
  · intro h
    obtain ⟨r, rest, digits, which, read⟩ := h
    obtain ⟨count, values⟩ := Hex.digits_of_decode read
    rw [List.length_append, length_encode_outputRef] at count
    exact ⟨digits, which, ⟨_, count⟩, by omega, values⟩
  · intro h
    obtain ⟨digits, which, even, long, values⟩ := h
    obtain ⟨bytes, read⟩ := Hex.decode_of_digits even values
    obtain ⟨count, _⟩ := Hex.digits_of_decode read
    have width : (bytes.take 36).length = 36 := by
      rw [List.length_take]
      omega
    obtain ⟨r, front⟩ := exists_outputRef width
    refine ⟨r, bytes.drop 36, digits, which, ?_⟩
    rw [front, List.take_append_drop]
    exact read

theorem h256FromString_ok {s : Text} {hash : H256} : h256FromString s = .ok hash ↔ Reads s hash.toList := by
  have some : hash.toList ≠ [] := by
    intro none
    have width := hash.length_eq
    rw [none] at width
    cases width
  rw [reads_iff some]
  constructor
  · intro h
    obtain ⟨s', stripped, h⟩ := Outcome.bind_ok h
    obtain ⟨bytes, read, h⟩ := Outcome.bind_ok h
    split at h
    · obtain rfl := Outcome.pure_ok h
      exact ⟨s', stripped, Outcome.okOr_ok read⟩
    · cases h
  · intro h
    obtain ⟨s', stripped, read⟩ := h
    refine (Outcome.bind_of_ok stripped).trans ((Outcome.bind_of_ok (Outcome.okOr_of_some read _)).trans ?_)
    rw [dif_pos hash.length_eq]
    rfl

/-- The hash that the node prints is the hash that the wallet compares. -/
theorem nodeGetBlockHash_eq {blockOf : H256 → Option OpaqueBlock} {genesisHash : H256}
    {node : Node blockOf genesisHash} {answer : UInt32 → Option Text}
    (answers : ∀ height, answer height = (node.getBlockHash height).map fun hash => zeroX ++ Hex.encode (encode hash))
    (height : UInt32) : nodeGetBlockHash answer height = .ok (node.getBlockHash height) := by
  unfold nodeGetBlockHash
  rw [answers]
  cases node.getBlockHash height with
  | none => rfl
  | some hash =>
    have read : h256FromString (zeroX ++ Hex.encode (encode hash)) = .ok hash :=
      h256FromString_ok.mpr ⟨_, Or.inr rfl, Hex.decode_encode _⟩
    show (do
      let hash ← expect (h256FromString (zeroX ++ Hex.encode (encode hash))).toOption
      return some hash) = _
    rw [read]
    rfl

/-! ### Verifying a coin -/

/-- `state_getStorage` over the text of a key. -/
def Relays (answer : Text → Option Text) (node : Storage) : Prop :=
  ∀ key, answer (Hex.encode key) = (node.get key).map fun value => zeroX ++ Hex.encode value

theorem strip_zeroX {s : Text} {bytes : Bytes} (read : Hex.decode s = some bytes) :
    strip0xPrefix (zeroX ++ s) = .ok s := by
  by_cases some : bytes = []
  · subst some
    obtain ⟨count, _⟩ := Hex.digits_of_decode read
    obtain rfl := List.length_eq_zero_iff.mp count
    rfl
  · obtain ⟨_, whole, _⟩ := not_cut_of_digits read some
    unfold strip0xPrefix
    rw [if_neg whole]
    rfl

theorem fetchStorageText_eq {answer : Text → Option Text} {node : Storage} (relays : Relays answer node)
    (r : OutputRef) : fetchStorageText answer r = liftWallet (fetchStorage node r) := by
  unfold fetchStorageText fetchStorage
  rw [relays]
  cases node.get (encode r) with
  | none => rfl
  | some value =>
    have read := Hex.decode_encode value
    refine (Outcome.bind_of_ok (strip_zeroX read)).trans ?_
    refine (Outcome.bind_of_ok (Outcome.okOr_of_some read _)).trans ?_
    show _ = liftWallet (decodeValue value)
    unfold decodeValue
    cases decode (α := Template.Output) value <;> rfl

theorem liftWallet_ok {α : Type} {x : Outcome Error α} {a : α} : liftWallet x = .ok a ↔ x = .ok a := by
  cases x <;> simp [liftWallet]

theorem liftWallet_answers {α : Type} {x : Outcome Error α} (answers : x.Answers) : (liftWallet x).Answers := by
  cases x with
  | ok a => nofun
  | error halt =>
    cases halt with
    | err e => nofun
    | panic => exact absurd rfl answers

section
variable {filter : OuterVerifier → Bool} {db : Db} {s : Storage}

/-- The table knows of a coin what the filter makes of the output on the chain. -/
theorem Tracks.getUnspent_eq (tracks : Tracks filter (peekUtxo OuterVerifier s) db.unspent) (r : OutputRef) :
    getUnspent db r = .ok ((peekUtxo OuterVerifier s r).bind (trackedCoin filter)) := by
  have stored := tracks.get_ref r
  rw [Ledger.view] at stored
  unfold getUnspent
  rw [stored]
  cases (peekUtxo OuterVerifier s r).bind (trackedCoin filter) with
  | none => rfl
  | some record => exact Outcome.bind_of_ok (decodeValue_encode record)

theorem verifyCoin_answers {answer : Text → Option Text} (relays : Relays answer s)
    (tracks : Tracks filter (peekUtxo OuterVerifier s) db.unspent) {arg : Text} (whole : ¬Cut arg) :
    (verifyCoin answer db arg).Answers := by
  have parses : (outputRefFromString arg).Answers := by
    have strips : (strip0xPrefix arg).Answers := by
      unfold strip0xPrefix
      rw [if_neg whole]
      split <;> nofun
    exact strips.bind fun _ _ => (Outcome.okOr_answers _ _).bind fun _ _ => Outcome.okOr_answers _ _
  refine parses.bind fun r _ => ?_
  have fetches : (fetchStorageText answer r).Answers := by
    rw [fetchStorageText_eq relays]
    exact liftWallet_answers ((Outcome.okOr_answers _ _).bind fun _ _ => Outcome.okOr_answers _ _)
  have extracts : ∀ d, (extractPayload (Money.Coin 0) d).Answers := by
    intro d
    unfold extractPayload
    split <;> nofun
  refine fetches.bind fun output _ => (liftWallet_answers (extracts output.payload)).bind fun coin _ => ?_
  rw [tracks.getUnspent_eq]
  nofun

/-- `verify-coin` takes exactly the strings that name a reference, and shows the coin that the chain has
there, which the wallet's table knows when it is one of its own. -/
theorem verify_coin_follows_chain {answer : Text → Option Text} (relays : Relays answer s)
    (tracks : Tracks filter (peekUtxo OuterVerifier s) db.unspent) (arg : Text) :
    (∀ shown, verifyCoin answer db arg = .ok shown ↔ ∃ r output coin, Names arg r ∧
      peekUtxo OuterVerifier s r = some output ∧ output.payload.extract (Money.Coin 0) = .ok coin ∧
      shown = ⟨coin.value, output.verifier, trackedCoin filter output⟩) ∧
    (verifyCoin answer db arg = .error .panic ↔ Cut arg) ∧
    ((∃ r, Names arg r) ↔ ∃ digits, (arg = digits ∨ arg = zeroX ++ digits) ∧
      2 ∣ digits.length ∧ 72 ≤ digits.length ∧ ∀ c ∈ digits, (Hex.value c).isSome) ∧
    (∀ r r', Names arg r → Names arg r' → r = r') ∧ ∀ r, Names (Hex.encode (encode r)) r := by
  refine ⟨fun shown => ⟨fun h => ?_, fun h => ?_⟩, ⟨fun h => ?_, fun cut => ?_⟩, names_iff_digits,
    fun r r' => names_unique, names_encode⟩
  · obtain ⟨r, parsed, h⟩ := Outcome.bind_ok h
    obtain ⟨output, fetched, h⟩ := Outcome.bind_ok h
    obtain ⟨coin, extracted, h⟩ := Outcome.bind_ok h
    obtain ⟨known, looked, h⟩ := Outcome.bind_ok h
    rw [fetchStorageText_eq relays, liftWallet_ok] at fetched
    have present := fetchStorage_ok.mp fetched
    have exact := extractPayload_ok (liftWallet_ok.mp extracted)
    have table := liftWallet_ok.mp looked
    rw [tracks.getUnspent_eq, present, Option.bind_some] at table
    cases table
    exact ⟨r, output, coin, outputRefFromString_ok.mp parsed, present, exact, Outcome.pure_ok h⟩
  · obtain ⟨r, output, coin, names, present, extracted, rfl⟩ := h
    have fetched : fetchStorageText answer r = .ok output := by
      rw [fetchStorageText_eq relays]
      exact liftWallet_ok.mpr (fetchStorage_ok.mpr present)
    have table := tracks.getUnspent_eq r
    rw [present, Option.bind_some] at table
    refine (Outcome.bind_of_ok (outputRefFromString_ok.mpr names)).trans ((Outcome.bind_of_ok fetched).trans ?_)
    refine (Outcome.bind_of_ok (liftWallet_ok.mpr (extractPayload_of_ok extracted))).trans ?_
    exact Outcome.bind_of_ok (liftWallet_ok.mpr table)
  · by_contra whole
    exact verifyCoin_answers relays tracks whole h
  · have stripped : strip0xPrefix arg = .error .panic := if_pos cut
    rw [verifyCoin, outputRefFromString, stripped]
    rfl

end

/-- A node that reads the key out of its text. -/
def relay (node : Storage) (text : Text) : Option Text :=
  ((Hex.decode text).bind node.get).map fun value => zeroX ++ Hex.encode value

theorem relays_relay (node : Storage) : Relays (relay node) node := by
  intro key
  rw [relay, Hex.decode_encode, Option.bind_some]

theorem verify_coin_follows_chain_pair :
    verifyCoin (relay (coinState (pairCoins 5 10))) (pairDb 5 10) (zeroX ++ Hex.encode (encode (pairRef 1))) =
      .ok ⟨10, .sr25519Signature ⟨walletKey⟩, some (walletKey, 10)⟩ := by
  have tracks : Tracks walletFilter (peekUtxo OuterVerifier (coinState (pairCoins 5 10))) (pairDb 5 10).unspent :=
    tracks_coinState (ascending_pair 5 10) (by decide)
  have names : Names (zeroX ++ Hex.encode (encode (pairRef 1))) (pairRef 1) :=
    ⟨[], _, Or.inr rfl, by rw [List.append_nil, Hex.decode_encode]⟩
  have listed : (pairRef 1, walletKey, 10) ∈ pairCoins 5 10 := List.mem_cons_of_mem _ List.mem_cons_self
  have present := peek_coinState (ascending_pair 5 10) listed
  exact ((verify_coin_follows_chain (relays_relay _) tracks _).1 _).mpr
    ⟨pairRef 1, coinTo walletKey 10, ⟨10⟩, names, present, extract_coinTo walletKey 10, rfl⟩

end Tuxedo.Wallet
