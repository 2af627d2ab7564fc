import Tuxedo.Executive.Custody

/-!
# Locked outputs over blocks

What takes an output behind a time lock or a hash time lock contract, and two contracts under one hash
on two chains.
-/

namespace Tuxedo
open Scale Executive TransparentUtxoSet

/-- The redeemer goes through the arm and comes out as this one. -/
def Arm.Presents {V W : Type} [Verifier V] [Verifier W] (arm : Arm V W) (strategy : RedemptionStrategy)
    (redeemer : Verifier.Redeemer W) : Prop :=
  ∃ bytes outer rest, strategy = .redemption bytes ∧
    decode (α := Verifier.Redeemer V) bytes.toList = some (outer, rest) ∧ arm.asVariant outer = some redeemer

theorem Arm.presents_wrap {V W : Type} [Verifier V] [Verifier W] (arm : Arm V W) {redeemer : Verifier.Redeemer W}
    {bytes : Vec UInt8} (wrapped : bytes.toList = encode (arm.wrap redeemer)) :
    arm.Presents (.redemption bytes) redeemer :=
  ⟨bytes, arm.wrap redeemer, [], rfl, by rw [wrapped, decode_encode_nil], arm.asVariant_wrap redeemer⟩

namespace HashTimeLockContract

/-- What the contract asks of a spend path. -/
def Opens [Host] (contract : HashTimeLockContract) (strippedEncoded : Bytes) (number : BlockNumber) :
    HtlcSpendPath → Prop
  | .claim secret signature =>
    Host.blake2_256 secret.toList = contract.hashLock ∧
      Host.sr25519Verify signature strippedEncoded contract.recipientPubkey
  | .refund signature =>
    contract.claimPeriodEnd ≤ number ∧ Host.sr25519Verify signature strippedEncoded contract.refunderPubkey

/-- A claim that the key has signed. -/
def ClaimedBy [Host] (pubkey : H256) (strippedEncoded : Bytes) (_ : BlockNumber) : HtlcSpendPath → Prop
  | .claim _ signature => Host.sr25519Verify signature strippedEncoded pubkey
  | .refund _ => False

/-- A refund that the key has signed. -/
def RefundedBy [Host] (pubkey : H256) (strippedEncoded : Bytes) (_ : BlockNumber) : HtlcSpendPath → Prop
  | .claim _ _ => False
  | .refund signature => Host.sr25519Verify signature strippedEncoded pubkey

theorem verify_iff [Host] {contract : HashTimeLockContract} {strippedEncoded : Bytes} {number : BlockNumber}
    {path : HtlcSpendPath} :
    Verifier.verify contract strippedEncoded number path = some true ↔
      contract.Opens strippedEncoded number path := by
  cases path with
  | claim secret signature =>
    show some (decide _) = some true ↔ _
    simp [Opens]
  | refund signature =>
    show some (decide _) = some true ↔ _
    simp [Opens]

end HashTimeLockContract

namespace Executive

def Evicted {V C : Type} (blocks : List (Block V C)) (r : OutputRef) : Prop :=
  ∃ block ∈ blocks, ∃ t ∈ block.extrinsics.toList, r ∈ evictedRefs t.inputs.toList

/-- A transaction of the blocks spends the output with redeemers that prove this of it and of its block. -/
def Opened {V W C : Type} [Codec C] [Verifier V] [Verifier W] (arm : Arm V W) (blocks : List (Block V C))
    (r : OutputRef) (proof : Bytes → BlockNumber → Verifier.Redeemer W → Prop) : Prop :=
  ∃ block ∈ blocks, ∃ t ∈ block.extrinsics.toList, r ∈ inputRefs t ∧
    ∀ input ∈ t.inputs.toList, input.outputRef = r →
      ∃ redeemer, arm.Presents input.redeemer redeemer ∧ proof (encode t.stripped) block.header.number redeemer

/-- An input of the blocks that names the output carries a redeemer that proves this. -/
def Carries {V W C : Type} [Codec C] [Verifier V] [Verifier W] (arm : Arm V W) (blocks : List (Block V C))
    (r : OutputRef) (proof : Bytes → BlockNumber → Verifier.Redeemer W → Prop) : Prop :=
  ∃ block ∈ blocks, ∃ t ∈ block.extrinsics.toList, ∃ input ∈ t.inputs.toList, input.outputRef = r ∧
    ∃ redeemer, arm.Presents input.redeemer redeemer ∧ proof (encode t.stripped) block.header.number redeemer

section
variable {V W C : Type} [Verifier V] [Verifier W] {strippedEncoded : Bytes} {number : BlockNumber}
  {strategy : RedemptionStrategy}

theorem redeemed_iff (arm : Arm V W) {verifier : V} {inner : W} (locked : arm.unwrap verifier = some inner) :
    Redeemed strippedEncoded number strategy verifier ↔
      ∃ redeemer, arm.Presents strategy redeemer ∧
        Verifier.verify inner strippedEncoded number redeemer = some true := by
  constructor
  · intro ⟨bytes, outer, rest, same, decoded, verified⟩
    rw [arm.verify locked] at verified
    obtain ⟨redeemer, matched, verified⟩ := Option.bind_eq_some_iff.mp verified
    exact ⟨redeemer, ⟨bytes, outer, rest, same, decoded, matched⟩, verified⟩
  · intro ⟨redeemer, ⟨bytes, outer, rest, same, decoded, matched⟩, verified⟩
    refine ⟨bytes, outer, rest, same, decoded, ?_⟩
    rw [arm.verify locked, matched]
    exact verified

variable [Codec C] {blocks : List (Block V C)} {r : OutputRef}

section
variable {arm : Arm V W} {proof proof' : Bytes → BlockNumber → Verifier.Redeemer W → Prop}

theorem Opened.imp (opened : Opened arm blocks r proof)
    (step : ∀ strippedEncoded number redeemer, proof strippedEncoded number redeemer →
      proof' strippedEncoded number redeemer) : Opened arm blocks r proof' := by
  obtain ⟨block, member, t, included, spent, proves⟩ := opened
  refine ⟨block, member, t, included, spent, fun input listed same => ?_⟩
  obtain ⟨redeemer, presents, proved⟩ := proves input listed same
  exact ⟨redeemer, presents, step _ _ _ proved⟩

theorem Opened.carries (opened : Opened arm blocks r proof) : Carries arm blocks r proof := by
  obtain ⟨block, member, t, included, spent, proves⟩ := opened
  obtain ⟨input, listed, same⟩ := List.mem_map.mp spent
  exact ⟨block, member, t, included, input, listed, same, proves input listed same⟩

end

variable [Host] [ConstraintChecker V C] [KeepsUtxos V C] [KeepsHeight V C] {s s' : Storage} {output : Output V}

/-- An output that goes was evicted or its verifier was satisfied. -/
theorem Imported.opened (arm : Arm V W) {inner : W} (run : Imported s blocks s')
    (present : peekUtxo V s r = some output) (locked : arm.unwrap output.verifier = some inner)
    (lost : peekUtxo V s' r ≠ some output) :
    Evicted blocks r ∨ Opened arm blocks r fun strippedEncoded number redeemer =>
      Verifier.verify inner strippedEncoded number redeemer = some true := by
  obtain ⟨block, member, t, included, takes⟩ := run.takes present lost
  by_cases evicts : ∃ input ∈ t.inputs.toList, input.outputRef = r ∧ input.redeemer = .eviction
  · obtain ⟨input, listed, rfl, evicted⟩ := evicts
    exact Or.inl ⟨block, member, t, included, List.mem_filterMap.mpr ⟨input, listed, by simp [evicted]⟩⟩
  · refine Or.inr ⟨block, member, t, included, takes.spent, fun input listed same => ?_⟩
    have redeemed := (takes.consent input listed same).resolve_left fun evicted => evicts ⟨input, listed, same, evicted⟩
    exact (redeemed_iff arm locked).mp redeemed

theorem Imported.satisfied (arm : Arm V W) {inner : W} (run : Imported s blocks s')
    (present : peekUtxo V s r = some output) (locked : arm.unwrap output.verifier = some inner)
    (spared : ¬Evicted blocks r) (lost : peekUtxo V s' r ≠ some output) :
    Opened arm blocks r fun strippedEncoded number redeemer =>
      Verifier.verify inner strippedEncoded number redeemer = some true :=
  (run.opened arm present locked lost).resolve_left spared

theorem Imported.contract_opened (arm : Arm V HashTimeLockContract) {contract : HashTimeLockContract}
    (run : Imported s blocks s') (present : peekUtxo V s r = some output)
    (locked : arm.unwrap output.verifier = some contract) (spared : ¬Evicted blocks r)
    (lost : peekUtxo V s' r ≠ some output) : Opened arm blocks r contract.Opens :=
  (run.satisfied arm present locked spared lost).imp fun _ _ _ verified => HashTimeLockContract.verify_iff.mp verified

/-- What it takes to remove an output, for each lock. -/
theorem locks_hold (run : Imported s blocks s') (present : peekUtxo V s r = some output) (spared : ¬Evicted blocks r)
    (lost : peekUtxo V s' r ≠ some output) :
    (∀ (arm : Arm V Unspendable) lock, arm.unwrap output.verifier ≠ some lock) ∧
    (∀ (arm : Arm V TimeLock) lock, arm.unwrap output.verifier = some lock →
      Opened arm blocks r fun _ number _ => lock.unlockBlockHeight ≤ number) ∧
    (∀ (arm : Arm V BlakeTwoHashLock) lock, arm.unwrap output.verifier = some lock →
      Opened arm blocks r fun _ _ secret => Host.blake2_256 secret.toList = lock.hashLock) ∧
    (∀ (arm : Arm V P2PKH) lock, arm.unwrap output.verifier = some lock →
      Opened arm blocks r fun strippedEncoded _ redeemer =>
        Host.blake2_256 redeemer.1.toList = lock.ownerPubkeyHash ∧
          Host.sr25519Verify redeemer.2 strippedEncoded redeemer.1) ∧
    (∀ (arm : Arm V HashTimeLockContract) lock, arm.unwrap output.verifier = some lock →
      Opened arm blocks r lock.Opens) := by
  refine ⟨?_, ?_, ?_, ?_, ?_⟩
  · intro arm lock locked
    obtain ⟨_, _, _, _, _, _, _, _, _, verified⟩ := (run.satisfied arm present locked spared lost).carries
    cases verified
  · intro arm lock locked
    exact (run.satisfied arm present locked spared lost).imp fun _ _ _ verified =>
      of_decide_eq_true (Option.some.inj verified)
  · intro arm lock locked
    exact (run.satisfied arm present locked spared lost).imp fun _ _ _ verified =>
      of_decide_eq_true (Option.some.inj verified)
  · intro arm lock locked
    exact (run.satisfied arm present locked spared lost).imp fun _ _ _ verified =>
      of_decide_eq_true (Option.some.inj verified)
  · intro arm lock locked
    exact run.contract_opened arm present locked spared lost

end

/-! ### Two contracts under one hash -/

/-- An input of the blocks that spends the output shows the secret. -/
def Reveals {V C : Type} [Host] [Codec C] [Verifier V] (arm : Arm V HashTimeLockContract) (blocks : List (Block V C))
    (r : OutputRef) (secret : Vec UInt8) : Prop :=
  Carries arm blocks r fun _ _ path => ∃ signature, path = .claim secret signature

section
variable {V₁ V₂ C₁ C₂ : Type} [Host] [Verifier V₁] [Verifier V₂] [Codec C₁] [Codec C₂] [ConstraintChecker V₁ C₁]
  [ConstraintChecker V₂ C₂] [KeepsUtxos V₁ C₁] [KeepsUtxos V₂ C₂] [KeepsHeight V₁ C₁] [KeepsHeight V₂ C₂]
  {s₁ s₁' s₂ s₂' : Storage} {blocks₁ : List (Block V₁ C₁)} {blocks₂ : List (Block V₂ C₂)} {r₁ r₂ : OutputRef}
  {output₁ : Output V₁} {output₂ : Output V₂}

/-- Whoever receives the first contract and has funded the second, and has sent neither a claim nor a
refund, loses neither without being shown how to claim the first. -/
theorem swap_safe (arm₁ : Arm V₁ HashTimeLockContract) (arm₂ : Arm V₂ HashTimeLockContract)
    {contract₁ contract₂ : HashTimeLockContract} (shared : contract₁.hashLock = contract₂.hashLock)
    (run₁ : Imported s₁ blocks₁ s₁') (run₂ : Imported s₂ blocks₂ s₂')
    (present₁ : peekUtxo V₁ s₁ r₁ = some output₁) (present₂ : peekUtxo V₂ s₂ r₂ = some output₂)
    (locked₁ : arm₁.unwrap output₁.verifier = some contract₁)
    (locked₂ : arm₂.unwrap output₂.verifier = some contract₂)
    (spared₁ : ¬Evicted blocks₁ r₁) (spared₂ : ¬Evicted blocks₂ r₂)
    (claimable : ∀ block ∈ blocks₁, block.header.number < contract₁.claimPeriodEnd)
    (unclaimed : ¬Carries arm₁ blocks₁ r₁ (HashTimeLockContract.ClaimedBy contract₁.recipientPubkey))
    (unrefunded : ¬Carries arm₂ blocks₂ r₂ (HashTimeLockContract.RefundedBy contract₂.refunderPubkey)) :
    peekUtxo V₁ s₁' r₁ = some output₁ ∧
      (peekUtxo V₂ s₂' r₂ ≠ some output₂ → ∃ secret, Reveals arm₂ blocks₂ r₂ secret ∧
        ∀ (t : Transaction V₁ C₁) (number : BlockNumber) (signature : Signature) (bytes : Vec UInt8),
          Host.sr25519Verify signature (encode t.stripped) contract₁.recipientPubkey →
          bytes.toList = encode (arm₁.wrap (.claim secret signature)) →
          Redeemed (encode t.stripped) number (.redemption bytes) output₁.verifier) := by
  constructor
  · by_contra lost
    have opened := run₁.contract_opened arm₁ present₁ locked₁ spared₁ lost
    obtain ⟨block, member, t, included, input, listed, named, path, presents, opens⟩ := opened.carries
    cases path with
    | claim secret signature =>
      exact unclaimed ⟨block, member, t, included, input, listed, named, _, presents, opens.2⟩
    | refund signature => exact absurd (claimable block member) (UInt32.not_lt.mpr opens.1)
  · intro lost
    have opened := run₂.contract_opened arm₂ present₂ locked₂ spared₂ lost
    obtain ⟨block, member, t, included, input, listed, named, path, presents, opens⟩ := opened.carries
    cases path with
    | refund signature =>
      exact absurd ⟨block, member, t, included, input, listed, named, _, presents, opens.2⟩ unrefunded
    | claim secret signature =>
      refine ⟨secret, ⟨block, member, t, included, input, listed, named, _, presents, signature, rfl⟩, ?_⟩
      intro t number signature bytes signed wrapped
      refine (redeemed_iff arm₁ locked₁).mpr ⟨.claim secret signature, Arm.presents_wrap arm₁ wrapped, ?_⟩
      exact HashTimeLockContract.verify_iff.mpr ⟨opens.1.trans shared.symm, signed⟩

end

/-! Two chains of coins. Alice claims on the second. -/

def alice : H256 := .zero 32

def bob : H256 := ⟨1 :: List.replicate 31 0, rfl⟩

def sealedContract (recipientPubkey : H256) (claimPeriodEnd : BlockNumber) (refunderPubkey : H256) :
    HashTimeLockContract :=
  ⟨Blake2b.blake2b256 [7], recipientPubkey, claimPeriodEnd, refunderPubkey⟩

def sealedCoin (contract : HashTimeLockContract) : Output HashTimeLockContract := ⟨(coinOutput 100).payload, contract⟩

def sealedStorage (contract : HashTimeLockContract) : Storage :=
  (Store.empty.set heightKey (encode (1 : UInt32))).set (encode coinRef) (encode (sealedCoin contract))

theorem sealed_present (contract : HashTimeLockContract) :
    peekUtxo HashTimeLockContract (sealedStorage contract) coinRef = some (sealedCoin contract) :=
  (peek_set _ _ _ _).trans (if_pos rfl)

def showSecret (pubkey : H256) : Input where
  outputRef := coinRef
  redeemer := .redemption ⟨encode (HtlcSpendPath.claim (Vec.singleton 7) (signedBy pubkey)), by
    simp [encode, Vec.singleton, compactBytes, encodeItems, (signedBy pubkey).length_eq]⟩

def claimSealed (pubkey : H256) : Transaction HashTimeLockContract (Money.MoneyConstraintChecker 0) :=
  ⟨Vec.singleton (showSecret pubkey), Vec.empty, Vec.singleton (sealedCoin (sealedContract alice 0 alice)), .spend⟩

def sealedBlock (t : Transaction HashTimeLockContract (Money.MoneyConstraintChecker 0)) :
    Block HashTimeLockContract (Money.MoneyConstraintChecker 0) :=
  ⟨⟨FixedBytes.zero 32, 2, FixedBytes.zero 32, FixedBytes.zero 32, Vec.empty⟩, Vec.singleton t⟩

def claimBlock : Block HashTimeLockContract (Money.MoneyConstraintChecker 0) := sealedBlock (claimSealed alice)

/-- Someone looks at the contract and mints a coin. -/
def watchBlock : Block HashTimeLockContract (Money.MoneyConstraintChecker 0) :=
  sealedBlock ⟨Vec.empty, Vec.singleton coinRef, Vec.singleton (sealedCoin (sealedContract alice 0 alice)), .mint⟩

theorem claim_executes :
    letI := Host.signing
    ∃ s', executeBlock claimBlock (sealedStorage (sealedContract alice 50 bob)) = .ok () s' ∧
      peekUtxo HashTimeLockContract s' coinRef ≠ some (sealedCoin (sealedContract alice 50 bob)) := by
  let := Host.signing
  obtain ⟨_, s', executed, gone⟩ := Exec.exists_of_any (x := executeBlock claimBlock)
    (s := sealedStorage (sealedContract alice 50 bob))
    (p := fun answer => peekUtxo HashTimeLockContract answer.2 coinRef = none) (by decide +kernel)
  refine ⟨s', executed, ?_⟩
  rw [of_decide_eq_true gone]
  nofun

theorem claim_spares : ¬Evicted [claimBlock] coinRef := by
  intro ⟨block, member, t, included, evicted⟩
  obtain rfl := List.mem_singleton.mp member
  obtain rfl := List.mem_singleton.mp included
  cases evicted

theorem locks_hold_claimed :
    letI := Host.signing
    ∃ s', executeBlock claimBlock (sealedStorage (sealedContract alice 50 bob)) = .ok () s' ∧
      Opened (.whole HashTimeLockContract) [claimBlock] coinRef (sealedContract alice 50 bob).Opens := by
  let := Host.signing
  obtain ⟨s', executed, lost⟩ := claim_executes
  have held := sealed_present (sealedContract alice 50 bob)
  obtain ⟨_, _, _, _, opened⟩ := locks_hold (.execute executed (.done s')) held claim_spares lost
  exact ⟨s', executed, opened (.whole _) _ rfl⟩

theorem showSecret_presents [Host] {pubkey : H256} {path : HtlcSpendPath}
    (presents : (Arm.whole HashTimeLockContract).Presents (showSecret pubkey).redeemer path) :
    path = .claim (Vec.singleton 7) (signedBy pubkey) := by
  obtain ⟨bytes, outer, rest, same, decoded, matched⟩ := presents
  obtain rfl := RedemptionStrategy.redemption.inj same
  rw [decode_encode_nil] at decoded
  cases decoded
  exact (Option.some.inj matched).symm

theorem claim_carries [Host] {proof : Bytes → BlockNumber → HtlcSpendPath → Prop}
    (carries : Carries (.whole HashTimeLockContract) [claimBlock] coinRef proof) :
    proof (encode (claimSealed alice).stripped) 2 (.claim (Vec.singleton 7) (signedBy alice)) := by
  obtain ⟨block, member, t, included, input, listed, _, path, presents, proved⟩ := carries
  obtain rfl := List.mem_singleton.mp member
  obtain rfl := List.mem_singleton.mp included
  obtain rfl := List.mem_singleton.mp listed
  exact showSecret_presents presents ▸ proved

/-- Bob can sign on either chain. Once Alice has claimed on the second he can claim on the first. -/
theorem swap_safe_claimed :
    letI := Host.signing
    ∃ s₁ s₂, executeBlock watchBlock (sealedStorage (sealedContract bob 100 alice)) = .ok () s₁ ∧
      peekUtxo HashTimeLockContract s₁ coinRef = some (sealedCoin (sealedContract bob 100 alice)) ∧
      executeBlock claimBlock (sealedStorage (sealedContract alice 50 bob)) = .ok () s₂ ∧
      Redeemed (encode (claimSealed bob).stripped) 3 (showSecret bob).redeemer (sealedContract bob 100 alice) := by
  let := Host.signing
  obtain ⟨s₂, executed, lost⟩ := claim_executes
  obtain ⟨_, s₁, watched, _⟩ := Exec.exists_of_any (x := executeBlock watchBlock)
    (s := sealedStorage (sealedContract bob 100 alice)) (p := fun _ => true) (by decide +kernel)
  have kept := sealed_present (sealedContract bob 100 alice)
  have held := sealed_present (sealedContract alice 50 bob)
  have shared : (sealedContract bob 100 alice).hashLock = (sealedContract alice 50 bob).hashLock := rfl
  have early : ∀ block ∈ [watchBlock], block.header.number < (sealedContract bob 100 alice).claimPeriodEnd := by
    simp [watchBlock, sealedBlock, sealedContract]
  have spared : ¬Evicted [watchBlock] coinRef := by
    intro ⟨block, member, t, included, evicted⟩
    obtain rfl := List.mem_singleton.mp member
    obtain rfl := List.mem_singleton.mp included
    cases evicted
  have unclaimed : ¬Carries (.whole HashTimeLockContract) [watchBlock] coinRef
      (HashTimeLockContract.ClaimedBy bob) := by
    intro ⟨block, member, t, included, input, listed, _⟩
    obtain rfl := List.mem_singleton.mp member
    obtain rfl := List.mem_singleton.mp included
    cases listed
  obtain ⟨still, taken⟩ := swap_safe (.whole HashTimeLockContract) (.whole HashTimeLockContract) shared
    (.execute watched (.done s₁)) (.execute executed (.done s₂)) kept held rfl rfl spared claim_spares early unclaimed
    claim_carries
  obtain ⟨secret, reveals, claims⟩ := taken lost
  obtain ⟨signature, shown⟩ := claim_carries reveals
  obtain ⟨rfl, _⟩ := HtlcSpendPath.claim.inj shown
  refine ⟨s₁, s₂, watched, still, executed, claims (claimSealed bob) 3 (signedBy bob) _ ?_ rfl⟩
  decide

end Executive
end Tuxedo
