import Tuxedo.Executive.Effects
import Tuxedo.Executive.Independence
import Tuxedo.Runtime.ParachainInfo

/-!
# The side effects of the runtimes

Two checkers write storage: an upgrade writes the code and the parachain inherent the number of
the relay parent. The first writes after all its checks, the second before most of them.
-/

namespace Tuxedo
open Scale Executive TransparentUtxoSet

namespace Template
variable [Host]

namespace OuterConstraintChecker

/-- The checkers other than the upgrade are functions of the payloads and the height. -/
theorem check_eq_read {checker : OuterConstraintChecker} (plain : ∀ upgrade, checker ≠ .runtimeUpgrade upgrade)
    (inputs evicted peeks outputs : List DynamicallyTypedData) :
    ∃ outcome : Option BlockNumber → Outcome OuterConstraintCheckerError UInt64,
      check checker inputs evicted peeks outputs = Exec.read fun s => outcome (blockHeight s) := by
  cases checker with
  | runtimeUpgrade inner => exact absurd rfl (plain inner)
  | money inner => exact ⟨fun _ => _, Exec.mapErr_read _ _⟩
  | freeKittyConstraintChecker inner => exact ⟨fun _ => _, Exec.mapErr_read _ _⟩
  | amoebaMitosis inner => exact ⟨fun _ => _, Exec.mapErr_read _ _⟩
  | amoebaDeath inner => exact ⟨fun _ => _, Exec.mapErr_read _ _⟩
  | amoebaCreation inner => exact ⟨fun _ => _, Exec.mapErr_read _ _⟩
  | poeClaim inner =>
    exact ⟨fun height => (Poe.PoeClaim.check height inputs evicted peeks outputs).mapError _, Exec.mapErr_read _ _⟩
  | poeRevoke inner => exact ⟨fun _ => _, Exec.mapErr_read _ _⟩
  | poeDispute inner => exact ⟨fun _ => _, Exec.mapErr_read _ _⟩
  | setTimestamp inner =>
    exact ⟨fun height => (Time.SetTimestamp.check Runtime height inputs evicted peeks outputs).mapError _,
      Exec.mapErr_read _ _⟩

theorem check_failsCleanly (checker : OuterConstraintChecker)
    (inputs evicted peeks outputs : List DynamicallyTypedData) :
    (check checker inputs evicted peeks outputs).FailsCleanly := by
  by_cases upgrade : ∃ inner, checker = .runtimeUpgrade inner
  · obtain ⟨inner, rfl⟩ := upgrade
    exact (Upgrade.check_failsCleanly inner inputs evicted peeks outputs).mapErr _
  · obtain ⟨outcome, reads⟩ := check_eq_read (fun inner same => upgrade ⟨inner, same⟩) inputs evicted peeks outputs
    rw [reads]
    exact .read _

theorem sideEffectFree {checker : OuterConstraintChecker} (plain : ∀ upgrade, checker ≠ .runtimeUpgrade upgrade) :
    SideEffectFree OuterVerifier checker where
  writesNothing {inputs evicted peeks outputs s priority s₁} call := by
    obtain ⟨outcome, reads⟩ := check_eq_read plain inputs evicted peeks outputs
    replace call : check checker inputs evicted peeks outputs s = .ok priority s₁ := call
    rw [reads] at call
    exact (Exec.read_ok call).2.symm
  sameOutcome {inputs evicted peeks outputs s s₂ priority} rest call := by
    obtain ⟨outcome, reads⟩ := check_eq_read plain inputs evicted peeks outputs
    replace call : check checker inputs evicted peeks outputs s = .ok priority s := call
    change check checker inputs evicted peeks outputs s₂ = .ok priority s₂
    rw [reads] at call ⊢
    have passed := (Exec.read_ok call).1
    rw [← rest.blockHeight] at passed
    exact Exec.read_of_ok passed

end OuterConstraintChecker
end Template

namespace ParachainRuntime
open Template
open Parachain (RelayChain)
variable [Host] [RelayChain]

theorem inner_sideEffectFree {checker : OuterConstraintChecker} (plain : ∀ upgrade, checker ≠ .runtimeUpgrade upgrade) :
    SideEffectFree OuterVerifier (ParachainConstraintChecker.inner checker) where
  writesNothing call := (OuterConstraintChecker.sideEffectFree plain).writesNothing (Exec.mapErr_ok.mp call)
  sameOutcome rest call :=
    Exec.mapErr_ok.mpr ((OuterConstraintChecker.sideEffectFree plain).sameOutcome rest (Exec.mapErr_ok.mp call))

end ParachainRuntime

/-! ### Commutation -/

/-- Independent transactions without side effects can be applied in any order. In the two runtimes
all checkers but the upgrade and the parachain inherent have no side effects. -/
theorem independent_commute [Host] :
    (∀ (V C : Type) [Verifier V] [Codec C] [ConstraintChecker V C] (t₁ t₂ : Transaction V C) (s s' : Storage),
      SideEffectFree V t₁.checker → SideEffectFree V t₂.checker → Independent t₁ t₂ →
      ((∃ s₁, applyTuxedoTransaction t₁ s = .ok () s₁ ∧ applyTuxedoTransaction t₂ s₁ = .ok () s') ↔
        ∃ s₂, applyTuxedoTransaction t₂ s = .ok () s₂ ∧ applyTuxedoTransaction t₁ s₂ = .ok () s')) ∧
    ∀ checker : Template.OuterConstraintChecker, (∀ upgrade, checker ≠ .runtimeUpgrade upgrade) →
      SideEffectFree Template.OuterVerifier checker ∧
      ∀ [Parachain.RelayChain], SideEffectFree Template.OuterVerifier
        (ParachainRuntime.ParachainConstraintChecker.inner checker) := by
  refine ⟨?_, fun checker plain => ⟨Template.OuterConstraintChecker.sideEffectFree plain,
    ParachainRuntime.inner_sideEffectFree plain⟩⟩
  intro V C _ _ _ t₁ t₂ s s' free₁ free₂ independent
  constructor
  · rintro ⟨s₁, first, second⟩
    exact apply_swap free₁ free₂ independent first second
  · rintro ⟨s₂, first, second⟩
    exact apply_swap free₂ free₁ independent.symm first second

/-! Two coins are spent in either order. -/

def otherRef : OutputRef := ⟨FixedBytes.zero 32, 1⟩

def spendOther : Transaction UpForGrabs (Money.MoneyConstraintChecker 0) :=
  ⟨Vec.singleton ⟨otherRef, .redemption Vec.empty⟩, Vec.empty, Vec.singleton (coinOutput 30), .spend⟩

def twoCoins : Storage := coinStorage.set (encode otherRef) (encode (coinOutput 40))

theorem spend_sideEffectFree :
    SideEffectFree UpForGrabs (Money.MoneyConstraintChecker.spend : Money.MoneyConstraintChecker 0) where
  writesNothing call := (Exec.lift_ok call).2.symm
  sameOutcome {_ _ _ _ _ s₂ _} _ call := Exec.lift_of_ok (Exec.lift_ok call).1 s₂

/-- The spends have hashes of their own, and they apply one after the other. -/
theorem spends_apply :
    letI := Host.unsigned
    [some (FixedBytes.zero 32), spendCoin.id?, spendOther.id?].Nodup ∧
      (Exec.toOption (do applyTuxedoTransaction spendCoin; applyTuxedoTransaction spendOther) twoCoins).any
        (fun _ => true) = true := by
  decide +kernel

theorem spends_independent :
    letI := Host.unsigned
    Independent spendCoin spendOther := by
  let := Host.unsigned
  have unhashed : ∀ t : Transaction UpForGrabs (Money.MoneyConstraintChecker 0),
      t.id? ≠ some (FixedBytes.zero 32) → ∀ (i : UInt32) txHash, t.id? = some txHash →
      (⟨FixedBytes.zero 32, i⟩ : OutputRef) ∉ t.outputRefs txHash := by
    intro t other i txHash hash member
    obtain ⟨rfl, _⟩ := mem_outputRefs.mp member
    exact other hash
  have apart := spends_apply.1
  simp only [List.nodup_cons, List.mem_cons, List.not_mem_nil, or_false, not_or] at apart
  obtain ⟨⟨first, second⟩, different, _⟩ := apart
  refine ⟨?_, ?_, fun txHash hash hash' => different (hash.trans hash'.symm)⟩
  · intro r member
    obtain rfl : r = coinRef := List.mem_singleton.mp member
    exact ⟨by decide, unhashed spendOther (Ne.symm second) 0⟩
  · intro r member
    obtain rfl : r = otherRef := List.mem_singleton.mp member
    exact ⟨by decide, unhashed spendCoin (Ne.symm first) 1⟩

theorem independent_commute_spends :
    letI := Host.unsigned
    ∃ s', (∃ s₁, applyTuxedoTransaction spendCoin twoCoins = .ok () s₁ ∧
        applyTuxedoTransaction spendOther s₁ = .ok () s') ∧
      ∃ s₂, applyTuxedoTransaction spendOther twoCoins = .ok () s₂ ∧
        applyTuxedoTransaction spendCoin s₂ = .ok () s' := by
  let := Host.unsigned
  obtain ⟨_, s', run, _⟩ := Exec.exists_of_any spends_apply.2
  obtain ⟨_, s₁, first, second⟩ := Exec.bind_ok run
  have ordered : ∃ s₁, applyTuxedoTransaction spendCoin twoCoins = .ok () s₁ ∧
      applyTuxedoTransaction spendOther s₁ = .ok () s' := ⟨s₁, first, second⟩
  exact ⟨s', ordered, (independent_commute.1 _ _ spendCoin spendOther twoCoins s' spend_sideEffectFree
    spend_sideEffectFree spends_independent).mp ordered⟩

/-! ### Rejected transactions -/

namespace Template

/-- A rejected transaction leaves no trace, and a rejected extrinsic only its entry in the list of
the applied ones. -/
theorem rejected_no_trace [Host] (t : Transaction) (s s' : Storage) :
    (∀ e, applyTuxedoTransaction t s = .error (.err e) s' → s' = s) ∧
    ∀ e, applyExtrinsic t s = .error (.err e) s' →
      (∀ k, k ≠ extrinsicKey → s'.get k = s.get k) ∧
      ∃ (encoded : Vec UInt8) (noted : Vec (Vec UInt8)), encoded.toList = encode t ∧
        noted.toList = (notedExtrinsics s).toList ++ [encoded] ∧ s'.get extrinsicKey = some (encode noted) := by
  have clean : ∀ s, (checkIn t s).FailsCleanly := fun s =>
    OuterConstraintChecker.check_failsCleanly t.checker _ _ _ _
  refine ⟨fun e rejected => apply_failsCleanly (clean s) rejected, fun e rejected => ?_⟩
  obtain ⟨encoded, noted, same, appended, rfl⟩ := noteExtrinsic_eq_some.mp (applyExtrinsic_failed clean rejected)
  exact ⟨fun k other => Store.get_set_ne s _ other, encoded, noted, same, appended, Store.get_set_self s _ _⟩

end Template

def codeRef : OutputRef := ⟨FixedBytes.zero 32, 0⟩

/-- A reference to some code that anyone may replace. -/
def codeOutput (code : Bytes) : Template.Output :=
  let := Host.unsigned
  ⟨(DynamicallyTypedData.into? (⟨Host.blake2_256 code⟩ : Upgrade.RuntimeRef)).getD ⟨Vec.empty, FixedBytes.zero 4⟩,
    .upForGrabs ⟨⟩⟩

def upgradeStorage : Storage :=
  ((Store.empty.set heightKey (encode (1 : UInt32))).set codeKey [1]).set (encode codeRef) (encode (codeOutput [1]))

def upgradeToTwo : Template.Transaction :=
  ⟨Vec.singleton ⟨codeRef, .redemption (Vec.singleton 1)⟩, Vec.empty, Vec.singleton (codeOutput [2]),
    .runtimeUpgrade ⟨Vec.singleton 2⟩⟩

/-- The new reference names other code. -/
def upgradeAstray : Template.Transaction := { upgradeToTwo with outputs := Vec.singleton (codeOutput [3]) }

theorem upgradeAstray_rejected :
    letI := Host.unsigned
    ((applyTuxedoTransaction upgradeAstray).failure upgradeStorage).any
        (fun | .err (.constraintCheckerError _) => true | _ => false) = true ∧
      ((applyExtrinsic upgradeAstray).failure upgradeStorage).any (fun | .err _ => true | _ => false) = true := by
  decide +kernel

/-- A refused upgrade leaves the code and the reference to it as they are. -/
theorem rejected_no_trace_upgrade :
    letI := Host.unsigned
    (∃ e, applyTuxedoTransaction upgradeAstray upgradeStorage = .error (.err e) upgradeStorage) ∧
    ∃ e s', applyExtrinsic upgradeAstray upgradeStorage = .error (.err e) s' ∧ s'.get codeKey = some [1] ∧
      peekUtxo Template.OuterVerifier s' codeRef = some (codeOutput [1]) := by
  let := Host.unsigned
  obtain ⟨halt, s', rejected, failed⟩ := Exec.exists_of_failure upgradeAstray_rejected.1
  obtain ⟨halt', s₁, refused, failed'⟩ := Exec.exists_of_failure upgradeAstray_rejected.2
  cases halt with
  | panic => cases failed
  | err e =>
    cases halt' with
    | panic => cases failed'
    | err e' =>
      obtain rfl := (Template.rejected_no_trace _ _ _).1 e rejected
      obtain ⟨others, _⟩ := (Template.rejected_no_trace _ _ _).2 e' refused
      have there : peekUtxo Template.OuterVerifier upgradeStorage codeRef = some (codeOutput [1]) :=
        (peek_set _ _ _ _).trans (if_pos rfl)
      refine ⟨⟨e, rejected⟩, e', s₁, refused, (others codeKey (by decide)).trans rfl, ?_⟩
      unfold peekUtxo at there ⊢
      rw [others (encode codeRef) (by decide)]
      exact there

/-! ### Validation writes -/

/-- Validation of an upgrade passes every check, and the new code is not the stored one. -/
def UpgradesCode [Host] {C : Type} [Codec C] (upgradeOf : C → Option Upgrade.RuntimeUpgrade)
    (t : Transaction Template.OuterVerifier C) (s : Storage) : Prop :=
  ∃ txHash upgrade, upgradeOf t.checker = some upgrade ∧ Checkable t txHash s ∧
    Upgrade.Replaces upgrade (s.get codeKey)
      ((redeemedRefs t.inputs.toList).filterMap (payloadAt Template.OuterVerifier s))
      ((evictedRefs t.inputs.toList).filterMap (payloadAt Template.OuterVerifier s)) (outputData t) ∧
    s.get codeKey ≠ some upgrade.fullWasm.toList

namespace Template
variable [Host]

def OuterConstraintChecker.upgradeOf : OuterConstraintChecker → Option Upgrade.RuntimeUpgrade
  | .runtimeUpgrade inner => some inner
  | _ => none

theorem OuterConstraintChecker.after_check {checker : OuterConstraintChecker}
    {inputs evicted peeks outputs : List DynamicallyTypedData} {s : Storage} :
    (check checker inputs evicted peeks outputs).after s = s ↔
      ∀ upgrade, checker.upgradeOf = some upgrade → Upgrade.Replaces upgrade (s.get codeKey) inputs evicted outputs →
        s.get codeKey = some upgrade.fullWasm.toList := by
  by_cases upgrades : ∃ inner, checker = .runtimeUpgrade inner
  · obtain ⟨inner, rfl⟩ := upgrades
    have called : (check (.runtimeUpgrade inner) inputs evicted peeks outputs).after s =
        (Upgrade.check inner inputs evicted peeks outputs).after s := Exec.after_mapErr _ _ s
    rw [called, Upgrade.after_check]
    exact ⟨fun same _ found => by cases found; exact same, fun same => same inner rfl⟩
  · obtain ⟨outcome, reads⟩ := check_eq_read (fun inner same => upgrades ⟨inner, same⟩) inputs evicted peeks outputs
    rw [reads, Exec.after_read]
    refine ⟨fun _ upgrade found => ?_, fun _ => rfl⟩
    cases checker with
    | runtimeUpgrade inner => exact absurd ⟨inner, rfl⟩ upgrades
    | _ => cases found

/-- Validation writes nothing but new code. -/
theorem after_validate (t : Transaction) (s : Storage) :
    (validateTuxedoTransaction t).after s = s ↔ ¬UpgradesCode OuterConstraintChecker.upgradeOf t s := by
  rw [after_validate_iff (P := fun s' => s' = s) rfl]
  constructor
  · rintro unchanged ⟨txHash, upgrade, found, checkable, replaces, different⟩
    exact different (OuterConstraintChecker.after_check.mp (unchanged txHash checkable) upgrade found replaces)
  · intro none txHash checkable
    refine OuterConstraintChecker.after_check.mpr fun upgrade found replaces => ?_
    by_contra different
    exact none ⟨txHash, upgrade, found, checkable, replaces, different⟩

end Template

namespace ParachainRuntime
open Template
open Parachain (RelayChain ParachainInherentDataUtxo relayParentNumberKey)

def ParachainConstraintChecker.upgradeOf : ParachainConstraintChecker → Option Upgrade.RuntimeUpgrade
  | .inner checker => checker.upgradeOf
  | .parachainInfo _ => none

variable [Host] [RelayChain]

/-- Validation of a parachain inherent comes to call the checker, which finds one info in the
outputs, with another relay parent number than the stored one. -/
def NotesRelayParent (t : Transaction) (s : Storage) : Prop :=
  ∃ txHash checker d current, t.checker = .parachainInfo checker ∧ Checkable t txHash s ∧ outputData t = [d] ∧
    d.extract ParachainInherentDataUtxo = .ok ⟨current⟩ ∧
    s.get relayParentNumberKey ≠ some (encode current.validationData.relayParentNumber)

theorem after_validate (t : Transaction) (s : Storage) :
    (validateTuxedoTransaction t).after s = s ↔
      ¬UpgradesCode ParachainConstraintChecker.upgradeOf t s ∧ ¬NotesRelayParent t s := by
  rw [after_validate_iff (P := fun s' => s' = s) rfl]
  cases shape : t.checker with
  | inner checker =>
    have called : (checkIn t s).after s = (OuterConstraintChecker.check checker
        ((redeemedRefs t.inputs.toList).filterMap (payloadAt OuterVerifier s))
        ((evictedRefs t.inputs.toList).filterMap (payloadAt OuterVerifier s))
        (t.peeks.toList.filterMap (payloadAt OuterVerifier s)) (outputData t)).after s := by
      unfold checkIn
      rw [shape]
      exact Exec.after_mapErr _ _ s
    rw [called, OuterConstraintChecker.after_check]
    constructor
    · intro unchanged
      constructor
      · rintro ⟨txHash, upgrade, found, checkable, replaces, different⟩
        rw [shape] at found
        exact different (unchanged txHash checkable upgrade found replaces)
      · rintro ⟨_, _, _, _, info, _⟩
        rw [shape] at info
        cases info
    · rintro ⟨none, _⟩ txHash checkable upgrade found replaces
      by_contra different
      exact none ⟨txHash, upgrade, by rw [shape]; exact found, checkable, replaces, different⟩
  | parachainInfo checker =>
    have called : (checkIn t s).after s = (Parachain.SetParachainInfo.check RuntimeParachainConfig
        ((redeemedRefs t.inputs.toList).filterMap (payloadAt OuterVerifier s))
        ((evictedRefs t.inputs.toList).filterMap (payloadAt OuterVerifier s))
        (t.peeks.toList.filterMap (payloadAt OuterVerifier s)) (outputData t)).after s := by
      unfold checkIn
      rw [shape]
      exact Exec.after_mapErr _ _ s
    have stored : ∀ (number : UInt32), Parachain.ParachainPieceConfig.setRelayParentNumber RuntimeParachainConfig
        number s = s ↔ s.get relayParentNumberKey = some (encode number) := fun _ => Store.set_eq_self_iff
    simp only [called, Parachain.SetParachainInfo.after_check, stored]
    constructor
    · intro unchanged
      constructor
      · rintro ⟨_, _, found, _⟩
        rw [shape] at found
        cases found
      · rintro ⟨txHash, _, d, current, _, checkable, one, extracted, different⟩
        exact different (unchanged txHash checkable d current one extracted)
    · rintro ⟨_, none⟩ txHash checkable d current one extracted
      by_contra different
      exact none ⟨txHash, checker, d, current, shape, checkable, one, extracted, different⟩

end ParachainRuntime

/-- Validation leaves the storage alone unless a checker that it calls writes something new: an
upgrade that passes, or a parachain inherent, whether it passes or not. -/
theorem validation_read_only_iff [Host] :
    (∀ (t : Template.Transaction) (s : Storage), (validateTuxedoTransaction t).after s = s ↔
      ¬UpgradesCode Template.OuterConstraintChecker.upgradeOf t s) ∧
    ∀ [Parachain.RelayChain] (t : ParachainRuntime.Transaction) (s : Storage),
      (validateTuxedoTransaction t).after s = s ↔
        ¬UpgradesCode ParachainRuntime.ParachainConstraintChecker.upgradeOf t s ∧
        ¬ParachainRuntime.NotesRelayParent t s :=
  ⟨Template.after_validate, ParachainRuntime.after_validate⟩

def relayStorage : Storage := Store.empty.set Parachain.relayParentNumberKey (encode (1 : UInt32))

/-- A parachain inherent without a previous one. -/
def orphanInfo : ParachainRuntime.Transaction :=
  ⟨Vec.empty, Vec.empty, Vec.singleton (ParachainRuntime.infoOutput Vec.empty 5), .parachainInfo ⟨⟨⟩⟩⟩

/-- An upgrade that validates replaces the code, and an inherent that does not validate still
replaces the number of the relay parent. -/
theorem validation_writes :
    letI := Host.unsigned
    letI := ParachainRuntime.plainRelay
    (∃ valid s', validateTuxedoTransaction upgradeToTwo upgradeStorage = .ok valid s' ∧ s'.get codeKey = some [2] ∧
      upgradeStorage.get codeKey = some [1]) ∧
    ∃ e s', validateTuxedoTransaction orphanInfo relayStorage = .error (.err e) s' ∧
      s'.get Parachain.relayParentNumberKey = some (encode (5 : UInt32)) ∧
      relayStorage.get Parachain.relayParentNumberKey = some (encode (1 : UInt32)) := by
  let := Host.unsigned
  let := ParachainRuntime.plainRelay
  refine ⟨?_, ?_⟩
  · obtain ⟨valid, s', validated, wrote⟩ := Exec.exists_of_any (x := validateTuxedoTransaction upgradeToTwo)
      (s := upgradeStorage) (p := fun result => result.2.get codeKey = some [2]) (by decide +kernel)
    exact ⟨valid, s', validated, of_decide_eq_true wrote, rfl⟩
  · obtain ⟨halt, s', rejected, failed⟩ := Exec.exists_of_failure (x := validateTuxedoTransaction orphanInfo)
      (s := relayStorage) (p := fun | .err _ => true | .panic => false) (by decide +kernel)
    cases halt with
    | panic => cases failed
    | err e =>
      refine ⟨e, s', rejected, ?_, Store.get_set_self _ _ _⟩
      rw [← Exec.after_of_error rejected]
      decide +kernel

end Tuxedo
