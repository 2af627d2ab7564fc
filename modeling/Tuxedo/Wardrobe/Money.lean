import Tuxedo.Core.ConstraintChecker

/-!
# Money

A fungible token, with one kind of coin for each `ID`.
-/

namespace Tuxedo.Money
open Scale

structure Coin (ID : UInt8) where
  value : U128
  deriving DecidableEq

instance {ID : UInt8} : UtxoData (Coin ID) where
  toCodec := .ofFields U128 (fun coin => coin.value) (fun value => ⟨value⟩) (fun _ => rfl)
  typeId := ⟨[99, 111, 105, ID], rfl⟩

theorem encode_coin_small (value : U128) : (encode (⟨value⟩ : Coin 0)).length < 2 ^ 32 := by simp [encode]

inductive MoneyConstraintChecker (ID : UInt8) where
  | spend
  | mint
  deriving DecidableEq

instance {ID : UInt8} : Codec (MoneyConstraintChecker ID) :=
  .ofVariants (fun
      | .spend => 0
      | .mint => 1)
    (fun _ => [])
    (fun i bytes =>
      match i with
      | 0 => some (.spend, bytes)
      | 1 => some (.mint, bytes)
      | _ => none)
    (fun checker rest => by cases checker <;> rfl)

inductive ConstraintCheckerError where
  | badlyTyped
  | noEvictionsAllowed
  | mintingWithInputs
  | mintingNothing
  | spendingNothing
  | outputsExceedInputs
  | valueOverflow
  | zeroValueCoin
  deriving DecidableEq

def checkedAdd (a b : U128) : Option U128 :=
  if a.toNat + b.toNat < 2 ^ 128 then some (a + b) else none

variable (ID : UInt8)

def addInput (total : U128) (input : DynamicallyTypedData) : Outcome ConstraintCheckerError U128 := do
  let coin ← orErr (input.extract (Coin ID)) .badlyTyped
  okOr (checkedAdd total coin.value) .valueOverflow

def addOutput (total : U128) (output : DynamicallyTypedData) : Outcome ConstraintCheckerError U128 := do
  let coin ← orErr (output.extract (Coin ID)) .badlyTyped
  ensure (0 < coin.value) .zeroValueCoin
  okOr (checkedAdd total coin.value) .valueOverflow

def mintOutput (output : DynamicallyTypedData) : Outcome ConstraintCheckerError Unit := do
  let coin ← orErr (output.extract (Coin ID)) .badlyTyped
  ensure (0 < coin.value) .zeroValueCoin

/-- The burned value, saturated. -/
def priority (burned : U128) : UInt64 :=
  if burned.toNat < 2 ^ 64 - 1 then UInt64.ofNat burned.toNat else 18446744073709551615

def check (checker : MoneyConstraintChecker ID)
    (inputData evictedInputData _peeks outputData : List DynamicallyTypedData) :
    Outcome ConstraintCheckerError UInt64 := do
  ensure (evictedInputData.isEmpty) .noEvictionsAllowed
  match checker with
  | .spend =>
    ensure (¬inputData.isEmpty) .spendingNothing
    let totalInputValue ← inputData.foldlM (addInput ID) 0
    let totalOutputValue ← outputData.foldlM (addOutput ID) 0
    ensure (totalOutputValue ≤ totalInputValue) .outputsExceedInputs
    return priority (totalInputValue - totalOutputValue)
  | .mint =>
    ensure (inputData.isEmpty) .mintingWithInputs
    ensure (¬outputData.isEmpty) .mintingNothing
    outputData.forM (mintOutput ID)
    return 0

instance : SimpleConstraintChecker (MoneyConstraintChecker ID) where
  Error := ConstraintCheckerError
  check checker inputData evictedInputData peeks outputData :=
    Exec.lift (check ID checker inputData evictedInputData peeks outputData)

/-! ### What a passed check says -/

variable {ID}
open DynamicallyTypedData

def coinValue (ID : UInt8) (d : DynamicallyTypedData) : Nat :=
  match d.extract (Coin ID) with
  | .ok coin => coin.value.toNat
  | .error _ => 0

theorem checkedAdd_eq_some {a b c : U128} : checkedAdd a b = some c ↔ c.toNat = a.toNat + b.toNat := by
  have bound := c.isLt
  unfold checkedAdd
  constructor
  · intro h
    split at h
    · rename_i small
      cases h
      rw [BitVec.toNat_add, Nat.mod_eq_of_lt small]
    · cases h
  · intro sum
    have small : a.toNat + b.toNat < 2 ^ 128 := by omega
    rw [if_pos small, Option.some.injEq]
    apply BitVec.eq_of_toNat_eq
    rw [BitVec.toNat_add, Nat.mod_eq_of_lt small, sum]

theorem coinValue_of_ok {d : DynamicallyTypedData} {coin : Coin ID} (extracted : d.extract (Coin ID) = .ok coin) :
    coinValue ID d = coin.value.toNat := by
  unfold coinValue
  rw [extracted]

theorem addInput_ok {total next : U128} {d : DynamicallyTypedData} :
    addInput ID total d = .ok next ↔ Extracts (Coin ID) d ∧ next.toNat = total.toNat + coinValue ID d := by
  constructor
  · intro h
    obtain ⟨coin, extracted, h⟩ := Outcome.bind_ok h
    refine ⟨extracts_of_ok extracted, ?_⟩
    rw [checkedAdd_eq_some.mp (Outcome.okOr_ok h), coinValue_of_ok (Outcome.orErr_ok extracted)]
  · rintro ⟨⟨coin, extracted⟩, sum⟩
    rw [coinValue_of_ok extracted] at sum
    unfold addInput
    rw [Outcome.bind_of_ok (Outcome.orErr_of_ok extracted _)]
    exact Outcome.okOr_of_some (checkedAdd_eq_some.mpr sum) _

/-- A coin that an output may be. -/
structure Payable (ID : UInt8) (d : DynamicallyTypedData) : Prop where
  extracts : Extracts (Coin ID) d
  positive : 0 < coinValue ID d

theorem positive_iff {value : U128} : 0 < value ↔ 0 < value.toNat := by
  rw [BitVec.lt_def]
  rfl

theorem addOutput_ok {total next : U128} {d : DynamicallyTypedData} :
    addOutput ID total d = .ok next ↔ Payable ID d ∧ next.toNat = total.toNat + coinValue ID d := by
  constructor
  · intro h
    obtain ⟨coin, extracted, h⟩ := Outcome.bind_ok h
    obtain ⟨_, positive, h⟩ := Outcome.bind_ok h
    have value := coinValue_of_ok (Outcome.orErr_ok extracted)
    refine ⟨⟨extracts_of_ok extracted, ?_⟩, ?_⟩
    · rw [value]
      exact positive_iff.mp (Outcome.ensure_ok positive)
    · rw [checkedAdd_eq_some.mp (Outcome.okOr_ok h), value]
  · rintro ⟨⟨⟨coin, extracted⟩, positive⟩, sum⟩
    rw [coinValue_of_ok extracted] at positive sum
    unfold addOutput
    rw [Outcome.bind_of_ok (Outcome.orErr_of_ok extracted _),
      Outcome.bind_of_ok (Outcome.ensure_of _ (positive_iff.mpr positive))]
    exact Outcome.okOr_of_some (checkedAdd_eq_some.mpr sum) _

theorem mintOutput_ok {d : DynamicallyTypedData} : mintOutput ID d = .ok () ↔ Payable ID d := by
  constructor
  · intro h
    obtain ⟨coin, extracted, positive⟩ := Outcome.bind_ok h
    refine ⟨extracts_of_ok extracted, ?_⟩
    rw [coinValue_of_ok (Outcome.orErr_ok extracted)]
    exact positive_iff.mp (Outcome.ensure_ok positive)
  · rintro ⟨⟨coin, extracted⟩, positive⟩
    rw [coinValue_of_ok extracted] at positive
    unfold mintOutput
    rw [Outcome.bind_of_ok (Outcome.orErr_of_ok extracted _)]
    exact Outcome.ensure_of _ (positive_iff.mpr positive)

/-- The running total is the exact sum, also where the next coin does not fit any more. -/
theorem foldCoins_ok {f : U128 → DynamicallyTypedData → Outcome ConstraintCheckerError U128}
    {P : DynamicallyTypedData → Prop}
    (step : ∀ total d next, f total d = .ok next ↔ P d ∧ next.toNat = total.toNat + coinValue ID d)
    {data : List DynamicallyTypedData} {total final : U128} :
    data.foldlM f total = .ok final ↔
      (∀ d ∈ data, P d) ∧ final.toNat = total.toNat + (data.map (coinValue ID)).sum := by
  induction data generalizing total with
  | nil =>
    rw [List.foldlM_nil]
    constructor
    · intro h
      obtain rfl := Outcome.pure_ok h
      simp
    · rintro ⟨_, sum⟩
      rw [BitVec.eq_of_toNat_eq (sum : final.toNat = total.toNat)]
      rfl
  | cons d data ih =>
    rw [List.foldlM_cons, List.map_cons, List.sum_cons, List.forall_mem_cons]
    constructor
    · intro h
      obtain ⟨next, first, later⟩ := Outcome.bind_ok h
      obtain ⟨here, added⟩ := (step _ _ _).mp first
      obtain ⟨rest, sum⟩ := ih.mp later
      exact ⟨⟨here, rest⟩, by omega⟩
    · rintro ⟨⟨here, rest⟩, sum⟩
      have bound := final.isLt
      -- The sum so far fits since the whole sum does.
      have added : (BitVec.ofNat 128 (total.toNat + coinValue ID d)).toNat = total.toNat + coinValue ID d := by
        rw [BitVec.toNat_ofNat, Nat.mod_eq_of_lt (by omega)]
      rw [(step _ _ _).mpr ⟨here, added⟩]
      exact ih.mpr ⟨rest, by omega⟩

variable {inputData evictedInputData peeks outputData : List DynamicallyTypedData} {priority : UInt64}

/-! ### The checker against exact sums -/

def total (ID : UInt8) (data : List DynamicallyTypedData) : Nat := (data.map (coinValue ID)).sum

/-- What a spend asks for. -/
structure Spends (ID : UInt8) (inputData evictedInputData outputData : List DynamicallyTypedData) : Prop where
  noEvictions : evictedInputData = []
  spending : inputData ≠ []
  inputs : ∀ d ∈ inputData, Extracts (Coin ID) d
  outputs : ∀ d ∈ outputData, Payable ID d
  inputTotal : total ID inputData < 2 ^ 128
  outputTotal : total ID outputData < 2 ^ 128
  covered : total ID outputData ≤ total ID inputData

/-- What a mint asks for. -/
structure Mints (ID : UInt8) (inputData evictedInputData outputData : List DynamicallyTypedData) : Prop where
  noEvictions : evictedInputData = []
  noInputs : inputData = []
  minting : outputData ≠ []
  outputs : ∀ d ∈ outputData, Payable ID d

theorem priority_toNat (burned : U128) : (Money.priority burned).toNat = min burned.toNat (2 ^ 64 - 1) := by
  unfold Money.priority
  split
  · rename_i small
    rw [UInt64.toNat_ofNat', Nat.mod_eq_of_lt (by omega), Nat.min_eq_left (by omega)]
  · rename_i large
    rw [Nat.min_eq_right (by omega)]
    rfl

theorem addInputs_ok {data : List DynamicallyTypedData} {final : U128} :
    data.foldlM (addInput ID) 0 = .ok final ↔
      (∀ d ∈ data, Extracts (Coin ID) d) ∧ final.toNat = total ID data := by
  rw [foldCoins_ok fun _ _ _ => addInput_ok, show (0 : U128).toNat = 0 from rfl, Nat.zero_add]
  rfl

theorem addOutputs_ok {data : List DynamicallyTypedData} {final : U128} :
    data.foldlM (addOutput ID) 0 = .ok final ↔ (∀ d ∈ data, Payable ID d) ∧ final.toNat = total ID data := by
  rw [foldCoins_ok fun _ _ _ => addOutput_ok, show (0 : U128).toNat = 0 from rfl, Nat.zero_add]
  rfl

theorem check_spend_iff : check ID .spend inputData evictedInputData peeks outputData = .ok priority ↔
    Spends ID inputData evictedInputData outputData ∧
      priority.toNat = min (total ID inputData - total ID outputData) (2 ^ 64 - 1) := by
  constructor
  · intro h
    obtain ⟨_, noEvictions, h⟩ := Outcome.bind_ok h
    obtain ⟨_, spending, h⟩ := Outcome.bind_ok h
    obtain ⟨totalInputValue, inputs, h⟩ := Outcome.bind_ok h
    obtain ⟨totalOutputValue, outputs, h⟩ := Outcome.bind_ok h
    obtain ⟨_, covered, h⟩ := Outcome.bind_ok h
    have noEvictions := List.isEmpty_iff.mp (Outcome.ensure_ok noEvictions)
    have spending : inputData ≠ [] := by simpa using Outcome.ensure_ok spending
    have covered := Outcome.ensure_ok covered
    obtain ⟨inputsExtract, inputSum⟩ := addInputs_ok.mp inputs
    obtain ⟨outputsPayable, outputSum⟩ := addOutputs_ok.mp outputs
    have inputBound := totalInputValue.isLt
    have outputBound := totalOutputValue.isLt
    refine ⟨⟨noEvictions, spending, inputsExtract, outputsPayable, by omega, by omega, ?_⟩, ?_⟩
    · rw [← inputSum, ← outputSum]
      exact BitVec.le_def.mp covered
    · rw [Outcome.pure_ok h, priority_toNat, BitVec.toNat_sub_of_le covered, inputSum, outputSum]
  · rintro ⟨⟨rfl, spending, inputsExtract, outputsPayable, inputTotal, outputTotal, covered⟩, burned⟩
    have inputSum : (BitVec.ofNat 128 (total ID inputData)).toNat = total ID inputData :=
      Nat.mod_eq_of_lt inputTotal
    have outputSum : (BitVec.ofNat 128 (total ID outputData)).toNat = total ID outputData :=
      Nat.mod_eq_of_lt outputTotal
    have below : BitVec.ofNat 128 (total ID outputData) ≤ BitVec.ofNat 128 (total ID inputData) := by
      rw [BitVec.le_def, inputSum, outputSum]
      exact covered
    unfold check
    rw [Outcome.bind_of_ok (Outcome.ensure_of _ List.isEmpty_nil)]
    dsimp only
    rw [Outcome.bind_of_ok (Outcome.ensure_of _ (by simpa using spending)),
      Outcome.bind_of_ok (addInputs_ok.mpr ⟨inputsExtract, inputSum⟩),
      Outcome.bind_of_ok (addOutputs_ok.mpr ⟨outputsPayable, outputSum⟩),
      Outcome.bind_of_ok (Outcome.ensure_of _ below)]
    have same : Money.priority (BitVec.ofNat 128 (total ID inputData) - BitVec.ofNat 128 (total ID outputData)) =
        priority := by
      apply UInt64.toNat_inj.mp
      rw [priority_toNat, BitVec.toNat_sub_of_le below, inputSum, outputSum, burned]
    rw [same]
    rfl

theorem check_mint_iff : check ID .mint inputData evictedInputData peeks outputData = .ok priority ↔
    Mints ID inputData evictedInputData outputData ∧ priority = 0 := by
  constructor
  · intro h
    obtain ⟨_, noEvictions, h⟩ := Outcome.bind_ok h
    obtain ⟨_, noInputs, h⟩ := Outcome.bind_ok h
    obtain ⟨_, minting, h⟩ := Outcome.bind_ok h
    obtain ⟨_, outputs, h⟩ := Outcome.bind_ok h
    have noEvictions := List.isEmpty_iff.mp (Outcome.ensure_ok noEvictions)
    have noInputs := List.isEmpty_iff.mp (Outcome.ensure_ok noInputs)
    have minting : outputData ≠ [] := by simpa using Outcome.ensure_ok minting
    refine ⟨⟨noEvictions, noInputs, minting, ?_⟩, Outcome.pure_ok h⟩
    exact fun d member => mintOutput_ok.mp (Outcome.forM_ok outputs d member)
  · rintro ⟨⟨rfl, rfl, minting, outputs⟩, rfl⟩
    unfold check
    rw [Outcome.bind_of_ok (Outcome.ensure_of _ List.isEmpty_nil)]
    dsimp only
    rw [Outcome.bind_of_ok (Outcome.ensure_of _ List.isEmpty_nil),
      Outcome.bind_of_ok (Outcome.ensure_of _ (by simpa using minting)),
      Outcome.bind_of_ok (Outcome.forM_of_ok fun d member => mintOutput_ok.mpr (outputs d member))]
    rfl

theorem check_spend_ok (h : check ID .spend inputData evictedInputData peeks outputData = .ok priority) :
    evictedInputData = [] ∧ Handles (Extracts (Coin ID)) inputData evictedInputData outputData ∧
      total ID outputData ≤ total ID inputData := by
  have spends := (check_spend_iff.mp h).1
  refine ⟨spends.noEvictions, ⟨spends.inputs, ?_, fun d member => (spends.outputs d member).extracts⟩, spends.covered⟩
  simp [spends.noEvictions]

theorem check_mint_ok (h : check ID .mint inputData evictedInputData peeks outputData = .ok priority) :
    inputData = [] ∧ evictedInputData = [] ∧
      Handles (Extracts (Coin ID)) inputData evictedInputData outputData := by
  have mints := (check_mint_iff.mp h).1
  refine ⟨mints.noInputs, mints.noEvictions, ?_, ?_, fun d member => (mints.outputs d member).extracts⟩
  · simp [mints.noInputs]
  · simp [mints.noEvictions]

theorem check_answers (checker : MoneyConstraintChecker ID) :
    (check ID checker inputData evictedInputData peeks outputData).Answers := by
  have addsInput : ∀ total, ∀ d ∈ inputData, (addInput ID total d).Answers := fun total d _ =>
    (Outcome.orErr_answers _ _).bind fun coin _ => Outcome.okOr_answers _ _
  have addsOutput : ∀ total, ∀ d ∈ outputData, (addOutput ID total d).Answers := fun total d _ =>
    (Outcome.orErr_answers _ _).bind fun coin _ => (Outcome.ensure_answers _ _).bind fun _ _ =>
      Outcome.okOr_answers _ _
  have mintsOutput : ∀ d ∈ outputData, (mintOutput ID d).Answers := fun d _ =>
    (Outcome.orErr_answers _ _).bind fun coin _ => Outcome.ensure_answers _ _
  refine (Outcome.ensure_answers _ _).bind fun _ _ => ?_
  cases checker with
  | spend =>
    refine (Outcome.ensure_answers _ _).bind fun _ _ => (Outcome.Answers.foldlM addsInput).bind fun _ _ => ?_
    refine (Outcome.Answers.foldlM addsOutput).bind fun _ _ => (Outcome.ensure_answers _ _).bind fun _ _ => ?_
    exact Outcome.pure_answers _
  | mint =>
    refine (Outcome.ensure_answers _ _).bind fun _ _ => (Outcome.ensure_answers _ _).bind fun _ _ => ?_
    exact (Outcome.Answers.forM mintsOutput).bind fun _ _ => Outcome.pure_answers _

/-- The checker computes with exact sums, and it never panics. -/
theorem checker_spec (ID : UInt8) (inputData evictedInputData peeks outputData : List DynamicallyTypedData) :
    ((∀ priority, check ID .spend inputData evictedInputData peeks outputData = .ok priority ↔
        Spends ID inputData evictedInputData outputData ∧
          priority.toNat = min (total ID inputData - total ID outputData) (2 ^ 64 - 1)) ∧
      (¬Spends ID inputData evictedInputData outputData →
        ∃ e, check ID .spend inputData evictedInputData peeks outputData = .error (.err e))) ∧
    ((∀ priority, check ID .mint inputData evictedInputData peeks outputData = .ok priority ↔
        Mints ID inputData evictedInputData outputData ∧ priority = 0) ∧
      (¬Mints ID inputData evictedInputData outputData →
        ∃ e, check ID .mint inputData evictedInputData peeks outputData = .error (.err e))) ∧
    -- The running totals of the two loops, after any number of coins.
    ∀ n final,
      ((inputData.take n).foldlM (addInput ID) 0 = .ok final → final.toNat = total ID (inputData.take n)) ∧
      ((outputData.take n).foldlM (addOutput ID) 0 = .ok final → final.toNat = total ID (outputData.take n)) := by
  refine ⟨⟨fun _ => check_spend_iff, fun refused => ?_⟩, ⟨fun _ => check_mint_iff, fun refused => ?_⟩,
    fun n final => ?_⟩
  · exact (check_answers .spend).error fun priority passed => refused (check_spend_iff.mp passed).1
  · exact (check_answers .mint).error fun priority passed => refused (check_mint_iff.mp passed).1
  · exact ⟨fun sum => (addInputs_ok.mp sum).2, fun sum => (addOutputs_ok.mp sum).2⟩

end Tuxedo.Money
