import Tuxedo.Runtime.Pieces
import Tuxedo.Executive.Census
import Tuxedo.Executive.Inputs

/-!
# The supply of coins

A spend that names each coin once cannot raise the supply. One that names a coin twice can.
-/

namespace Tuxedo.Template
open Scale Executive TransparentUtxoSet Money

/-- The value of the coin that the output holds, if it holds one. -/
def coinHeld (output : Output) : Nat := coinValue 0 output.payload

def supply (s : Storage) : Nat := worth coinHeld s

def outputValue (t : Transaction) : Nat := ((outputData t).map (coinValue 0)).sum

/-- The values of the coins that the inputs name, each as often as it is named. -/
def inputValue [Host] (s : Storage) (t : Transaction) : Nat :=
  total 0 ((inputRefs t).filterMap (payloadAt OuterVerifier s))

/-- With nothing evicted the redeemed inputs are all inputs. -/
theorem redeemed_value [Host] {t : Transaction} {s : Storage}
    (noEvictions : (evictedRefs t.inputs.toList).filterMap (payloadAt OuterVerifier s) = []) :
    total 0 ((redeemedRefs t.inputs.toList).filterMap (payloadAt OuterVerifier s)) = inputValue s t := by
  have all := (((split_refs_perm t.inputs.toList).filterMap (payloadAt OuterVerifier s)).map (coinValue 0)).sum_eq
  rw [List.filterMap_append, noEvictions, List.append_nil] at all
  exact all

/-- What the minting transactions create. -/
def minted (t : Transaction) : Nat := if t.checker = .money .mint then outputValue t else 0

theorem outputs_held (t : Transaction) : (t.outputs.toList.map coinHeld).sum = outputValue t := by
  unfold outputValue outputData
  rw [List.map_map]
  rfl

/-- A payload of another piece is no coin. -/
theorem coinValue_eq_zero {piece : Piece} {d : DynamicallyTypedData} (owns : piece.Owns d) (other : piece ≠ .money) :
    coinValue 0 d = 0 := by
  unfold coinValue
  split
  · rename_i coin extracted
    have coined : Piece.money.Owns d := ⟨coin, extracted⟩
    exact absurd (owns.unique coined) other
  · rfl

section
variable [Host] {t : Transaction} {txHash : H256} {s checked s' : Storage}

/-- What the references weigh is the value of the payloads that they name. -/
theorem refs_held (s : Storage) (refs : List OutputRef) :
    (refs.map (weightIn coinHeld s)).sum = total 0 (refs.filterMap (payloadAt OuterVerifier s)) := by
  unfold total
  induction refs with
  | nil => rfl
  | cons r refs ih =>
    rw [List.map_cons, List.sum_cons, ih, weightIn]
    cases found : peekUtxo OuterVerifier s r with
    | none =>
      have absent : payloadAt OuterVerifier s r = none := by simp [payloadAt, found]
      simp [List.filterMap_cons_none absent]
    | some output =>
      have payload : payloadAt OuterVerifier s r = some output.payload := by simp [payloadAt, found]
      simp [List.filterMap_cons_some payload, coinHeld]

/-- The supply goes by what the transaction takes, each input once, and by what it creates. -/
theorem supply_balance (accepted : Accepted t txHash s checked s') :
    supply s' + total 0 ((inputRefs t).dedup.filterMap (payloadAt OuterVerifier s)) = supply s + outputValue t := by
  have balance := accepted.balance (w := coinHeld)
  rw [refs_held, outputs_held] at balance
  exact balance

theorem supply_le_outputs (accepted : Accepted t txHash s checked s') : supply s' ≤ supply s + outputValue t := by
  have balance := supply_balance accepted
  omega

theorem supply_spend (accepted : Accepted t txHash s checked s') (spend : t.checker = .money .spend)
    (distinct : (inputRefs t).Nodup) : supply s' ≤ supply s := by
  obtain ⟨priority, call⟩ := accepted_call accepted spend
  obtain ⟨passed, _⟩ := Exec.lift_ok (Exec.mapErr_ok.mp call)
  obtain ⟨noEvictions, _, covered⟩ := check_spend_ok passed
  rw [redeemed_value noEvictions] at covered
  have balance := supply_balance accepted
  rw [distinct.dedup] at balance
  have inputSum : total 0 ((inputRefs t).filterMap (payloadAt OuterVerifier s)) = inputValue s t := rfl
  have outputSum : outputValue t = total 0 (outputData t) := rfl
  omega

theorem outputValue_eq_zero (accepted : Accepted t txHash s checked s') (other : t.checker.piece ≠ .money) :
    outputValue t = 0 := by
  have owned := (accepted_handles accepted).outputs
  apply List.sum_eq_zero
  intro value member
  obtain ⟨d, output, rfl⟩ := List.mem_map.mp member
  exact coinValue_eq_zero (owned d output) other

theorem supply_step (accepted : Accepted t txHash s checked s')
    (distinct : t.checker = .money .spend → (inputRefs t).Nodup) : supply s' ≤ supply s + minted t := by
  by_cases money : t.checker.piece = .money
  · cases checker : t.checker with
    | money inner =>
      cases inner with
      | spend => exact (supply_spend accepted checker (distinct checker)).trans (Nat.le_add_right _ _)
      | mint =>
        have created : minted t = outputValue t := if_pos checker
        rw [created]
        exact supply_le_outputs accepted
    | _ => rw [checker] at money; cases money
  · have grown := supply_le_outputs accepted
    rw [outputValue_eq_zero accepted money] at grown
    omega

theorem supply_run {ts : List Transaction} (run : Run s ts s')
    (distinct : ∀ t ∈ ts, t.checker = .money .spend → (inputRefs t).Nodup) :
    supply s' ≤ supply s + (ts.map minted).sum := by
  induction run with
  | done s => simp
  | @apply s s₁ s' t ts applied _ ih =>
    obtain ⟨txHash, checked, accepted⟩ := apply_ok.mp applied
    have first := supply_step accepted (distinct t List.mem_cons_self)
    have later := ih fun t member => distinct t (List.mem_cons_of_mem _ member)
    rw [List.map_cons, List.sum_cons]
    omega
  | @keep s s₁ s' ts same _ ih =>
    have later := ih distinct
    have still : supply s₁ = supply s := worth_same same
    rw [still] at later
    exact later

/-- Where no spend names an output twice, only minting raises the supply. -/
theorem supply_bounded :
    (∀ (t : Transaction) (s s' : Storage), applyTuxedoTransaction t s = .ok () s' →
      t.checker ≠ .money .mint → (t.checker = .money .spend → (inputRefs t).Nodup) → supply s' ≤ supply s) ∧
    ∀ (start final : Storage) (ts : List Transaction), Run start ts final →
      (∀ t ∈ ts, t.checker = .money .spend → (inputRefs t).Nodup) →
      supply final ≤ supply start + (ts.map minted).sum := by
  refine ⟨?_, fun _ _ _ run distinct => supply_run run distinct⟩
  intro t s s' applied other distinct
  obtain ⟨txHash, checked, accepted⟩ := apply_ok.mp applied
  have step := supply_step accepted distinct
  have none : minted t = 0 := if_neg other
  omega

end

theorem supply_bounded_grab :
    letI := Host.unsigned
    ∃ s', applyTuxedoTransaction (grabOnce (grabInput [] (by decide))) grabStorage = .ok () s' ∧
      (inputRefs (grabOnce (grabInput [] (by decide)))).Nodup ∧ supply s' ≤ supply grabStorage := by
  let := Host.unsigned
  obtain ⟨s', applied, _⟩ := grabOnce_applies
  have distinct : (inputRefs (grabOnce (grabInput [] (by decide)))).Nodup := by decide
  exact ⟨s', applied, distinct, supply_bounded.1 _ _ _ applied (by decide) fun _ => distinct⟩

/-- The coin of 100 that is named twice becomes a coin of 200. -/
theorem spendTwice_doubles :
    letI := Host.unsigned
    ∃ s', applyTuxedoTransaction spendTwice grabStorage = .ok () s' ∧ spendTwice.checker ≠ .money .mint ∧
      supply grabStorage = 100 ∧ supply s' = 200 := by
  let := Host.unsigned
  obtain ⟨_, s', applied, after⟩ := Exec.exists_of_any (x := applyTuxedoTransaction spendTwice) (s := grabStorage)
    (p := fun result => supply result.2 = 200) (by decide +kernel)
  exact ⟨s', applied, by decide, rfl, by simpa using after⟩

end Tuxedo.Template
