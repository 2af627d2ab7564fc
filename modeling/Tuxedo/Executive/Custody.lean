import Tuxedo.Core.Locks
import Tuxedo.Executive.Chains
import Tuxedo.Executive.Typed

/-!
# Custody over blocks

An output stays until an input of an included transaction satisfies its verifier at the number of the
block, or evicts it.
-/

namespace Tuxedo.Executive
open Scale TransparentUtxoSet

/-- A constraint checker that leaves the height to the executive. -/
class KeepsHeight (V C : Type) [ConstraintChecker V C] : Prop where
  check_height : ∀ {checker : C} {inputs evicted peeks outputs : List DynamicallyTypedData} {s s' : Storage}
    {priority : UInt64}, ConstraintChecker.check (V := V) checker inputs evicted peeks outputs s = .ok priority s' →
    s'.get heightKey = s.get heightKey

section
variable {V C : Type} [Verifier V]

/-- The redeemer satisfies the verifier in a block with the number. -/
def Redeemed (strippedEncoded : Bytes) (number : BlockNumber) (strategy : RedemptionStrategy) (verifier : V) : Prop :=
  ∃ bytes redeemer rest, strategy = .redemption bytes ∧
    decode (α := Verifier.Redeemer V) bytes.toList = some (redeemer, rest) ∧
    Verifier.verify verifier strippedEncoded number redeemer = some true

variable [Host] [Codec C] [ConstraintChecker V C]

/-- The transaction is applied at the height and spends the output. -/
structure Takes (t : Transaction V C) (number : BlockNumber) (r : OutputRef) (output : Output V) : Prop where
  spent : r ∈ inputRefs t
  applies : ∃ s s', applyTuxedoTransaction t s = .ok () s' ∧ blockHeight s = some number ∧
    peekUtxo V s r = some output

variable {s s' : Storage} {number : BlockNumber} {r : OutputRef} {output : Output V} {t : Transaction V C}

theorem Takes.consent (takes : Takes t number r output) : ∀ input ∈ t.inputs.toList, input.outputRef = r →
    input.redeemer = .eviction ∨ Redeemed (encode t.stripped) number input.redeemer output.verifier := by
  rintro input member rfl
  obtain ⟨s, s', applied, height, present⟩ := takes.applies
  obtain ⟨txHash, checked, accepted⟩ := apply_ok.mp applied
  have authorised := accepted.authorised input member output present
  cases strategy : input.redeemer with
  | eviction => exact Or.inl rfl
  | redemption bytes =>
    rw [strategy] at authorised
    obtain ⟨redeemer, rest, height', decoded, current, verified⟩ := authorised
    obtain rfl : height' = number := Option.some.inj (current.symm.trans height)
    exact Or.inr ⟨bytes, redeemer, rest, rfl, decoded, verified⟩

/-! ### One block -/

theorem Accepted.height [KeepsHeight V C] {txHash : H256} {checked : Storage}
    (accepted : Accepted t txHash s checked s') : blockHeight s' = blockHeight s := by
  obtain ⟨priority, call⟩ := accepted.checks
  rw [blockHeight, accepted.get_narrow (by decide), KeepsHeight.check_height call]
  rfl

/-- The first transaction that leaves the output out takes it. -/
theorem Applied.takes [KeepsUtxos V C] [KeepsHeight V C] {ts : List (Transaction V C)} (applied : Applied s ts s')
    (height : blockHeight s = some number) (present : peekUtxo V s r = some output)
    (lost : peekUtxo V s' r ≠ some output) : ∃ t ∈ ts, Takes t number r output := by
  induction applied with
  | done s => exact absurd present lost
  | @apply s s₁ s' t ts applied later ih =>
    obtain ⟨txHash, checked, accepted⟩ := apply_ok.mp applied
    by_cases still : peekUtxo V s₁ r = some output
    · obtain ⟨t', member, takes⟩ := ih (accepted.height.trans height) still lost
      exact ⟨t', List.mem_cons_of_mem t member, takes⟩
    · exact ⟨t, List.mem_cons_self, accepted.step.lost present still, s, s₁, applied, height, present⟩

theorem executeBlock_takes [KeepsUtxos V C] [KeepsHeight V C] {block : Block V C}
    (executed : executeBlock block s = .ok () s') (present : peekUtxo V s r = some output)
    (lost : peekUtxo V s' r ≠ some output) :
    ∃ t ∈ block.extrinsics.toList, Takes t block.header.number r output := by
  obtain ⟨_, ⟨s₁, applied, rfl⟩, _⟩ := executeBlock_ok.mp executed
  have opened : SameUtxos s (openBlock block.header s) := openBlock_same block.header s
  have closed : SameUtxos s₁ (s₁.clear headerKey) := .clear (by decide)
  rw [closed.peek r] at lost
  exact applied.takes (openBlock_height block.header s) ((opened.peek r).trans present) lost

/-! ### Runs of blocks -/

/-- Custody over a run: an output that goes is taken in one of the blocks. -/
theorem Imported.takes [KeepsUtxos V C] [KeepsHeight V C] {blocks : List (Block V C)} (run : Imported s blocks s')
    (present : peekUtxo V s r = some output) (lost : peekUtxo V s' r ≠ some output) :
    ∃ block ∈ blocks, ∃ t ∈ block.extrinsics.toList, Takes t block.header.number r output := by
  induction run with
  | done s => exact absurd present lost
  | @execute s s₁ s' block blocks executed later ih =>
    by_cases still : peekUtxo V s₁ r = some output
    · obtain ⟨block', member, found⟩ := ih still lost
      exact ⟨block', List.mem_cons_of_mem block member, found⟩
    · exact ⟨block, List.mem_cons_self, executeBlock_takes executed present still⟩

end

/-! ### A runtime of money only -/

section
variable {V : Type} {ID : UInt8}

theorem check_money_reads {checker : Money.MoneyConstraintChecker ID}
    {inputs evicted peeks outputs : List DynamicallyTypedData} {s s' : Storage} {priority : UInt64}
    (call : ConstraintChecker.check (V := V) checker inputs evicted peeks outputs s = .ok priority s') : s' = s :=
  (Exec.lift_ok call).2.symm

instance : KeepsUtxos V (Money.MoneyConstraintChecker ID) where
  check_keeps call := check_money_reads call ▸ .refl _

instance : KeepsHeight V (Money.MoneyConstraintChecker ID) where
  check_height call := check_money_reads call ▸ rfl

end
end Tuxedo.Executive
