import Tuxedo.Executive.Runs

/-!
# Balances of runs

Each output weighs something, and the storage weighs what its outputs do. A transaction takes
the weight of its inputs away, each input once, and adds the weight of its outputs.
-/

namespace Tuxedo.Executive
open Scale TransparentUtxoSet

section
variable {V : Type} [Codec V] (w : Output V → Nat)

def outputWeight (k d : Bytes) : Nat :=
  if k.length = 36 then
    match decode (α := Output V) d with
    | some (output, _) => w output
    | none => 0
  else 0

/-- The weight of all the outputs. -/
def worth (s : Storage) : Nat := s.total (outputWeight w)

/-- The weight of the output at the reference, if there is one. -/
def weightIn (s : Storage) (r : OutputRef) : Nat :=
  match peekUtxo V s r with
  | some output => w output
  | none => 0

variable {w} {s s' : Storage}

theorem weightAt_encode (s : Storage) (r : OutputRef) :
    s.weightAt (outputWeight w) (encode r) = weightIn w s r := by
  unfold weightIn Store.weightAt peekUtxo
  cases s.get (encode r) with
  | none => rfl
  | some d =>
    show outputWeight w (encode r) d = _
    rw [outputWeight, if_pos (length_encode_outputRef r), Option.bind_some]
    cases decode (α := Output V) d <;> rfl

theorem worth_same (same : SameUtxos s s') : worth w s' = worth w s := by
  apply Store.total_congr
  intro k
  unfold Store.weightAt
  by_cases width : k.length = 36
  · rw [same k width]
  · have weightless : ∀ d, outputWeight w k d = 0 := fun d => if_neg width
    simp only [weightless]
    cases s'.get k <;> cases s.get k <;> rfl

theorem weightIn_same (same : SameUtxos s s') (r : OutputRef) : weightIn w s' r = weightIn w s r := by
  unfold weightIn
  rw [same.peek r]

theorem entries_worth {C : Type} (t : Transaction V C) (txHash : H256) :
    ((outputEntries t txHash).map fun entry => outputWeight w entry.1 entry.2).sum = (t.outputs.toList.map w).sum := by
  have each : ∀ output : Output V × Nat,
      outputWeight w (encode (⟨txHash, UInt32.ofNat output.2⟩ : OutputRef)) (encode output.1) = w output.1 := by
    intro output
    simp [outputWeight]
  have firsts : t.outputs.toList.zipIdx.map (fun output => w output.1) = t.outputs.toList.map w := by
    conv_rhs => rw [← List.zipIdx_map_fst 0 t.outputs.toList, List.map_map]
    rfl
  unfold outputEntries
  simp only [List.map_map, Function.comp_def, each, firsts]

end

theorem sum_ones {T : Type} (p : T → Bool) (ts : List T) :
    (ts.map fun t => if p t then 1 else 0).sum = ts.countP p := by
  induction ts with
  | nil => rfl
  | cons t ts ih => rw [List.map_cons, List.sum_cons, List.countP_cons, ih, Nat.add_comm]

section
variable {V C : Type} [Host] [Verifier V] [Codec C] [ConstraintChecker V C] [KeepsUtxos V C]
  {w : Output V → Nat} {t : Transaction V C} {txHash : H256} {s checked s' : Storage}

/-- What a transaction takes and what it adds. An input that it names twice is gone once. -/
theorem Accepted.balance (accepted : Accepted t txHash s checked s') :
    worth w s' + ((inputRefs t).dedup.map (weightIn w s)).sum = worth w s + (t.outputs.toList.map w).sum := by
  have weights : ∀ refs : List OutputRef, ((refs.map encode).map (checked.weightAt (outputWeight w))).sum =
      (refs.map (weightIn w s)).sum := by
    intro refs
    rw [List.map_map]
    refine congrArg List.sum (List.map_congr_left fun r _ => ?_)
    exact (weightAt_encode checked r).trans (weightIn_same accepted.keeps r)
  have dedup : ((inputRefs t).map encode).dedup = (inputRefs t).dedup.map encode :=
    List.dedup_map_of_injective encode_injective _
  have cleared := Store.total_clearAll (outputWeight w) checked (List.nodup_dedup ((inputRefs t).map encode))
  rw [Store.clearAll_dedup, dedup, weights] at cleared
  have written := Store.total_setAll (outputWeight w) (checked.clearAll ((inputRefs t).map encode))
    (outputEntries_nodup t txHash)
  rw [entries_worth, ← accepted.after] at written
  -- Nothing is at the references of the outputs before.
  have fresh : (((outputEntries t txHash).map Prod.fst).map
      ((checked.clearAll ((inputRefs t).map encode)).weightAt (outputWeight w))).sum = 0 := by
    rw [outputEntries_keys, List.map_map]
    refine List.sum_eq_zero fun weight member => ?_
    obtain ⟨r, output, rfl⟩ := List.mem_map.mp member
    have other : encode r ∉ (inputRefs t).map encode := by
      rw [List.mem_map_of_injective encode_injective]
      exact fun input => accepted.input_not_output input output
    have absent : weightIn w checked r = 0 := by
      rw [weightIn_same accepted.keeps, weightIn, accepted.fresh r output]
    rw [← weightAt_encode] at absent
    simpa only [Function.comp, Store.weightAt, Store.get_clearAll, if_neg other] using absent
  have same : checked.total (outputWeight w) = worth w s := worth_same accepted.keeps
  unfold worth at same ⊢
  omega

omit [KeepsUtxos V C] in
/-- What every transaction balances, the run does. -/
theorem Run.balance {loss gain : Transaction V C → Nat} {ts : List (Transaction V C)} (run : Run s ts s')
    (each : ∀ t ∈ ts, ∀ txHash s checked s', Accepted t txHash s checked s' →
      worth w s' + loss t = worth w s + gain t) :
    worth w s' + (ts.map loss).sum = worth w s + (ts.map gain).sum := by
  induction run with
  | done s => rfl
  | @apply s s₁ s' t ts applied _ ih =>
    obtain ⟨txHash, checked, accepted⟩ := apply_ok.mp applied
    have first := each t List.mem_cons_self txHash s checked s₁ accepted
    have later := ih fun t member => each t (List.mem_cons_of_mem _ member)
    rw [List.map_cons, List.map_cons, List.sum_cons, List.sum_cons]
    omega
  | keep same _ ih =>
    rw [← worth_same same]
    exact ih each

omit [KeepsUtxos V C] in
/-- Each transaction that adds adds one and each that drops drops one. -/
theorem Run.counts {adds drops : Transaction V C → Bool} {ts : List (Transaction V C)} (run : Run s ts s')
    (each : ∀ t ∈ ts, ∀ txHash s checked s', Accepted t txHash s checked s' →
      worth w s' + (if drops t then 1 else 0) = worth w s + if adds t then 1 else 0) :
    worth w s' + ts.countP drops = worth w s + ts.countP adds := by
  have balance := run.balance each
  rwa [sum_ones, sum_ones] at balance

omit [KeepsUtxos V C] in
theorem Run.grows {adds : Transaction V C → Bool} {ts : List (Transaction V C)} (run : Run s ts s')
    (each : ∀ t ∈ ts, ∀ txHash s checked s', Accepted t txHash s checked s' →
      worth w s' = worth w s + if adds t then 1 else 0) :
    worth w s' = worth w s + ts.countP adds := by
  have balance : worth w s' + ts.countP (fun _ => false) = worth w s + ts.countP adds := run.counts each
  rwa [List.countP_false] at balance

end
end Tuxedo.Executive
