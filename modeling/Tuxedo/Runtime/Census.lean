import Tuxedo.Executive.Census
import Tuxedo.Runtime.AmoebaLineage
import Tuxedo.Runtime.KittyPedigree
import Tuxedo.Runtime.Replay

/-!
# The census

How many outputs each piece has. A run changes the number by what the transactions of the piece
consume and create, and the checkers fix how many that are.
-/

namespace Tuxedo.Template
open Scale Executive TransparentUtxoSet DynamicallyTypedData

theorem extracts_iff {T : Type} [UtxoData T] {d : DynamicallyTypedData} :
    (d.extract T).toOption.isSome = true ↔ Extracts T d := by
  unfold Extracts
  cases d.extract T with
  | ok value => exact iff_of_true rfl ⟨value, rfl⟩
  | error e => exact iff_of_false nofun nofun

instance {T : Type} [UtxoData T] (d : DynamicallyTypedData) : Decidable (Extracts T d) :=
  decidable_of_iff _ extracts_iff

instance (piece : Piece) (d : DynamicallyTypedData) : Decidable (piece.Owns d) :=
  match piece with
  | .money => inferInstanceAs (Decidable (Extracts (Money.Coin 0) d))
  | .kitties => inferInstanceAs (Decidable (Extracts Kitties.KittyData d))
  | .amoeba => inferInstanceAs (Decidable (Extracts Amoeba.AmoebaDetails d))
  | .poe => inferInstanceAs (Decidable (Extracts Poe.ClaimData d))
  | .timestamp => inferInstanceAs (Decidable (Extracts Time.Timestamp d))
  | .runtimeUpgrade => inferInstanceAs (Decidable (Extracts Upgrade.RuntimeRef d))

def Piece.weigh (piece : Piece) (output : Output) : Nat := if piece.Owns output.payload then 1 else 0

/-- How many outputs of the piece there are. -/
def population (piece : Piece) (s : Storage) : Nat := worth piece.weigh s

/-- How many outputs the transaction takes from the piece. -/
def consumed (piece : Piece) (t : Transaction) : Nat :=
  if t.checker.piece = piece then (inputRefs t).dedup.length else 0

def created (piece : Piece) (t : Transaction) : Nat :=
  if t.checker.piece = piece then t.outputs.toList.length else 0

theorem Piece.weigh_of_owns {p piece : Piece} {output : Output} (owns : p.Owns output.payload) :
    piece.weigh output = if p = piece then 1 else 0 := by
  unfold Piece.weigh
  by_cases same : p = piece
  · rw [if_pos same, if_pos (same ▸ owns)]
  · rw [if_neg same, if_neg fun mine => same (owns.unique mine)]

theorem sum_alike {T : Type} {f : T → Nat} {n : Nat} {ts : List T} (alike : ∀ t ∈ ts, f t = n) :
    (ts.map f).sum = ts.length * n := by
  rw [List.map_congr_left alike, List.map_const', List.sum_replicate]
  rfl

section
variable [Host] {t : Transaction} {txHash : H256} {s checked s' : Storage}

/-! ### One transaction -/

theorem accepted_population (accepted : Accepted t txHash s checked s') (piece : Piece) :
    population piece s' + consumed piece t = population piece s + created piece t := by
  have inputs : ∀ r ∈ (inputRefs t).dedup, weightIn piece.weigh s r = if t.checker.piece = piece then 1 else 0 := by
    intro r member
    obtain ⟨output, present, owns⟩ := consumed_owned accepted (List.mem_dedup.mp member)
    rw [weightIn, present]
    exact Piece.weigh_of_owns owns
  have outputs : ∀ output ∈ t.outputs.toList, piece.weigh output = if t.checker.piece = piece then 1 else 0 :=
    fun output member => Piece.weigh_of_owns (created_owned accepted member)
  have balance := accepted.balance (w := piece.weigh)
  rw [sum_alike inputs, sum_alike outputs] at balance
  unfold population consumed created
  split
  · rename_i mine
    rw [if_pos mine] at balance
    omega
  · rename_i other
    rw [if_neg other] at balance
    omega

/-- A birth makes one amoeba more: the mother goes and two daughters come. -/
theorem accepted_amoebas (accepted : Accepted t txHash s checked s') :
    created .amoeba t + (if t.checker = .amoebaDeath ⟨⟩ then 1 else 0) =
      consumed .amoeba t +
        if t.checker = .amoebaCreation ⟨⟩ ∨ t.checker = .amoebaMitosis ⟨⟩ then 1 else 0 := by
  unfold created consumed
  cases checker : t.checker with
  | amoebaMitosis inner =>
    obtain ⟨q, mother, first, second, divides⟩ := accepted_mitosis accepted checker
    obtain ⟨o₁, o₂, whole, _⟩ := divides.outputs
    simp [divides.inputs, whole, OuterConstraintChecker.piece]
  | amoebaCreation inner =>
    obtain ⟨o, eve, whole, _⟩ := accepted_creation accepted checker
    obtain ⟨priority, call⟩ := accepted_call accepted checker
    obtain ⟨passed, _⟩ := Exec.lift_ok (Exec.mapErr_ok.mp call)
    obtain ⟨noEvictions, noInputs, _⟩ := Amoeba.AmoebaCreation.check_iff.mp passed
    have redeemed := refs_nil accepted.redeemed_present noInputs
    have evicted := refs_nil accepted.evicted_present noEvictions
    simp [inputRefs_of_redeemed evicted, redeemed, whole, OuterConstraintChecker.piece]
  | amoebaDeath inner =>
    obtain ⟨priority, call⟩ := accepted_call accepted checker
    obtain ⟨passed, _⟩ := Exec.lift_ok (Exec.mapErr_ok.mp call)
    obtain ⟨noEvictions, ⟨a, victim, one, _⟩, _⟩ := Amoeba.AmoebaDeath.check_iff.mp passed
    obtain ⟨q, alone, _⟩ := refs_singleton accepted.redeemed_present one
    have evicted := refs_nil accepted.evicted_present noEvictions
    simp [inputRefs_of_redeemed evicted, alone, accepted_death accepted checker, OuterConstraintChecker.piece]
  | _ => simp [OuterConstraintChecker.piece]

/-- Both parents stay as they age, so a breeding makes one kitty more. -/
theorem accepted_kitties (accepted : Accepted t txHash s checked s') :
    created .kitties t = consumed .kitties t + if t.checker.piece = .kitties then 1 else 0 := by
  unfold created consumed
  split
  · rename_i breeds
    obtain ⟨r₁, r₂, mom, dad, newMom, newDad, child, litter⟩ := accepted_litter accepted breeds
    obtain ⟨o₁, o₂, o₃, whole, _⟩ := litter.outputs
    have apart : r₁ ≠ r₂ := by
      rintro rfl
      obtain rfl := Option.some.inj (litter.momAt.symm.trans litter.dadAt)
      exact litter.bred.kinds rfl
    have parents : (inputRefs t).dedup.Perm [r₁, r₂] := by
      refine (List.perm_ext_iff_of_nodup (List.nodup_dedup _) (by simpa using apart)).mpr fun r => ?_
      rw [List.mem_dedup, litter.inputs, List.mem_pair]
    rw [parents.length_eq, whole]
    rfl
  · rfl

theorem accepted_timestamps (accepted : Accepted t txHash s checked s') :
    created .timestamp t = consumed .timestamp t + if t.checker.piece = .timestamp then 1 else 0 := by
  unfold created consumed
  cases checker : t.checker with
  | setTimestamp inner =>
    obtain ⟨priority, call⟩ := accepted_call accepted checker
    obtain ⟨passed, _⟩ := Exec.read_ok (Exec.mapErr_ok.mp call)
    obtain ⟨noInputs, noEvictions, _, new, old, ⟨d, one, _⟩, _⟩ := Time.SetTimestamp.check_ok.mp passed
    have redeemed := refs_nil accepted.redeemed_present noInputs
    have evicted := refs_nil accepted.evicted_present noEvictions
    obtain ⟨o, whole, rfl⟩ := List.map_eq_singleton_iff.mp one
    simp [inputRefs_of_redeemed evicted, redeemed, whole, OuterConstraintChecker.piece]
  | _ => simp [OuterConstraintChecker.piece]

theorem accepted_references (accepted : Accepted t txHash s checked s') :
    created .runtimeUpgrade t = consumed .runtimeUpgrade t := by
  unfold created consumed
  cases checker : t.checker with
  | runtimeUpgrade inner =>
    obtain ⟨priority, call⟩ := accepted_call accepted checker
    obtain ⟨replaces, _⟩ := Upgrade.check_replaces (Exec.mapErr_ok.mp call)
    obtain ⟨a, code, one, _⟩ := replaces.consumes
    obtain ⟨d, alone, _⟩ := replaces.creates
    obtain ⟨q, redeemed, _⟩ := refs_singleton accepted.redeemed_present one
    have evicted := refs_nil accepted.evicted_present replaces.noEvictions
    obtain ⟨o, whole, rfl⟩ := List.map_eq_singleton_iff.mp alone
    simp [inputRefs_of_redeemed evicted, redeemed, whole, OuterConstraintChecker.piece]
  | _ => simp [OuterConstraintChecker.piece]

end

/-! ### Runs -/

/-- Over a run the outputs of a piece grow by what its transactions create and shrink by what they consume.
So the amoebas are those that were there and were created or divided off, less the dead; each breeding
leaves one kitty more; timestamps only come; and there are as many references to the code as before. -/
theorem census [Host] {start final : Storage} {ts : List Transaction} (run : Run start ts final) :
    (∀ piece, population piece final + (ts.map (consumed piece)).sum =
      population piece start + (ts.map (created piece)).sum) ∧
    population .amoeba final + ts.countP (fun t => t.checker = .amoebaDeath ⟨⟩) =
      population .amoeba start +
        ts.countP (fun t => t.checker = .amoebaCreation ⟨⟩ ∨ t.checker = .amoebaMitosis ⟨⟩) ∧
    population .kitties final = population .kitties start + ts.countP (fun t => t.checker.piece = .kitties) ∧
    population .timestamp final = population .timestamp start + ts.countP (fun t => t.checker.piece = .timestamp) ∧
    population .runtimeUpgrade final = population .runtimeUpgrade start := by
  refine ⟨fun piece => run.balance fun _ _ _ _ _ _ accepted => accepted_population accepted piece, ?_, ?_, ?_, ?_⟩
  · refine run.counts fun t _ txHash s checked s' accepted => ?_
    have change := accepted_population accepted .amoeba
    have sizes := accepted_amoebas accepted
    unfold population at change
    simp only [decide_eq_true_eq]
    omega
  · refine run.grows fun t _ txHash s checked s' accepted => ?_
    have change := accepted_population accepted .kitties
    have sizes := accepted_kitties accepted
    unfold population at change
    simp only [decide_eq_true_eq]
    omega
  · refine run.grows fun t _ txHash s checked s' accepted => ?_
    have change := accepted_population accepted .timestamp
    have sizes := accepted_timestamps accepted
    unfold population at change
    simp only [decide_eq_true_eq]
    omega
  · refine run.invariant (P := fun s => population .runtimeUpgrade s = population .runtimeUpgrade start) ?_ ?_ rfl
    · intro t _ s s' there applied
      obtain ⟨txHash, checked, accepted⟩ := apply_ok.mp applied
      have change := accepted_population accepted .runtimeUpgrade
      have sizes := accepted_references accepted
      omega
    · exact fun s s' there same => (worth_same same).trans there

theorem census_mintBurn :
    letI := Host.unsigned
    ∃ final, Run emptyGenesis [mintCoin, burnCoin, mintCoin] final ∧
      population .money final = population .money emptyGenesis + 1 := by
  let := Host.unsigned
  obtain ⟨_, final, _, applied⟩ := mintBurn_applied
  have coins := (census applied.run).1 .money
  have gone : ([mintCoin, burnCoin, mintCoin].map (consumed .money)).sum = 1 := by decide
  have made : ([mintCoin, burnCoin, mintCoin].map (created .money)).sum = 2 := by decide
  rw [gone, made] at coins
  exact ⟨final, applied.run, by omega⟩

end Tuxedo.Template
