import Tuxedo.Runtime.Aggregation
import Tuxedo.Runtime.Clock

/-!
# The timestamp inherent of the template runtime

The tree of the template runtime has one inherent leaf.
-/

namespace Tuxedo.Template
open Scale Executive TransparentUtxoSet DynamicallyTypedData Time

section
variable [Host]

/-! ### The instance -/

def genesisTimestamp : Transaction :=
  ⟨Vec.empty, Vec.empty, Vec.singleton ⟨⟨⟨encode (⟨0, 0⟩ : Timestamp), by decide⟩, UtxoData.typeId Timestamp⟩,
    .sr25519Signature ⟨FixedBytes.zero 32⟩⟩, .setTimestamp ⟨⟨⟩⟩⟩

theorem genesisTransactions_eq :
    (ConstraintChecker.genesisTransactions : Option (List Transaction)) = some [genesisTimestamp] := rfl

omit [Host] in
theorem genesisTimestamp_extract : ∃ output, genesisTimestamp.outputs.toList = [output] ∧
    output.payload.extract Timestamp = .ok ⟨0, 0⟩ := ⟨_, rfl, rfl⟩

omit [Host] in
theorem Piece.Owns.not_timestamp {piece : Piece} {d : DynamicallyTypedData} (owns : piece.Owns d)
    (other : piece ≠ .timestamp) : ¬Extracts Timestamp d := fun extracts =>
  other (owns.unique (show Piece.timestamp.Owns d from extracts))

instance : Timestamped OuterConstraintChecker where
  isTimestamp
    | .setTimestamp _ => true
    | _ => false
  inherent {checker} timestamp := by
    cases checker with
    | setTimestamp inner => rfl
    | _ => cases timestamp
  check_timestamp {checker inputs evicted peeks outputs s s' priority} timestamp := by
    cases checker with
    | setTimestamp inner =>
      constructor
      · intro h
        exact Exec.read_ok (Exec.mapErr_ok.mp h)
      · rintro ⟨passed, rfl⟩
        exact Exec.mapErr_ok.mpr (Exec.read_of_ok passed)
    | _ => cases timestamp
  check_other {checker inputs evicted peeks outputs s s' priority} other h := by
    obtain ⟨handles, writes, _⟩ := OuterConstraintChecker.check_ok h
    have piece : checker.piece ≠ .timestamp := by
      intro same
      cases checker with
      | setTimestamp inner => cases other
      | _ => cases same
    refine ⟨⟨fun d member => (handles.inputs d member).not_timestamp piece,
      fun d member => (handles.evicted d member).not_timestamp piece,
      fun d member => (handles.outputs d member).not_timestamp piece⟩, ?_⟩
    rcases writes with rfl | ⟨code, rfl⟩
    · rfl
    · exact Store.get_set_ne _ _ (by decide)
  genesis_one {txs} h := by
    rw [genesisTransactions_eq] at h
    cases h
    obtain ⟨output, one, extracted⟩ := genesisTimestamp_extract
    exact ⟨genesisTimestamp, output, rfl, one, extracted⟩
  checked_one {data xs result} inherents h okay := by
    have reports : ∀ leaf ∈ tree.inherentLeaves, ∀ x result result',
        leaf.hooks.checkInherent data x result = some result' → result'.okay = true → result' = result := by
      rw [inherentLeaves_tree]
      exact List.forall_mem_singleton.mpr fun _ _ _ => SetTimestamp.checkInherent_okay
    obtain ⟨x, one⟩ := tree.checkInherents_okay reports inherents h okay timestampLeaf
      (by rw [inherentLeaves_tree]; exact List.mem_singleton_self _)
    refine ⟨x, ?_⟩
    rw [← one]
    apply List.filter_congr
    intro y _
    unfold InherentLeaf.owns
    cases y.checker <;> rfl

/-! ### Creation -/

/-- The inherent that follows the output of a previous one. -/
def timestampAfter (previous : H256) (payload : DynamicallyTypedData) : Transaction :=
  ⟨Vec.empty, Vec.singleton ⟨previous, 0⟩, Vec.singleton ⟨payload, .sr25519Signature ⟨FixedBytes.zero 32⟩⟩,
    .setTimestamp ⟨⟨⟩⟩⟩

omit [Host] in
theorem length_encode_timestamp (new : Timestamp) : (encode new).length = 12 := by
  change (encode new.time ++ encode new.block).length = 12
  simp [encode]

def storedTimestamp (new : Timestamp) : DynamicallyTypedData :=
  ⟨⟨encode new, by rw [length_encode_timestamp]; decide⟩, UtxoData.typeId Timestamp⟩

omit [Host] in
theorem into_timestamp (new : Timestamp) : ∃ payload, into? new = some payload :=
  exists_into? new (by rw [length_encode_timestamp]; decide)

theorem setTimestamp_creates {s : Storage} {data : InherentData} {time : UInt64} {number : UInt32}
    {payload : DynamicallyTypedData} (holds : data.Holds Time.inherentIdentifier time)
    (height : blockHeight s = some number) (stored : into? (⟨time, number⟩ : Timestamp) = some payload)
    (txHash : H256) (previous : Tuxedo.Transaction OuterVerifier (SetTimestamp Runtime)) :
    SetTimestamp.createInherent Runtime s data (previous, txHash) =
      some ⟨Vec.empty, Vec.singleton ⟨txHash, 0⟩, Vec.singleton ⟨payload, .sr25519Signature ⟨FixedBytes.zero 32⟩⟩,
        ⟨⟩⟩ := by
  have current : TimestampConfig.blockHeight Runtime s = some number := height
  simp [SetTimestamp.createInherent, InherentData.getData_of_holds holds, current, stored, Verifier.newUnspendable]

/-- What the hooks create is short enough to be hashed. -/
theorem created_hashed {C : Type} [Codec C] {inputs : Vec Input} {peeks : Vec OutputRef}
    {payload : DynamicallyTypedData} {checker : C} (shortInputs : (encode inputs).length < 64)
    (shortPeeks : (encode peeks).length < 64) (shortData : payload.data.toList.length < 2 ^ 31)
    (shortChecker : (encode checker).length < 64) :
    ∃ txHash, (⟨inputs, peeks, Vec.singleton ⟨payload, .sr25519Signature ⟨FixedBytes.zero 32⟩⟩, checker⟩ :
      Tuxedo.Transaction OuterVerifier C).id? = some txHash := by
  apply Transaction.exists_id?
  have output := length_encode_output_le (⟨payload, .sr25519Signature ⟨FixedBytes.zero 32⟩⟩ : Output)
  have verifier : (encode (OuterVerifier.sr25519Signature ⟨FixedBytes.zero 32⟩)).length = 33 := rfl
  rw [Transaction.body, List.length_append, List.length_append, List.length_append, length_encode_singleton]
  dsimp only at output ⊢
  omega

/-- The created inherent is the next timestamp, whatever its checker is wrapped in. -/
theorem nextTimestamp_of {C : Type} [Codec C] [ConstraintChecker OuterVerifier C] [Timestamped C] {checker : C}
    (timestamp : Timestamped.isTimestamp checker = true) (short : (encode checker).length < 64) {txHash : H256}
    {new : Timestamp} {payload : DynamicallyTypedData} (stored : into? new = some payload) :
    NextTimestamp (⟨Vec.empty, Vec.singleton ⟨txHash, 0⟩,
      Vec.singleton ⟨payload, .sr25519Signature ⟨FixedBytes.zero 32⟩⟩, checker⟩ : Tuxedo.Transaction OuterVerifier C)
      txHash new := by
  refine ⟨timestamp, rfl, rfl, ⟨_, rfl, extract_into? stored⟩, created_hashed (by decide) ?_ ?_ short⟩
  · rw [length_encode_singleton, length_encode_outputRef]
    decide
  · rw [into?_data stored, length_encode_timestamp]
    decide

theorem timestampAfter_next {txHash : H256} {new : Timestamp} {payload : DynamicallyTypedData}
    (stored : into? new = some payload) : NextTimestamp (timestampAfter txHash payload) txHash new :=
  nextTimestamp_of rfl (by decide) stored

/-! ### The check before execution -/

/-- Every inherent goes to the one leaf. -/
theorem own_timestampLeaf {xs : List Transaction} (inherents : ∀ x ∈ xs, isInherent x = true) :
    timestampLeaf.own xs = xs.map (Transaction.transform fun _ => (⟨⟩ : SetTimestamp Runtime)) := by
  rw [← List.filterMap_eq_map]
  refine List.filterMap_congr fun x member => ?_
  have inherent := inherents x member
  obtain ⟨inputs, peeks, outputs, checker⟩ := x
  cases checker with
  | setTimestamp inner => rfl
  | _ => cases inherent

section
variable {block : Block} {data : InherentData}

theorem own_opening : timestampLeaf.own (openingInherents block) =
    (openingInherents block).map (Transaction.transform fun _ => (⟨⟩ : SetTimestamp Runtime)) :=
  own_timestampLeaf fun x member => List.all_eq_true.mp List.all_takeWhile x member

theorem checkInherents_timestamp :
    checkInherents block data = timestampLeaf.checkInherents data (openingInherents block) .new := by
  have inherents : ∀ x ∈ openingInherents block, isInherent x = true := by
    intro x member
    exact List.all_eq_true.mp List.all_takeWhile x member
  have checked : checkInherents block data = _ := tree.checkInherents_eq data inherents rfl
  rw [checked, inherentLeaves_tree, List.foldlM_cons, Tree.checkLeaf, if_neg (by decide)]
  cases timestampLeaf.checkInherents data (openingInherents block) .new <;> rfl

theorem checkInherents_alone {x : Transaction} (alone : openingInherents block = [x]) :
    checkInherents block data = SetTimestamp.checkInherent Runtime data (x.transform fun _ => ⟨⟩) .new := by
  have own : timestampLeaf.own (openingInherents block) = [x.transform fun _ => (⟨⟩ : SetTimestamp Runtime)] := by
    rw [own_opening, alone]
    rfl
  rw [checkInherents_timestamp, Tree.checkInherents_one own]
  rfl

theorem checkInherents_not_alone (other : (openingInherents block).length ≠ 1) (data : InherentData) :
    ∃ result, checkInherents block data = some result ∧ result.okay = false := by
  have others : (timestampLeaf.own (openingInherents block)).length ≠ 1 := by
    rw [own_opening]
    exact fun same => other ((List.length_map _).symm.trans same)
  have fresh : CheckInherentsResult.new.fatalError = false := rfl
  obtain ⟨result, checked, _⟩ := Tree.checkInherents_not_one others fresh data
  rw [checkInherents_timestamp]
  refine ⟨result, checked, Bool.eq_false_iff.mpr fun okay => others ?_⟩
  let := timestampLeaf.hooks
  obtain ⟨wrapped, single, _⟩ := InherentAdapter.checkInherents_okay checked okay
  simpa using congrArg List.length single

end

/-- The check before execution panics exactly on a malformed inherent that stands alone. -/
theorem check_inherents_reports_iff (block : Block) (data : InherentData) (localTime : UInt64)
    (decodes : data.getData UInt64 Time.inherentIdentifier = some (some localTime)) :
    (∃ result, checkInherents block data = some result ∧
      ((∃ x ∈ openingInherents block, firstNoted x = none ∨ ∃ stamp, firstNoted x = some stamp ∧
          localTime.toNat + (TimestampConfig.maxDrift Runtime).toNat < stamp.time.toNat) →
        result.okay = false)) ↔
      ¬∃ x, openingInherents block = [x] ∧ firstNoted x = none := by
  by_cases one : (openingInherents block).length = 1
  · obtain ⟨x, alone⟩ := List.length_eq_one_iff.mp one
    let inner : Tuxedo.Transaction OuterVerifier (SetTimestamp Runtime) := x.transform fun _ => ⟨⟩
    have same : firstNoted inner = firstNoted x := rfl
    rw [checkInherents_alone alone, alone]
    cases noted : firstNoted x with
    | none =>
      rw [SetTimestamp.checkInherent_malformed (same.trans noted)]
      simp [noted]
    | some stamp =>
      have fresh : CheckInherentsResult.new.fatalError = false := rfl
      obtain ⟨result, checked, late⟩ := SetTimestamp.checkInherent_noted decodes fresh (same.trans noted)
      rw [checked]
      simpa [noted] using late
  · obtain ⟨result, checked, refused⟩ := checkInherents_not_alone one data
    have several : ∀ x, openingInherents block ≠ [x] := by
      intro x alone
      exact one (by rw [alone]; rfl)
    simp [checked, refused, several]

def alone (outputs : Vec Output) : Block :=
  ⟨⟨FixedBytes.zero 32, 1, FixedBytes.zero 32, FixedBytes.zero 32, Vec.empty⟩,
    Vec.singleton ⟨Vec.empty, Vec.empty, outputs, .setTimestamp ⟨⟨⟩⟩⟩⟩

def noonData : InherentData := Store.empty.set Time.inherentIdentifier ⟨encode (43200000 : UInt64), by decide⟩

omit [Host] in
theorem check_inherents_reports_late :
    letI := Host.unsigned
    let late := alone (Vec.singleton ⟨storedTimestamp ⟨43260001, 1⟩, .upForGrabs ⟨⟩⟩)
    ∃ result, checkInherents late noonData = some result ∧ result.okay = false := by
  let := Host.unsigned
  intro late
  obtain ⟨opening, present⟩ : ∃ x, openingInherents late = [x] ∧ firstNoted x = some ⟨43260001, 1⟩ := ⟨_, rfl, rfl⟩
  obtain ⟨result, checked, reported⟩ := (check_inherents_reports_iff late noonData 43200000 rfl).mpr (by
    rintro ⟨x, single, malformed⟩
    obtain ⟨rfl, -⟩ := List.cons.inj (present.1.symm.trans single)
    rw [present.2] at malformed
    cases malformed)
  refine ⟨result, checked, reported ⟨opening, ?_, Or.inr ⟨_, present.2, by decide⟩⟩⟩
  rw [present.1]
  exact List.mem_cons_self

omit [Host] in
theorem check_inherents_panics :
    letI := Host.unsigned
    noonData.getData UInt64 Time.inherentIdentifier = some (some 43200000) ∧
      checkInherents (alone Vec.empty) noonData = none ∧
      checkInherents (alone (Vec.singleton ⟨⟨Vec.empty, UtxoData.typeId (Money.Coin 0)⟩, .upForGrabs ⟨⟩⟩)) noonData =
        none := by
  exact ⟨rfl, rfl, rfl⟩

/-! ### Time moves forward -/

/-- Time moves forward by the interval exactly where the sum with the interval does not overflow. -/
theorem time_forward_iff :
    (∀ (T : Type) [TimestampConfig T] (height : Option UInt32)
      (inputs evicted peeks outputs : List DynamicallyTypedData) (priority : UInt64) (old new : Timestamp),
      SetTimestamp.check T height inputs evicted peeks outputs = .ok priority → firstTimestamp peeks = .ok old →
      firstTimestamp outputs = .ok new → old.block ≠ 0 →
      (old.time.toNat + (TimestampConfig.minimumTimeInterval T).toNat ≤ new.time.toNat ∧
          new.block.toNat = old.block.toNat + 1 ↔
        old.time.toNat + (TimestampConfig.minimumTimeInterval T).toNat < 2 ^ 64 ∧ old.block.toNat + 1 < 2 ^ 32)) ∧
    ∀ (s s' : Storage) (blocks : List Block), Imported s blocks s' →
      (∀ block ∈ blocks, ∀ x ∈ block.extrinsics.toList, isTimestamp x = true →
        ∃ old new, Notes x new ∧ Noted s blocks block.header.number old new) ∧
      ((∀ number old new, Noted s blocks number old new → 2 ≤ number.toNat →
          new.block = number ∧ old.block.toNat + 1 = number.toNat ∧
            old.time.toNat + (TimestampConfig.minimumTimeInterval Runtime).toNat ≤ new.time.toNat) ↔
        ∀ number old new, Noted s blocks number old new → 2 ≤ number.toNat →
          old.time.toNat + (TimestampConfig.minimumTimeInterval Runtime).toNat < 2 ^ 64) := by
  constructor
  · intro T _ height inputs evicted peeks outputs priority old new passed peeked noted started
    obtain ⟨_, _, _, new', old', ⟨d, rfl, created⟩, ⟨d', rest, rfl, extracted⟩, follows⟩ :=
      SetTimestamp.check_ok.mp passed
    obtain ⟨_, _, same, peeked⟩ := firstTimestamp_ok.mp peeked
    cases same
    obtain rfl := Except.ok.inj (extracted.symm.trans peeked)
    obtain ⟨_, _, same, noted⟩ := firstTimestamp_ok.mp noted
    cases same
    obtain rfl := Except.ok.inj (created.symm.trans noted)
    exact follows.exact_iff started
  · intro s s' blocks run
    refine ⟨noted_of_imported run, ?_⟩
    constructor
    · intro forward number old new noted late
      have later := (forward number old new noted late).2.2
      have bound := new.time.toNat_lt
      omega
    · intro fits number old new noted late
      have follows := noted.follows run
      obtain rfl := Option.some.inj follows.current
      obtain ⟨started, next⟩ := follows.previous late
      have small := new.block.toNat_lt
      have forward := (follows.exact_iff started).mpr ⟨fits _ _ _ noted late, by omega⟩
      exact ⟨rfl, next.symm, forward.1⟩

def firstStorage : Storage :=
  Store.empty.set (encode (⟨FixedBytes.zero 32, 0⟩ : OutputRef))
    (encode (⟨storedTimestamp ⟨1000, 1⟩, .sr25519Signature ⟨FixedBytes.zero 32⟩⟩ : Output))

def secondBlock : Block :=
  ⟨⟨FixedBytes.zero 32, 2, FixedBytes.zero 32, FixedBytes.zero 32, Vec.empty⟩,
    Vec.singleton (timestampAfter (FixedBytes.zero 32) (storedTimestamp ⟨3000, 2⟩))⟩

omit [Host] in
theorem time_forward_second_block :
    letI := Host.unsigned
    ∃ s' old new, Imported firstStorage [secondBlock] s' ∧ Noted firstStorage [secondBlock] 2 old new ∧
      old.time.toNat + 2000 ≤ new.time.toNat := by
  let := Host.unsigned
  obtain ⟨_, s', executed, _⟩ := Exec.exists_of_any (x := executeBlock secondBlock) (s := firstStorage)
    (p := fun _ => true) (by decide +kernel)
  have run : Imported firstStorage [secondBlock] s' := .execute executed (.done s')
  obtain ⟨notes, forward⟩ := time_forward_iff.2 firstStorage s' [secondBlock] run
  obtain ⟨old, new, _, noted⟩ := notes secondBlock List.mem_cons_self _ List.mem_cons_self rfl
  refine ⟨s', old, new, run, noted, ?_⟩
  refine (forward.mpr ?_ 2 old new noted (by decide)).2.2
  intro number old new noted _
  cases noted with
  | @here _ s₁ _ _ earlier later x r rest _ _ split applied _ peeks peeked _ =>
    replace split : [timestampAfter (FixedBytes.zero 32) (storedTimestamp ⟨3000, 2⟩)] = earlier ++ x :: later := split
    obtain rfl : earlier = [] := by
      have count := congrArg List.length split
      rw [List.length_append, List.length_cons, List.length_cons, List.length_nil] at count
      exact List.length_eq_zero_iff.mp (by omega)
    obtain ⟨rfl, -⟩ := List.cons.inj split
    cases applied
    obtain ⟨rfl, -⟩ := List.cons.inj peeks
    have stored : timeAt (openBlock secondBlock.header firstStorage) ⟨FixedBytes.zero 32, 0⟩ = some ⟨1000, 1⟩ := by
      decide +kernel
    obtain rfl := Option.some.inj (stored.symm.trans peeked)
    decide
  | later _ noted => cases noted

omit [Host] in
/-- The first block is exempt, so that a chain can start just below the overflow. -/
theorem time_moves_back :
    let first : Timestamp := ⟨18446744073709551615, 1⟩
    let second : Timestamp := ⟨1999, 2⟩
    SetTimestamp.check Runtime (some 1) [] [] [storedTimestamp ⟨0, 0⟩] [storedTimestamp first] = .ok 0 ∧
      SetTimestamp.check Runtime (some 2) [] [] [storedTimestamp first] [storedTimestamp second] = .ok 0 ∧
      second.time.toNat < first.time.toNat := by
  refine ⟨rfl, rfl, by decide⟩

end
end Tuxedo.Template
