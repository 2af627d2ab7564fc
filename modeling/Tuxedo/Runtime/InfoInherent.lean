import Tuxedo.Runtime.ParachainInfo
import Tuxedo.Runtime.TimestampInherent

/-!
# The inherents of the parachain runtime

The wrapped checker brings the timestamp and the wrapper adds the parachain info.
-/

namespace Tuxedo.ParachainRuntime
open Scale Executive TransparentUtxoSet DynamicallyTypedData Template Parachain

section
variable [Host] [RelayChain]

/-! ### Genesis -/

def genesisInfo (payload : DynamicallyTypedData) : Transaction :=
  ⟨Vec.empty, Vec.empty, Vec.singleton ⟨payload, .sr25519Signature ⟨FixedBytes.zero 32⟩⟩, .parachainInfo ⟨⟨⟩⟩⟩

theorem genesisTransactions_some {txs : List Transaction} (h : ConstraintChecker.genesisTransactions = some txs) :
    ∃ payload, into? (newDataFromRelayParentNumber 0) = some payload ∧
      txs = [genesisTimestamp.transform .inner, genesisInfo payload] := by
  obtain ⟨first, later, inner, rest, rfl⟩ := Aggregate.genesisTransactions_cons h
  obtain ⟨infos, none, info, nothing, rfl⟩ := Aggregate.genesisTransactions_cons rest
  have timestamp : ParachainConstraintChecker.innerVariant.genesisTransactions =
      some [genesisTimestamp.transform .inner] := rfl
  obtain rfl := Option.some.inj (timestamp.symm.trans inner)
  obtain ⟨adapted, wraps, rfl⟩ := Option.map_eq_some_iff.mp info
  obtain ⟨plain, created, rfl⟩ := Option.map_eq_some_iff.mp wraps
  obtain ⟨payload, stored, created⟩ := Option.bind_eq_some_iff.mp created
  obtain ⟨verifier, unspendable, created⟩ := Option.bind_eq_some_iff.mp created
  cases unspendable
  cases created
  cases nothing
  exact ⟨payload, stored, rfl⟩

/-! ### Timestamps -/

omit [Host] in
theorem not_timestamp_of_info {d : DynamicallyTypedData} {info : ParachainInherentDataUtxo}
    (extracted : d.extract ParachainInherentDataUtxo = .ok info) : ¬Extracts Time.Timestamp d := fun extracts =>
  not_info_of_owns (show Piece.timestamp.Owns d from extracts) ⟨info, extracted⟩

def ParachainConstraintChecker.isTimestamp : ParachainConstraintChecker → Bool
  | .inner checker => Timestamped.isTimestamp checker
  | .parachainInfo _ => false

omit [RelayChain] in
theorem wrappedTimestampLeaf_owns (x : Transaction) : wrappedTimestampLeaf.owns x = x.checker.isTimestamp := by
  unfold InherentLeaf.owns
  cases x.checker with
  | inner checker => cases checker <;> rfl
  | parachainInfo checker => rfl

/-- Without error there is exactly one inherent of each kind. -/
theorem checkInherents_okay {data : InherentData} {xs : List Transaction} {result : CheckInherentsResult}
    (inherents : ∀ x ∈ xs, ConstraintChecker.isInherent (V := OuterVerifier) x.checker = true)
    (h : ConstraintChecker.checkInherents data xs .new = some result) (okay : result.okay = true) :
    (∃ x, xs.filter wrappedTimestampLeaf.owns = [x]) ∧ ∃ m, xs.filter infoLeaf.owns = [m] := by
  have reports : ∀ leaf ∈ tree.inherentLeaves, ∀ x result result',
      leaf.hooks.checkInherent data x result = some result' → result'.okay = true → result' = result := by
    rw [inherentLeaves_tree]
    refine List.forall_mem_cons.mpr ⟨fun _ _ _ => Time.SetTimestamp.checkInherent_okay, ?_⟩
    refine List.forall_mem_singleton.mpr ?_
    intro _ _ _ unchanged _
    exact (Option.some.inj unchanged).symm
  have ones := tree.checkInherents_okay reports inherents h okay
  rw [inherentLeaves_tree] at ones
  exact ⟨ones _ List.mem_cons_self, ones _ (List.mem_cons_of_mem _ (List.mem_singleton_self _))⟩

instance : Timestamped ParachainConstraintChecker where
  isTimestamp := ParachainConstraintChecker.isTimestamp
  inherent {checker} timestamp := by
    cases checker with
    | inner checker => exact Timestamped.inherent (C := OuterConstraintChecker) timestamp
    | parachainInfo checker => cases timestamp
  check_timestamp {checker inputs evicted peeks outputs s s' priority} timestamp := by
    cases checker with
    | inner checker =>
      exact Exec.mapErr_ok.trans (Timestamped.check_timestamp (C := OuterConstraintChecker) timestamp)
    | parachainInfo checker => cases timestamp
  check_other {checker inputs evicted peeks outputs s s' priority} other h := by
    cases checker with
    | inner checker => exact Timestamped.check_other (C := OuterConstraintChecker) other (Exec.mapErr_ok.mp h)
    | parachainInfo checker =>
      obtain ⟨rfl, previous, current, ⟨⟨d, rfl, was⟩, ⟨d', rfl, is⟩, _⟩, rfl⟩ := check_info_ok h
      exact ⟨⟨by simp, by simpa using not_timestamp_of_info was, by simpa using not_timestamp_of_info is⟩,
        Store.get_set_ne _ _ (by decide)⟩
  genesis_one {txs} h := by
    obtain ⟨payload, _, rfl⟩ := genesisTransactions_some h
    obtain ⟨output, one, extracted⟩ := genesisTimestamp_extract
    exact ⟨genesisTimestamp.transform .inner, output, rfl, one, extracted⟩
  checked_one {data xs result} inherents h okay := by
    obtain ⟨⟨x, one⟩, _⟩ := checkInherents_okay inherents h okay
    exact ⟨x, (List.filter_congr fun y _ => (wrappedTimestampLeaf_owns y).symm).trans one⟩

/-! ### Creation -/

/-- The inherent that moves on the output of a previous one. -/
def infoAfter (previous : H256) (payload : DynamicallyTypedData) : Transaction :=
  ⟨Vec.singleton ⟨⟨previous, 0⟩, .eviction⟩, Vec.empty,
    Vec.singleton ⟨payload, .sr25519Signature ⟨FixedBytes.zero 32⟩⟩, .parachainInfo ⟨⟨⟩⟩⟩

theorem setParachainInfo_creates {s : Storage} {data : InherentData} {info : ParachainInherentData}
    {payload : DynamicallyTypedData} (holds : data.Holds Parachain.inherentIdentifier info)
    (stored : into? (⟨info⟩ : ParachainInherentDataUtxo) = some payload) (txHash : H256)
    (previous : Tuxedo.Transaction OuterVerifier (SetParachainInfo RuntimeParachainConfig)) :
    SetParachainInfo.createInherent RuntimeParachainConfig s data (previous, txHash) =
      some ⟨Vec.singleton ⟨⟨txHash, 0⟩, .eviction⟩, Vec.empty,
        Vec.singleton ⟨payload, .sr25519Signature ⟨FixedBytes.zero 32⟩⟩, ⟨⟩⟩ := by
  simp [SetParachainInfo.createInherent, InherentData.getData_of_holds holds, stored, Verifier.newUnspendable]

theorem timestampAfter_inner {txHash : H256} {new : Time.Timestamp} {payload : DynamicallyTypedData}
    (stored : into? new = some payload) :
    NextTimestamp (C := ParachainConstraintChecker) ((timestampAfter txHash payload).transform .inner) txHash new :=
  nextTimestamp_of rfl
    (show (encode (ParachainConstraintChecker.inner (.setTimestamp ⟨⟨⟩⟩))).length < 64 by decide) stored

end
end Tuxedo.ParachainRuntime
