import Tuxedo.Wallet.Rollback

/-!
# A node that may answer anything

The heights of the wallet's block hashes stay without a gap, whatever blocks the node puts at the
heights and whenever a run stops. The chain that the blocks form plays no part in it.
-/

namespace Tuxedo.Wallet
open Scale Template

variable {blockOf : H256 → Option OpaqueBlock} {genesisHash : H256}

/-! ### Heights without a gap -/

/-- The tables have one block for every height below `n`, from the genesis on. -/
structure Contiguous (blockOf : H256 → Option OpaqueBlock) (genesisHash : H256) (n : Nat) (db : Db) : Prop where
  nonempty : 0 < n
  room : n ≤ 2 ^ 32
  keys : db.blockHashes.keys = heightKeys n
  starts : db.blockHashes.get (encode (0 : UInt32)) = some (encode genesisHash)
  stored : ∀ h : UInt32, h.toNat < n → ∃ hash b, db.blockHashes.get (encode h) = some (encode hash) ∧
    blockOf hash = some b ∧ b.header.number = h ∧ db.blocks.get (encode hash) = some (encode b)

/-- How the stage follows from the number of heights. After the last `u32` the heights start again
at zero. -/
def Staged (blockOf : H256 → Option OpaqueBlock) (genesisHash : H256) (n : Nat) (db : Db) : Stage → Prop
  | .compare height hash => n = height.toNat + 1 ∧ db.blockHashes.get (encode height) = some (encode hash)
  | .advance height => height.toNat ≤ n
  | .fetch height hash => height.toNat ≤ n ∧ (height = 0 → hash = genesisHash) ∧
      ∃ b, blockOf hash = some b ∧ b.header.number = height
  | .done => True

theorem toNat_succ_le {height : UInt32} {n : Nat} (le : height.toNat + 1 ≤ n) : (height + 1).toNat ≤ n := by
  rw [UInt32.toNat_add]
  exact (Nat.mod_le _ _).trans le

namespace Contiguous
variable {n : Nat} {db db' : Db}

theorem same (contiguous : Contiguous blockOf genesisHash n db) (hashes : db'.blockHashes = db.blockHashes)
    (blocks : db'.blocks = db.blocks) : Contiguous blockOf genesisHash n db' :=
  ⟨contiguous.nonempty, contiguous.room, hashes ▸ contiguous.keys, hashes ▸ contiguous.starts,
    hashes ▸ blocks ▸ contiguous.stored⟩

theorem closed (n : Nat) : Closed (Contiguous blockOf genesisHash n) where
  unspend _ _ _ contiguous := contiguous.same rfl rfl
  remove _ _ contiguous := contiguous.same rfl rfl
  spend _ _ _ contiguous := contiguous.same rfl rfl
  restore _ _ contiguous := contiguous.same rfl rfl
  stamp _ _ _ contiguous := contiguous.same rfl rfl

/-- A block at one of the heights or at the next one. -/
theorem add (contiguous : Contiguous blockOf genesisHash n db) {hash : H256} {b : OpaqueBlock}
    (named : blockOf hash = some b) (inside : b.header.number.toNat ≤ n)
    (genesis : b.header.number = 0 → hash = genesisHash) :
    Contiguous blockOf genesisHash (max n (b.header.number.toNat + 1)) { db with
      blockHashes := db.blockHashes.set (encode b.header.number) (encode hash)
      blocks := db.blocks.set (encode hash) (encode b) } := by
  have room := contiguous.room
  have small := b.header.number.toNat_lt
  refine ⟨lt_max_of_lt_left contiguous.nonempty, max_le room small, ?_, ?_, ?_⟩
  · change (db.blockHashes.set _ _).keys = _
    rw [Store.keys_set, contiguous.keys]
    rcases Nat.lt_or_eq_of_le inside with below | top
    · rw [max_eq_left below]
      exact Finset.insert_eq_of_mem ((mem_heightKeys room).mpr below)
    · rw [max_eq_right (by omega), heightKeys_succ, top]
  · change (db.blockHashes.set _ _).get _ = _
    rw [Store.get_set]
    split
    · rename_i same
      rw [genesis (encode_injective same).symm]
    · exact contiguous.starts
  · intro h below
    change ∃ hash' b', (db.blockHashes.set _ _).get _ = _ ∧ _ ∧ _ ∧ (db.blocks.set _ _).get _ = _
    by_cases same : h = b.header.number
    · refine ⟨hash, b, ?_, named, same.symm, Store.get_set_self _ _ _⟩
      rw [same, Store.get_set_self]
    · have different : h.toNat ≠ b.header.number.toNat := fun equal => same (UInt32.toNat_inj.mp equal)
      obtain ⟨hash', b', storedHash, named', number, stored⟩ := contiguous.stored h (by omega)
      have other : hash' ≠ hash := ne_of_number named' named (by rw [number]; exact different)
      refine ⟨hash', b', ?_, named', number, ?_⟩
      · rw [Store.get_set_ne _ _ fun equal => same (encode_injective equal), storedHash]
      · rw [Store.get_set_ne _ _ fun equal => other (encode_injective equal), stored]

/-- Without its highest block. -/
theorem drop {top : UInt32} {hash : H256} (contiguous : Contiguous blockOf genesisHash (top.toNat + 1) db)
    (storedHash : db.blockHashes.get (encode top) = some (encode hash)) (positive : top ≠ 0) :
    Contiguous blockOf genesisHash top.toNat { db with
      blockHashes := db.blockHashes.clear (encode top)
      blocks := db.blocks.clear (encode hash) } := by
  refine ⟨toNat_pos positive, top.toNat_lt.le, ?_, ?_, ?_⟩
  · change (db.blockHashes.clear _).keys = _
    have outside : encode top ∉ heightKeys top.toNat := by
      rw [mem_heightKeys top.toNat_lt.le]
      exact lt_irrefl _
    rw [Store.keys_clear, contiguous.keys, heightKeys_succ, Finset.erase_insert outside]
  · exact (Store.get_clear_ne _ fun same => positive (encode_injective same).symm).trans contiguous.starts
  · intro h below
    obtain ⟨hash', b', storedHash', named', number', stored⟩ := contiguous.stored h (by omega)
    obtain ⟨hash₁, b, storedHash₁, named, number, _⟩ := contiguous.stored top (Nat.lt_succ_self _)
    obtain rfl := encode_injective (Option.some.inj (storedHash₁.symm.trans storedHash))
    have other : hash' ≠ hash₁ := ne_of_number named' named (by rw [number, number']; omega)
    refine ⟨hash', b', ?_, named', number', ?_⟩
    · refine (Store.get_clear_ne _ fun same => ?_).trans storedHash'
      rw [encode_injective same] at below
      exact absurd below (lt_irrefl _)
    · exact (Store.get_clear_ne _ fun same => other (encode_injective same)).trans stored

theorem height_eq (contiguous : Contiguous blockOf genesisHash n db) : height db = some (UInt32.ofNat (n - 1)) :=
  height_of_keys contiguous.room contiguous.nonempty contiguous.keys

theorem getBlockHash_of (contiguous : Contiguous blockOf genesisHash n db) {h : UInt32} (below : h.toNat < n) :
    ∃ hash, db.blockHashes.get (encode h) = some (encode hash) ∧ getBlockHash h db = .ok (some hash) := by
  obtain ⟨hash, _, stored, _⟩ := contiguous.stored h below
  refine ⟨hash, stored, ?_⟩
  unfold getBlockHash
  rw [stored]
  simp only [decodeValue_encode]
  rfl

variable {C : Type} [Host] [Codec C] {filter : OuterVerifier → Bool}

theorem applyBlock (contiguous : Contiguous blockOf genesisHash n db) {hash : H256} {b : OpaqueBlock}
    (named : blockOf hash = some b) (inside : b.header.number.toNat ≤ n)
    (genesis : b.header.number = 0 → hash = genesisHash) :
    Contiguous blockOf genesisHash (max n (b.header.number.toNat + 1)) ((applyBlock C filter b hash).after db) := by
  have transactions : (b.extrinsics.toList.forM (applyTransaction C filter)).Maintains
      (Contiguous blockOf genesisHash (max n (b.header.number.toNat + 1))) :=
    .forM fun x _ => (closed _).applyTransaction filter x
  exact transactions _ (contiguous.add named inside genesis)

theorem unapplyHighestBlock {top : UInt32} {hash : H256}
    (contiguous : Contiguous blockOf genesisHash (top.toNat + 1) db)
    (storedHash : db.blockHashes.get (encode top) = some (encode hash)) (positive : top ≠ 0) :
    Contiguous blockOf genesisHash top.toNat ((unapplyHighestBlock C).after db) := by
  have highest : height db = some top := by
    rw [contiguous.height_eq, Nat.add_sub_cancel, UInt32.ofNat_toNat]
  obtain ⟨hash', b, storedHash', _, _, stored⟩ := contiguous.stored top (Nat.lt_succ_self _)
  obtain rfl := encode_injective (Option.some.inj (storedHash'.symm.trans storedHash))
  have transactions : (b.extrinsics.toList.reverse.forM (unapplyTransaction C)).Maintains
      (Contiguous blockOf genesisHash top.toNat) := .forM fun x _ => (closed _).unapplyTransaction x
  rw [Exec.after, unapplyHighestBlock_of highest storedHash stored]
  exact transactions _ (contiguous.drop storedHash positive)

end Contiguous

/-! ### What one answer leaves -/

section
variable {C : Type} [Host] [Codec C] {filter : OuterVerifier → Bool} {peer : Peer blockOf genesisHash} {n : Nat}
  {db : Db}

omit [Host] in
/-- The genesis is never unapplied. -/
theorem positive_of_other (contiguous : Contiguous blockOf genesisHash n db) {height : UInt32} {hash : H256}
    (staged : Staged blockOf genesisHash n db (.compare height hash)) {nodeHash : Option H256}
    (answer : peer.chainGetBlockHash height = .ok nodeHash) (other : some hash ≠ nodeHash) : height ≠ 0 := by
  rintro rfl
  have stored := contiguous.starts.symm.trans staged.2
  rw [peer.starts nodeHash answer, encode_injective (Option.some.inj stored)] at other
  exact other rfl

/-- After the newest block is gone there is a hash one below. -/
theorem Peer.resume_of_unapplied {height : UInt32} {hash : H256} {nodeHash : Option H256} {db₁ : Db}
    (answer : peer.chainGetBlockHash height = .ok nodeHash) (other : some hash ≠ nodeHash) (positive : height ≠ 0)
    (unapplied : unapplyHighestBlock C db = .ok () db₁) (shorter : Contiguous blockOf genesisHash height.toNat db₁) :
    ∃ below, Staged blockOf genesisHash height.toNat db₁ (.compare (height - 1) below) ∧
      peer.resume C filter (.compare height hash) db = .ok (.compare (height - 1) below) db₁ := by
  have above := toNat_pos positive
  have pred := toNat_pred above
  obtain ⟨below, stored, read⟩ := shorter.getBlockHash_of (h := height - 1) (by omega)
  refine ⟨below, ⟨by omega, stored⟩, ?_⟩
  rw [Peer.resume_of_other answer other]
  refine (Exec.bind_of_ok unapplied).trans ?_
  refine (Exec.bind_of_ok (Exec.lift_of_ok (by rw [if_neg positive]; rfl) db₁)).trans ?_
  refine (Exec.bind_of_ok (Exec.read_of_ok read)).trans ?_
  exact Exec.bind_of_ok (Exec.lift_of_ok rfl db₁)

omit [Host] in
theorem Peer.nodeGetBlock_ok {hash : H256} {block : Option OpaqueBlock} (asked : peer.nodeGetBlock hash = .ok block) :
    ∃ b, block = some b ∧ blockOf hash = some b := by
  obtain ⟨response, answered, asked⟩ := Outcome.bind_ok asked
  obtain ⟨b, present, asked⟩ := Outcome.bind_ok asked
  obtain rfl := Outcome.expect_ok present
  exact ⟨b, Outcome.pure_ok asked, peer.served hash b answered⟩

end

/-! ### How one answer ends -/

/-- A request, or the application or removal of a block, panics on its own. -/
def CallPanics (C : Type) [Host] [Codec C] (filter : OuterVerifier → Bool) (peer : Peer blockOf genesisHash)
    (stage : Stage) (db : Db) : Prop :=
  match stage with
  | .compare height _ => peer.chainGetBlockHash height = .error .panic ∨
      ∃ db', unapplyHighestBlock C db = .error .panic db'
  | .advance height => peer.chainGetBlockHash height = .error .panic
  | .fetch _ hash => peer.nodeGetBlock hash = .error .panic ∨
      ∃ b db', peer.nodeGetBlock hash = .ok (some b) ∧ applyBlock C filter b hash db = .error .panic db'
  | .done => False

/-- Either one of the calls fails, or there is a next stage. A comparison only follows one that was
one height above. In both cases the heights have no gap. -/
inductive Resumed (C : Type) [Host] [Codec C] (filter : OuterVerifier → Bool) (peer : Peer blockOf genesisHash)
    (stage : Stage) (db : Db) : Prop
  | failed (halt : Halt Error) (db' : Db) (n : Nat) (ended : peer.resume C filter stage db = .error halt db')
      (contiguous : Contiguous blockOf genesisHash n db') (blame : halt = .panic → CallPanics C filter peer stage db)
  | moved (stage' : Stage) (db' : Db) (n : Nat) (ended : peer.resume C filter stage db = .ok stage' db')
      (contiguous : Contiguous blockOf genesisHash n db') (staged : Staged blockOf genesisHash n db' stage')
      (falls : ∀ height hash, stage' = .compare height hash →
        ∃ above newest, stage = .compare above newest ∧ above.toNat = height.toNat + 1)

section
variable {C : Type} [Host] [Codec C] {filter : OuterVerifier → Bool} {peer : Peer blockOf genesisHash} {n : Nat}
  {db db' : Db} {stage : Stage}

theorem Peer.resume_compare {height : UInt32} {hash : H256} (contiguous : Contiguous blockOf genesisHash n db)
    (staged : Staged blockOf genesisHash n db (.compare height hash)) :
    Resumed C filter peer (.compare height hash) db := by
  cases answer : peer.chainGetBlockHash height with
  | error halt =>
    exact .failed halt db n (Peer.resume_compare_of_error answer db) contiguous fun panic => Or.inl (panic ▸ answer)
  | ok nodeHash =>
    by_cases same : some hash = nodeHash
    · subst same
      refine .moved (.advance (height + 1)) db n ?_ contiguous (toNat_succ_le staged.1.ge) nofun
      rw [Peer.resume_of_agree answer]
      rfl
    · have positive := positive_of_other contiguous staged answer same
      obtain ⟨rfl, storedHash⟩ := staged
      have shorter : Contiguous blockOf genesisHash height.toNat ((unapplyHighestBlock C).after db) :=
        contiguous.unapplyHighestBlock storedHash positive
      cases unapplied : unapplyHighestBlock C db with
      | error halt db' =>
        rw [Exec.after_of_error unapplied] at shorter
        refine .failed halt db' _ ?_ shorter fun panic => Or.inr ⟨db', panic ▸ unapplied⟩
        rw [Peer.resume_of_other answer same]
        exact Exec.bind_of_error unapplied
      | ok _ db' =>
        rw [Exec.after_of_ok unapplied] at shorter
        obtain ⟨below, next, resumes⟩ := Peer.resume_of_unapplied answer same positive unapplied shorter
        refine .moved _ db' _ resumes shorter next ?_
        rintro _ _ ⟨⟩
        exact ⟨height, hash, rfl, next.1⟩

theorem Peer.resume_advance {height : UInt32} (contiguous : Contiguous blockOf genesisHash n db)
    (staged : Staged blockOf genesisHash n db (.advance height)) : Resumed C filter peer (.advance height) db := by
  cases answer : peer.chainGetBlockHash height with
  | error halt =>
    exact .failed halt db n (Peer.resume_advance_of_error answer db) contiguous fun panic =>
      answer.trans (congrArg Except.error panic)
  | ok nodeHash =>
    cases nodeHash with
    | none =>
      refine .moved .done db n ?_ contiguous trivial nofun
      rw [Peer.resume_of_past answer]
      rfl
    | some hash =>
      refine .moved (.fetch height hash) db n ?_ contiguous ⟨staged, ?_, peer.numbered height hash answer⟩ nofun
      · rw [Peer.resume_of_found answer]
        rfl
      · rintro rfl
        exact Option.some.inj (peer.starts _ answer)

theorem Peer.resume_fetch {height : UInt32} {hash : H256} (contiguous : Contiguous blockOf genesisHash n db)
    (staged : Staged blockOf genesisHash n db (.fetch height hash)) :
    Resumed C filter peer (.fetch height hash) db := by
  obtain ⟨inside, genesis, b, named, rfl⟩ := staged
  cases asked : peer.nodeGetBlock hash with
  | error halt =>
    exact .failed halt db n (Peer.resume_fetch_of_error asked db) contiguous fun panic => Or.inl (panic ▸ asked)
  | ok block =>
    obtain ⟨b', rfl, named'⟩ := Peer.nodeGetBlock_ok asked
    obtain rfl := Option.some.inj (named'.symm.trans named)
    have longer : Contiguous blockOf genesisHash (max n (b'.header.number.toNat + 1))
        ((applyBlock C filter b' hash).after db) := contiguous.applyBlock named inside genesis
    cases applied : applyBlock C filter b' hash db with
    | error halt db' =>
      rw [Exec.after_of_error applied] at longer
      refine .failed halt db' _ ?_ longer fun panic => Or.inr ⟨b', db', asked, panic ▸ applied⟩
      rw [Peer.resume_of_fetched asked]
      exact Exec.bind_of_error applied
    | ok _ db' =>
      rw [Exec.after_of_ok applied] at longer
      refine .moved (.advance (b'.header.number + 1)) db' _ ?_ longer (toNat_succ_le (le_max_right _ _)) nofun
      rw [Peer.resume_of_fetched asked]
      exact Exec.bind_of_ok applied

variable (peer filter) in
/-- What one answer can do, said once for the three facts about runs. -/
theorem Peer.resume_ends (contiguous : Contiguous blockOf genesisHash n db)
    (staged : Staged blockOf genesisHash n db stage) : Resumed C filter peer stage db := by
  cases stage with
  | compare height hash => exact Peer.resume_compare contiguous staged
  | advance height => exact Peer.resume_advance contiguous staged
  | fetch height hash => exact Peer.resume_fetch contiguous staged
  | done => exact .moved .done db n rfl contiguous trivial nofun

/-! ### Runs -/

variable {peers : List (Peer blockOf genesisHash)}

theorem Peer.follow_contiguous (contiguous : Contiguous blockOf genesisHash n db)
    (staged : Staged blockOf genesisHash n db stage) :
    ∃ n', Contiguous blockOf genesisHash n' ((Peer.follow C filter stage peers).after db) := by
  induction peers generalizing stage n db with
  | nil => exact ⟨n, contiguous⟩
  | cons peer peers ih =>
    rw [Peer.follow_cons]
    cases peer.resume_ends (C := C) filter contiguous staged with
    | failed halt db₁ n₁ ended between blame =>
      rw [Exec.after_of_error (Exec.bind_of_error ended)]
      exact ⟨n₁, between⟩
    | moved stage₁ db₁ n₁ ended between staged₁ falls =>
      rw [Exec.after_bind_of_ok ended]
      exact ih between staged₁

theorem Peer.follow_panics (contiguous : Contiguous blockOf genesisHash n db)
    (staged : Staged blockOf genesisHash n db stage)
    (panicked : Peer.follow C filter stage peers db = .error .panic db') :
    ∃ answered peer rest stage' db₁, peers = answered ++ peer :: rest ∧
      Peer.follow C filter stage answered db = .ok stage' db₁ ∧ CallPanics C filter peer stage' db₁ := by
  induction peers generalizing stage n db with
  | nil => cases panicked
  | cons peer peers ih =>
    rw [Peer.follow_cons] at panicked
    cases peer.resume_ends (C := C) filter contiguous staged with
    | failed halt db₁ n₁ ended between blame =>
      cases (Exec.bind_of_error ended).symm.trans panicked
      exact ⟨[], peer, peers, stage, db, rfl, rfl, blame rfl⟩
    | moved stage₁ db₁ n₁ ended between staged₁ falls =>
      have later := (Exec.bind_of_ok ended).symm.trans panicked
      obtain ⟨answered, peer', rest, stage', db₂, split, ran, calls⟩ := ih between staged₁ later
      exact ⟨peer :: answered, peer', rest, stage', db₂, congrArg (peer :: ·) split,
        (Exec.bind_of_ok ended).trans ran, calls⟩

theorem Peer.follow_compare (contiguous : Contiguous blockOf genesisHash n db)
    (staged : Staged blockOf genesisHash n db stage) {height : UInt32} {hash : H256}
    (followed : Peer.follow C filter stage peers db = .ok (.compare height hash) db') :
    ∃ above newest, stage = .compare above newest ∧ above.toNat = height.toNat + peers.length := by
  induction peers generalizing stage n db with
  | nil =>
    obtain ⟨rfl, _⟩ := Exec.pure_ok followed
    exact ⟨height, hash, rfl, rfl⟩
  | cons peer peers ih =>
    rw [Peer.follow_cons] at followed
    cases peer.resume_ends (C := C) filter contiguous staged with
    | failed halt db₁ n₁ ended between blame => cases (Exec.bind_of_error ended).symm.trans followed
    | moved stage₁ db₁ n₁ ended between staged₁ falls =>
      obtain ⟨middle, newest, rfl, below⟩ := ih between staged₁ ((Exec.bind_of_ok ended).symm.trans followed)
      obtain ⟨above, newest', same, next⟩ := falls middle newest rfl
      refine ⟨above, newest', same, ?_⟩
      rw [next, below, List.length_cons]
      omega

omit [Host] in
theorem begin_contiguous (contiguous : Contiguous blockOf genesisHash n db) :
    ∃ top hash, height db = some top ∧ n = top.toNat + 1 ∧ begin db = .ok (.compare top hash) db ∧
      Staged blockOf genesisHash n db (.compare top hash) := by
  have nonempty := contiguous.nonempty
  have room := contiguous.room
  have small : (UInt32.ofNat (n - 1)).toNat = n - 1 := toNat_ofNat_of_lt (by omega)
  obtain ⟨hash, stored, read⟩ := contiguous.getBlockHash_of (h := UInt32.ofNat (n - 1)) (by omega)
  refine ⟨_, hash, contiguous.height_eq, by omega, ?_, by omega, stored⟩
  refine (Exec.bind_of_ok (Exec.get_of db)).trans ?_
  refine (Exec.bind_of_ok (Exec.lift_of_ok (by rw [contiguous.height_eq]; rfl) db)).trans ?_
  refine (Exec.bind_of_ok (Exec.read_of_ok read)).trans ?_
  exact Exec.bind_of_ok (Exec.lift_of_ok rfl db)

end

/-- The databases of a wallet that was opened with the genesis and applied it. It is opened again, with
the same genesis or another one, and synchronized, however each of the calls ends. -/
inductive Reached (C : Type) [Host] [Codec C] (blockOf : H256 → Option OpaqueBlock) (genesisHash : H256) : Db → Prop
  | opened {b : OpaqueBlock} (filter : OuterVerifier → Bool) (named : blockOf genesisHash = some b)
      (first : b.header.number = 0) :
      Reached C blockOf genesisHash (Exec.after (do openDb genesisHash b; applyBlock C filter b genesisHash) Db.empty)
  | reopened {db : Db} (hash : H256) (b : OpaqueBlock) (before : Reached C blockOf genesisHash db) :
      Reached C blockOf genesisHash ((openDb hash b).after db)
  | synced {db : Db} (filter : OuterVerifier → Bool) (peers : List (Peer blockOf genesisHash))
      (before : Reached C blockOf genesisHash db) :
      Reached C blockOf genesisHash ((Peer.synchronizeHelper C filter peers).after db)

section
variable {C : Type} [Host] [Codec C] {db : Db}

omit [Host] in
/-- A line of blocks has no gap. -/
theorem Recorded.contiguous {w : List H256} (recorded : Recorded blockOf genesisHash w db) :
    Contiguous blockOf genesisHash w.length db := by
  refine ⟨recorded.nonempty, recorded.room.le, recorded.keys_eq, ?_, fun h below => ?_⟩
  · rw [recorded.hashes, show (0 : UInt32).toNat = 0 from rfl, recorded.starts]
    rfl
  · obtain ⟨b, named, number, stored⟩ := recorded.blocks h.toNat _ (List.getElem?_eq_getElem below)
    refine ⟨_, b, ?_, named, UInt32.toNat_inj.mp number, stored⟩
    rw [recorded.hashes, List.getElem?_eq_getElem below]
    rfl

theorem Reached.contiguous (reached : Reached C blockOf genesisHash db) :
    ∃ n, Contiguous blockOf genesisHash n db := by
  induction reached with
  | opened filter named first => exact ⟨1, (recorded_opened named first).contiguous⟩
  | @reopened db hash b _ ih =>
    obtain ⟨n, contiguous⟩ := ih
    have opened : (height db).isSome := by
      rw [contiguous.height_eq]
      rfl
    exact ⟨n, (openDb_after hash b opened).symm ▸ contiguous⟩
  | @synced db filter peers _ ih =>
    obtain ⟨n, contiguous⟩ := ih
    obtain ⟨top, hash, _, _, begun, staged⟩ := begin_contiguous contiguous
    rw [Peer.synchronizeHelper, Exec.after_bind_of_ok begun]
    exact Peer.follow_contiguous contiguous staged

/-- In every database of a wallet there is one block for every height up to the highest, and a run
panics only where a request, the application or the removal of a block does. Each answer in the
backward loop takes one height away, so there are at most as many as there are heights. -/
theorem block_table_contiguous (reached : Reached C blockOf genesisHash db) :
    (∃ top, height db = some top ∧ (∀ k, k ∈ db.blockHashes.keys ↔ ∃ h ≤ top, k = encode h) ∧
      ∀ h ≤ top, ∃ (hash : H256) (b : OpaqueBlock), getBlockHash h db = .ok (some hash) ∧ b.header.number = h ∧
        db.blocks.get (encode hash) = some (encode b)) ∧
    ∀ (filter : OuterVerifier → Bool) (peers : List (Peer blockOf genesisHash)),
      (∀ db', Peer.synchronizeHelper C filter peers db = .error .panic db' →
        ∃ answered peer rest stage db₁, peers = answered ++ peer :: rest ∧
          Peer.synchronizeHelper C filter answered db = .ok stage db₁ ∧ CallPanics C filter peer stage db₁) ∧
      ∀ top h hash db', height db = some top →
        Peer.synchronizeHelper C filter peers db = .ok (.compare h hash) db' → h.toNat + peers.length = top.toNat := by
  obtain ⟨n, contiguous⟩ := reached.contiguous
  obtain ⟨top, hash, highest, count, begun, staged⟩ := begin_contiguous contiguous
  refine ⟨⟨top, highest, fun k => ?_, fun h below => ?_⟩, fun filter peers => ⟨fun db' panicked => ?_, ?_⟩⟩
  · have room : top.toNat + 1 ≤ 2 ^ 32 := top.toNat_lt
    rw [contiguous.keys, count]
    constructor
    · intro member
      obtain ⟨h, inside, rfl⟩ := Finset.mem_image.mp member
      have below := Finset.mem_range.mp inside
      refine ⟨UInt32.ofNat h, ?_, rfl⟩
      rw [UInt32.le_iff_toNat_le, toNat_ofNat_of_lt (by omega)]
      exact Nat.le_of_lt_succ below
    · rintro ⟨h, below, rfl⟩
      exact (mem_heightKeys room).mpr (Nat.lt_succ_of_le (UInt32.le_iff_toNat_le.mp below))
  · have inside : h.toNat < n := count ▸ Nat.lt_succ_of_le (UInt32.le_iff_toNat_le.mp below)
    obtain ⟨hash', stored, read⟩ := contiguous.getBlockHash_of inside
    obtain ⟨hash₁, b, stored₁, _, number, block⟩ := contiguous.stored h inside
    obtain rfl := encode_injective (Option.some.inj (stored₁.symm.trans stored))
    exact ⟨hash₁, b, read, number, block⟩
  · obtain ⟨answered, peer, rest, stage, db₁, split, ran, calls⟩ :=
      Peer.follow_panics contiguous staged ((Exec.bind_of_ok begun).symm.trans panicked)
    exact ⟨answered, peer, rest, stage, db₁, split, (Exec.bind_of_ok begun).trans ran, calls⟩
  · intro top' h hash' db' highest' ran
    obtain rfl := Option.some.inj (highest.symm.trans highest')
    have followed := (Exec.bind_of_ok begun).symm.trans ran
    obtain ⟨above, newest, same, length⟩ := Peer.follow_compare contiguous staged followed
    cases same
    exact length.symm

end

/-- A node that cannot be reached. -/
def silentPeer : Peer branches coinGenesisHash where
  chainGetBlockHash _ := .error (.err (.message "connection refused"))
  chainGetBlock _ := .error (.err (.message "connection refused"))
  starts _ answer := nomatch answer
  numbered _ _ answer := nomatch answer
  served _ _ answer := nomatch answer

/-- The claim is recorded, the other branch takes over, the connection is lost in between, and the
wallet goes on when it is there again. -/
theorem block_table_contiguous_reorg :
    letI := walletHost
    ∃ db, Reached OuterConstraintChecker branches coinGenesisHash db ∧ height db = some 2 ∧
      (∀ k, k ∈ db.blockHashes.keys ↔ ∃ h ≤ (2 : UInt32), k = encode h) ∧
      ∀ (peers : List (Peer branches coinGenesisHash)) stage db',
        Peer.synchronizeHelper OuterConstraintChecker walletFilter peers db = .ok stage db' →
          3 ≤ peers.length → ∀ h hash, stage ≠ .compare h hash := by
  let := walletHost
  let claims : List (Peer branches coinGenesisHash) := List.replicate 4 claimNode.peer
  let lost : List (Peer branches coinGenesisHash) := [emptyNode.peer, emptyNode.peer, silentPeer]
  let empties : List (Peer branches coinGenesisHash) := List.replicate 6 emptyNode.peer
  let sync (peers : List (Peer branches coinGenesisHash)) (db : Db) : Db :=
    (Peer.synchronizeHelper OuterConstraintChecker walletFilter peers).after db
  have opened : Reached OuterConstraintChecker branches coinGenesisHash openedWallet := .opened walletFilter rfl rfl
  have reached : Reached OuterConstraintChecker branches coinGenesisHash
      (sync empties (sync lost (sync claims openedWallet))) :=
    ((opened.synced walletFilter claims).synced walletFilter lost).synced walletFilter empties
  have highest : height (sync empties (sync lost (sync claims openedWallet))) = some 2 := by decide +kernel
  obtain ⟨⟨top, highest', keys, _⟩, runs⟩ := block_table_contiguous reached
  obtain rfl := Option.some.inj (highest.symm.trans highest')
  refine ⟨_, reached, highest, keys, fun peers stage db' ran enough h hash same => ?_⟩
  subst same
  have count := (runs walletFilter peers).2 2 h hash db' highest ran
  have two : (2 : UInt32).toNat = 2 := rfl
  omega

end Tuxedo.Wallet
