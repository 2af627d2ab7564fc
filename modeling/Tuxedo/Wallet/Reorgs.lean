import Tuxedo.Wallet.Recorded

/-!
# Re-organizations while the wallet synchronizes

The wallet keeps a line of hashes. It shortens the line until the node agrees with the last hash,
and then lengthens it with what the node answers, without a look at the parents. The line stays
one chain when the node's chain still holds its last hash at each of these answers.
-/

namespace Tuxedo.Wallet
open Scale Template

variable {blockOf : H256 → Option OpaqueBlock} {genesisHash : H256}

/-- What one answer does to the recorded line. -/
inductive Move (node : Node blockOf genesisHash) : Stage → List H256 → Stage → List H256 → Prop
  | agree {height : UInt32} {hash : H256} {w : List H256} (same : some hash = node.getBlockHash height) :
      Move node (.compare height hash) w (.advance (height + 1)) w
  | revert {height : UInt32} {hash last : H256} {w : List H256} (positive : height ≠ 0)
      (newest : w.getLast? = some last) :
      Move node (.compare height hash) (w ++ [hash]) (.compare (height - 1) last) w
  | finish {height : UInt32} {w : List H256} (past : node.getBlockHash height = none) :
      Move node (.advance height) w .done w
  | found {height : UInt32} {hash : H256} {w : List H256} (answer : node.getBlockHash height = some hash) :
      Move node (.advance height) w (.fetch height hash) w
  | extend {height : UInt32} {hash : H256} {w : List H256} :
      Move node (.fetch height hash) w (.advance (height + 1)) (w ++ [hash])
  | rest {w : List H256} : Move node .done w .done w

/-- How the stage follows from the line. -/
def Placed (blockOf : H256 → Option OpaqueBlock) (w : List H256) : Stage → Prop
  | .compare height hash => w.length = height.toNat + 1 ∧ w.getLast? = some hash
  | .advance height => w.length = height.toNat
  | .fetch height hash => w.length = height.toNat ∧ w.length + 1 < 2 ^ 32 ∧ parentOf blockOf hash = w.getLast? ∧
      ∃ b, blockOf hash = some b ∧ b.header.number.toNat = w.length
  | .done => True

/-- When the walk forward gets a hash, the chain that it comes from holds the wallet's newest
block. -/
def Holds (node : Node blockOf genesisHash) (db : Db) : Stage → Prop
  | .advance height => ∀ hash, node.getBlockHash height = some hash →
      getBlockHash (height - 1) db = .ok (node.getBlockHash (height - 1))
  | _ => True

theorem toNat_pos {height : UInt32} (positive : height ≠ 0) : 0 < height.toNat :=
  Nat.pos_of_ne_zero fun zero => positive (UInt32.toNat_inj.mp zero)

theorem toNat_pred {height : UInt32} (positive : 0 < height.toNat) : (height - 1).toNat = height.toNat - 1 := by
  rw [UInt32.toNat_sub_of_le]
  · rfl
  · exact UInt32.le_iff_toNat_le.mpr positive

theorem toNat_succ {height : UInt32} (room : height.toNat + 1 < 2 ^ 32) : (height + 1).toNat = height.toNat + 1 := by
  rw [UInt32.toNat_add]
  exact Nat.mod_eq_of_lt room

section
variable {w w' : List H256} {db : Db} {node : Node blockOf genesisHash} {stage stage' : Stage}

theorem Move.placed (move : Move node stage w stage' w') (recorded : Recorded blockOf genesisHash w db)
    (placed : Placed blockOf w stage) (holds : Holds node db stage) : Placed blockOf w' stage' := by
  cases move with
  | agree same =>
    have room := recorded.room
    rw [placed.1] at room
    exact placed.1.trans (toNat_succ room).symm
  | @revert height hash last w positive newest =>
    have length := placed.1
    rw [List.length_append, List.length_singleton] at length
    have above : 0 < height.toNat := toNat_pos positive
    refine ⟨?_, newest⟩
    rw [toNat_pred above]
    omega
  | finish past => trivial
  | @found height hash w answer =>
    have length : w.length = height.toNat := placed
    have nonempty := recorded.nonempty
    have inside : height.toNat < node.best.length := (List.getElem?_eq_some_iff.mp answer).1
    have room := node.room
    obtain ⟨b, named, number⟩ := node.numbered _ _ answer
    refine ⟨length, by omega, ?_, b, named, number.trans length.symm⟩
    -- The answer names the node's block one below, and that is the newest of the line.
    have below : w[height.toNat - 1]? = node.best[height.toNat - 1]? := by
      have equal := holds hash answer
      rw [recorded.getBlockHash_eq, Node.getBlockHash, toNat_pred (by omega)] at equal
      exact Except.ok.inj equal
    have child := node.linked (height.toNat - 1) hash (by rwa [Nat.sub_add_cancel (by omega)])
    rw [child, ← below, List.getLast?_eq_getElem?, length]
  | @extend height hash w =>
    obtain ⟨length, room, _⟩ := placed
    change (w ++ [hash]).length = (height + 1).toNat
    rw [List.length_append, List.length_singleton, toNat_succ (by omega), length]
  | rest => trivial

/-! ### A chain that stays as it is -/

/-- The line on its way to a chain. -/
def Agrees (best w : List H256) : Stage → Prop
  | .compare _ _ => True
  | .advance _ => w = best.take w.length
  | .fetch height hash => w = best.take w.length ∧ best[height.toNat]? = some hash
  | .done => w = best

theorem Move.agrees (move : Move node stage w stage' w') (recorded : Recorded blockOf genesisHash w db)
    (placed : Placed blockOf w stage) (agrees : Agrees node.best w stage) : Agrees node.best w' stage' := by
  cases move with
  | @agree height hash w same =>
    obtain ⟨length, newest⟩ := placed
    rw [List.getLast?_eq_getElem?, length, Nat.add_sub_cancel] at newest
    have lines := recorded.linked.take_eq node.linked newest same.symm
    rwa [← length, List.take_length] at lines
  | revert positive newest => trivial
  | @finish height w past =>
    have whole : node.best.length ≤ w.length := by
      rw [show w.length = height.toNat from placed]
      exact List.getElem?_eq_none_iff.mp past
    rw [Agrees, List.take_of_length_le whole] at agrees
    exact agrees
  | found answer => exact ⟨agrees, answer⟩
  | @extend height hash w =>
    obtain ⟨line, answer⟩ := agrees
    change w ++ [hash] = node.best.take (w ++ [hash]).length
    rw [List.length_append, List.length_singleton, List.take_add_one, ← line, placed.1, answer]
    rfl
  | rest => exact agrees

theorem Agrees.holds (recorded : Recorded blockOf genesisHash w db) (placed : Placed blockOf w stage)
    (agrees : Agrees node.best w stage) : Holds node db stage := by
  cases stage with
  | advance height =>
    intro hash answer
    have nonempty := recorded.nonempty
    have length : w.length = height.toNat := placed
    rw [recorded.getBlockHash_eq, Node.getBlockHash, toNat_pred (by omega)]
    rw [Agrees] at agrees
    rw [agrees, List.getElem?_take_of_lt (by omega)]
  | _ => trivial

/-- How many more answers there can be before the end. -/
def remaining (best : List H256) : Stage → Nat
  | .compare height _ => 2 * best.length + height.toNat + 3
  | .advance height => 2 * (best.length - height.toNat) + 2
  | .fetch height _ => 2 * (best.length - height.toNat) + 1
  | .done => 0

theorem Move.remaining_lt (move : Move node stage w stage' w') (placed : Placed blockOf w stage)
    (agrees : Agrees node.best w stage) (running : stage ≠ .done) :
    remaining node.best stage' < remaining node.best stage := by
  cases move with
  | agree same =>
    simp only [remaining]
    omega
  | @revert height hash last w positive newest =>
    have above : 0 < height.toNat := toNat_pos positive
    simp only [remaining, toNat_pred above]
    omega
  | finish past =>
    simp only [remaining]
    omega
  | found answer =>
    simp only [remaining]
    omega
  | @extend height hash w =>
    obtain ⟨length, room, _⟩ := placed
    have inside := (List.getElem?_eq_some_iff.mp agrees.2).1
    simp only [remaining, toNat_succ (length ▸ room)]
    omega
  | rest => exact absurd rfl running

/-! ### What one answer leaves -/

/-- At the genesis the two agree, so a line that differs has a block to drop. -/
theorem Placed.split (recorded : Recorded blockOf genesisHash w db) {height : UInt32} {hash : H256}
    (placed : Placed blockOf w (.compare height hash)) (other : some hash ≠ node.getBlockHash height) :
    height ≠ 0 ∧ ∃ v, w = v ++ [hash] ∧ v.length = height.toNat ∧ 0 < v.length := by
  obtain ⟨length, newest⟩ := placed
  have positive : height ≠ 0 := by
    rintro rfl
    rw [List.getLast?_eq_getElem?, length] at newest
    exact other (newest.symm.trans (recorded.starts.trans node.starts.symm))
  obtain ⟨v, rfl⟩ := List.getLast?_eq_some_iff.mp newest
  rw [List.length_append, List.length_singleton] at length
  have above : 0 < height.toNat := toNat_pos positive
  exact ⟨positive, v, rfl, by omega, by omega⟩

variable {C : Type} [Host] [Codec C] {filter : OuterVerifier → Bool} {height : UInt32} {hash : H256}

/-- After the newest block is gone, the one below it is compared. -/
theorem resume_of_unapplied (other : some hash ≠ node.getBlockHash height) (positive : height ≠ 0) {db₁ : Db}
    (unapplied : unapplyHighestBlock C db = .ok () db₁) (recorded : Recorded blockOf genesisHash w db₁)
    (length : w.length = height.toNat) :
    ∃ last, w.getLast? = some last ∧
      resume C filter node (.compare height hash) db = .ok (.compare (height - 1) last) db₁ := by
  have nonempty := recorded.nonempty
  have newest := List.getLast?_eq_some_getLast (List.ne_nil_of_length_pos nonempty)
  have read : getBlockHash (height - 1) db₁ = .ok w.getLast? := by
    rw [recorded.getBlockHash_eq, toNat_pred (by omega), ← length, ← List.getLast?_eq_getElem?]
  refine ⟨_, newest, (congrFun (resume_of_other other) db).trans ?_⟩
  refine (Exec.bind_of_ok unapplied).trans ?_
  refine (Exec.bind_of_ok (Exec.lift_of_ok (by rw [if_neg positive]; rfl) db₁)).trans ?_
  refine (Exec.bind_of_ok (Exec.read_of_ok read)).trans ?_
  rw [newest]
  rfl

variable (node filter) in
theorem resume_moves (recorded : Recorded blockOf genesisHash w db) (placed : Placed blockOf w stage) :
    ∃ w', Recorded blockOf genesisHash w' ((resume C filter node stage).after db) ∧
      ∀ stage' db', resume C filter node stage db = .ok stage' db' → Move node stage w stage' w' := by
  cases stage with
  | compare height hash =>
    by_cases same : some hash = node.getBlockHash height
    · rw [resume_of_agree same]
      refine ⟨w, recorded, fun stage' db' h => ?_⟩
      obtain ⟨rfl, _⟩ := Exec.pure_ok h
      exact .agree same
    · obtain ⟨positive, v, rfl, length, left⟩ := placed.split recorded same
      have shorter := recorded.unapplyHighestBlock (C := C) left
      refine ⟨v, ?_, fun stage' db' h => ?_⟩
      · rw [resume_of_other same]
        exact Exec.Maintains.after_bind shorter fun _ => .bind (.lift _) fun _ => .bind (.read _) fun _ =>
          .bind (.lift _) fun _ => .pure _
      · obtain ⟨_, db₁, unapplied, _⟩ := Exec.bind_ok ((congrFun (resume_of_other same) db).symm.trans h)
        rw [Exec.after_of_ok unapplied] at shorter
        obtain ⟨last, newest, resumed⟩ := resume_of_unapplied same positive unapplied shorter length
        cases resumed.symm.trans h
        exact .revert positive newest
  | advance height =>
    cases answer : node.getBlockHash height with
    | none =>
      rw [resume_of_past answer]
      refine ⟨w, recorded, fun stage' db' h => ?_⟩
      obtain ⟨rfl, _⟩ := Exec.pure_ok h
      exact .finish answer
    | some hash =>
      rw [resume_of_found answer]
      refine ⟨w, recorded, fun stage' db' h => ?_⟩
      obtain ⟨rfl, _⟩ := Exec.pure_ok h
      exact .found answer
  | fetch height hash =>
    obtain ⟨length, room, child, b, named, number⟩ := placed
    cases served : node.serves hash with
    | none =>
      have lost : resume C filter node (.fetch height hash) db = .error .panic db := resume_of_unserved served db
      rw [Exec.after_of_error lost]
      exact ⟨w, recorded, fun stage' db' h => by cases lost.symm.trans h⟩
    | some block =>
      obtain rfl := Option.some.inj ((node.served hash block served).symm.trans named)
      rw [resume_of_served served]
      refine ⟨w ++ [hash], Exec.Maintains.after_bind (recorded.applyBlock named number child room) fun _ => .pure _,
        fun stage' db' h => ?_⟩
      obtain ⟨_, db₁, _, h⟩ := Exec.bind_ok h
      obtain ⟨rfl, _⟩ := Exec.pure_ok h
      exact .extend
  | done =>
    refine ⟨w, recorded, fun stage' db' h => ?_⟩
    obtain ⟨rfl, _⟩ := Exec.pure_ok h
    exact .rest

theorem resume_ok (recorded : Recorded blockOf genesisHash w db) (placed : Placed blockOf w stage)
    (holds : Holds node db stage) {db' : Db} (resumed : resume C filter node stage db = .ok stage' db') :
    ∃ w', Recorded blockOf genesisHash w' db' ∧ Placed blockOf w' stage' ∧ Move node stage w stage' w' := by
  obtain ⟨w', between, moves⟩ := resume_moves (C := C) node filter recorded placed
  rw [Exec.after_of_ok resumed] at between
  have move := moves stage' db' resumed
  exact ⟨w', between, move.placed recorded placed holds, move⟩

theorem resume_returns (only : OnlySignatures filter) (applicable : ∀ hash b, blockOf hash = some b → Applicable C b)
    (decodes : Decodes db) (recorded : Recorded blockOf genesisHash w db) (placed : Placed blockOf w stage)
    (agrees : Agrees node.best w stage) :
    ∃ stage' db', resume C filter node stage db = .ok stage' db' ∧ Decodes db' := by
  cases stage with
  | compare height hash =>
    by_cases same : some hash = node.getBlockHash height
    · rw [resume_of_agree same]
      exact ⟨_, db, rfl, decodes⟩
    · obtain ⟨positive, v, rfl, length, left⟩ := placed.split recorded same
      have shorter := recorded.unapplyHighestBlock (C := C) left
      obtain ⟨db₁, unapplied, decodes₁⟩ := unapplyHighestBlock_ok decodes recorded applicable
      rw [Exec.after_of_ok unapplied] at shorter
      obtain ⟨last, _, resumed⟩ := resume_of_unapplied same positive unapplied shorter length
      exact ⟨_, db₁, resumed, decodes₁⟩
  | advance height =>
    cases answer : node.getBlockHash height with
    | none =>
      rw [resume_of_past answer]
      exact ⟨_, db, rfl, decodes⟩
    | some hash =>
      rw [resume_of_found answer]
      exact ⟨_, db, rfl, decodes⟩
  | fetch height hash =>
    obtain ⟨b, served⟩ := node.servesBest hash (List.mem_of_getElem? agrees.2)
    obtain ⟨db', applied, decodes'⟩ := applyBlock_ok only (applicable hash b (node.served hash b served)) hash decodes
    rw [resume_of_served served]
    exact ⟨_, db', Exec.bind_of_ok applied, decodes'⟩
  | done => exact ⟨_, db, rfl, decodes⟩

/-! ### Runs -/

section
variable (C filter)

/-- `Holds` at every answer. -/
def Steady : Stage → List (Node blockOf genesisHash) → Db → Prop
  | _, [], _ => True
  | stage, node :: nodes, db => Holds node db stage ∧
      ∀ stage' db', resume C filter node stage db = .ok stage' db' → Steady stage' nodes db'

end

variable {nodes : List (Node blockOf genesisHash)}

theorem follow_recorded (recorded : Recorded blockOf genesisHash w db) (placed : Placed blockOf w stage)
    (steady : Steady C filter stage nodes db) :
    ∃ w', Recorded blockOf genesisHash w' ((follow C filter stage nodes).after db) := by
  induction nodes generalizing stage w db with
  | nil => exact ⟨w, recorded⟩
  | cons node nodes ih =>
    obtain ⟨holds, later⟩ := steady
    cases resumed : resume C filter node stage db with
    | ok stage₁ db₁ =>
      obtain ⟨w₁, between, placed₁, _⟩ := resume_ok recorded placed holds resumed
      obtain ⟨w', after⟩ := ih between placed₁ (later _ _ resumed)
      refine ⟨w', ?_⟩
      rwa [follow_cons, Exec.after_bind_of_ok resumed]
    | error e db₁ =>
      obtain ⟨w₁, between, _⟩ := resume_moves (C := C) node filter recorded placed
      rw [Exec.after_of_error resumed] at between
      exact ⟨w₁, Exec.after_of_error (Exec.bind_of_error resumed) ▸ between⟩

variable {best : List H256}

theorem steady_of_still (still : ∀ node ∈ nodes, node.best = best) (recorded : Recorded blockOf genesisHash w db)
    (placed : Placed blockOf w stage) (agrees : Agrees best w stage) : Steady C filter stage nodes db := by
  induction nodes generalizing stage w db with
  | nil => trivial
  | cons node nodes ih =>
    obtain ⟨rfl, still⟩ := List.forall_mem_cons.mp still
    have holds := agrees.holds recorded placed
    refine ⟨holds, fun stage₁ db₁ resumed => ?_⟩
    obtain ⟨w₁, between, placed₁, move⟩ := resume_ok recorded placed holds resumed
    exact ih still between placed₁ (move.agrees recorded placed agrees)

/-- What every answer keeps, a run against a still chain keeps. -/
theorem follow_keeps {P : Stage → List H256 → Db → Prop} (still : ∀ node ∈ nodes, node.best = best)
    (recorded : Recorded blockOf genesisHash w db) (placed : Placed blockOf w stage) (agrees : Agrees best w stage)
    (holds : P stage w db)
    (keeps : ∀ node ∈ nodes, ∀ stage w db stage' w' db', Placed blockOf w stage → P stage w db →
      resume C filter node stage db = .ok stage' db' → Move node stage w stage' w' → P stage' w' db') {db' : Db}
    (followed : follow C filter stage nodes db = .ok stage' db') :
    ∃ w', Recorded blockOf genesisHash w' db' ∧ Agrees best w' stage' ∧ P stage' w' db' := by
  induction nodes generalizing stage w db with
  | nil =>
    obtain ⟨rfl, rfl⟩ := Exec.pure_ok followed
    exact ⟨w, recorded, agrees, holds⟩
  | cons node nodes ih =>
    obtain ⟨rfl, still⟩ := List.forall_mem_cons.mp still
    obtain ⟨here, later⟩ := List.forall_mem_cons.mp keeps
    obtain ⟨stage₁, db₁, resumed, followed⟩ := Exec.bind_ok followed
    obtain ⟨w₁, between, placed₁, move⟩ := resume_ok recorded placed (agrees.holds recorded placed) resumed
    exact ih still between placed₁ (move.agrees recorded placed agrees)
      (here _ _ _ _ _ _ placed holds resumed move) later followed

theorem follow_agrees (still : ∀ node ∈ nodes, node.best = best) (recorded : Recorded blockOf genesisHash w db)
    (placed : Placed blockOf w stage) (agrees : Agrees best w stage) {db' : Db}
    (followed : follow C filter stage nodes db = .ok stage' db') :
    ∃ w', Recorded blockOf genesisHash w' db' ∧ Agrees best w' stage' := by
  obtain ⟨w', after, agrees', _⟩ := follow_keeps (P := fun _ _ _ => True) still recorded placed agrees trivial
    (fun _ _ _ _ _ _ _ _ _ _ _ _ => trivial) followed
  exact ⟨w', after, agrees'⟩

/-- With enough answers the walk reaches its end. -/
theorem follow_returns (only : OnlySignatures filter) (applicable : ∀ hash b, blockOf hash = some b → Applicable C b)
    (still : ∀ node ∈ nodes, node.best = best) (decodes : Decodes db) (recorded : Recorded blockOf genesisHash w db)
    (placed : Placed blockOf w stage) (agrees : Agrees best w stage) (enough : remaining best stage ≤ nodes.length) :
    ∃ db', follow C filter stage nodes db = .ok .done db' := by
  induction nodes generalizing stage w db with
  | nil =>
    cases stage with
    | done => exact ⟨db, rfl⟩
    | _ => cases enough
  | cons node nodes ih =>
    obtain ⟨rfl, still⟩ := List.forall_mem_cons.mp still
    obtain ⟨stage₁, db₁, resumed, decodes₁⟩ := resume_returns only applicable decodes recorded placed agrees
    obtain ⟨w₁, between, placed₁, move⟩ := resume_ok recorded placed (agrees.holds recorded placed) resumed
    have fewer : remaining node.best stage₁ ≤ nodes.length := by
      by_cases running : stage = .done
      · subst running
        cases move
        exact Nat.zero_le _
      · have := move.remaining_lt placed agrees running
        rw [List.length_cons] at enough
        omega
    obtain ⟨db', followed⟩ := ih still decodes₁ between placed₁ (move.agrees recorded placed agrees) fewer
    exact ⟨db', (Exec.bind_of_ok resumed).trans followed⟩

omit [Host] in
theorem begin_ok (recorded : Recorded blockOf genesisHash w db) :
    ∃ hash, begin db = .ok (.compare (UInt32.ofNat (w.length - 1)) hash) db ∧
      Placed blockOf w (.compare (UInt32.ofNat (w.length - 1)) hash) := by
  have nonempty := recorded.nonempty
  have room := recorded.room
  have small : (UInt32.ofNat (w.length - 1)).toNat = w.length - 1 :=
    UInt32.toNat_ofNat_of_lt' (Nat.lt_of_le_of_lt (Nat.sub_le _ _) room)
  have newest := List.getLast?_eq_some_getLast (List.ne_nil_of_length_pos nonempty)
  have read : getBlockHash (UInt32.ofNat (w.length - 1)) db = .ok w.getLast? := by
    rw [recorded.getBlockHash_eq, small, List.getLast?_eq_getElem?]
  refine ⟨_, ?_, by omega, newest⟩
  refine (Exec.bind_of_ok (Exec.get_of db)).trans ?_
  refine (Exec.bind_of_ok (Exec.lift_of_ok (by rw [recorded.height_eq]; rfl) db)).trans ?_
  refine (Exec.bind_of_ok (Exec.read_of_ok read)).trans ?_
  rw [newest]
  rfl

/-! ### Repeated synchronizing -/

/-- At every height below the wallet's, the block stored one above names the hash stored there. -/
def OneChain (db : Db) : Prop :=
  ∀ top, Wallet.height db = some top → ∀ height < top, ∃ (hash child : H256) (b : OpaqueBlock),
    getBlockHash height db = .ok (some hash) ∧ getBlockHash (height + 1) db = .ok (some child) ∧
      db.blocks.get (encode child) = some (encode b) ∧ b.header.parentHash = hash

omit [Host] in
theorem Recorded.oneChain (recorded : Recorded blockOf genesisHash w db) : OneChain db := by
  intro top topped height below
  have room := recorded.room
  have nonempty := recorded.nonempty
  obtain rfl := Option.some.inj (recorded.height_eq.symm.trans topped)
  have inside : height.toNat + 1 < w.length := by
    have := UInt32.lt_iff_toNat_lt.mp below
    rw [UInt32.toNat_ofNat_of_lt' (Nat.lt_of_le_of_lt (Nat.sub_le _ _) room)] at this
    omega
  have here : w[height.toNat]? = some w[height.toNat] := List.getElem?_eq_getElem (by omega)
  have above : w[height.toNat + 1]? = some w[height.toNat + 1] := List.getElem?_eq_getElem inside
  obtain ⟨b, named, _, stored⟩ := recorded.blocks _ _ above
  have parent : some b.header.parentHash = w[height.toNat]? := by
    rw [← recorded.linked _ _ above, parentOf, named]
    rfl
  refine ⟨_, _, b, ?_, ?_, stored, Option.some.inj (parent.trans here)⟩
  · rw [recorded.getBlockHash_eq, here]
  · rw [recorded.getBlockHash_eq, toNat_succ (by omega), above]

theorem Decodes.applyBlock (b : OpaqueBlock) (hash : H256) : (applyBlock C filter b hash).Maintains Decodes :=
  .bind (.modify fun _ decodes => ⟨decodes.unspent, decodes.spent⟩) fun _ =>
    .bind (.modify fun _ decodes => ⟨decodes.unspent, decodes.spent⟩) fun _ =>
      .forM fun x _ => closed.applyTransaction filter x

theorem Decodes.unapplyHighestBlock : (unapplyHighestBlock C).Maintains Decodes :=
  .bind .get fun _ => .bind (.lift _) fun _ => .bind (.lift _) fun _ =>
    .bind (.modify fun _ decodes => ⟨decodes.unspent, decodes.spent⟩) fun _ => .bind (.lift _) fun _ =>
      .bind (.lift _) fun _ => .bind (.modify fun _ decodes => ⟨decodes.unspent, decodes.spent⟩) fun _ =>
        .bind (.lift _) fun _ => .forM fun x _ => closed.unapplyTransaction x

theorem Decodes.resume (node : Node blockOf genesisHash) (stage : Stage) :
    (resume C filter node stage).Maintains Decodes := by
  cases stage with
  | compare height hash =>
    by_cases same : some hash = node.getBlockHash height
    · rw [resume_of_agree same]
      exact .pure _
    · rw [resume_of_other same]
      exact unapplyHighestBlock.bind fun _ => .bind (.lift _) fun _ => .bind (.read _) fun _ => .bind (.lift _) fun _ =>
        .pure _
  | advance height =>
    cases answer : node.getBlockHash height with
    | none =>
      rw [resume_of_past answer]
      exact .pure _
    | some hash =>
      rw [resume_of_found answer]
      exact .pure _
  | fetch height hash =>
    exact .bind (.lift _) fun _ => .bind (.lift _) fun b => (applyBlock b hash).bind fun _ => .pure _
  | done => exact .pure _

theorem Decodes.follow (stage : Stage) (nodes : List (Node blockOf genesisHash)) :
    (follow C filter stage nodes).Maintains Decodes := by
  induction nodes generalizing stage with
  | nil => exact .pure _
  | cons node nodes ih => exact (resume node stage).bind fun stage => ih stage

section
variable (C filter) (blockOf genesisHash)

/-- The databases of a wallet: a fresh one gets the genesis, and then it is synchronized again and
again, with the last attempt perhaps cut short or failed. -/
inductive Synced : Db → Prop
  | opened {b : OpaqueBlock} (named : blockOf genesisHash = some b) (first : b.header.number = 0) :
      Synced (Exec.after (do openDb genesisHash b; applyBlock C filter b genesisHash) Db.empty)
  | synced {db : Db} (nodes : List (Node blockOf genesisHash)) (before : Synced db)
      (steady : ∀ stage, begin db = .ok stage db → Steady C filter stage nodes db) :
      Synced ((synchronizeHelper C filter nodes).after db)

end

/-- A fresh database with the genesis. -/
def genesisDb (genesisHash : H256) (b : OpaqueBlock) : Db :=
  { Db.empty with
    blockHashes := Store.empty.set (encode (0 : UInt32)) (encode genesisHash)
    blocks := Store.empty.set (encode genesisHash) (encode b) }

omit [Host] in
theorem openDb_empty (b : OpaqueBlock) : openDb genesisHash b Db.empty = .ok () (genesisDb genesisHash b) := by
  have bare : Wallet.height Db.empty = none := rfl
  refine (Exec.bind_of_ok (Exec.get_of _)).trans ?_
  rw [bare]
  rfl

omit [Host] in
theorem recorded_genesis {b : OpaqueBlock} (named : blockOf genesisHash = some b) (first : b.header.number = 0) :
    Recorded blockOf genesisHash [genesisHash] (genesisDb genesisHash b) := by
  refine ⟨by simp, rfl, ?_, ?_, ?_, ?_⟩
  · intro i hash found
    cases found
  · intro h
    change (Store.set _ _ _).get _ = _
    rw [Store.get_set, List.getElem?_singleton]
    by_cases zero : h = 0
    · rw [if_pos (congrArg encode zero), if_pos (by rw [zero]; rfl)]
      rfl
    · have nonzero : h.toNat ≠ 0 := fun same => zero (UInt32.toNat_inj.mp same)
      rw [if_neg fun same => zero (encode_injective same), if_neg nonzero]
      rfl
  · intro k v stored
    change (Store.set _ _ _).get _ = _ at stored
    rw [Store.get_set] at stored
    split at stored
    · rename_i same
      exact ⟨0, same⟩
    · cases stored
  · intro h hash found
    rw [List.getElem?_singleton] at found
    split at found
    · rename_i zero
      cases found
      exact ⟨b, named, by rw [first, zero]; rfl, Store.get_set_self _ _ _⟩
    · cases found

theorem recorded_opened {b : OpaqueBlock} (named : blockOf genesisHash = some b) (first : b.header.number = 0) :
    Recorded blockOf genesisHash [genesisHash]
      (Exec.after (do openDb genesisHash b; applyBlock C filter b genesisHash) Db.empty) := by
  have start := recorded_genesis named first
  rw [Exec.after_bind_of_ok (openDb_empty b)]
  have again : Recorded blockOf genesisHash [genesisHash] { genesisDb genesisHash b with
      blockHashes := (genesisDb genesisHash b).blockHashes.set (encode b.header.number) (encode genesisHash)
      blocks := (genesisDb genesisHash b).blocks.set (encode genesisHash) (encode b) } := by
    refine start.same (Store.set_eq_self_iff.mpr ?_) (Store.set_eq_self_iff.mpr ?_)
    · rw [first]
      exact Store.get_set_self _ _ _
    · exact Store.get_set_self _ _ _
  have transactions : (b.extrinsics.toList.forM (applyTransaction C filter)).Maintains
      (Recorded blockOf genesisHash [genesisHash]) := .forM fun x _ => (Recorded.closed _).applyTransaction filter x
  exact transactions _ again

theorem Synced.recorded (synced : Synced blockOf genesisHash C filter db) :
    Decodes db ∧ ∃ w, Recorded blockOf genesisHash w db := by
  induction synced with
  | @opened b named first =>
    refine ⟨?_, [genesisHash], recorded_opened named first⟩
    have bare : Records (Store.empty : Tree) := fun k v stored => nomatch stored
    rw [Exec.after_bind_of_ok (openDb_empty b)]
    exact Decodes.applyBlock b genesisHash _ ⟨bare, bare⟩
  | @synced db nodes before steady ih =>
    obtain ⟨decodes, w, recorded⟩ := ih
    obtain ⟨hash, begun, placed⟩ := begin_ok recorded
    have whole : (synchronizeHelper C filter nodes).after db =
        (follow C filter (.compare (UInt32.ofNat (w.length - 1)) hash) nodes).after db := by
      rw [synchronizeHelper_eq, Exec.after_bind_of_ok begun]
    rw [whole]
    exact ⟨Decodes.follow _ nodes db decodes, follow_recorded recorded placed (steady _ begun)⟩

theorem Synced.still {nodes : List (Node blockOf genesisHash)} {best : List H256}
    (before : Synced blockOf genesisHash C filter db) (still : ∀ node ∈ nodes, node.best = best) :
    Synced blockOf genesisHash C filter ((synchronizeHelper C filter nodes).after db) := by
  obtain ⟨_, w, recorded⟩ := before.recorded
  obtain ⟨hash, begun, placed⟩ := begin_ok recorded
  refine before.synced nodes fun stage begins => ?_
  cases begun.symm.trans begins
  exact steady_of_still still recorded placed trivial

/-- The databases of a wallet hold one chain, and a node whose chain stays as it is brings the
wallet to this chain. -/
theorem steady_sync (synced : Synced blockOf genesisHash C filter db) :
    OneChain db ∧
    (∀ (best : List H256) (nodes : List (Node blockOf genesisHash)), (∀ node ∈ nodes, node.best = best) →
      ∀ db', synchronizeHelper C filter nodes db = .ok .done db' →
        ∀ height : UInt32, getBlockHash height db' = .ok best[height.toNat]?) ∧
    (OnlySignatures filter → (∀ hash b, blockOf hash = some b → Applicable C b) →
      ∀ best : List H256, ∃ n, ∀ nodes : List (Node blockOf genesisHash), (∀ node ∈ nodes, node.best = best) →
        n ≤ nodes.length → ∃ db', synchronizeHelper C filter nodes db = .ok .done db') := by
  obtain ⟨decodes, w, recorded⟩ := synced.recorded
  obtain ⟨hash, begun, placed⟩ := begin_ok recorded
  refine ⟨recorded.oneChain, ?_, ?_⟩
  · intro best nodes still db' returned height
    obtain ⟨w', after, agrees⟩ := follow_agrees still recorded placed trivial
      ((Exec.bind_of_ok begun).symm.trans returned)
    rw [after.getBlockHash_eq, show w' = best from agrees]
  · intro only applicable best
    refine ⟨remaining best (.compare (UInt32.ofNat (w.length - 1)) hash), fun nodes still enough => ?_⟩
    obtain ⟨db', followed⟩ := follow_returns only applicable still decodes recorded placed trivial enough
    exact ⟨db', (Exec.bind_of_ok begun).trans followed⟩

end

/-! Block 1 of one branch claims the coin of the genesis, and the other branch has two empty
blocks. -/

def firstEmptyHash : H256 :=
  ⟨[165, 59, 242, 174, 34, 1, 77, 113, 146, 227, 232, 237, 15, 243, 64, 146, 218, 77, 34, 196, 9, 196, 120, 80, 94,
    141, 200, 148, 208, 37, 168, 73], rfl⟩

def secondEmptyHash : H256 :=
  ⟨[58, 218, 77, 167, 10, 138, 255, 18, 94, 155, 96, 222, 232, 48, 27, 214, 50, 239, 210, 228, 43, 122, 29, 73, 6,
    117, 50, 202, 137, 186, 103, 91], rfl⟩

def coinGenesisBlock : OpaqueBlock :=
  ⟨⟨⟨List.replicate 32 0, rfl⟩, 0, coinGenesisRoot, coinGenesisExtrinsics, Vec.empty⟩,
    ⟨coinGenesis.toList.pmap Transaction.toOpaque coinGenesis_small, by decide⟩⟩

def firstEmpty : OpaqueBlock :=
  ⟨⟨coinGenesisHash, 1, ⟨[199, 77, 167, 198, 188, 55, 216, 94, 54, 223, 171, 150, 54, 63, 56, 233, 208, 91, 177, 80,
    203, 201, 148, 243, 111, 184, 150, 216, 206, 63, 215, 16], rfl⟩, emptyTrieRoot, Vec.empty⟩, Vec.empty⟩

def secondEmpty : OpaqueBlock :=
  ⟨⟨firstEmptyHash, 2, ⟨[224, 17, 175, 1, 218, 227, 33, 94, 59, 237, 64, 0, 149, 217, 112, 129, 48, 240, 36, 161, 166,
    232, 147, 164, 140, 181, 73, 188, 82, 116, 29, 55], rfl⟩, emptyTrieRoot, Vec.empty⟩, Vec.empty⟩

def branches (hash : H256) : Option OpaqueBlock :=
  if hash = coinGenesisHash then some coinGenesisBlock
  else if hash = claimHash then some claimServed
  else if hash = firstEmptyHash then some firstEmpty
  else if hash = secondEmptyHash then some secondEmpty
  else none

/-- A node that can return every block, with one of the branches for its best chain. -/
def branchNode (best : List H256) (starts : best[0]? = some coinGenesisHash) (room : best.length < 2 ^ 32)
    (numbered : ∀ h < best.length, (best[h]?.bind branches).map (fun b => b.header.number.toNat) = some h)
    (linked : ∀ h < best.length - 1, best[h + 1]?.bind (parentOf branches) = best[h]?) :
    Node branches coinGenesisHash where
  best := best
  serves := branches
  room := room
  starts := starts
  numbered h hash found := by
    have number := numbered h (List.getElem?_eq_some_iff.mp found).1
    rw [found] at number
    exact Option.map_eq_some_iff.mp number
  linked i hash found := by
    have inside := (List.getElem?_eq_some_iff.mp found).1
    have parent := linked i (by omega)
    rwa [found] at parent
  served _ _ served := served
  servesBest hash member := by
    obtain ⟨h, inside, rfl⟩ := List.mem_iff_getElem.mp member
    have number := numbered h inside
    rw [List.getElem?_eq_getElem inside] at number
    obtain ⟨b, named, _⟩ := Option.map_eq_some_iff.mp number
    exact ⟨b, named⟩

def claimNode : Node branches coinGenesisHash :=
  branchNode [coinGenesisHash, claimHash] rfl (by decide) (by decide +kernel) (by decide +kernel)

def emptyNode : Node branches coinGenesisHash :=
  branchNode [coinGenesisHash, firstEmptyHash, secondEmptyHash] rfl (by decide) (by decide +kernel) (by decide +kernel)

/-- The database of a wallet that is opened for the first time. -/
def openedWallet [Host] : Db :=
  Exec.after (do openDb coinGenesisHash coinGenesisBlock
                 applyBlock OuterConstraintChecker walletFilter coinGenesisBlock coinGenesisHash) Db.empty

/-- The claim is recorded, the other branch takes over, and the claim goes again. -/
theorem steady_sync_reorg :
    letI := walletHost
    ∃ db db', Synced branches coinGenesisHash OuterConstraintChecker walletFilter db ∧
      getBlockHash 1 db = .ok (some claimHash) ∧ OneChain db ∧
      synchronizeHelper OuterConstraintChecker walletFilter (List.replicate 7 emptyNode) db = .ok .done db' ∧
      ∀ height : UInt32, getBlockHash height db' = .ok emptyNode.best[height.toNat]? := by
  let := walletHost
  let db := (synchronizeHelper OuterConstraintChecker walletFilter (List.replicate 4 claimNode)).after openedWallet
  have opened : Synced branches coinGenesisHash OuterConstraintChecker walletFilter openedWallet :=
    .opened (b := coinGenesisBlock) rfl rfl
  have synced : Synced branches coinGenesisHash OuterConstraintChecker walletFilter db :=
    opened.still fun node member => congrArg Node.best (List.eq_of_mem_replicate member)
  have claimed : getBlockHash 1 db = .ok (some claimHash) := Outcome.toOption_eq_some.mp (by decide +kernel)
  obtain ⟨stage, db', returned, finished⟩ := Exec.exists_of_any
    (x := synchronizeHelper OuterConstraintChecker walletFilter (List.replicate 7 emptyNode)) (s := db)
    (p := fun answer => answer.1 = .done) (by decide +kernel)
  obtain rfl := of_decide_eq_true finished
  obtain ⟨chain, converges, _⟩ := steady_sync synced
  exact ⟨db, db', synced, claimed, chain, returned,
    converges _ _ (fun node member => congrArg Node.best (List.eq_of_mem_replicate member)) db' returned⟩

/-- The other branch takes over between the answers for heights 1 and 2. The wallet ends with
blocks of both branches, and stays so. -/
theorem reorg_mixes_branches :
    letI := walletHost
    ∃ db db', synchronizeHelper OuterConstraintChecker walletFilter
        [claimNode, claimNode, claimNode, emptyNode, emptyNode, emptyNode] openedWallet = .ok .done db ∧
      ¬ OneChain db ∧
      synchronizeHelper OuterConstraintChecker walletFilter [emptyNode, emptyNode] db = .ok .done db' ∧
      getBlockHash 1 db' = .ok (some claimHash) ∧ emptyNode.getBlockHash 1 = some firstEmptyHash := by
  let := walletHost
  obtain ⟨stage, db, returned, computed⟩ := Exec.exists_of_any
    (x := synchronizeHelper OuterConstraintChecker walletFilter
      [claimNode, claimNode, claimNode, emptyNode, emptyNode, emptyNode]) (s := openedWallet)
    (p := fun answer => answer.1 = .done ∧ height answer.2 = some 2 ∧
      (getBlockHash 1 answer.2).toOption = some (some claimHash) ∧
      (getBlockHash 2 answer.2).toOption = some (some secondEmptyHash) ∧
      answer.2.blocks.get (encode secondEmptyHash) = some (encode secondEmpty) ∧
      ((synchronizeHelper OuterConstraintChecker walletFilter [emptyNode, emptyNode]).toOption answer.2).any
        fun later => later.1 = .done ∧ (getBlockHash 1 later.2).toOption = some (some claimHash)) (by decide +kernel)
  obtain ⟨finished, top, first, second, stored, later⟩ := of_decide_eq_true computed
  obtain ⟨stage', db', again, kept⟩ := Exec.exists_of_any later
  obtain ⟨finished', kept⟩ := of_decide_eq_true kept
  dsimp only at finished finished'
  subst finished finished'
  refine ⟨db, db', returned, ?_, again, ?_, rfl⟩
  · intro chain
    obtain ⟨hash, child, b, here, above, found, parent⟩ := chain 2 top 1 (by decide)
    cases here.symm.trans (Outcome.toOption_eq_some.mp first)
    cases above.symm.trans (Outcome.toOption_eq_some.mp second)
    rw [encode_injective (Option.some.inj (found.symm.trans stored))] at parent
    revert parent
    decide
  · exact Outcome.toOption_eq_some.mp kept

end Tuxedo.Wallet
