import Tuxedo.Executive.Runs

/-!
# Authoring and importing

The author notes the extrinsics in the storage while it applies them, the importer reads them
from the block. The two runs go through storages that differ in that one entry.
-/

namespace Tuxedo.Executive
open Scale TransparentUtxoSet

/-! ### Calls that leave the entries of a block alone -/

/-- A call that does not look at the noted extrinsics, and writes neither them nor the header. -/
structure LeavesBlock {ε α : Type} (x : Exec Storage ε α) : Prop where
  reads : ∀ {s s₂ s' : Storage} {a : α}, s.SameBut extrinsicKey s₂ → x s = .ok a s' →
    ∃ s₂', x s₂ = .ok a s₂' ∧ s'.SameBut extrinsicKey s₂'
  writes : ∀ {s s' : Storage} {a : α}, x s = .ok a s' →
    s'.get headerKey = s.get headerKey ∧ s'.get extrinsicKey = s.get extrinsicKey

/-- A constraint checker that leaves the entries of a block to the executive. -/
class LeavesTransient (V C : Type) [ConstraintChecker V C] : Prop where
  check_leaves : ∀ (checker : C) (inputs evicted peeks outputs : List DynamicallyTypedData),
    LeavesBlock (ConstraintChecker.check (V := V) checker inputs evicted peeks outputs)

theorem peekUtxo_sameBut {V : Type} [Codec V] {k : Bytes} (width : k.length ≠ 36) {s s₂ : Storage}
    (same : s.SameBut k s₂) : peekUtxo V s₂ = peekUtxo V s := by
  funext r
  have other : encode r ≠ k := by
    rintro rfl
    exact width (length_encode_outputRef r)
  simp [peekUtxo, same _ other]

theorem blockHeight_sameBut {k : Bytes} (other : k ≠ heightKey) {s s₂ : Storage} (same : s.SameBut k s₂) :
    blockHeight s₂ = blockHeight s := by
  simp [blockHeight, same heightKey other.symm]

section
variable {V C : Type} [Host] [Verifier V] [Codec C] [ConstraintChecker V C] {t : Transaction V C} {txHash : H256}
  {s checked s' : Storage}

/-- Of the entries that are no outputs, the executive looks at the height only. -/
theorem Accepted.sameBut {k : Bytes} (width : k.length ≠ 36) (notHeight : k ≠ heightKey)
    (blind : ∀ inputs evicted peeks outputs, (ConstraintChecker.check (V := V) t.checker inputs evicted peeks
      outputs).Respects (Store.SameBut k))
    (accepted : Accepted t txHash s checked s') {s₂ : Storage} (same : s.SameBut k s₂) :
    ∃ checked₂ s₂', Accepted t txHash s₂ checked₂ s₂' ∧ s'.SameBut k s₂' := by
  obtain ⟨priority, call⟩ := accepted.checks
  obtain ⟨checked₂, call₂, between⟩ := blind _ _ _ _ same call
  have peeks : peekUtxo V s₂ = peekUtxo V s := peekUtxo_sameBut width same
  have payloads : payloadAt V s₂ = payloadAt V s := by
    funext r
    simp [payloadAt, peeks]
  have authorised : Authorised V s₂ = Authorised V s := by
    funext _ strategy _
    cases strategy <;> simp [Authorised, Accepts, blockHeight_sameBut notHeight same]
  refine ⟨checked₂, _, ⟨⟨accepted.unique, ?_, accepted.hash, ?_⟩, ?_, ?_, ⟨priority, ?_⟩, rfl⟩, ?_⟩
  · rw [peeks, authorised]
    exact accepted.authorised
  · rw [peeks]
    exact accepted.fresh
  · rw [peeks]
    exact accepted.inputsPresent
  · rw [peeks]
    exact accepted.peeksPresent
  · rw [payloads]
    exact call₂
  · rw [accepted.after]
    exact (between.clearAll _).setAll _

theorem apply_respects {k : Bytes} (width : k.length ≠ 36) (notHeight : k ≠ heightKey)
    (blind : ∀ inputs evicted peeks outputs, (ConstraintChecker.check (V := V) t.checker inputs evicted peeks
      outputs).Respects (Store.SameBut k)) : (applyTuxedoTransaction t).Respects (Store.SameBut k) := by
  intro s s₂ s' u same h
  obtain ⟨txHash, checked, accepted⟩ := apply_ok.mp h
  obtain ⟨checked₂, s₂', accepted₂, after⟩ := accepted.sameBut width notHeight blind same
  exact ⟨s₂', apply_ok.mpr ⟨txHash, checked₂, accepted₂⟩, after⟩

variable [LeavesTransient V C]

theorem apply_leaves (t : Transaction V C) : LeavesBlock (applyTuxedoTransaction t) := by
  have blind : (applyTuxedoTransaction t).Respects (Store.SameBut extrinsicKey) :=
    apply_respects (by decide) (by decide) fun _ _ _ _ _ _ _ _ same call =>
      (LeavesTransient.check_leaves _ _ _ _ _).reads same call
  refine ⟨fun same h => blind same h, fun {s s' u} h => ?_⟩
  obtain ⟨txHash, checked, accepted⟩ := apply_ok.mp h
  obtain ⟨priority, call⟩ := accepted.checks
  have before := (LeavesTransient.check_leaves _ _ _ _ _).writes call
  exact ⟨(accepted.get_narrow (by decide)).trans before.1, (accepted.get_narrow (by decide)).trans before.2⟩

end

/-! ### The two runs side by side -/

theorem notedExtrinsics_set (s : Storage) (extrinsics : Vec (Vec UInt8)) :
    notedExtrinsics (s.set extrinsicKey (encode extrinsics)) = extrinsics := by
  simp [notedExtrinsics]

theorem notedExtrinsics_congr {s s' : Storage} (same : s'.get extrinsicKey = s.get extrinsicKey) :
    notedExtrinsics s' = notedExtrinsics s := by
  simp [notedExtrinsics, same]

/-- The author is where the importer is, and has noted the extrinsics so far. -/
structure Alongside (header : Header) (noted : List Bytes) (imported authored : Storage) : Prop where
  same : imported.SameBut extrinsicKey authored
  unnoted : imported.get extrinsicKey = none
  opened : imported.get headerKey = some (encode header)
  noted : (notedExtrinsics authored).toList.map (fun x => x.toList) = noted

theorem alongside_openBlock (header : Header) {s : Storage} (unnoted : s.get extrinsicKey = none) :
    Alongside header [] (openBlock header s) (openBlock header s) := by
  have still : (openBlock header s).get extrinsicKey = none := by
    rw [openBlock, Store.get_set_ne _ _ (by decide), Store.get_set_ne _ _ (by decide), unnoted]
  refine ⟨.refl _ _, still, ?_, by simp [notedExtrinsics, still, Vec.empty]⟩
  rw [openBlock, Store.get_set_ne _ _ (by decide), Store.get_set_self]

theorem Alongside.closed {header : Header} {noted : List Bytes} {imported authored : Storage}
    (aside : Alongside header noted imported authored) :
    (authored.clear headerKey).clear extrinsicKey = imported.clear headerKey := by
  ext1 k
  by_cases extrinsic : k = extrinsicKey
  · subst extrinsic
    rw [Store.get_clear_self, Store.get_clear_ne _ (by decide), aside.unnoted]
  · rw [Store.get_clear_ne _ extrinsic, Store.get_clear, Store.get_clear, aside.same k extrinsic]

theorem Alongside.closeBlock_eq [Host] {ε : Type} {header : Header} {noted : List Bytes} {imported authored : Storage}
    (aside : Alongside header noted imported authored) :
    (closeBlock : Exec Storage ε Header) authored = .ok
      { header with
        extrinsicsRoot := Host.orderedTrieRoot .v0 noted
        stateRoot := Host.storageRoot .v1 (imported.clear headerKey) } (imported.clear headerKey) := by
  have opened : authored.get headerKey = some (encode header) := (aside.same _ (by decide)).trans aside.opened
  have extrinsics : notedExtrinsics (authored.clear headerKey) = notedExtrinsics authored :=
    notedExtrinsics_congr (Store.get_clear_ne _ (by decide))
  refine (Exec.bind_of_ok (Exec.get_of _)).trans ?_
  refine (Exec.bind_of_ok (Exec.lift_of_ok (by rw [opened, Option.bind_some, decode_encode_nil]; rfl) _)).trans ?_
  dsimp only
  rw [extrinsics, aside.noted, aside.closed]
  rfl

theorem noteExtrinsic_eq_some {V C : Type} [Verifier V] [Codec C] {x : Transaction V C} {s s' : Storage} :
    noteExtrinsic x s = some s' ↔ ∃ (encoded : Vec UInt8) (extrinsics : Vec (Vec UInt8)), encoded.toList = encode x ∧
      extrinsics.toList = (notedExtrinsics s).toList ++ [encoded] ∧ s' = s.set extrinsicKey (encode extrinsics) := by
  constructor
  · intro h
    obtain ⟨encoded, fits, h⟩ := Option.bind_eq_some_iff.mp h
    obtain ⟨extrinsics, grown, h⟩ := Option.bind_eq_some_iff.mp h
    exact ⟨encoded, extrinsics, Vec.ofList?_eq_some.mp fits, Vec.ofList?_eq_some.mp grown, (Option.some.inj h).symm⟩
  · rintro ⟨encoded, extrinsics, fits, grown, rfl⟩
    simp [noteExtrinsic, Vec.ofList?_eq_some.mpr fits, Vec.ofList?_eq_some.mpr grown]

section
variable {V C : Type} [Host] [Verifier V] [Codec C] [ConstraintChecker V C]

theorem applyExtrinsic_ok {x : Transaction V C} {s s' : Storage} {u : Unit} :
    applyExtrinsic x s = .ok u s' ↔
      ∃ s₁, noteExtrinsic x s = some s₁ ∧ applyTuxedoTransaction x s₁ = .ok u s' := by
  constructor
  · intro h
    obtain ⟨_, s₀, current, h⟩ := Exec.bind_ok h
    obtain ⟨rfl, rfl⟩ := Exec.get_ok current
    obtain ⟨s₁, s₂, noting, h⟩ := Exec.bind_ok h
    obtain ⟨note, rfl⟩ := Exec.lift_ok noting
    obtain ⟨_, s₃, written, h⟩ := Exec.bind_ok h
    obtain rfl := Exec.set_ok written
    exact ⟨_, Outcome.expect_ok note, Exec.mapErr_ok.mp h⟩
  · rintro ⟨s₁, note, applied⟩
    refine (Exec.bind_of_ok (Exec.get_of _)).trans ?_
    refine (Exec.bind_of_ok (Exec.lift_of_ok (by rw [note]; rfl) _)).trans ?_
    exact (Exec.bind_of_ok rfl).trans (Exec.mapErr_ok.mpr applied)

variable [LeavesTransient V C]

/-- After the note, the two applications of a transaction keep in step. -/
theorem Alongside.next {header : Header} {noted : List Bytes}
    {imported imported' authored authored₁ authored' : Storage} {x : Transaction V C}
    (before : Alongside header noted imported authored) (note : noteExtrinsic x authored = some authored₁)
    (imports : applyTuxedoTransaction x imported = .ok () imported')
    (authors : applyTuxedoTransaction x authored₁ = .ok () authored')
    (after : imported'.SameBut extrinsicKey authored') :
    Alongside header (noted ++ [encode x]) imported' authored' := by
  obtain ⟨encoded, extrinsics, fits, grown, rfl⟩ := noteExtrinsic_eq_some.mp note
  obtain ⟨headerKept, unnoted⟩ := (apply_leaves x).writes imports
  have kept := ((apply_leaves x).writes authors).2
  refine ⟨after, unnoted.trans before.unnoted, headerKept.trans before.opened, ?_⟩
  rw [notedExtrinsics_congr kept, notedExtrinsics_set, grown, List.map_append, before.noted]
  simp [fits]

theorem authors_of_imports {header : Header} {noted : List Bytes} {imported imported' authored : Storage}
    {xs : List (Transaction V C)} (before : Alongside header noted imported authored)
    (fits : noted.length + xs.length < 2 ^ 32) (imports : Applied imported xs imported') :
    ∃ authored', xs.forM applyExtrinsic authored = .ok () authored' ∧
      Alongside header (noted ++ xs.map encode) imported' authored' := by
  induction imports generalizing noted authored with
  | done s => exact ⟨authored, rfl, by simpa using before⟩
  | @apply s s₁ s' x xs applied _ ih =>
    rw [List.length_cons] at fits
    obtain ⟨txHash, _, accepted⟩ := apply_ok.mp applied
    obtain ⟨encoded, whole, _⟩ := id?_eq_some accepted.hash
    have room : ((notedExtrinsics authored).toList ++ [encoded]).length < 2 ^ 32 := by
      have count := congrArg List.length before.noted
      rw [List.length_map] at count
      rw [List.length_append, List.length_singleton]
      omega
    have note : noteExtrinsic x authored = some (authored.set extrinsicKey (encode (⟨_, room⟩ : Vec (Vec UInt8)))) :=
      noteExtrinsic_eq_some.mpr ⟨encoded, ⟨_, room⟩, whole, rfl, rfl⟩
    obtain ⟨authored', authors, after⟩ := (apply_leaves x).reads (before.same.set_left _) applied
    obtain ⟨last, later, aside⟩ := ih (before.next note applied authors after) (by simp; omega)
    refine ⟨last, (Exec.bind_of_ok (applyExtrinsic_ok.mpr ⟨_, note, authors⟩)).trans later, ?_⟩
    simpa using aside

theorem imports_of_authors {header : Header} {noted : List Bytes} {imported authored authored' : Storage} {u : Unit}
    {xs : List (Transaction V C)} (before : Alongside header noted imported authored)
    (authors : xs.forM applyExtrinsic authored = .ok u authored') :
    ∃ imported', Applied imported xs imported' ∧ Alongside header (noted ++ xs.map encode) imported' authored' := by
  induction xs generalizing noted imported authored with
  | nil =>
    obtain ⟨_, rfl⟩ := Exec.pure_ok authors
    exact ⟨imported, .done _, by simpa using before⟩
  | cons x xs ih =>
    obtain ⟨_, authored₂, first, later⟩ := Exec.bind_ok authors
    obtain ⟨authored₁, note, applied⟩ := applyExtrinsic_ok.mp first
    have noting : imported.SameBut extrinsicKey authored₁ := by
      obtain ⟨_, _, _, _, rfl⟩ := noteExtrinsic_eq_some.mp note
      exact before.same.set_left _
    obtain ⟨imported₁, imports, after⟩ := (apply_leaves x).reads noting.symm applied
    obtain ⟨imported', rest, aside⟩ := ih (before.next note imports applied after.symm) later
    exact ⟨imported', .apply imports rest, by simpa using aside⟩

theorem authorBlock_ok {header : Header} {xs : List (Transaction V C)} {s s' : Storage} {closed : Header}
    (unnoted : s.get extrinsicKey = none) (fits : xs.length < 2 ^ 32) :
    authorBlock header xs s = .ok closed s' ↔
      (∃ s₁, Applied (openBlock header s) xs s₁ ∧ s' = s₁.clear headerKey) ∧ closed =
        { header with
          extrinsicsRoot := Host.orderedTrieRoot .v0 (xs.map encode)
          stateRoot := Host.storageRoot .v1 s' } := by
  have start := alongside_openBlock header unnoted
  constructor
  · intro h
    obtain ⟨_, s₁, opened, h⟩ := Exec.bind_ok h
    obtain rfl := Exec.modify_ok opened
    obtain ⟨_, s₂, authors, h⟩ := Exec.bind_ok h
    obtain ⟨s₃, imports, aside⟩ := imports_of_authors start authors
    rw [aside.closeBlock_eq] at h
    cases h
    exact ⟨⟨s₃, imports, rfl⟩, rfl⟩
  · rintro ⟨⟨s₁, imports, rfl⟩, rfl⟩
    obtain ⟨s₂, authors, aside⟩ := authors_of_imports start (by simpa using fits) imports
    refine (Exec.bind_of_ok (Exec.modify_of _ _)).trans ?_
    exact (Exec.bind_of_ok authors).trans aside.closeBlock_eq

theorem Applied.leaves {s s' : Storage} {xs : List (Transaction V C)} (applied : Applied s xs s') :
    s'.get headerKey = s.get headerKey ∧ s'.get extrinsicKey = s.get extrinsicKey := by
  induction applied with
  | done s => exact ⟨rfl, rfl⟩
  | apply applied _ ih =>
    have first := (apply_leaves _).writes applied
    exact ⟨ih.1.trans first.1, ih.2.trans first.2⟩

/-- Importing leaves neither a header nor noted extrinsics behind. -/
theorem executeBlock_clears {block : Block V C} {s s' : Storage} (unnoted : s.get extrinsicKey = none)
    (executed : executeBlock block s = .ok () s') : s'.get headerKey = none ∧ s'.get extrinsicKey = none := by
  obtain ⟨_, ⟨s₁, applied, rfl⟩, _⟩ := executeBlock_ok.mp executed
  refine ⟨Store.get_clear_self _ _, ?_⟩
  rw [Store.get_clear_ne _ (by decide), applied.leaves.2]
  exact (alongside_openBlock block.header unnoted).unnoted

/-- A block imports exactly when its inherents come first and authoring it gives back the roots
of its header. Both ways leave the same storage. -/
theorem authoring_importing_agree (block : Block V C) (s : Storage) (unnoted : s.get extrinsicKey = none) :
    ((∃ imported, executeBlock block s = .ok () imported) ↔
      InherentsFirst V block.extrinsics.toList ∧
      ∃ closed authored, authorBlock block.header block.extrinsics.toList s = .ok closed authored ∧
        closed.stateRoot = block.header.stateRoot ∧ closed.extrinsicsRoot = block.header.extrinsicsRoot) ∧
    ∀ imported closed authored, executeBlock block s = .ok () imported →
      authorBlock block.header block.extrinsics.toList s = .ok closed authored →
      imported = authored ∧ authored.get headerKey = none ∧ authored.get extrinsicKey = none := by
  have authoring : ∀ closed authored, authorBlock block.header block.extrinsics.toList s = .ok closed authored ↔ _ :=
    fun closed authored => authorBlock_ok unnoted block.extrinsics.length_lt
  refine ⟨⟨?_, ?_⟩, ?_⟩
  · rintro ⟨imported, imports⟩
    obtain ⟨order, applied, sameState, sameExtrinsics⟩ := executeBlock_ok.mp imports
    exact ⟨order, _, imported, (authoring _ _).mpr ⟨applied, rfl⟩, sameState.symm, sameExtrinsics.symm⟩
  · rintro ⟨order, closed, authored, authors, sameState, sameExtrinsics⟩
    obtain ⟨applied, rfl⟩ := (authoring _ _).mp authors
    exact ⟨authored, executeBlock_ok.mpr ⟨order, applied, sameState.symm, sameExtrinsics.symm⟩⟩
  · intro imported closed authored imports authors
    have cleared := executeBlock_clears unnoted imports
    obtain ⟨_, ⟨s₁, applied, rfl⟩, _⟩ := executeBlock_ok.mp imports
    obtain ⟨⟨s₂, applied₂, rfl⟩, _⟩ := (authoring _ _).mp authors
    obtain rfl := applied.unique applied₂
    exact ⟨rfl, cleared⟩

end

/-! ### From the header that was opened to the header that was closed -/

section
variable {V C : Type} [Host] [Verifier V] [Codec C] [ConstraintChecker V C]

theorem Applied.sameBut {k : Bytes}
    (blind : ∀ t : Transaction V C, (applyTuxedoTransaction t).Respects (Store.SameBut k)) {s s₂ s' : Storage}
    {xs : List (Transaction V C)} (applied : Applied s xs s') (same : s.SameBut k s₂) :
    ∃ s₂', Applied s₂ xs s₂' ∧ s'.SameBut k s₂' := by
  induction applied generalizing s₂ with
  | done s => exact ⟨s₂, .done _, same⟩
  | apply applied _ ih =>
    obtain ⟨s₃, applied₂, between⟩ := blind _ same applied
    obtain ⟨s₂', later, after⟩ := ih between
    exact ⟨s₂', .apply applied₂ later, after⟩

/-- What was authored executes, under the header that closing it gave. -/
theorem executeBlock_of_authored [LeavesTransient V C]
    (blind : ∀ t : Transaction V C, (applyTuxedoTransaction t).Respects (Store.SameBut headerKey))
    {header closed : Header} {xs : Vec (Transaction V C)} {s s' : Storage} (unnoted : s.get extrinsicKey = none)
    (first : InherentsFirst V xs.toList) (authored : authorBlock header xs.toList s = .ok closed s') :
    executeBlock ⟨closed, xs⟩ s = .ok () s' ∧ closed.parentHash = header.parentHash := by
  obtain ⟨⟨s₁, applied, rfl⟩, rfl⟩ := (authorBlock_ok unnoted xs.length_lt).mp authored
  refine ⟨executeBlock_ok.mpr ⟨first, ?_, rfl, rfl⟩, rfl⟩
  have opened (closed : Header) (number : closed.number = header.number) :
      (openBlock header s).SameBut headerKey (openBlock closed s) := by
    rw [openBlock, openBlock, number]
    exact (((Store.SameBut.refl headerKey s).set_left (encode header)).symm.set_left (encode closed)).set _ _
  obtain ⟨s₂, applied₂, after⟩ := applied.sameBut blind (opened
    { header with
      extrinsicsRoot := Host.orderedTrieRoot .v0 (xs.toList.map encode)
      stateRoot := Host.storageRoot .v1 (s₁.clear headerKey) } rfl)
  refine ⟨s₂, applied₂, ?_⟩
  ext1 k
  rw [Store.get_clear, Store.get_clear]
  split
  · rfl
  · rename_i other
    exact (after k other).symm

/-- The storages that a block leaves: those of a genesis block, and what importing or authoring
another block makes of them. -/
inductive BlockState (V C : Type) [Verifier V] [Codec C] [ConstraintChecker V C] : Storage → Prop
  | genesis (version : StateVersion) (genesisStorage : Storage) :
      BlockState V C (TuxedoGenesisBlockBuilder.buildGenesisBlock (V := V) (C := C) version genesisStorage).2
  | imported {s s' : Storage} {block : Block V C} (before : BlockState V C s)
      (executed : executeBlock block s = .ok () s') : BlockState V C s'
  | authored {s s' : Storage} {header closed : Header} {xs : Vec (Transaction V C)} (before : BlockState V C s)
      (authored : authorBlock header xs.toList s = .ok closed s') : BlockState V C s'

theorem BlockState.unnoted [LeavesTransient V C] {s : Storage} (state : BlockState V C s) :
    s.get extrinsicKey = none := by
  induction state with
  | genesis version genesisStorage => exact Store.get_clear_self _ _
  | imported before executed ih => exact (executeBlock_clears ih executed).2
  | @authored s s' header closed xs before authored ih =>
    obtain ⟨⟨s₁, applied, rfl⟩, _⟩ := (authorBlock_ok ih xs.length_lt).mp authored
    rw [Store.get_clear_ne _ (by decide), applied.leaves.2]
    exact (alongside_openBlock header ih).unnoted

end

/-! A block with the spend of a coin. -/

instance : LeavesTransient UpForGrabs (Money.MoneyConstraintChecker 0) where
  check_leaves _ _ _ _ _ := by
    refine ⟨fun same call => Exec.Respects.lift _ same call, fun call => ?_⟩
    obtain ⟨_, rfl⟩ := Exec.lift_ok call
    exact ⟨rfl, rfl⟩

def spendStateRoot : H256 :=
  ⟨[189, 106, 184, 0, 138, 29, 178, 161, 241, 97, 246, 199, 3, 198, 229, 9, 178, 13, 140, 247, 95, 46, 22, 169, 98, 70,
    227, 204, 111, 65, 90, 49], rfl⟩

def spendExtrinsicsRoot : H256 :=
  ⟨[110, 111, 251, 177, 74, 120, 64, 38, 143, 205, 169, 181, 111, 130, 109, 157, 18, 16, 173, 76, 136, 200, 35, 50, 0,
    35, 135, 191, 82, 159, 183, 228], rfl⟩

/-- The host on this block: the trie over the height and the new coin, and the trie over the one extrinsic. -/
@[reducible] def spendHost : Host :=
  Host.native (fun _ _ _ => false) (fun _ _ => spendStateRoot) (fun _ _ => spendExtrinsicsRoot)

def spendBlock : Block UpForGrabs (Money.MoneyConstraintChecker 0) :=
  ⟨⟨FixedBytes.zero 32, 2, spendStateRoot, spendExtrinsicsRoot, Vec.empty⟩, Vec.singleton spendCoin⟩

theorem authoring_importing_agree_spend :
    letI := spendHost
    coinStorage.get extrinsicKey = none ∧
    ∃ s' closed, executeBlock spendBlock coinStorage = .ok () s' ∧
      authorBlock spendBlock.header spendBlock.extrinsics.toList coinStorage = .ok closed s' ∧
      s'.get extrinsicKey = none := by
  let := spendHost
  have unnoted : coinStorage.get extrinsicKey = none := by decide +kernel
  obtain ⟨agree, same⟩ := authoring_importing_agree spendBlock coinStorage unnoted
  obtain ⟨_, s', imports, _⟩ := Exec.exists_of_any (x := executeBlock spendBlock) (s := coinStorage)
    (p := fun _ => true) (by decide +kernel)
  obtain ⟨_, closed, authored, authors, _⟩ := agree.mp ⟨s', imports⟩
  obtain ⟨rfl, _, cleared⟩ := same s' closed authored imports authors
  exact ⟨unnoted, s', closed, imports, authors, cleared⟩

end Tuxedo.Executive
