import Mathlib.Data.List.Forall2
import Mathlib.Tactic.Common

/-!
# Stateful calls that return, fail or panic

A call that fails keeps the writes it made before the error. The `_ok` lemmas take a
successful call apart one bind at a time; the `_of_ok` lemmas put one together.
-/

/-- How a call ends short of a value. -/
inductive Halt (ε : Type) where
  | err (e : ε)
  | panic
  deriving DecidableEq

namespace Halt

def map {ε δ : Type} (f : ε → δ) : Halt ε → Halt δ
  | err e => err (f e)
  | panic => panic

end Halt

/-- A pure computation that may fail or panic. -/
abbrev Outcome (ε α : Type) := Except (Halt ε) α

/-- A computation over the state `σ` that may fail or panic. -/
abbrev Exec (σ ε α : Type) := EStateM (Halt ε) σ α

section
variable {σ ε δ α β : Type}

/-- Return the error `e` unless the condition holds. -/
def ensure (c : Prop) [Decidable c] (e : ε) : Outcome ε Unit :=
  if c then .ok () else .error (.err e)

/-- `none` is a panic. -/
def expect (x : Option α) : Outcome ε α :=
  match x with
  | some a => .ok a
  | none => .error .panic

/-- `none` is the error `e`. -/
def okOr (x : Option α) (e : ε) : Outcome ε α :=
  match x with
  | some a => .ok a
  | none => .error (.err e)

/-- `map_err`: any error becomes `e`. -/
def orErr (x : Except δ α) (e : ε) : Outcome ε α :=
  match x with
  | .ok a => .ok a
  | .error _ => .error (.err e)

namespace Outcome

theorem bind_ok {x : Outcome ε α} {f : α → Outcome ε β} {b : β} (h : (x >>= f) = .ok b) :
    ∃ a, x = .ok a ∧ f a = .ok b := by
  cases x with
  | ok a => exact ⟨a, rfl, h⟩
  | error e => cases h

theorem bind_of_ok {x : Outcome ε α} {f : α → Outcome ε β} {a : α} (h : x = .ok a) : (x >>= f) = f a := by
  rw [h]
  rfl

theorem bind_congr {x : Outcome ε α} {f g : α → Outcome ε β} (same : ∀ a, x = .ok a → f a = g a) :
    (x >>= f) = (x >>= g) := by
  cases x with
  | ok a => exact same a rfl
  | error halt => rfl

theorem pure_ok {a b : α} (h : (pure a : Outcome ε α) = .ok b) : b = a := (Except.ok.inj h).symm

theorem ensure_ok {c : Prop} [Decidable c] {e : ε} {u : Unit} (h : ensure c e = .ok u) : c := by
  unfold ensure at h
  split at h
  · assumption
  · cases h

theorem expect_ok {x : Option α} {a : α} (h : (expect x : Outcome ε α) = .ok a) : x = some a := by
  cases x with
  | none => cases h
  | some b => exact congrArg some (Except.ok.inj h)

theorem okOr_some (a : α) (e : ε) : okOr (some a) e = .ok a := rfl

theorem okOr_ok {x : Option α} {e : ε} {a : α} (h : okOr x e = .ok a) : x = some a := by
  cases x with
  | none => cases h
  | some b => exact congrArg some (Except.ok.inj h)

theorem orErr_ok {x : Except δ α} {e : ε} {a : α} (h : orErr x e = .ok a) : x = .ok a := by
  cases x with
  | error d => cases h
  | ok b => exact congrArg Except.ok (Except.ok.inj h)

theorem orErr_of_ok {x : Except δ α} {a : α} (h : x = .ok a) (e : ε) : orErr x e = .ok a := by
  rw [h]
  rfl

theorem okOr_of_some {x : Option α} {a : α} (h : x = some a) (e : ε) : okOr x e = .ok a := by
  rw [h]
  rfl

theorem forM_ok {f : α → Outcome ε Unit} {xs : List α} {u : Unit} (h : xs.forM f = .ok u) :
    ∀ x ∈ xs, f x = .ok () := by
  induction xs with
  | nil => simp
  | cons x xs ih =>
    obtain ⟨_, first, later⟩ := bind_ok h
    exact List.forall_mem_cons.mpr ⟨first, ih later⟩

theorem forM_of_ok {f : α → Outcome ε Unit} {xs : List α} (each : ∀ x ∈ xs, f x = .ok ()) : xs.forM f = .ok () := by
  induction xs with
  | nil => rfl
  | cons x xs ih =>
    obtain ⟨first, later⟩ := List.forall_mem_cons.mp each
    exact (bind_of_ok first).trans (ih later)

theorem mapM_ok {f : α → Outcome ε β} {xs : List α} {ys : List β} :
    xs.mapM f = .ok ys ↔ List.Forall₂ (fun x y => f x = .ok y) xs ys := by
  induction xs generalizing ys with
  | nil =>
    rw [List.mapM_nil, List.forall₂_nil_left_iff]
    constructor
    · intro h
      exact pure_ok h
    · rintro rfl
      rfl
  | cons x xs ih =>
    rw [List.mapM_cons, List.forall₂_cons_left_iff]
    constructor
    · intro h
      obtain ⟨y, first, h⟩ := bind_ok h
      obtain ⟨rest, later, h⟩ := bind_ok h
      exact ⟨y, rest, first, ih.mp later, pure_ok h⟩
    · rintro ⟨y, rest, first, later, rfl⟩
      exact (bind_of_ok first).trans (bind_of_ok (ih.mpr later))

theorem exists_mapM {f : α → Outcome ε β} {xs : List α} (each : ∀ x ∈ xs, ∃ y, f x = .ok y) :
    ∃ ys, xs.mapM f = .ok ys := by
  induction xs with
  | nil => exact ⟨[], rfl⟩
  | cons x xs ih =>
    obtain ⟨⟨y, first⟩, rest⟩ := List.forall_mem_cons.mp each
    obtain ⟨ys, later⟩ := ih rest
    rw [List.mapM_cons]
    exact ⟨y :: ys, (bind_of_ok first).trans (bind_of_ok later)⟩

theorem map_of_mapM {γ : Type} {f : α → Outcome ε β} {g : β → γ} {k : α → γ} {xs : List α} {ys : List β}
    (h : xs.mapM f = .ok ys) (step : ∀ x y, f x = .ok y → g y = k x) : ys.map g = xs.map k := by
  replace h := mapM_ok.mp h
  induction h with
  | nil => rfl
  | cons first _ ih => rw [List.map_cons, List.map_cons, step _ _ first, ih]

theorem source_of_mapM {f : α → Outcome ε β} {xs : List α} {ys : List β} (h : xs.mapM f = .ok ys) :
    ∀ y ∈ ys, ∃ x ∈ xs, f x = .ok y := by
  replace h := mapM_ok.mp h
  induction h with
  | nil => simp
  | cons first _ ih =>
    refine List.forall_mem_cons.mpr ⟨⟨_, List.mem_cons_self, first⟩, fun y member => ?_⟩
    obtain ⟨x, inside, step⟩ := ih y member
    exact ⟨x, List.mem_cons_of_mem _ inside, step⟩

theorem toOption_eq_some {x : Outcome ε α} {a : α} : x.toOption = some a ↔ x = .ok a := by
  cases x <;> simp [Except.toOption]

/-- A computed outcome that passes a test. -/
theorem exists_of_any {x : Outcome ε α} {p : α → Bool} (h : x.toOption.any p = true) : ∃ a, x = .ok a ∧ p a = true := by
  cases x with
  | error halt => cases h
  | ok a => exact ⟨a, rfl, h⟩

theorem ensure_of {c : Prop} [Decidable c] (e : ε) (holds : c) : ensure c e = .ok () := if_pos holds

/-- The call ends with a value or with an error, and not with a panic. -/
def Answers (x : Outcome ε α) : Prop := x ≠ .error .panic

theorem pure_answers (a : α) : Answers (pure a : Outcome ε α) := nofun

theorem ensure_answers (c : Prop) [Decidable c] (e : ε) : Answers (ensure c e) := by
  unfold ensure
  split <;> nofun

theorem okOr_answers (x : Option α) (e : ε) : Answers (okOr x e) := by
  cases x <;> nofun

theorem orErr_answers (x : Except δ α) (e : ε) : Answers (orErr x e) := by
  cases x <;> nofun

namespace Answers

theorem bind {x : Outcome ε α} {f : α → Outcome ε β} (first : Answers x) (second : ∀ a, x = .ok a → Answers (f a)) :
    Answers (x >>= f) := by
  cases x with
  | ok a => exact second a rfl
  | error halt => exact fun same => first (by cases same; rfl)

theorem foldlM {f : β → α → Outcome ε β} {xs : List α} {b : β} (each : ∀ b, ∀ x ∈ xs, Answers (f b x)) :
    Answers (xs.foldlM f b) := by
  induction xs generalizing b with
  | nil => exact pure_answers b
  | cons x xs ih =>
    rw [List.foldlM_cons]
    exact (each b x List.mem_cons_self).bind fun b _ => ih fun b x later => each b x (List.mem_cons_of_mem _ later)

theorem forM {f : α → Outcome ε Unit} {xs : List α} (each : ∀ x ∈ xs, Answers (f x)) : Answers (xs.forM f) := by
  induction xs with
  | nil => exact pure_answers ()
  | cons x xs ih =>
    obtain ⟨first, later⟩ := List.forall_mem_cons.mp each
    exact first.bind fun _ _ => ih later

/-- An answer that is no value is an error. -/
theorem error {x : Outcome ε α} (answers : Answers x) (fails : ∀ a, x ≠ .ok a) : ∃ e, x = .error (.err e) := by
  cases x with
  | ok a => exact absurd rfl (fails a)
  | error halt =>
    cases halt with
    | err e => exact ⟨e, rfl⟩
    | panic => exact absurd rfl answers

end Answers

end Outcome

namespace Exec

/-- A computation that only reads the state. -/
def read (f : σ → Outcome ε α) : Exec σ ε α := fun s =>
  match f s with
  | .ok a => .ok a s
  | .error e => .error e s

def lift (x : Outcome ε α) : Exec σ ε α := read fun _ => x

def mapErr (f : ε → δ) (x : Exec σ ε α) : Exec σ δ α := fun s =>
  match x s with
  | .ok a s => .ok a s
  | .error e s => .error (e.map f) s

/-- `unwrap`: any failure is a panic. -/
def unwrap (x : Exec σ ε α) : Exec σ δ α := fun s =>
  match x s with
  | .ok a s => .ok a s
  | .error _ s => .error .panic s

/-- The value and the state of a successful call. -/
def toOption (x : Exec σ ε α) (s : σ) : Option (α × σ) :=
  match x s with
  | .ok a s => some (a, s)
  | .error _ _ => none

theorem bind_ok {x : Exec σ ε α} {f : α → Exec σ ε β} {s s' : σ} {b : β}
    (h : (x >>= f) s = .ok b s') : ∃ a s₁, x s = .ok a s₁ ∧ f a s₁ = .ok b s' := by
  change EStateM.bind x f s = .ok b s' at h
  unfold EStateM.bind at h
  split at h
  · rename_i a s₁ first
    exact ⟨a, s₁, first, h⟩
  · cases h

theorem bind_of_ok {x : Exec σ ε α} {f : α → Exec σ ε β} {s s₁ : σ} {a : α} (h : x s = .ok a s₁) :
    (x >>= f) s = f a s₁ := by
  change EStateM.bind x f s = f a s₁
  simp [EStateM.bind, h]

theorem pure_ok {a b : α} {s s' : σ} (h : (pure a : Exec σ ε α) s = .ok b s') : b = a ∧ s = s' := by
  change EStateM.Result.ok a s = .ok b s' at h
  cases h
  exact ⟨rfl, rfl⟩

theorem read_ok {f : σ → Outcome ε α} {s s' : σ} {a : α} (h : read f s = .ok a s') :
    f s = .ok a ∧ s = s' := by
  unfold read at h
  split at h
  · rename_i found
    cases h
    exact ⟨found, rfl⟩
  · cases h

theorem read_of_ok {f : σ → Outcome ε α} {s : σ} {a : α} (h : f s = .ok a) : read f s = .ok a s := by
  simp [read, h]

theorem lift_ok {x : Outcome ε α} {s s' : σ} {a : α} (h : lift x s = .ok a s') :
    x = .ok a ∧ s = s' := read_ok h

theorem lift_of_ok {x : Outcome ε α} {a : α} (h : x = .ok a) (s : σ) : lift x s = .ok a s := read_of_ok h

theorem get_ok {s s' a : σ} (h : (get : Exec σ ε σ) s = .ok a s') : s = a ∧ s = s' := by
  change EStateM.Result.ok s s = .ok a s' at h
  cases h
  exact ⟨rfl, rfl⟩

theorem get_of (s : σ) : (get : Exec σ ε σ) s = .ok s s := rfl

theorem set_ok {s s' a : σ} {u : Unit} (h : (set a : Exec σ ε Unit) s = .ok u s') : s' = a := by
  change EStateM.Result.ok () a = .ok u s' at h
  cases h
  rfl

theorem mapErr_ok {f : ε → δ} {x : Exec σ ε α} {s s' : σ} {a : α} :
    mapErr f x s = .ok a s' ↔ x s = .ok a s' := by
  unfold mapErr
  split
  · rename_i found
    simp [found]
  · rename_i found
    simp [found]

theorem unwrap_ok {x : Exec σ ε α} {s s' : σ} {a : α} :
    (unwrap x : Exec σ δ α) s = .ok a s' ↔ x s = .ok a s' := by
  unfold unwrap
  split
  · rename_i found
    simp [found]
  · rename_i found
    simp [found]

theorem modify_ok {f : σ → σ} {s s' : σ} {u : Unit} (h : (modify f : Exec σ ε Unit) s = .ok u s') :
    s' = f s := by
  change EStateM.Result.ok () (f s) = .ok u s' at h
  cases h
  rfl

theorem toOption_eq_some {x : Exec σ ε α} {s s' : σ} {a : α} : x.toOption s = some (a, s') ↔ x s = .ok a s' := by
  unfold toOption
  split
  · rename_i found
    simp [found]
  · rename_i found
    simp [found]

/-- A computed run that succeeds and passes a test. -/
theorem exists_of_any {x : Exec σ ε α} {s : σ} {p : α × σ → Bool} (h : (x.toOption s).any p = true) :
    ∃ a s', x s = .ok a s' ∧ p (a, s') = true := by
  obtain ⟨⟨a, s'⟩, found, test⟩ := (Option.any_eq_true _ _).mp h
  exact ⟨a, s', toOption_eq_some.mp found, test⟩

theorem modify_of (f : σ → σ) (s : σ) : (modify f : Exec σ ε Unit) s = .ok () (f s) := rfl

theorem forM_append_of_ok {f : α → Exec σ ε Unit} {xs : List α} {s s₁ : σ} {u : Unit} (h : xs.forM f s = .ok u s₁)
    (ys : List α) : (xs ++ ys).forM f s = ys.forM f s₁ := by
  induction xs generalizing s with
  | nil =>
    obtain ⟨_, rfl⟩ := pure_ok h
    rfl
  | cons x xs ih =>
    obtain ⟨_, s₂, first, later⟩ := bind_ok h
    exact (bind_of_ok first).trans (ih later)

theorem forM_of_ok {P : σ → Prop} {f : α → Exec σ ε Unit} {xs : List α}
    (each : ∀ x ∈ xs, ∀ s, P s → ∃ s', f x s = .ok () s' ∧ P s') {s : σ} (holds : P s) :
    ∃ s', xs.forM f s = .ok () s' ∧ P s' := by
  induction xs generalizing s with
  | nil => exact ⟨s, rfl, holds⟩
  | cons x xs ih =>
    obtain ⟨here, later⟩ := List.forall_mem_cons.mp each
    obtain ⟨s₁, first, holds₁⟩ := here s holds
    obtain ⟨s', rest, holds'⟩ := ih later holds₁
    exact ⟨s', (bind_of_ok first).trans rest, holds'⟩

theorem mapErr_read (f : ε → δ) (g : σ → Outcome ε α) :
    mapErr f (read g) = read fun s => (g s).mapError (Halt.map f) := by
  funext s
  unfold mapErr read
  cases found : g s <;> simp [found, Except.mapError]

/-! ### Related states -/

/-- From related states the call returns the same, and leaves related states. -/
def Respects (R : σ → σ → Prop) (x : Exec σ ε α) : Prop :=
  ∀ ⦃s s₂ s' : σ⦄ ⦃a : α⦄, R s s₂ → x s = .ok a s' → ∃ s₂', x s₂ = .ok a s₂' ∧ R s' s₂'

namespace Respects
variable {R : σ → σ → Prop}

theorem read {f : σ → Outcome ε α} (looks : ∀ s s₂, R s s₂ → f s₂ = f s) : Respects R (read f) := by
  intro s s₂ s' a related h
  obtain ⟨found, rfl⟩ := read_ok h
  exact ⟨s₂, read_of_ok ((looks s s₂ related).trans found), related⟩

theorem lift (x : Outcome ε α) : Respects R (lift x : Exec σ ε α) := read fun _ _ _ => rfl

theorem modify {f : σ → σ} (keeps : ∀ s s₂, R s s₂ → R (f s) (f s₂)) :
    Respects R (modify f : Exec σ ε Unit) := by
  intro s s₂ s' u related h
  obtain rfl := modify_ok h
  exact ⟨_, modify_of f s₂, keeps s s₂ related⟩

theorem mapErr {x : Exec σ ε α} (respects : Respects R x) (f : ε → δ) : Respects R (mapErr f x) := by
  intro s s₂ s' a related h
  obtain ⟨s₂', called, after⟩ := respects related (mapErr_ok.mp h)
  exact ⟨s₂', mapErr_ok.mpr called, after⟩

theorem bind {x : Exec σ ε α} {f : α → Exec σ ε β} (first : Respects R x) (second : ∀ a, Respects R (f a)) :
    Respects R (x >>= f) := by
  intro s s₂ s' b related h
  obtain ⟨a, s₁, called, h⟩ := bind_ok h
  obtain ⟨s₃, called₂, between⟩ := first related called
  obtain ⟨s₂', returned, after⟩ := second a between h
  exact ⟨s₂', (bind_of_ok called₂).trans returned, after⟩

end Respects

/-! ### Failed calls -/

/-- The failure of a call that does not return. -/
def failure (x : Exec σ ε α) (s : σ) : Option (Halt ε) :=
  match x s with
  | .ok _ _ => none
  | .error e _ => some e

theorem failure_eq_some {x : Exec σ ε α} {s : σ} {e : Halt ε} : x.failure s = some e ↔ ∃ s', x s = .error e s' := by
  unfold failure
  split
  · rename_i found
    simp [found]
  · rename_i found
    simp [found]

/-- A computed run that fails in a certain way. -/
theorem exists_of_failure {x : Exec σ ε α} {s : σ} {p : Halt ε → Bool} (h : (x.failure s).any p = true) :
    ∃ e s', x s = .error e s' ∧ p e = true := by
  obtain ⟨e, failure, test⟩ := (Option.any_eq_true _ _).mp h
  obtain ⟨s', failed⟩ := failure_eq_some.mp failure
  exact ⟨e, s', failed, test⟩

theorem bind_error {x : Exec σ ε α} {f : α → Exec σ ε β} {s s' : σ} {e : Halt ε} (h : (x >>= f) s = .error e s') :
    x s = .error e s' ∨ ∃ a s₁, x s = .ok a s₁ ∧ f a s₁ = .error e s' := by
  change EStateM.bind x f s = .error e s' at h
  unfold EStateM.bind at h
  split at h
  · rename_i a s₁ first
    exact Or.inr ⟨a, s₁, first, h⟩
  · rename_i first
    cases h
    exact Or.inl first

theorem bind_of_error {x : Exec σ ε α} {f : α → Exec σ ε β} {s s₁ : σ} {e : Halt ε} (h : x s = .error e s₁) :
    (x >>= f) s = .error e s₁ := by
  change EStateM.bind x f s = .error e s₁
  simp [EStateM.bind, h]

theorem read_error {f : σ → Outcome ε α} {s s' : σ} {e : Halt ε} (h : read f s = .error e s') :
    f s = .error e ∧ s = s' := by
  unfold read at h
  split at h
  · cases h
  · rename_i found
    cases h
    exact ⟨found, rfl⟩

theorem lift_error {x : Outcome ε α} {s s' : σ} {e : Halt ε} (h : lift x s = .error e s') : x = .error e ∧ s = s' :=
  read_error h

theorem mapErr_error {f : ε → δ} {x : Exec σ ε α} {s s' : σ} {e : Halt δ} (h : mapErr f x s = .error e s') :
    ∃ e', x s = .error e' s' ∧ e = e'.map f := by
  unfold mapErr at h
  split at h
  · cases h
  · rename_i found
    cases h
    exact ⟨_, found, rfl⟩

/-- A call that fails has written nothing. -/
def FailsCleanly (x : Exec σ ε α) : Prop := ∀ s e s', x s = .error e s' → s' = s

theorem FailsCleanly.read (f : σ → Outcome ε α) : FailsCleanly (read f) := fun _ _ _ h => (read_error h).2.symm

theorem FailsCleanly.mapErr {x : Exec σ ε α} (clean : FailsCleanly x) (f : ε → δ) : FailsCleanly (mapErr f x) := by
  intro s e s' h
  obtain ⟨e', failed, _⟩ := mapErr_error h
  exact clean s e' s' failed

/-- After the reads, only what cannot fail is done. -/
theorem FailsCleanly.bind {x : Exec σ ε α} {f : α → Exec σ ε β} (clean : FailsCleanly x)
    (returns : ∀ a s, ∃ b s', f a s = .ok b s') : FailsCleanly (x >>= f) := by
  intro s e s' h
  rcases bind_error h with failed | ⟨a, s₁, _, failed⟩
  · exact clean s e s' failed
  · obtain ⟨b, s₂, returned⟩ := returns a s₁
    rw [returned] at failed
    cases failed

/-! ### The state after a call -/

/-- The state that a call leaves, however it ends. -/
def after (x : Exec σ ε α) (s : σ) : σ :=
  match x s with
  | .ok _ s' => s'
  | .error _ s' => s'

theorem after_of_ok {x : Exec σ ε α} {s s' : σ} {a : α} (h : x s = .ok a s') : x.after s = s' := by
  simp [after, h]

theorem after_of_error {x : Exec σ ε α} {s s' : σ} {e : Halt ε} (h : x s = .error e s') : x.after s = s' := by
  simp [after, h]

theorem after_bind_of_ok {x : Exec σ ε α} {f : α → Exec σ ε β} {s s₁ : σ} {a : α} (h : x s = .ok a s₁) :
    (x >>= f).after s = (f a).after s₁ := by
  rw [after, bind_of_ok h, after]

theorem after_read (f : σ → Outcome ε α) (s : σ) : (read f).after s = s := by
  unfold after read
  cases f s <;> rfl

theorem after_mapErr (f : ε → δ) (x : Exec σ ε α) (s : σ) : (mapErr f x).after s = x.after s := by
  unfold after mapErr
  cases x s <;> rfl

/-- What comes after a call that writes nothing more does not change what it leaves. -/
theorem after_bind_of_reads {x : Exec σ ε α} {f : α → Exec σ ε β} (reads : ∀ a s, (f a).after s = s) (s : σ) :
    (x >>= f).after s = x.after s := by
  cases first : x s with
  | ok a s₁ =>
    rw [after_of_ok first, after_bind_of_ok first, reads]
  | error e s₁ =>
    rw [after_of_error first, after_of_error (bind_of_error first)]

/-- However the call ends, the state keeps the property. -/
def Maintains (P : σ → Prop) (x : Exec σ ε α) : Prop := ∀ s, P s → P (x.after s)

namespace Maintains
variable {P : σ → Prop}

theorem read (f : σ → Outcome ε α) : Maintains P (read f) := fun s holds => (after_read f s).symm ▸ holds

theorem lift (x : Outcome ε α) : Maintains P (lift x : Exec σ ε α) := read _

theorem get : Maintains P (get : Exec σ ε σ) := fun _ holds => holds

theorem pure (a : α) : Maintains P (pure a : Exec σ ε α) := fun _ holds => holds

theorem modify {f : σ → σ} (keeps : ∀ s, P s → P (f s)) : Maintains P (modify f : Exec σ ε Unit) := keeps

theorem of_ok {x : Exec σ ε α} (maintains : Maintains P x) {s s' : σ} {a : α} (h : x s = .ok a s') (holds : P s) :
    P s' := after_of_ok h ▸ maintains s holds

theorem after_bind {x : Exec σ ε α} {f : α → Exec σ ε β} {s : σ} (first : P (x.after s))
    (second : ∀ a, Maintains P (f a)) : P ((x >>= f).after s) := by
  cases called : x s with
  | ok a s₁ =>
    rw [after_bind_of_ok called]
    exact second a s₁ (after_of_ok called ▸ first)
  | error e s₁ =>
    rw [after_of_error (bind_of_error called), ← after_of_error called]
    exact first

theorem bind {x : Exec σ ε α} {f : α → Exec σ ε β} (first : Maintains P x) (second : ∀ a, Maintains P (f a)) :
    Maintains P (x >>= f) := fun s holds => after_bind (first s holds) second

theorem forM {f : α → Exec σ ε Unit} {xs : List α} (each : ∀ x ∈ xs, Maintains P (f x)) : Maintains P (xs.forM f) := by
  induction xs with
  | nil => exact pure ()
  | cons x xs ih =>
    obtain ⟨first, later⟩ := List.forall_mem_cons.mp each
    exact first.bind fun _ => ih later

end Maintains

end Exec
end
