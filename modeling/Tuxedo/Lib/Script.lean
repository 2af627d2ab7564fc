import Tuxedo.Lib.Exec

/-!
# Scripts

The writes that a call makes when they do not depend on the state, and how the call ends after
them. A script that fails stops the scripts behind it.
-/

structure Script (ω ε : Type) where
  writes : List ω
  ending : Outcome ε Unit

namespace Script
variable {ω σ ε α : Type}

def fail (halt : Halt ε) : Script ω ε := ⟨[], .error halt⟩

def write (ws : List ω) : Script ω ε := ⟨ws, .ok ()⟩

/-- The script behind an outcome, or its failure. -/
def from? (x : Outcome ε α) (f : α → Script ω ε) : Script ω ε :=
  match x with
  | .ok a => f a
  | .error halt => fail halt

def andThen (a b : Script ω ε) : Script ω ε :=
  match a.ending with
  | .ok _ => ⟨a.writes ++ b.writes, b.ending⟩
  | .error halt => ⟨a.writes, .error halt⟩

def all (scripts : List (Script ω ε)) : Script ω ε := scripts.foldr andThen (write [])

def run (perform : ω → Exec σ ε Unit) (a : Script ω ε) : Exec σ ε Unit := do
  a.writes.forM perform
  Exec.lift a.ending

variable {perform : ω → Exec σ ε Unit}

theorem run_write (ws : List ω) : (write ws).run perform = ws.forM perform := by
  funext s
  change (ws.forM perform >>= fun _ => Exec.lift (.ok ())) s = _
  cases ran : ws.forM perform s with
  | ok u s' => exact Exec.bind_of_ok ran
  | error halt s' => exact Exec.bind_of_error ran

theorem run_from? (x : Outcome ε α) (f : α → Script ω ε) :
    (from? x f).run perform = (do let a ← Exec.lift x; (f a).run perform) := by
  cases x with
  | ok a => rfl
  | error halt => rfl

theorem run_andThen (a b : Script ω ε) : (a.andThen b).run perform = (do a.run perform; b.run perform) := by
  obtain ⟨ws, ending⟩ := a
  cases ending with
  | ok u =>
    change (do (ws ++ b.writes).forM perform; Exec.lift b.ending) =
      (do (do ws.forM perform; Exec.lift (.ok ())); b.writes.forM perform; Exec.lift b.ending)
    rw [List.forM_eq_forM, List.forM_append, bind_assoc, bind_assoc]
    rfl
  | error halt =>
    change (do ws.forM perform; Exec.lift (.error halt)) =
      (do (do ws.forM perform; Exec.lift (.error halt)); b.run perform)
    rw [bind_assoc]
    rfl

/-- A loop over calls that are scripts is a script. -/
theorem run_all {f : α → Exec σ ε Unit} {script : α → Script ω ε} (each : ∀ x, f x = (script x).run perform)
    (xs : List α) : xs.forM f = (all (xs.map script)).run perform := by
  induction xs with
  | nil => rfl
  | cons x xs ih =>
    change (do f x; xs.forM f) = ((script x).andThen (all (xs.map script))).run perform
    rw [run_andThen, ih, each]

/-! ### Scripts that end well -/

theorem from?_ok {x : Outcome ε α} {f : α → Script ω ε} {u : Unit} (h : (from? x f).ending = .ok u) :
    ∃ a, x = .ok a ∧ (f a).ending = .ok u := by
  cases x with
  | ok a => exact ⟨a, rfl, h⟩
  | error halt => cases h

theorem andThen_ok {a b : Script ω ε} {u : Unit} (h : (a.andThen b).ending = .ok u) :
    (∃ v, a.ending = .ok v) ∧ b.ending = .ok u ∧ (a.andThen b).writes = a.writes ++ b.writes := by
  unfold andThen at h ⊢
  split at h
  · rename_i v first
    exact ⟨⟨v, first⟩, h, rfl⟩
  · cases h

theorem all_ok {scripts : List (Script ω ε)} {u : Unit} (h : (all scripts).ending = .ok u) :
    (∀ a ∈ scripts, ∃ v, a.ending = .ok v) ∧ (all scripts).writes = scripts.flatMap writes := by
  induction scripts with
  | nil => exact ⟨by simp, rfl⟩
  | cons a scripts ih =>
    obtain ⟨first, rest, split⟩ := andThen_ok (b := all scripts) h
    obtain ⟨later, written⟩ := ih rest
    refine ⟨List.forall_mem_cons.mpr ⟨first, later⟩, ?_⟩
    rw [List.flatMap_cons, ← written]
    exact split

/-- The script of a run that returned made all of its writes. -/
theorem run_ok {a : Script ω ε} {s s' : σ} {u : Unit} (h : a.run perform s = .ok u s') :
    a.ending = .ok u ∧ a.writes.forM perform s = .ok () s' := by
  obtain ⟨_, s₁, ran, ended⟩ := Exec.bind_ok h
  obtain ⟨ending, rfl⟩ := Exec.lift_ok ended
  exact ⟨ending, ran⟩

end Script
