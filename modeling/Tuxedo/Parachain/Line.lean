import Tuxedo.Executive.Chains
import Tuxedo.Parachain.ValidateBlock

/-!
# Candidates in line

The relay chain hands each candidate the head that the last one left. What it has validated in this way
is a run of a full node, although it keeps no state of the parachain.
-/

namespace Tuxedo.Parachain
open Scale Executive

/-- What a proof unfolds to has the root that it is unfolded under. -/
class LawfulProofs [Host] [ProofDatabase] : Prop where
  root_eq : ∀ {root : H256} {proof : Vec (Vec UInt8)} {db : Storage},
    ProofDatabase.toMemoryDb root proof = some db → Host.storageRoot .v1 db = root

/-- A call of `validateBlock` that returned. -/
structure Candidate (V C : Type) where
  params : MemoryOptimizedValidationParams
  result : ValidationResult
  block : Block V C
  parentState : Storage
  post : Storage

section
variable {V C : Type}

def Candidate.Follows (c c' : Candidate V C) : Prop := c'.params.parentHead = c.result.headData

variable [Host] [Verifier V] [Codec C] [ConstraintChecker V C] [ParachainConstraintChecker C] [RelayChain]
  [ProofDatabase]

structure Candidate.Valid (c : Candidate V C) : Prop where
  describes : Describes c.params c.block c.parentState
  validated : validateBlock (V := V) (C := C) c.params = some (c.result, c.post)

/-- No two states of the line share a root. -/
def RootsApart (cs : List (Candidate V C)) : Prop :=
  ∀ c ∈ cs, ∀ c' ∈ cs, Host.storageRoot .v1 c'.parentState = Host.storageRoot .v1 c.post → c'.parentState = c.post

/-- The block is a child of the head that it was validated on. -/
theorem validateBlock_linked {params : MemoryOptimizedValidationParams} {result : ValidationResult} {post : Storage}
    {block : Block V C} {parentState : Storage} (describes : Describes params block parentState)
    (h : validateBlock (V := V) (C := C) params = some (result, post)) :
    result.headData = encode block.header ∧ ∃ parentHeader rest, decode params.parentHead = some (parentHeader, rest) ∧
      block.header.parentHash = Header.hash parentHeader ∧
      ∃ proof, ProofDatabase.toMemoryDb parentHeader.stateRoot proof = some parentState := by
  obtain ⟨blockData, parentHeader, rest, rest', read, rfl, readHead, database⟩ := describes
  unfold validateBlock at h
  rw [read, readHead] at h
  simp only [Option.bind_eq_bind, Option.bind_some] at h
  split at h
  · cases h
  · rename_i linked
    obtain ⟨inherentData, found, h⟩ := Option.bind_eq_some_iff.mp h
    split at h
    · cases h
    · rw [database, Option.bind_some] at h
      obtain ⟨_, _, h⟩ := Option.bind_eq_some_iff.mp h
      obtain ⟨hrmpWatermark, _, h⟩ := Option.bind_eq_some_iff.mp h
      cases h
      exact ⟨rfl, parentHeader, rest', readHead, (not_not.mp linked).symm, _, database⟩

namespace Candidate
variable {c c' : Candidate V C}

theorem Valid.executed (valid : c.Valid) : executeBlock c.block c.parentState = .ok () c.post := by
  obtain ⟨_, _, _, executed, _⟩ := validateBlock_ok valid.describes valid.validated
  exact executed

theorem Valid.parent (valid : c.Valid) (valid' : c'.Valid) (follows : c.Follows c') [LawfulProofs] :
    c'.block.header.parentHash = c.block.header.hash ∧
      Host.storageRoot .v1 c'.parentState = Host.storageRoot .v1 c.post := by
  obtain ⟨head, _⟩ := validateBlock_linked valid.describes valid.validated
  obtain ⟨_, parentHeader, rest, read, linked, proof, database⟩ :=
    validateBlock_linked valid'.describes valid'.validated
  obtain ⟨_, _, stateRoot, _⟩ := executeBlock_ok.mp valid.executed
  rw [show c'.params.parentHead = _ from follows, head, decode_encode_nil] at read
  cases read
  exact ⟨linked, (LawfulProofs.root_eq database).trans stateRoot⟩

end Candidate

/-- The next candidate is built on the block and on the state of this one. -/
structure Candidate.Extends (c c' : Candidate V C) : Prop where
  linked : c'.block.header.parentHash = c.block.header.hash
  state : c'.parentState = c.post

variable {c : Candidate V C} {cs : List (Candidate V C)}

theorem line_extends [LawfulProofs] (valid : ∀ x ∈ c :: cs, x.Valid)
    (line : List.IsChain Candidate.Follows (c :: cs)) (apart : RootsApart (c :: cs)) :
    List.IsChain Candidate.Extends (c :: cs) := by
  induction cs generalizing c with
  | nil => exact .singleton c
  | cons c' cs ih =>
    obtain ⟨follows, line⟩ := List.isChain_cons_cons.mp line
    have here := List.mem_cons_self (a := c) (l := c' :: cs)
    have next := List.mem_cons_of_mem c (List.mem_cons_self (a := c') (l := cs))
    obtain ⟨linked, root⟩ := (valid c here).parent (valid c' next) follows
    have extend : c.Extends c' := ⟨linked, apart c here c' next root⟩
    refine List.isChain_cons_cons.mpr ⟨extend, ih (fun x member => valid x (List.mem_cons_of_mem c member)) line ?_⟩
    exact fun x member x' member' => apart x (List.mem_cons_of_mem c member) x' (List.mem_cons_of_mem c member')

theorem line_imports (valid : ∀ x ∈ c :: cs, x.Valid) (line : List.IsChain Candidate.Extends (c :: cs)) :
    Imported c.parentState ((c :: cs).map Candidate.block) ((c :: cs).getLast (List.cons_ne_nil c cs)).post := by
  induction cs generalizing c with
  | nil => exact .execute (valid c List.mem_cons_self).executed (.done _)
  | cons c' cs ih =>
    obtain ⟨extend, line⟩ := List.isChain_cons_cons.mp line
    have later := ih (fun x member => valid x (List.mem_cons_of_mem c member)) line
    rw [extend.state] at later
    exact .execute (valid c List.mem_cons_self).executed later

end
end Tuxedo.Parachain
