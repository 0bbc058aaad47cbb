import Mathlib.Logic.Function.Basic
import Wftpd.Library.Runs

/-! Parties that share a state, each with a program of atomic steps it has yet to take.

A request gives an idle party its program. Taking the first step of a program may change the
shared state and rewrite the rest of that program, and no other. A step that is not possible
yet blocks its party.
-/

set_option autoImplicit false

namespace Wftpd.Library

structure Parties (σ π : Type) where
  shared : σ
  todo : Nat → List π

inductive Move (ρ ι : Type) where
  | arrive (party : Nat) (request : ρ)
  | go (party : Nat) (input : ι)
  deriving DecidableEq, Repr

namespace Parties

variable {σ π ρ ι : Type}

def idle (shared : σ) : Parties σ π := ⟨shared, fun _ => []⟩

def Answered (parties : Parties σ π) : Prop := ∀ party, parties.todo party = []

def At (parties : Parties σ π) (party : Nat) (piece : π) : Prop := (parties.todo party).head? = some piece

theorem idle_answered (shared : σ) : Answered (idle shared : Parties σ π) := fun _ => rfl

theorem Answered.eq_idle {parties : Parties σ π} (answered : parties.Answered) : parties = idle parties.shared := by
  obtain ⟨shared, todo⟩ := parties
  exact congrArg (Parties.mk shared) (funext answered)

theorem Answered.not_at {parties : Parties σ π} (answered : parties.Answered) (party : Nat) (piece : π) :
    ¬ parties.At party piece := by
  rw [At, answered party]
  simp

section Step
variable (program : ρ → List π) (act : Nat → ι → σ → π → List π → Option (σ × List π))

def step (parties : Parties σ π) : Move ρ ι → Option (Parties σ π)
  | .arrive party request =>
      if (parties.todo party).isEmpty then
        some { parties with todo := Function.update parties.todo party (program request) }
      else none
  | .go party input =>
      match parties.todo party with
      | [] => none
      | piece :: rest =>
          (act party input parties.shared piece rest).map fun (shared, rest) =>
            ⟨shared, Function.update parties.todo party rest⟩

variable {program act}

theorem step_arrive {parties next : Parties σ π} {party : Nat} {request : ρ} :
    step program act parties (.arrive party request) = some next ↔
      parties.todo party = [] ∧
        next = { parties with todo := Function.update parties.todo party (program request) } := by
  simp only [step]
  split
  · next free => simpa [List.isEmpty_iff.mp free] using eq_comm
  · next busy => simpa using fun free => absurd (List.isEmpty_iff.mpr free) busy

theorem step_go {parties next : Parties σ π} {party : Nat} {input : ι} :
    step program act parties (.go party input) = some next ↔
      ∃ piece rest shared left, parties.todo party = piece :: rest ∧
        act party input parties.shared piece rest = some (shared, left) ∧
        next = ⟨shared, Function.update parties.todo party left⟩ := by
  simp only [step]
  split
  · next free => simp [free]
  · next piece rest busy =>
      rw [Option.map_eq_some_iff]
      constructor
      · rintro ⟨⟨shared, left⟩, acted, rfl⟩
        exact ⟨piece, rest, shared, left, busy, acted, rfl⟩
      · rintro ⟨piece', rest', shared, left, busy', acted, rfl⟩
        obtain ⟨rfl, rfl⟩ := List.cons.inj (busy.symm.trans busy')
        exact ⟨(shared, left), acted, rfl⟩

theorem exec_arrive {parties : Parties σ π} {party : Nat} {request : ρ} {moves : List (Move ρ ι)}
    (free : parties.todo party = []) :
    exec (step program act) parties (.arrive party request :: moves) =
      exec (step program act) ⟨parties.shared, Function.update parties.todo party (program request)⟩ moves := by
  rw [exec, step_arrive.mpr ⟨free, rfl⟩, Option.bind_some]

theorem exec_go {parties : Parties σ π} {party : Nat} {input : ι} {piece : π} {rest left : List π} {shared : σ}
    {moves : List (Move ρ ι)} (todo : parties.todo party = piece :: rest)
    (acted : act party input parties.shared piece rest = some (shared, left)) :
    exec (step program act) parties (.go party input :: moves) =
      exec (step program act) ⟨shared, Function.update parties.todo party left⟩ moves := by
  rw [exec, step_go.mpr ⟨piece, rest, shared, left, todo, acted, rfl⟩, Option.bind_some]

/-- The same, of a program that was put in place. -/
theorem exec_next {party : Nat} {input : ι} {todo : Nat → List π} {piece : π} {rest left : List π} {before shared : σ}
    {moves : List (Move ρ ι)} (acted : act party input before piece rest = some (shared, left)) :
    exec (step program act) ⟨before, Function.update todo party (piece :: rest)⟩ (.go party input :: moves) =
      exec (step program act) ⟨shared, Function.update todo party left⟩ moves := by
  rw [exec_go (Function.update_self ..) acted, Function.update_idem]

section Alone
variable (program act)

/-- One party takes steps, and no other does. -/
def RunsTo (party : Nat) (first last : Parties σ π) : Prop :=
  ∃ inputs : List ι, exec (step program act) first (inputs.map fun input => (.go party input : Move ρ ι)) = some last

variable {program act}

theorem RunsTo.refl (party : Nat) (parties : Parties σ π) : RunsTo program act party parties parties := ⟨[], rfl⟩

theorem RunsTo.trans {party : Nat} {first second third : Parties σ π} (left : RunsTo program act party first second)
    (right : RunsTo program act party second third) : RunsTo program act party first third := by
  obtain ⟨inputs, reached⟩ := left
  obtain ⟨later, onward⟩ := right
  exact ⟨inputs ++ later, by rw [List.map_append, exec_append _ reached, onward]⟩

theorem RunsTo.go {party : Nat} (input : ι) {parties last : Parties σ π} {piece : π} {rest left : List π} {shared : σ}
    (todo : parties.todo party = piece :: rest)
    (acted : act party input parties.shared piece rest = some (shared, left))
    (onward : RunsTo program act party ⟨shared, Function.update parties.todo party left⟩ last) :
    RunsTo program act party parties last := by
  obtain ⟨inputs, reached⟩ := onward
  exact ⟨input :: inputs, by rw [List.map_cons, exec_go todo acted, reached]⟩

theorem RunsTo.next {party : Nat} (input : ι) {todo : Nat → List π} {last : Parties σ π} {piece : π}
    {rest left : List π} {before shared : σ} (acted : act party input before piece rest = some (shared, left))
    (onward : RunsTo program act party ⟨shared, Function.update todo party left⟩ last) :
    RunsTo program act party ⟨before, Function.update todo party (piece :: rest)⟩ last := by
  refine .go input (Function.update_self ..) acted ?_
  rwa [Function.update_idem]

end Alone

theorem at_update {parties : Parties σ π} {shared : σ} {party other : Nat} {left : List π} {piece : π}
    (apart : other ≠ party) (waits : parties.At other piece) :
    (⟨shared, Function.update parties.todo party left⟩ : Parties σ π).At other piece := by
  simpa only [At, Function.update_of_ne apart] using waits

/-- A proof outline: the shared state is good, and what each party has yet to do fits it. It is
kept when requests bring programs that fit, and a step keeps both for its own party and does
not disturb the others. -/
theorem step_outline {good : σ → Prop} {fits : Nat → σ → List π → Prop} {condition : Parties σ π → Move ρ ι → Prop}
    (arrives : ∀ parties party request, fits party parties.shared [] →
      condition parties (.arrive party request) → fits party parties.shared (program request))
    (acts : ∀ parties party input piece rest shared left, good parties.shared →
      fits party parties.shared (piece :: rest) → parties.todo party = piece :: rest →
      condition parties (.go party input) → act party input parties.shared piece rest = some (shared, left) →
      good shared ∧ fits party shared left ∧
        ∀ other pieces, other ≠ party → fits other parties.shared pieces → fits other shared pieces)
    (parties : Parties σ π) (move : Move ρ ι) (next : Parties σ π)
    (outline : good parties.shared ∧ ∀ party, fits party parties.shared (parties.todo party))
    (holds : condition parties move) (taken : step program act parties move = some next) :
    good next.shared ∧ ∀ party, fits party next.shared (next.todo party) := by
  cases move with
  | arrive party request =>
      obtain ⟨free, rfl⟩ := step_arrive.mp taken
      have idle := outline.2 party
      rw [free] at idle
      refine ⟨outline.1, fun other => ?_⟩
      by_cases same : other = party
      · subst other
        simpa using arrives parties party request idle holds
      · simpa [same] using outline.2 other
  | go party input =>
      obtain ⟨piece, rest, shared, left, todo, acted, rfl⟩ := step_go.mp taken
      have own := outline.2 party
      rw [todo] at own
      obtain ⟨kept, fitting, stable⟩ := acts parties party input piece rest shared left outline.1 own todo holds acted
      refine ⟨kept, fun other => ?_⟩
      by_cases same : other = party
      · subst other
        simpa using fitting
      · simpa [same] using stable other _ same (outline.2 other)

/-- The same, where nothing is asked of the shared state itself. -/
theorem step_fits (fits : Nat → σ → List π → Prop) {condition : Parties σ π → Move ρ ι → Prop}
    (arrives : ∀ parties party request, condition parties (.arrive party request) →
      fits party parties.shared (program request))
    (acts : ∀ parties party input piece rest shared left, fits party parties.shared (piece :: rest) →
      parties.todo party = piece :: rest → condition parties (.go party input) →
      act party input parties.shared piece rest = some (shared, left) →
      fits party shared left ∧
        ∀ other pieces, other ≠ party → fits other parties.shared pieces → fits other shared pieces)
    (parties : Parties σ π) (move : Move ρ ι) (next : Parties σ π)
    (outline : ∀ party, fits party parties.shared (parties.todo party)) (holds : condition parties move)
    (taken : step program act parties move = some next) (party : Nat) : fits party next.shared (next.todo party) := by
  have kept : True ∧ ∀ party, fits party next.shared (next.todo party) :=
    step_outline (fun parties party request _ => arrives parties party request)
      (fun parties party input piece rest shared left _ own todo holds acted =>
        ⟨trivial, acts parties party input piece rest shared left own todo holds acted⟩)
      parties move next ⟨trivial, outline⟩ holds taken
  exact kept.2 party

end Step

end Parties

end Wftpd.Library
