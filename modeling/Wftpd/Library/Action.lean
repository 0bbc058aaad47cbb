import Mathlib.Order.Defs.PartialOrder

/-! Programs that read and change a state and may fail.

A failure keeps the state changes made before it, as an early return of an
effectful procedure does. Two judgments speak about a program: `Moves` about the
relation of its first and its final state whatever the answer, and `Agrees` about
two executions from related states. Each comes with the rules for sequencing.
-/

set_option autoImplicit false

namespace Wftpd.Library

def Action (σ ε α : Type) : Type := σ → Except ε α × σ

namespace Action

variable {σ τ ε δ α β : Type}

protected def pure (value : α) : Action σ ε α := fun state => (.ok value, state)

protected def bind (first : Action σ ε α) (next : α → Action σ ε β) : Action σ ε β := fun state =>
  match first state with
  | (.ok value, state) => next value state
  | (.error why, state) => (.error why, state)

instance : Monad (Action σ ε) where
  pure := Action.pure
  bind := Action.bind

def fail (why : ε) : Action σ ε α := fun state => (.error why, state)

def read (view : σ → α) : Action σ ε α := fun state => (.ok (view state), state)

def modify (change : σ → σ) : Action σ ε Unit := fun state => (.ok (), change state)

def lift (result : Except ε α) : Action σ ε α := fun state => (result, state)

def query (ask : σ → Except ε α) : Action σ ε α := fun state => (ask state, state)

def check (holds : Bool) (why : ε) : Action σ ε Unit := if holds then Pure.pure () else fail why

/-- Run to the end and hand on the answer, whatever it is. -/
def outcome (action : Action σ ε α) : Action σ δ (Except ε α) :=
  fun state => (.ok (action state).1, (action state).2)

/-- Run on one component of a larger state, translating the error. -/
def zoom (focus : τ → σ) (put : τ → σ → τ) (translate : ε → δ) (action : Action σ ε α) : Action τ δ α :=
  fun state => ((action (focus state)).1.mapError translate, put state (action (focus state)).2)

@[simp] theorem pure_run (value : α) (state : σ) :
    (Pure.pure value : Action σ ε α) state = (.ok value, state) := rfl

@[simp] theorem read_run (view : σ → α) (state : σ) :
    (read view : Action σ ε α) state = (.ok (view state), state) := rfl

@[simp] theorem modify_run (change : σ → σ) (state : σ) :
    (modify change : Action σ ε Unit) state = (.ok (), change state) := rfl

@[simp] theorem query_run (ask : σ → Except ε α) (state : σ) : query ask state = (ask state, state) := rfl

@[simp] theorem outcome_run (action : Action σ ε α) (state : σ) :
    (outcome action : Action σ δ (Except ε α)) state = (.ok (action state).1, (action state).2) := rfl

theorem check_run (holds : Bool) (why : ε) (state : σ) :
    check holds why state = (if holds then .ok () else .error why, state) := by
  cases holds <;> rfl

theorem check_ok {holds : Bool} {why : ε} {state after : σ} (ran : check holds why state = (.ok (), after)) :
    holds = true := by
  cases holds with
  | true => rfl
  | false => cases ran

theorem bind_run (first : Action σ ε α) (next : α → Action σ ε β) (state : σ) :
    (first >>= next) state = match first state with
      | (.ok value, state) => next value state
      | (.error why, state) => (.error why, state) := rfl

theorem bind_run_ok {first : Action σ ε α} {next : α → Action σ ε β} {state state' : σ} {value : α}
    (run : first state = (.ok value, state')) : (first >>= next) state = next value state' := by
  rw [bind_run, run]

theorem bind_run_error {first : Action σ ε α} {next : α → Action σ ε β} {state state' : σ} {why : ε}
    (run : first state = (.error why, state')) : (first >>= next) state = (.error why, state') := by
  rw [bind_run, run]

theorem bind_ok {first : Action σ ε α} {next : α → Action σ ε β} {state final : σ} {result : β}
    (run : (first >>= next) state = (.ok result, final)) :
    ∃ value middle, first state = (.ok value, middle) ∧ next value middle = (.ok result, final) := by
  rw [bind_run] at run
  split at run
  · next value middle ran => exact ⟨value, middle, ran, run⟩
  · next why middle ran => simp at run

/-- A sequence that fails has failed in its first part or, past it, in its second. -/
theorem bind_failed {first : Action σ ε α} {next : α → Action σ ε β} {state final : σ} {why : ε}
    (run : (first >>= next) state = (.error why, final)) :
    first state = (.error why, final) ∨
      ∃ value middle, first state = (.ok value, middle) ∧ next value middle = (.error why, final) := by
  rw [bind_run] at run
  split at run
  · next value middle ran => exact .inr ⟨value, middle, ran, run⟩
  · next other middle ran =>
      cases run
      exact .inl ran

/-- To judge a sequence, judge where its first part fails and go on where it succeeds. -/
theorem bind_cases {first : Action σ ε α} {next : α → Action σ ε β} {state : σ}
    (final : Except ε β × σ → Prop)
    (failed : ∀ why after, first state = (.error why, after) → final (.error why, after))
    (continued : ∀ value after, first state = (.ok value, after) → final (next value after)) :
    final ((first >>= next) state) := by
  cases run : first state with
  | mk answer after =>
      cases answer with
      | ok value =>
          rw [bind_run_ok run]
          exact continued value after run
      | error why =>
          rw [bind_run_error run]
          exact failed why after run

section Moves

/-- Whatever the answer, the final state is related to the first. -/
def Moves (relation : σ → σ → Prop) (action : Action σ ε α) : Prop :=
  ∀ state, relation state (action state).2

variable {relation : σ → σ → Prop}

theorem Moves.bind (compose : ∀ a b c, relation a b → relation b c → relation a c)
    {first : Action σ ε α} {next : α → Action σ ε β}
    (start : Moves relation first) (finish : ∀ value, Moves relation (next value)) :
    Moves relation (first >>= next) := by
  intro state
  have ran := start state
  rw [bind_run]
  split
  · next value middle same =>
      rw [same] at ran
      exact compose _ _ _ ran (finish value middle)
  · next why middle same =>
      rw [same] at ran
      exact ran

theorem Moves.zoom {focus : τ → σ} {put : τ → σ → τ} {translate : ε → δ} {larger : τ → τ → Prop}
    (embed : ∀ state part, relation (focus state) part → larger state (put state part))
    {action : Action σ ε α} (moves : Moves relation action) :
    Moves larger (action.zoom focus put translate) :=
  fun state => embed _ _ (moves (focus state))

end Moves

section Still

/-- It only looks: whatever it answers, the state stays as it was. -/
def Still (action : Action σ ε α) : Prop := Moves (fun state state' => state' = state) action

theorem still_pure (value : α) : Still (Pure.pure value : Action σ ε α) := fun _ => rfl

theorem still_fail (why : ε) : Still (fail why : Action σ ε α) := fun _ => rfl

theorem still_read (view : σ → α) : Still (read view : Action σ ε α) := fun _ => rfl

theorem still_lift (result : Except ε α) : Still (lift result : Action σ ε α) := fun _ => rfl

theorem still_query (ask : σ → Except ε α) : Still (query ask) := fun _ => rfl

theorem still_check (holds : Bool) (why : ε) : Still (check holds why : Action σ ε Unit) := by
  cases holds
  · exact still_fail why
  · exact still_pure ()

theorem Still.bind {first : Action σ ε α} {next : α → Action σ ε β} (start : Still first)
    (finish : ∀ value, Still (next value)) : Still (first >>= next) :=
  Moves.bind (fun _ _ _ left right => right.trans left) start finish

/-- What follows and only looks leaves the state as it is. -/
theorem Still.before {first : Action σ ε α} {next : α → Action σ ε β} {state : σ}
    (rest : ∀ value, Still (next value)) : ((first >>= next) state).2 = (first state).2 := by
  apply bind_cases fun result => result.2 = (first state).2
  · intro why after ran
    rw [ran]
  · intro value after ran
    rw [ran]
    exact rest value after

/-- Past an action that only looks: it fails here, or goes on from here. -/
theorem Still.followed {first : Action σ ε α} {next : α → Action σ ε β} {state : σ} (still : Still first)
    (final : Except ε β × σ → Prop) (failed : ∀ why, final (.error why, state))
    (continued : ∀ value, first state = (.ok value, state) → final (next value state)) :
    final ((first >>= next) state) := by
  have same := still state
  apply bind_cases final
  · intro why after ran
    rw [ran] at same
    simp only at same
    subst after
    exact failed why
  · intro value after ran
    rw [ran] at same
    simp only at same
    subst after
    exact continued value ran

theorem Still.bind_ok {first : Action σ ε α} {next : α → Action σ ε β} {state final : σ} {result : β}
    (still : Still first) (run : (first >>= next) state = (.ok result, final)) :
    ∃ value, first state = (.ok value, state) ∧ next value state = (.ok result, final) := by
  obtain ⟨value, middle, ran, rest⟩ := Action.bind_ok run
  have same : state = middle := by
    have kept := still state
    rw [ran] at kept
    exact kept.symm
  subst same
  exact ⟨value, ran, rest⟩

theorem Still.bind_failed {first : Action σ ε α} {next : α → Action σ ε β} {state final : σ} {why : ε}
    (still : Still first) (run : (first >>= next) state = (.error why, final)) :
    final = state ∨ ∃ value, first state = (.ok value, state) ∧ next value state = (.error why, final) := by
  have kept := still state
  rcases Action.bind_failed run with failed | ⟨value, middle, ran, rest⟩
  · rw [failed] at kept
    exact .inl kept
  · rw [ran] at kept
    simp only at kept
    subst middle
    exact .inr ⟨value, ran, rest⟩

end Still

section Leaves
variable {γ : Type} {view : σ → γ}

/-- Some part of the state stays as it was, whatever the answer. -/
def Leaves (view : σ → γ) (action : Action σ ε α) : Prop := Moves (fun state state' => view state' = view state) action

theorem Still.leaves {action : Action σ ε α} (still : Still action) : Leaves view action :=
  fun state => congrArg view (still state)

theorem Leaves.bind {first : Action σ ε α} {next : α → Action σ ε β} (start : Leaves view first)
    (finish : ∀ value, Leaves view (next value)) : Leaves view (first >>= next) :=
  Moves.bind (fun _ _ _ left right => right.trans left) start finish

/-- Past an action that leaves a view alone, with what it answered. -/
theorem Leaves.followed {first : Action σ ε α} {next : α → Action σ ε β} {state : σ} (leaves : Leaves view first)
    (final : Except ε β × σ → Prop)
    (failed : ∀ why after, view after = view state → final (.error why, after))
    (continued : ∀ value after, first state = (.ok value, after) → view after = view state →
      final (next value after)) : final ((first >>= next) state) := by
  have same := leaves state
  apply bind_cases final
  · intro why after ran
    rw [ran] at same
    exact failed why after same
  · intro value after ran
    rw [ran] at same
    exact continued value after ran same

/-- What follows and leaves a view alone does not matter to it. -/
theorem Leaves.before {first : Action σ ε α} {next : α → Action σ ε β} {state : σ}
    (rest : ∀ value, Leaves view (next value)) : view ((first >>= next) state).2 = view (first state).2 := by
  apply bind_cases fun result => view result.2 = view (first state).2
  · intro why after ran
    rw [ran]
  · intro value after ran
    rw [ran]
    exact rest value after

end Leaves

section Avoids
variable {why : ε}

/-- It may fail, but never with this error. -/
def Avoids (why : ε) (action : Action σ ε α) : Prop := ∀ state, (action state).1 ≠ .error why

theorem avoids_pure (value : α) : Avoids why (Pure.pure value : Action σ ε α) := fun _ failed => by cases failed

theorem avoids_modify (change : σ → σ) : Avoids why (modify change : Action σ ε Unit) :=
  fun _ failed => by cases failed

theorem avoids_fail {other : ε} (apart : other ≠ why) : Avoids why (fail other : Action σ ε α) :=
  fun _ failed => apart (Except.error.inj failed)

theorem avoids_zoom {focus : τ → σ} {put : τ → σ → τ} {translate : ε → δ} {whyLarger : δ}
    (apart : ∀ inner, translate inner ≠ whyLarger) (action : Action σ ε α) :
    Avoids whyLarger (action.zoom focus put translate) := by
  intro state failed
  simp only [zoom] at failed
  cases answer : (action (focus state)).1 with
  | ok value =>
      rw [answer] at failed
      cases failed
  | error inner =>
      rw [answer] at failed
      exact apart inner (Except.error.inj failed)

theorem Avoids.bind {first : Action σ ε α} {next : α → Action σ ε β} (start : Avoids why first)
    (finish : ∀ value, Avoids why (next value)) : Avoids why (first >>= next) := by
  intro state
  apply bind_cases fun result => result.1 ≠ .error why
  · intro other after ran same
    have avoided := start state
    rw [ran] at avoided
    cases same
    exact avoided rfl
  · intro value after _
    exact finish value after

end Avoids

section Agrees

/-- Two executions from related states answer alike and end related. -/
def Agrees (related : σ → σ → Prop) (action : Action σ ε α) : Prop :=
  ∀ first second, related first second →
    (action first).1 = (action second).1 ∧ related (action first).2 (action second).2

variable {related : σ → σ → Prop}

theorem Agrees.pure (value : α) : Agrees related (Pure.pure value : Action σ ε α) :=
  fun _ _ same => ⟨rfl, same⟩

theorem Agrees.fail (why : ε) : Agrees related (fail why : Action σ ε α) :=
  fun _ _ same => ⟨rfl, same⟩

theorem Agrees.lift (result : Except ε α) : Agrees related (lift result : Action σ ε α) :=
  fun _ _ same => ⟨rfl, same⟩

theorem Agrees.read {view : σ → α} (alike : ∀ first second, related first second → view first = view second) :
    Agrees related (read view : Action σ ε α) :=
  fun _ _ same => ⟨by simp only [read_run, alike _ _ same], same⟩

theorem Agrees.query {ask : σ → Except ε α} (alike : ∀ first second, related first second → ask first = ask second) :
    Agrees related (query ask : Action σ ε α) :=
  fun _ _ same => ⟨alike _ _ same, same⟩

theorem Agrees.check (holds : Bool) (why : ε) : Agrees related (check holds why : Action σ ε Unit) := by
  cases holds
  · exact Agrees.fail why
  · exact Agrees.pure ()

theorem Agrees.modify {change : σ → σ}
    (alike : ∀ first second, related first second → related (change first) (change second)) :
    Agrees related (modify change : Action σ ε Unit) :=
  fun _ _ same => ⟨rfl, alike _ _ same⟩

theorem Agrees.bind {first : Action σ ε α} {next : α → Action σ ε β}
    (start : Agrees related first) (finish : ∀ value, Agrees related (next value)) :
    Agrees related (first >>= next) := by
  intro left right same
  obtain ⟨answer, after⟩ := start left right same
  simp only [bind_run]
  cases leftRun : first left with
  | mk leftAnswer leftState =>
      cases rightRun : first right with
      | mk rightAnswer rightState =>
          simp only [leftRun, rightRun] at answer after
          subst answer
          cases leftAnswer with
          | ok value => exact finish value _ _ after
          | error why => exact ⟨rfl, after⟩

theorem Agrees.zoom {focus : τ → σ} {put : τ → σ → τ} {translate : ε → δ} {larger : τ → τ → Prop}
    (project : ∀ first second, larger first second → related (focus first) (focus second))
    (embed : ∀ first second, larger first second → ∀ part other, related part other →
      larger (put first part) (put second other))
    {action : Action σ ε α} (agrees : Agrees related action) :
    Agrees larger (action.zoom focus put translate) := by
  intro first second same
  obtain ⟨answer, after⟩ := agrees _ _ (project _ _ same)
  exact ⟨by simp only [Action.zoom, answer], embed _ _ same _ _ after⟩

end Agrees

section Seen
variable {view : τ → σ}

/-- Seen through a view of the larger state, this is the same program. -/
def Seen (view : τ → σ) (larger : Action τ ε α) (action : Action σ ε α) : Prop :=
  ∀ state, (larger state).1 = (action (view state)).1 ∧ view (larger state).2 = (action (view state)).2

theorem Seen.zoom {put : τ → σ → τ} (law : ∀ state part, view (put state part) = part) (action : Action σ ε α) :
    Seen view (action.zoom view put id) action := by
  intro state
  refine ⟨?_, law state _⟩
  rw [Action.zoom]
  cases (action (view state)).1 <;> rfl

theorem Seen.bind {larger : Action τ ε α} {action : Action σ ε α} {largerNext : α → Action τ ε β}
    {next : α → Action σ ε β} (first : Seen view larger action) (rest : ∀ value, Seen view (largerNext value) (next value)) :
    Seen view (larger >>= largerNext) (action >>= next) := by
  intro state
  obtain ⟨answer, after⟩ := first state
  rw [bind_run, bind_run]
  cases largerRun : larger state with
  | mk largerAnswer largerState =>
      cases run : action (view state) with
      | mk actionAnswer actionState =>
          simp only [largerRun, run] at answer after
          subst answer after
          cases largerAnswer with
          | ok value => exact rest value largerState
          | error why => exact ⟨rfl, rfl⟩

end Seen

end Action

end Wftpd.Library
