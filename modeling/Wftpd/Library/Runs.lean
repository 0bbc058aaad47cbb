import Mathlib.Data.List.Basic

/-! Runs of step functions, and what a law about one step says about a whole run.

`run` drives a machine that answers every input; `exec` drives one whose steps
may be disabled, such as an interleaving of several parties. A condition on the
steps of a run is evaluated in the state in which each step is taken.
-/

set_option autoImplicit false

namespace Wftpd.Library

variable {σ ι ω β : Type}

section Total
variable (step : σ → ι → ω × σ)

/-- The answers of a run, in order, and the state it ends in. -/
def run : σ → List ι → List ω × σ
  | state, [] => ([], state)
  | state, input :: rest =>
      ((step state input).1 :: (run (step state input).2 rest).1, (run (step state input).2 rest).2)

/-- Every step of the run is taken in a state where the condition holds. -/
def Along (condition : σ → ι → Prop) : σ → List ι → Prop
  | _, [] => True
  | state, input :: rest => condition state input ∧ Along condition (step state input).2 rest

instance (condition : σ → ι → Prop) [∀ state input, Decidable (condition state input)] :
    (state : σ) → (inputs : List ι) → Decidable (Along step condition state inputs)
  | _, [] => isTrue trivial
  | state, input :: rest =>
      have := instDecidableAlong condition (step state input).2 rest
      inferInstanceAs (Decidable (condition state input ∧ Along step condition (step state input).2 rest))

@[simp] theorem run_nil (state : σ) : run step state [] = ([], state) := rfl

@[simp] theorem run_cons (state : σ) (input : ι) (rest : List ι) :
    run step state (input :: rest) =
      ((step state input).1 :: (run step (step state input).2 rest).1,
        (run step (step state input).2 rest).2) := rfl

variable {step}

theorem run_take (state : σ) (inputs : List ι) (count : Nat) :
    (run step state (inputs.take count)).1 = (run step state inputs).1.take count := by
  induction inputs generalizing state count with
  | nil => simp
  | cons input rest ih =>
      cases count with
      | zero => simp
      | succ count => simp [ih]

theorem run_append (state : σ) (earlier later : List ι) :
    run step state (earlier ++ later) =
      ((run step state earlier).1 ++ (run step (run step state earlier).2 later).1,
        (run step (run step state earlier).2 later).2) := by
  induction earlier generalizing state with
  | nil => rfl
  | cons input rest ih => simp only [List.cons_append, run_cons, ih]

theorem run_length (state : σ) (inputs : List ι) : (run step state inputs).1.length = inputs.length := by
  induction inputs generalizing state with
  | nil => rfl
  | cons input rest ih => rw [run_cons, List.length_cons, ih, List.length_cons]

theorem Along.of_forall {condition : ι → Prop} {state : σ} {inputs : List ι}
    (all : ∀ input ∈ inputs, condition input) : Along step (fun _ => condition) state inputs := by
  induction inputs generalizing state with
  | nil => trivial
  | cons input rest ih =>
      exact ⟨all input (by simp), ih fun other member => all other (by simp [member])⟩

theorem Along.append {condition : σ → ι → Prop} {state : σ} {earlier later : List ι} :
    Along step condition state (earlier ++ later) ↔
      Along step condition state earlier ∧ Along step condition (run step state earlier).2 later := by
  induction earlier generalizing state with
  | nil => simp [Along]
  | cons input rest ih => simp [Along, ih, and_assoc]

theorem Along.imp {condition weaker : σ → ι → Prop} {state : σ} {inputs : List ι}
    (along : Along step condition state inputs) (implies : ∀ state input, condition state input → weaker state input) :
    Along step weaker state inputs := by
  induction inputs generalizing state with
  | nil => trivial
  | cons input rest ih => exact ⟨implies state input along.1, ih along.2⟩

theorem Along.and {first second : σ → ι → Prop} {state : σ} {inputs : List ι}
    (left : Along step first state inputs) (right : Along step second state inputs) :
    Along step (fun state input => first state input ∧ second state input) state inputs := by
  induction inputs generalizing state with
  | nil => trivial
  | cons input rest ih => exact ⟨⟨left.1, right.1⟩, ih left.2 right.2⟩

/-- A property that each conditioned step keeps holds after every conditioned run. -/
theorem run_invariant {condition : σ → ι → Prop} {invariant : σ → Prop}
    (keeps : ∀ state input, invariant state → condition state input → invariant (step state input).2)
    {state : σ} {inputs : List ι} (initial : invariant state) (along : Along step condition state inputs) :
    invariant (run step state inputs).2 := by
  induction inputs generalizing state with
  | nil => exact initial
  | cons input rest ih => exact ih (keeps _ _ initial along.1) along.2

/-- What the invariant implies of one answer, it implies of every answer of a run. -/
theorem run_answers {condition : σ → ι → Prop} {invariant : σ → Prop} {good : ι → ω → Prop}
    (keeps : ∀ state input, invariant state → condition state input → invariant (step state input).2)
    (answers : ∀ state input, invariant state → condition state input → good input (step state input).1)
    {state : σ} {inputs : List ι} (initial : invariant state) (along : Along step condition state inputs) :
    ∀ pair ∈ inputs.zip (run step state inputs).1, good pair.1 pair.2 := by
  induction inputs generalizing state with
  | nil => simp
  | cons input rest ih =>
      intro pair member
      simp only [run_cons, List.zip_cons_cons, List.mem_cons] at member
      rcases member with same | member
      · subst pair
        exact answers _ _ initial along.1
      · exact ih (keeps _ _ initial along.1) along.2 pair member

/-- Where the condition says exactly which answers are good, a run answers well
throughout if and only if the condition holds along it. -/
theorem run_answers_iff {condition : σ → ι → Prop} {good : ω → Prop}
    (exact : ∀ state input, good (step state input).1 ↔ condition state input) {state : σ} {inputs : List ι} :
    (∀ answer ∈ (run step state inputs).1, good answer) ↔ Along step condition state inputs := by
  induction inputs generalizing state with
  | nil => simp [Along]
  | cons input rest ih => simp only [run_cons, List.forall_mem_cons, Along, exact, ih]

/-- Two runs that start related, and whose steps keep the relation and answer
alike, answer alike throughout. -/
theorem run_agree {related : σ → σ → Prop} {condition : σ → ι → Prop}
    (agree : ∀ first second input, related first second → condition first input →
      (step first input).1 = (step second input).1 ∧ related (step first input).2 (step second input).2)
    {first second : σ} {inputs : List ι} (initial : related first second)
    (along : Along step condition first inputs) :
    (run step first inputs).1 = (run step second inputs).1 ∧
      related (run step first inputs).2 (run step second inputs).2 := by
  induction inputs generalizing first second with
  | nil => exact ⟨rfl, initial⟩
  | cons input rest ih =>
      obtain ⟨answer, next⟩ := agree _ _ input initial along.1
      obtain ⟨answers, final⟩ := ih next along.2
      exact ⟨by simp only [run_cons, answer, answers], final⟩

section LastMarked
variable (step) (marked : ω → Prop)

/-- In this run the input was answered with a mark in this state, and no later one was. -/
def LastMarked (state : σ) (inputs : List ι) (reached : σ) (input : ι) : Prop :=
  ∃ earlier later, inputs = earlier ++ input :: later ∧ (run step state earlier).2 = reached ∧
    marked (step reached input).1 ∧ ∀ answer ∈ (run step (step reached input).2 later).1, ¬ marked answer

variable {step marked}

theorem LastMarked.cons {state reached : σ} {first input : ι} {rest : List ι}
    (last : LastMarked step marked (step state first).2 rest reached input) :
    LastMarked step marked state (first :: rest) reached input := by
  obtain ⟨earlier, later, rfl, leads, isMarked, unmarked⟩ := last
  exact ⟨first :: earlier, later, rfl, leads, isMarked, unmarked⟩

/-- What only marked steps set is, after a run, as at the start or as the last marked step set it. -/
theorem run_lastMarked (view : σ → β) (sets : σ → ι → β → Prop)
    (keeps : ∀ state input, ¬ marked (step state input).1 → view (step state input).2 = view state)
    (marks : ∀ state input, marked (step state input).1 → sets state input (view (step state input).2))
    (state : σ) (inputs : List ι) :
    view (run step state inputs).2 = view state ∧ (∀ answer ∈ (run step state inputs).1, ¬ marked answer) ∨
      ∃ reached input, LastMarked step marked state inputs reached input ∧
        sets reached input (view (run step state inputs).2) := by
  induction inputs generalizing state with
  | nil => exact .inl ⟨rfl, fun answer member => by cases member⟩
  | cons input rest ih =>
      rw [run_cons]
      rcases ih (step state input).2 with ⟨same, unmarked⟩ | ⟨reached, other, last, set⟩
      · by_cases isMarked : marked (step state input).1
        · right
          refine ⟨state, input, ⟨[], rest, rfl, rfl, isMarked, unmarked⟩, ?_⟩
          rw [same]
          exact marks state input isMarked
        · left
          refine ⟨same.trans (keeps state input isMarked), ?_⟩
          intro answer member
          rcases List.mem_cons.mp member with rfl | member
          · exact isMarked
          · exact unmarked answer member
      · exact .inr ⟨reached, other, last.cons, set⟩

end LastMarked

end Total

section Partial
variable (step : σ → ι → Option σ)

/-- The state after the labelled steps, when each of them is enabled in turn. -/
def exec : σ → List ι → Option σ
  | state, [] => some state
  | state, label :: rest => (step state label).bind fun next => exec next rest

/-- Every enabled step of the execution is taken where the condition holds. -/
def Guarded (condition : σ → ι → Prop) : σ → List ι → Prop
  | _, [] => True
  | state, label :: rest =>
      condition state label ∧ ∀ next, step state label = some next → Guarded condition next rest

@[simp] theorem exec_nil (state : σ) : exec step state [] = some state := rfl

theorem exec_cons {state final : σ} {label : ι} {rest : List ι} :
    exec step state (label :: rest) = some final ↔
      ∃ next, step state label = some next ∧ exec step next rest = some final := by
  simp only [exec, Option.bind_eq_some_iff]

theorem exec_append {state middle : σ} {labels later : List ι} (reached : exec step state labels = some middle) :
    exec step state (labels ++ later) = exec step middle later := by
  induction labels generalizing state with
  | nil =>
      cases reached
      rfl
  | cons label rest ih =>
      obtain ⟨next, taken, reached⟩ := (exec_cons step).mp reached
      rw [List.cons_append, exec, taken, Option.bind_some, ih reached]

variable {step}

theorem Guarded.and {first second : σ → ι → Prop} {state : σ} {labels : List ι}
    (left : Guarded step first state labels) (right : Guarded step second state labels) :
    Guarded step (fun state label => first state label ∧ second state label) state labels := by
  induction labels generalizing state with
  | nil => trivial
  | cons label rest ih =>
      exact ⟨⟨left.1, right.1⟩, fun next taken => ih (left.2 next taken) (right.2 next taken)⟩

theorem Guarded.of_forall {condition : ι → Prop} {state : σ} {labels : List ι}
    (all : ∀ label ∈ labels, condition label) : Guarded step (fun _ => condition) state labels := by
  induction labels generalizing state with
  | nil => trivial
  | cons label rest ih =>
      exact ⟨all label (by simp), fun next _ => ih fun other member => all other (by simp [member])⟩

theorem Guarded.cons {condition : σ → ι → Prop} {state next : σ} {label : ι} {rest : List ι}
    (holds : condition state label) (taken : step state label = some next)
    (guarded : Guarded step condition next rest) : Guarded step condition state (label :: rest) := by
  refine ⟨holds, fun other same => ?_⟩
  cases taken.symm.trans same
  exact guarded

theorem Guarded.append {condition : σ → ι → Prop} {state middle : σ} {earlier later : List ι}
    (first : Guarded step condition state earlier) (reached : exec step state earlier = some middle)
    (second : Guarded step condition middle later) : Guarded step condition state (earlier ++ later) := by
  induction earlier generalizing state with
  | nil =>
      cases reached
      exact second
  | cons label rest ih =>
      obtain ⟨next, taken, reached⟩ := (exec_cons step).mp reached
      exact .cons first.1 taken (ih (first.2 next taken) reached)

theorem exec_invariant {condition : σ → ι → Prop} {invariant : σ → Prop}
    (keeps : ∀ state label next, invariant state → condition state label →
      step state label = some next → invariant next)
    {state final : σ} {labels : List ι} (initial : invariant state)
    (guarded : Guarded step condition state labels) (reached : exec step state labels = some final) :
    invariant final := by
  induction labels generalizing state with
  | nil =>
      cases reached
      exact initial
  | cons label rest ih =>
      obtain ⟨next, taken, reached⟩ := (exec_cons step).mp reached
      exact ih (keeps _ _ _ initial guarded.1 taken) (guarded.2 next taken) reached

/-- What the condition on a step implies under an invariant of the run holds along it. -/
theorem Guarded.of_invariant {condition good : σ → ι → Prop} {invariant : σ → Prop}
    (keeps : ∀ state label next, invariant state → condition state label →
      step state label = some next → invariant next)
    (implies : ∀ state label, invariant state → condition state label → good state label)
    {state : σ} {labels : List ι} (initial : invariant state) (guarded : Guarded step condition state labels) :
    Guarded step good state labels := by
  induction labels generalizing state with
  | nil => trivial
  | cons label rest ih =>
      exact ⟨implies _ _ initial guarded.1, fun next taken =>
        ih (keeps _ _ _ initial guarded.1 taken) (guarded.2 next taken)⟩

/-- What holds along an execution holds at each step that it comes to. -/
theorem Guarded.reached {condition : σ → ι → Prop} {state middle : σ} {earlier later : List ι} {label : ι}
    (guarded : Guarded step condition state (earlier ++ label :: later))
    (reached : exec step state earlier = some middle) : condition middle label := by
  induction earlier generalizing state with
  | nil =>
      cases reached
      exact guarded.1
  | cons first rest ih =>
      obtain ⟨next, taken, reached⟩ := (exec_cons step).mp reached
      exact ih (guarded.2 next taken) reached

/-- And what holds at each step that an execution comes to holds along it. -/
theorem Guarded.of_reached {condition : σ → ι → Prop} {state : σ} {labels : List ι}
    (all : ∀ earlier label later middle, labels = earlier ++ label :: later → exec step state earlier = some middle →
      condition middle label) : Guarded step condition state labels := by
  induction labels generalizing state with
  | nil => trivial
  | cons label rest ih =>
      refine ⟨all [] label rest state rfl rfl, fun next taken => ih ?_⟩
      intro earlier other later middle same reached
      exact all (label :: earlier) other later middle (by rw [same, List.cons_append])
        ((exec_cons step).mpr ⟨next, taken, reached⟩)

theorem Guarded.left {condition : σ → ι → Prop} {state : σ} {earlier later : List ι}
    (guarded : Guarded step condition state (earlier ++ later)) : Guarded step condition state earlier := by
  induction earlier generalizing state with
  | nil => trivial
  | cons label rest ih => exact ⟨guarded.1, fun next taken => ih (guarded.2 next taken)⟩

end Partial

end Wftpd.Library
