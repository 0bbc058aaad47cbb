import Wftpd.Common.FileLogger
import Wftpd.Library.Action

/-! What an action adds to an audit log.

A handler records its success last, after its call. What goes before it either fails, with
nothing but records of failure, or records nothing.
-/

set_option autoImplicit false

namespace Wftpd.Common
open Wftpd.Library

section
variable {σ ε α β : Type} (log : σ → List FileLogInfo)

/-- The records that were appended to a log: a failure records no success, and a success
records what is asked for. -/
def Logged (succeeded : List FileLogInfo → Prop) (before : List FileLogInfo) (result : Except ε α × σ) : Prop :=
  ∃ records, log result.2 = before ++ records ∧
    match result.1 with
    | .ok _ => succeeded records
    | .error _ => ∀ record ∈ records, record.success = false

/-- What succeeds has recorded nothing. -/
def Unlogged (action : Action σ ε α) : Prop := ∀ state, Logged log (· = []) (log state) (action state)

variable {log} {succeeded : List FileLogInfo → Prop}

theorem Logged.imp {stronger : List FileLogInfo → Prop} {before : List FileLogInfo} {result : Except ε α × σ}
    (logged : Logged log stronger before result)
    (implies : ∀ value, result.1 = .ok value → ∀ records, stronger records → succeeded records) :
    Logged log succeeded before result := by
  obtain ⟨answer, after⟩ := result
  obtain ⟨records, same, kind⟩ := logged
  refine ⟨records, same, ?_⟩
  cases answer with
  | ok value => exact implies value rfl records kind
  | error why => exact kind

theorem Logged.refused {free : Bool} {info : FileLogInfo} {before : List FileLogInfo} {why : ε} {state : σ}
    (same : log state = logIfFree free info before) (failure : info.success = false) :
    Logged log succeeded before ((.error why : Except ε α), state) := by
  cases free with
  | true => exact ⟨[info], same, List.forall_mem_singleton.mpr failure⟩
  | false =>
      refine ⟨[], by rw [List.append_nil]; exact same, ?_⟩
      intro record never
      cases never

theorem Unlogged.of_leaves {action : Action σ ε α} (leaves : Action.Leaves log action) : Unlogged log action := by
  intro state
  refine ⟨[], by rw [leaves state, List.append_nil], ?_⟩
  cases (action state).1 with
  | ok value => rfl
  | error why => simp

theorem Unlogged.followed {first : Action σ ε α} {next : α → Action σ ε β} {state : σ} (unlogged : Unlogged log first)
    (continued : ∀ value after, first state = (.ok value, after) → log after = log state →
      Logged log succeeded (log state) (next value after)) :
    Logged log succeeded (log state) ((first >>= next) state) := by
  have logged := unlogged state
  refine Action.bind_cases (Logged log succeeded (log state)) ?_ ?_
  · intro why after ran
    rw [ran] at logged
    exact logged
  · intro value after ran
    rw [ran] at logged
    obtain ⟨records, same, rfl⟩ := logged
    exact continued value after ran (by simpa using same)

theorem Logged.past {first : Action σ ε α} {next : α → Action σ ε β} {state : σ} (still : Action.Still first)
    (continued : ∀ value, first state = (.ok value, state) → Logged log succeeded (log state) (next value state)) :
    Logged log succeeded (log state) ((first >>= next) state) := by
  apply (Unlogged.of_leaves still.leaves).followed
  intro value after ran _
  have same : after = state := by
    have kept := still state
    rwa [ran] at kept
  subst same
  exact continued value ran

theorem Unlogged.bind {first : Action σ ε α} {next : α → Action σ ε β} (start : Unlogged log first)
    (finish : ∀ value, Unlogged log (next value)) : Unlogged log (first >>= next) := by
  intro state
  apply start.followed
  intro value after _ same
  rw [← same]
  exact finish value after

theorem Logged.returns {first : Action σ ε α} {state : σ} {before : List FileLogInfo}
    (logged : Logged log succeeded before (first state)) (reply : α → β) :
    Logged log succeeded before ((first >>= fun value => pure (reply value)) state) := by
  refine Action.bind_cases (Logged log succeeded before) ?_ ?_
  · intro why after ran
    rw [ran] at logged
    exact logged
  · intro value after ran
    rw [ran] at logged
    exact logged

end

end Wftpd.Common
