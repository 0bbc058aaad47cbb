import Wftpd.Common.SpeedLimiter
import Wftpd.Posix.Path

/-! Failed logins by address, and the bans they lead to.

Times are nanoseconds of the monotonic clock. A call holds the lock throughout, and what it
reads of the clock is one instant. A panic ends the process, so that a call that panics has no
outcome.
-/

set_option autoImplicit false

namespace Wftpd.Common
open Wftpd.Posix Wftpd.Library

structure LoginAttempt where
  count : UInt32
  firstAttempt : Nat
  bannedUntil : Option Nat
  deriving DecidableEq, Repr

structure LoginTracker where
  attempts : Text → Option LoginAttempt
  maxAttempts : UInt32
  banDuration : Nat

namespace LoginAttempt

def bannedAt (attempt : LoginAttempt) (now : Nat) : Bool := attempt.bannedUntil.any (now < ·)

def lifted (attempt : LoginAttempt) : LoginAttempt :=
  match attempt.bannedUntil with
  | some _ => { attempt with bannedUntil := none, count := 0 }
  | none => attempt

def retainedAt (attempt : LoginAttempt) (now : Nat) : Bool :=
  match attempt.bannedUntil with
  | some bannedUntil => now < bannedUntil
  | none => now - attempt.firstAttempt < 3600 * nanosPerSecond

variable {attempt : LoginAttempt} {now bannedUntil : Nat}

@[simp] theorem lifted_firstAttempt : attempt.lifted.firstAttempt = attempt.firstAttempt := by
  unfold lifted
  split <;> rfl

@[simp] theorem lifted_bannedUntil : attempt.lifted.bannedUntil = none := by
  unfold lifted
  split
  · rfl
  · next none => exact none

theorem lifted_of_none (none : attempt.bannedUntil = none) : attempt.lifted = attempt := by
  simp [lifted, none]

theorem lifted_of_some (some : attempt.bannedUntil = some bannedUntil) : attempt.lifted.count = 0 := by
  simp [lifted, some]

theorem bannedAt_iff : attempt.bannedAt now = true ↔ ∃ bannedUntil, attempt.bannedUntil = some bannedUntil ∧ now < bannedUntil := by
  simp [bannedAt, Option.any_eq_true]

theorem retainedAt_of_bannedAt (banned : attempt.bannedAt now = true) : attempt.retainedAt now = true := by
  obtain ⟨bannedUntil, same, early⟩ := bannedAt_iff.mp banned
  simp [retainedAt, same, early]

end LoginAttempt

namespace LoginTracker

def new (maxAttempts : UInt32) (banDurationSecs : UInt64) : LoginTracker :=
  ⟨fun _ => none, maxAttempts, banDurationSecs.toNat * nanosPerSecond⟩

/-- An instant and a duration, where there is such an instant. -/
def instantAfter (now duration : Nat) : Option Nat :=
  if now + duration < 2 ^ 63 * nanosPerSecond then some (now + duration) else none

def put (tracker : LoginTracker) (ip : Text) (attempt : LoginAttempt) : LoginTracker :=
  { tracker with attempts := Function.update tracker.attempts ip (some attempt) }

def checkAndRecordFailure (tracker : LoginTracker) (ip : Text) (now : Nat) : Option (Bool × LoginTracker) :=
  match tracker.attempts ip with
  | some attempt =>
      if attempt.bannedAt now then some (false, tracker)
      else
        let attempt := { attempt.lifted with count := attempt.lifted.count + 1 }
        if attempt.count ≥ tracker.maxAttempts then
          (instantAfter now tracker.banDuration).map fun bannedUntil =>
            (false, tracker.put ip { attempt with bannedUntil := some bannedUntil })
        else some (true, tracker.put ip attempt)
  -- a first failure is not compared with the threshold
  | none => some (true, tracker.put ip ⟨1, now, none⟩)

def isBanned (tracker : LoginTracker) (ip : Text) (now : Nat) : Bool × LoginTracker :=
  match tracker.attempts ip with
  | some attempt => if attempt.bannedAt now then (true, tracker) else (false, tracker.put ip attempt.lifted)
  | none => (false, tracker)

def clearAttempts (tracker : LoginTracker) (ip : Text) : LoginTracker :=
  { tracker with attempts := Function.update tracker.attempts ip none }

def getRemainingAttempts (tracker : LoginTracker) (ip : Text) : UInt32 :=
  match tracker.attempts ip with
  | some attempt =>
      if attempt.bannedUntil.isSome then 0
      else if attempt.count ≤ tracker.maxAttempts then tracker.maxAttempts - attempt.count else 0
  | none => tracker.maxAttempts

def cleanupExpired (tracker : LoginTracker) (now : Nat) : LoginTracker :=
  { tracker with attempts := fun ip => (tracker.attempts ip).filter (·.retainedAt now) }

variable {tracker after : LoginTracker} {ip : Text} {now : Nat} {allowed : Bool}

@[simp] theorem put_attempts (attempt : LoginAttempt) :
    (tracker.put ip attempt).attempts = Function.update tracker.attempts ip (some attempt) := rfl

@[simp] theorem put_maxAttempts (attempt : LoginAttempt) : (tracker.put ip attempt).maxAttempts = tracker.maxAttempts := rfl

@[simp] theorem put_banDuration (attempt : LoginAttempt) : (tracker.put ip attempt).banDuration = tracker.banDuration := rfl

/-- A failure is refused for a ban, is the first, or is counted, and the count may reach the threshold. -/
theorem checkAndRecordFailure_cases (ran : tracker.checkAndRecordFailure ip now = some (allowed, after)) :
    (∃ attempt, tracker.attempts ip = some attempt ∧ attempt.bannedAt now = true ∧ allowed = false ∧ after = tracker) ∨
    (tracker.attempts ip = none ∧ allowed = true ∧ after = tracker.put ip ⟨1, now, none⟩) ∨
    (∃ attempt, tracker.attempts ip = some attempt ∧ attempt.bannedAt now = false ∧
      attempt.lifted.count + 1 < tracker.maxAttempts ∧ allowed = true ∧
      after = tracker.put ip { attempt.lifted with count := attempt.lifted.count + 1 }) ∨
    ∃ attempt, tracker.attempts ip = some attempt ∧ attempt.bannedAt now = false ∧
      tracker.maxAttempts ≤ attempt.lifted.count + 1 ∧ allowed = false ∧
      after = tracker.put ip { attempt.lifted with
        count := attempt.lifted.count + 1, bannedUntil := some (now + tracker.banDuration) } := by
  unfold checkAndRecordFailure at ran
  split at ran
  · next attempt found =>
      split at ran
      · next banned =>
          cases ran
          exact .inl ⟨attempt, found, banned, rfl, rfl⟩
      · next free =>
          have unbanned : attempt.bannedAt now = false := by simpa using free
          simp only at ran
          split at ran
          · next reached =>
              -- past the last instant there is no time for the ban to end, and the process has panicked
              obtain ⟨bannedUntil, there, same⟩ := Option.map_eq_some_iff.mp ran
              rw [instantAfter, Option.ite_none_right_eq_some] at there
              obtain ⟨-, rfl⟩ : _ ∧ now + tracker.banDuration = bannedUntil := by simpa using there
              cases same
              exact .inr (.inr (.inr ⟨attempt, found, unbanned, reached, rfl, rfl⟩))
          · next below =>
              cases ran
              exact .inr (.inr (.inl ⟨attempt, found, unbanned, by simpa using below, rfl, rfl⟩))
  · next none =>
      cases ran
      exact .inr (.inl ⟨none, rfl, rfl⟩)

theorem isBanned_fst : (tracker.isBanned ip now).1 = true ↔
    ∃ attempt, tracker.attempts ip = some attempt ∧ attempt.bannedAt now = true := by
  unfold isBanned
  cases tracker.attempts ip with
  | none => simp
  | some attempt => by_cases banned : attempt.bannedAt now = true <;> simp [banned]

end LoginTracker

inductive TrackerOperation where
  | checkAndRecordFailure (ip : Text)
  | isBanned (ip : Text)
  | clearAttempts (ip : Text)
  | getRemainingAttempts (ip : Text)
  | cleanupExpired
  deriving DecidableEq, Repr

def TrackerOperation.ip? : TrackerOperation → Option Text
  | .checkAndRecordFailure ip | .isBanned ip | .clearAttempts ip | .getRemainingAttempts ip => some ip
  | .cleanupExpired => none

structure TrackerCall where
  operation : TrackerOperation
  now : Nat
  deriving DecidableEq, Repr

/-- A tracker in use. `recorded` has the times of the failures of each address that were not
refused for a ban. -/
structure TrackerRun where
  tracker : LoginTracker
  clock : Nat
  recorded : Text → List Nat

namespace TrackerRun

def start (maxAttempts : UInt32) (banDurationSecs : UInt64) : TrackerRun :=
  ⟨.new maxAttempts banDurationSecs, 0, fun _ => []⟩

def goOn (run : TrackerRun) (now : Nat) (tracker : LoginTracker) : TrackerRun :=
  { run with tracker := tracker, clock := now }

def Refused (run : TrackerRun) (ip : Text) (now : Nat) : Prop :=
  ∃ attempt, run.tracker.attempts ip = some attempt ∧ attempt.bannedAt now = true

instance (run : TrackerRun) (ip : Text) (now : Nat) : Decidable (run.Refused ip now) :=
  decidable_of_iff ((run.tracker.attempts ip).any (·.bannedAt now) = true) (by simp [Refused, Option.any_eq_true])

def record (run : TrackerRun) (ip : Text) (now : Nat) : TrackerRun :=
  if run.Refused ip now then run
  else { run with recorded := Function.update run.recorded ip (run.recorded ip ++ [now]) }

/-- A call is possible when time does not go back. -/
def step (run : TrackerRun) (call : TrackerCall) : Option TrackerRun :=
  if run.clock ≤ call.now then
    match call.operation with
    | .checkAndRecordFailure ip =>
        (run.tracker.checkAndRecordFailure ip call.now).map fun (_, tracker) =>
          (run.record ip call.now).goOn call.now tracker
    | .isBanned ip => some (run.goOn call.now (run.tracker.isBanned ip call.now).2)
    | .clearAttempts ip => some (run.goOn call.now (run.tracker.clearAttempts ip))
    | .getRemainingAttempts _ => some (run.goOn call.now run.tracker)
    | .cleanupExpired => some (run.goOn call.now (run.tracker.cleanupExpired call.now))
  else none

/-- What an operation does to the attempts of one address, and the failures it records there. -/
inductive Moves (maxAttempts : UInt32) (duration now : Nat) (ip : Text) :
    TrackerOperation → Option LoginAttempt → Option LoginAttempt → List Nat → Prop where
  | aside {operation : TrackerOperation} {entry : Option LoginAttempt} (apart : operation.ip? ≠ some ip)
      (particular : operation ≠ .cleanupExpired) : Moves maxAttempts duration now ip operation entry entry []
  | asked {entry : Option LoginAttempt} : Moves maxAttempts duration now ip (.getRemainingAttempts ip) entry entry []
  | cleared {entry : Option LoginAttempt} : Moves maxAttempts duration now ip (.clearAttempts ip) entry none []
  | unknown : Moves maxAttempts duration now ip (.isBanned ip) none none []
  | banned {attempt : LoginAttempt} (banned : attempt.bannedAt now = true) :
      Moves maxAttempts duration now ip (.isBanned ip) (some attempt) (some attempt) []
  | lifted {attempt : LoginAttempt} (unbanned : attempt.bannedAt now = false) :
      Moves maxAttempts duration now ip (.isBanned ip) (some attempt) (some attempt.lifted) []
  | absent : Moves maxAttempts duration now ip .cleanupExpired none none []
  | retained {attempt : LoginAttempt} (retained : attempt.retainedAt now = true) :
      Moves maxAttempts duration now ip .cleanupExpired (some attempt) (some attempt) []
  | forgotten {attempt : LoginAttempt} (forgotten : attempt.retainedAt now = false) :
      Moves maxAttempts duration now ip .cleanupExpired (some attempt) none []
  | refused {attempt : LoginAttempt} (banned : attempt.bannedAt now = true) :
      Moves maxAttempts duration now ip (.checkAndRecordFailure ip) (some attempt) (some attempt) []
  | first : Moves maxAttempts duration now ip (.checkAndRecordFailure ip) none (some ⟨1, now, none⟩) [now]
  | counted {attempt : LoginAttempt} (unbanned : attempt.bannedAt now = false)
      (below : attempt.lifted.count + 1 < maxAttempts) :
      Moves maxAttempts duration now ip (.checkAndRecordFailure ip) (some attempt)
        (some { attempt.lifted with count := attempt.lifted.count + 1 }) [now]
  | bans {attempt : LoginAttempt} (unbanned : attempt.bannedAt now = false)
      (reached : maxAttempts ≤ attempt.lifted.count + 1) :
      Moves maxAttempts duration now ip (.checkAndRecordFailure ip) (some attempt)
        (some { attempt.lifted with count := attempt.lifted.count + 1, bannedUntil := some (now + duration) }) [now]

variable {run next : TrackerRun} {call : TrackerCall}

theorem step_frame (taken : run.step call = some next) :
    run.clock ≤ call.now ∧ next.clock = call.now ∧ next.tracker.maxAttempts = run.tracker.maxAttempts ∧
      next.tracker.banDuration = run.tracker.banDuration := by
  unfold step at taken
  split at taken
  · next forward =>
      refine ⟨forward, ?_⟩
      split at taken
      · next ip _ =>
          obtain ⟨⟨allowed, tracker⟩, ran, same⟩ := Option.map_eq_some_iff.mp taken
          have kept : tracker.maxAttempts = run.tracker.maxAttempts ∧ tracker.banDuration = run.tracker.banDuration := by
            rcases LoginTracker.checkAndRecordFailure_cases ran with
              ⟨-, -, -, -, rfl⟩ | ⟨-, -, rfl⟩ | ⟨-, -, -, -, -, rfl⟩ | ⟨-, -, -, -, -, rfl⟩ <;> exact ⟨rfl, rfl⟩
          subst same
          exact ⟨rfl, kept⟩
      · next ip _ =>
          cases taken
          refine ⟨rfl, ?_⟩
          simp only [goOn, LoginTracker.isBanned]
          split
          · split <;> exact ⟨rfl, rfl⟩
          · exact ⟨rfl, rfl⟩
      all_goals
        cases taken
        exact ⟨rfl, rfl, rfl⟩
  · cases taken

section Moves
variable {ip other : Text} {now : Nat} {allowed : Bool} {after : LoginTracker}

theorem moves_aside {maxAttempts : UInt32} {duration : Nat} {operation : TrackerOperation} {entry : Option LoginAttempt}
    (about : operation.ip? = some other) (apart : ip ≠ other) :
    Moves maxAttempts duration now ip operation entry entry [] := by
  refine .aside ?_ ?_
  · rw [about]
    exact fun same => apart (Option.some.inj same).symm
  · rintro rfl
    cases about

theorem record_refused (refused : run.Refused ip now) : run.record ip now = run := if_pos refused

theorem record_recorded (free : ¬ run.Refused ip now) :
    (run.record ip now).recorded = Function.update run.recorded ip (run.recorded ip ++ [now]) := by
  rw [record, if_neg free]

theorem failure_moves (ran : run.tracker.checkAndRecordFailure ip now = some (allowed, after)) :
    ∃ added, (run.record ip now).recorded ip = run.recorded ip ++ added ∧
      Moves run.tracker.maxAttempts run.tracker.banDuration now ip (.checkAndRecordFailure ip)
        (run.tracker.attempts ip) (after.attempts ip) added := by
  rcases LoginTracker.checkAndRecordFailure_cases ran with
    ⟨attempt, found, banned, -, rfl⟩ | ⟨none, -, rfl⟩ | ⟨attempt, found, unbanned, below, -, rfl⟩ |
    ⟨attempt, found, unbanned, reached, -, rfl⟩
  · refine ⟨[], by rw [record_refused ⟨attempt, found, banned⟩, List.append_nil], ?_⟩
    rw [found]
    exact .refused banned
  · refine ⟨[now], by rw [record_recorded (by simp [Refused, none]), Function.update_self], ?_⟩
    rw [LoginTracker.put_attempts, Function.update_self, none]
    exact .first
  · refine ⟨[now], by rw [record_recorded (by simp [Refused, found, unbanned]), Function.update_self], ?_⟩
    rw [LoginTracker.put_attempts, Function.update_self, found]
    exact .counted unbanned below
  · refine ⟨[now], by rw [record_recorded (by simp [Refused, found, unbanned]), Function.update_self], ?_⟩
    rw [LoginTracker.put_attempts, Function.update_self, found]
    exact .bans unbanned reached

theorem failure_other (ran : run.tracker.checkAndRecordFailure other now = some (allowed, after)) (apart : ip ≠ other) :
    (run.record other now).recorded ip = run.recorded ip ∧ after.attempts ip = run.tracker.attempts ip := by
  constructor
  · by_cases refused : run.Refused other now
    · rw [record_refused refused]
    · rw [record_recorded refused, Function.update_of_ne apart]
  · rcases LoginTracker.checkAndRecordFailure_cases ran with
      ⟨-, -, -, -, rfl⟩ | ⟨-, -, rfl⟩ | ⟨-, -, -, -, -, rfl⟩ | ⟨-, -, -, -, -, rfl⟩ <;> simp [apart]

theorem isBanned_moves {tracker : LoginTracker} : Moves tracker.maxAttempts tracker.banDuration now ip (.isBanned ip)
    (tracker.attempts ip) ((tracker.isBanned ip now).2.attempts ip) [] := by
  unfold LoginTracker.isBanned
  split
  · next attempt found =>
      split
      · next banned =>
          rw [found]
          exact .banned banned
      · next free =>
          rw [found, LoginTracker.put_attempts, Function.update_self]
          exact .lifted (by simpa using free)
  · next none =>
      rw [none]
      exact .unknown

theorem isBanned_other {tracker : LoginTracker} (apart : ip ≠ other) :
    (tracker.isBanned other now).2.attempts ip = tracker.attempts ip := by
  unfold LoginTracker.isBanned
  split
  · split <;> simp [apart]
  · rfl

theorem cleanup_moves {tracker : LoginTracker} : Moves tracker.maxAttempts tracker.banDuration now ip .cleanupExpired
    (tracker.attempts ip) ((tracker.cleanupExpired now).attempts ip) [] := by
  simp only [LoginTracker.cleanupExpired]
  cases tracker.attempts ip with
  | none => exact .absent
  | some attempt =>
      cases retained : attempt.retainedAt now with
      | true =>
          rw [Option.filter_some, if_pos retained]
          exact .retained retained
      | false =>
          rw [Option.filter_some, if_neg (by rw [retained]; decide)]
          exact .forgotten retained

theorem step_moves (taken : run.step call = some next) (ip : Text) :
    ∃ added, next.recorded ip = run.recorded ip ++ added ∧
      Moves run.tracker.maxAttempts run.tracker.banDuration call.now ip call.operation (run.tracker.attempts ip)
        (next.tracker.attempts ip) added := by
  obtain ⟨operation, now⟩ := call
  unfold step at taken
  split at taken
  swap
  · cases taken
  cases operation with
  | checkAndRecordFailure other =>
      obtain ⟨⟨allowed, tracker⟩, ran, rfl⟩ := Option.map_eq_some_iff.mp taken
      -- an operation on one address writes that one entry of the map
      by_cases own : ip = other
      · subst own
        exact failure_moves ran
      · obtain ⟨recorded, attempts⟩ := failure_other ran own
        refine ⟨[], recorded.trans (List.append_nil _).symm, ?_⟩
        rw [show ((run.record other now).goOn now tracker).tracker.attempts ip = _ from attempts]
        exact moves_aside rfl own
  | isBanned other =>
      cases taken
      refine ⟨[], (List.append_nil _).symm, ?_⟩
      by_cases own : ip = other
      · subst own
        exact isBanned_moves
      · rw [show (run.goOn now _).tracker.attempts ip = _ from isBanned_other own]
        exact moves_aside rfl own
  | clearAttempts other =>
      cases taken
      refine ⟨[], (List.append_nil _).symm, ?_⟩
      by_cases own : ip = other
      · subst own
        simp only [goOn, LoginTracker.clearAttempts, Function.update_self]
        exact .cleared
      · simp only [goOn, LoginTracker.clearAttempts, Function.update_of_ne own]
        exact moves_aside rfl own
  | getRemainingAttempts other =>
      cases taken
      refine ⟨[], (List.append_nil _).symm, ?_⟩
      by_cases own : ip = other
      · subst own
        exact .asked
      · exact moves_aside rfl own
  | cleanupExpired =>
      cases taken
      exact ⟨[], (List.append_nil _).symm, cleanup_moves⟩

end Moves

end TrackerRun

end Wftpd.Common
