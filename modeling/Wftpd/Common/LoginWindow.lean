import Mathlib.Order.Bounds.Basic
import Wftpd.Common.LoginBans
import Wftpd.Library.Ring

/-! What the tracker says of attempts that are left, and when it forgets failures. -/

set_option autoImplicit false

namespace Wftpd.Common.TrackerRun
open Wftpd.Posix Wftpd.Library

variable {maxAttempts : UInt32} {ip : Text}

/-- The count of an address without a ban is below the threshold, or its only failure is the first. -/
def Counting (maxAttempts : UInt32) (entry : Option LoginAttempt) : Prop :=
  ∀ attempt, entry = some attempt → attempt.bannedUntil = none →
    attempt.count.toNat < maxAttempts.toNat ∨ attempt.count.toNat ≤ 1

theorem Counting.lifted {attempt : LoginAttempt} (counting : Counting maxAttempts (some attempt)) :
    attempt.lifted.count.toNat < maxAttempts.toNat ∨ attempt.lifted.count.toNat ≤ 1 := by
  cases ban : attempt.bannedUntil with
  | none =>
      rw [LoginAttempt.lifted_of_none ban]
      exact counting attempt rfl ban
  | some bannedUntil =>
      rw [LoginAttempt.lifted_of_some ban]
      exact .inr (Nat.zero_le 1)

theorem counting_moves {duration now : Nat} {operation : TrackerOperation} {entry entry' : Option LoginAttempt}
    {added : List Nat} (counting : Counting maxAttempts entry)
    (moves : Moves maxAttempts duration now ip operation entry entry' added) : Counting maxAttempts entry' := by
  cases moves with
  | aside | asked | unknown | banned | absent | retained | refused => exact counting
  | cleared | forgotten =>
      intro attempt found
      cases found
  | lifted =>
      intro attempt found noBan
      cases found
      exact counting.lifted
  | first =>
      intro attempt found noBan
      cases found
      exact .inr (Nat.le_refl 1)
  | counted unbanned below =>
      intro attempt found noBan
      cases found
      exact .inl (UInt32.lt_iff_toNat_lt.mp below)
  | bans =>
      intro attempt found noBan
      cases found
      cases noBan

theorem counting_step {run next : TrackerRun} {call : TrackerCall}
    (counting : Counting run.tracker.maxAttempts (run.tracker.attempts ip)) (taken : run.step call = some next) :
    Counting next.tracker.maxAttempts (next.tracker.attempts ip) := by
  obtain ⟨added, -, moves⟩ := step_moves taken ip
  rw [(step_frame taken).2.2.1]
  exact counting_moves counting moves

theorem counting_exec {run final : TrackerRun} {calls : List TrackerCall}
    (counting : Counting run.tracker.maxAttempts (run.tracker.attempts ip)) (reached : exec step run calls = some final) :
    Counting final.tracker.maxAttempts (final.tracker.attempts ip) := by
  have keeps : ∀ (earlier : TrackerRun) (call : TrackerCall) (next : TrackerRun),
      Counting earlier.tracker.maxAttempts (earlier.tracker.attempts ip) → True → step earlier call = some next →
        Counting next.tracker.maxAttempts (next.tracker.attempts ip) :=
    fun earlier call next counting _ taken => counting_step counting taken
  exact exec_invariant keeps counting (.of_forall fun _ _ => trivial) reached

section Remaining

/-- No attempts are left exactly to an address that is banned, before it is asked whether it is and
after. -/
def Agrees (tracker : LoginTracker) (ip : Text) (now : Nat) : Prop :=
  (tracker.getRemainingAttempts ip = 0 ↔ (tracker.isBanned ip now).1 = true) ∧
    ((tracker.isBanned ip now).2.getRemainingAttempts ip = 0 ↔ (tracker.isBanned ip now).1 = true)

/-- A ban of the address that has run out is still on record. -/
def Lapsed (tracker : LoginTracker) (ip : Text) (now : Nat) : Prop :=
  ∃ attempt bannedUntil, tracker.attempts ip = some attempt ∧ attempt.bannedUntil = some bannedUntil ∧ bannedUntil ≤ now

theorem remaining_unbanned {tracker : LoginTracker} (atLeastTwo : 2 ≤ tracker.maxAttempts)
    (counting : Counting tracker.maxAttempts (tracker.attempts ip))
    (noBan : ∀ attempt, tracker.attempts ip = some attempt → attempt.bannedUntil = none) :
    tracker.getRemainingAttempts ip ≠ 0 := by
  have two : 2 ≤ tracker.maxAttempts.toNat := atLeastTwo
  unfold LoginTracker.getRemainingAttempts
  cases found : tracker.attempts ip with
  | none =>
      intro zero
      simp [show tracker.maxAttempts = 0 from zero] at two
  | some attempt =>
      have small := counting attempt found (noBan attempt found)
      have below : attempt.count ≤ tracker.maxAttempts := UInt32.le_iff_toNat_le.mpr (by omega)
      simp only [noBan attempt found, Option.isSome_none, Bool.false_eq_true, if_false, if_pos below]
      intro zero
      have difference := UInt32.toNat_sub_of_le _ _ below
      rw [zero, UInt32.toNat_zero] at difference
      omega

theorem remaining_banned {tracker : LoginTracker} {attempt : LoginAttempt} {bannedUntil : Nat}
    (found : tracker.attempts ip = some attempt) (ban : attempt.bannedUntil = some bannedUntil) :
    tracker.getRemainingAttempts ip = 0 := by
  simp [LoginTracker.getRemainingAttempts, found, ban]

/-- A query and the count of what is left agree unless a ban that has run out is on record. -/
theorem agrees_iff {tracker : LoginTracker} (atLeastTwo : 2 ≤ tracker.maxAttempts)
    (counting : Counting tracker.maxAttempts (tracker.attempts ip)) (now : Nat) :
    Agrees tracker ip now ↔ ¬ Lapsed tracker ip now := by
  cases found : tracker.attempts ip with
  | none =>
      have asked : tracker.isBanned ip now = (false, tracker) := by simp [LoginTracker.isBanned, found]
      have left := remaining_unbanned atLeastTwo counting (by simp [found])
      have notLapsed : ¬ Lapsed tracker ip now := by simp [Lapsed, found]
      simp [Agrees, asked, left, notLapsed]
  | some attempt =>
      by_cases banned : attempt.bannedAt now = true
      · obtain ⟨bannedUntil, ban, early⟩ := LoginAttempt.bannedAt_iff.mp banned
        have asked : tracker.isBanned ip now = (true, tracker) := by simp [LoginTracker.isBanned, found, banned]
        have notLapsed : ¬ Lapsed tracker ip now := by simp [Lapsed, found, ban, early]
        simp [Agrees, asked, remaining_banned found ban, notLapsed]
      · have asked : tracker.isBanned ip now = (false, tracker.put ip attempt.lifted) := by
          simp [LoginTracker.isBanned, found, banned]
        cases ban : attempt.bannedUntil with
        | none =>
            have left := remaining_unbanned atLeastTwo counting (by simp [found, ban])
            have kept : (tracker.put ip attempt.lifted).attempts ip = some attempt := by
              rw [LoginTracker.put_attempts, Function.update_self, LoginAttempt.lifted_of_none ban]
            have leftAfter : (tracker.put ip attempt.lifted).getRemainingAttempts ip ≠ 0 :=
              remaining_unbanned atLeastTwo (by rw [kept, ← found]; exact counting) (by simp [kept, ban])
            have notLapsed : ¬ Lapsed tracker ip now := by simp [Lapsed, found, ban]
            simp [Agrees, asked, left, leftAfter, notLapsed]
        | some bannedUntil =>
            -- the ban is over, and nothing has lifted it yet
            have lapsed : Lapsed tracker ip now := by
              refine ⟨attempt, bannedUntil, found, ban, ?_⟩
              by_contra early
              exact banned (LoginAttempt.bannedAt_iff.mpr ⟨bannedUntil, ban, by omega⟩)
            simp [Agrees, asked, remaining_banned found ban, lapsed]

/-- In every state that calls lead to, they agree unless a ban of the address has run out and is
still on record. -/
theorem remaining_agrees_iff {banDurationSecs : UInt64} (atLeastTwo : 2 ≤ maxAttempts) {calls : List TrackerCall}
    {reached : TrackerRun} (ran : exec step (start maxAttempts banDurationSecs) calls = some reached) (ip : Text)
    (now : Nat) : Agrees reached.tracker ip now ↔ ¬ Lapsed reached.tracker ip now := by
  have sameMax : reached.tracker.maxAttempts = maxAttempts := (exec_frame ran).2.1
  have fresh : Counting (start maxAttempts banDurationSecs).tracker.maxAttempts
      ((start maxAttempts banDurationSecs).tracker.attempts ip) := by
    intro attempt found
    cases found
  exact agrees_iff (sameMax.symm ▸ atLeastTwo) (counting_exec fresh ran) now

def twoFailures : List TrackerCall := [⟨.checkAndRecordFailure guest, 1⟩, ⟨.checkAndRecordFailure guest, 2⟩]

theorem remaining_agrees_iff_banned : ∃ reached,
    exec step (start 2 60) twoFailures = some reached ∧ Agrees reached.tracker guest 3 := by
  refine ⟨_, rfl, (@remaining_agrees_iff 2 60 (by decide) twoFailures _ rfl guest 3).mpr ?_⟩
  rintro ⟨attempt, bannedUntil, found, ban, early⟩
  cases found
  cases ban
  exact absurd early (by decide)

/-- When the ban is over, no attempts are left to a guest who is not banned. -/
theorem lapsed_ban_disagrees : ¬ ∀ (maxAttempts : UInt32) (banDurationSecs : UInt64), 2 ≤ maxAttempts →
    ∀ (calls : List TrackerCall) (reached : TrackerRun),
    exec step (start maxAttempts banDurationSecs) calls = some reached →
    ∀ (ip : Text) (now : Nat), Agrees reached.tracker ip now := by
  intro law
  have agrees := (law 2 60 (by decide) twoFailures _ rfl guest 60000000002).1.mp (by decide)
  exact absurd agrees (by decide)

end Remaining

section Window

/-- The failures that the count of an address has counted: its last ones. -/
def counted (run : TrackerRun) (ip : Text) (attempt : LoginAttempt) : List Nat :=
  (run.recorded ip).rtake attempt.count.toNat

/-- The first attempt of each address without a ban is the earliest failure counted, and a cleanup
keeps those whose earliest is within the hour. -/
def WindowKept (run : TrackerRun) : Prop :=
  ∀ ip attempt, run.tracker.attempts ip = some attempt → 1 ≤ attempt.count.toNat → attempt.bannedUntil = none →
    IsLeast {time | time ∈ run.counted ip attempt} attempt.firstAttempt ∧
      ∀ first now, IsLeast {time | time ∈ run.counted ip attempt} first → now - first < 3600 * nanosPerSecond →
        (run.tracker.cleanupExpired now).attempts ip = some attempt

/-- A failure starts the count of an address again that had been reset, and which keeps the time of an
earlier first attempt. -/
def Restarts (run : TrackerRun) (call : TrackerCall) : Prop :=
  ∃ ip attempt, call.operation = .checkAndRecordFailure ip ∧ run.tracker.attempts ip = some attempt ∧
    attempt.bannedAt call.now = false ∧ attempt.lifted.count = 0 ∧ attempt.firstAttempt ≠ call.now ∧
    2 ≤ run.tracker.maxAttempts

/-- What carries the window: the failures recorded are in order and past, the count counts some of
them, and the first of those is the first attempt. -/
structure Windowed (run : TrackerRun) (ip : Text) : Prop where
  counting : Counting run.tracker.maxAttempts (run.tracker.attempts ip)
  ordered : (run.recorded ip).Pairwise (· ≤ ·)
  past : ∀ time ∈ run.recorded ip, time ≤ run.clock
  first : ∀ attempt, run.tracker.attempts ip = some attempt → 1 ≤ attempt.count.toNat → attempt.bannedUntil = none →
    (run.counted ip attempt).head? = some attempt.firstAttempt

theorem Windowed.isLeast {run : TrackerRun} {attempt : LoginAttempt} (windowed : Windowed run ip)
    (found : run.tracker.attempts ip = some attempt) (positive : 1 ≤ attempt.count.toNat)
    (noBan : attempt.bannedUntil = none) : IsLeast {time | time ∈ run.counted ip attempt} attempt.firstAttempt := by
  have first := windowed.first attempt found positive noBan
  have ordered : (run.counted ip attempt).Pairwise (· ≤ ·) :=
    windowed.ordered.sublist (rtake_suffix _ _).sublist
  obtain ⟨rest, same⟩ := List.head?_eq_some_iff.mp first
  rw [same] at ordered ⊢
  refine ⟨List.mem_cons_self, fun time member => ?_⟩
  rcases List.mem_cons.mp member with rfl | member
  · exact Nat.le_refl _
  · exact List.rel_of_pairwise_cons ordered member

theorem Windowed.windowKept {run : TrackerRun} (windowed : ∀ ip, Windowed run ip) : WindowKept run := by
  intro ip attempt found positive noBan
  have isLeast := (windowed ip).isLeast found positive noBan
  refine ⟨isLeast, fun first now earliest recent => ?_⟩
  have same : first = attempt.firstAttempt := earliest.unique isLeast
  have retained : attempt.retainedAt now = true := by simpa [LoginAttempt.retainedAt, noBan, ← same] using recent
  simp [LoginTracker.cleanupExpired, found, retained]

theorem first_moves {duration now : Nat} {operation : TrackerOperation} {entry entry' : Option LoginAttempt}
    {added recorded : List Nat} (counting : Counting maxAttempts entry)
    (first : ∀ attempt, entry = some attempt → 1 ≤ attempt.count.toNat → attempt.bannedUntil = none →
      (recorded.rtake attempt.count.toNat).head? = some attempt.firstAttempt)
    (goesOn : operation = .checkAndRecordFailure ip → ∀ attempt, entry = some attempt → attempt.bannedAt now = false →
      attempt.lifted.count = 0 → 2 ≤ maxAttempts → attempt.firstAttempt = now)
    (moves : Moves maxAttempts duration now ip operation entry entry' added) :
    ∀ attempt, entry' = some attempt → 1 ≤ attempt.count.toNat → attempt.bannedUntil = none →
      ((recorded ++ added).rtake attempt.count.toNat).head? = some attempt.firstAttempt := by
  intro attempt' found positive noBan
  cases moves with
  | aside | asked | unknown | banned | absent | retained | refused =>
      rw [List.append_nil]
      exact first attempt' found positive noBan
  | cleared | forgotten => cases found
  | @lifted attempt unbanned =>
      cases found
      rw [List.append_nil]
      cases ban : attempt.bannedUntil with
      | none =>
          rw [LoginAttempt.lifted_of_none ban] at positive ⊢
          exact first attempt rfl positive ban
      | some bannedUntil => simp [LoginAttempt.lifted_of_some ban] at positive
  | first =>
      cases found
      rw [show (1 : UInt32).toNat = 0 + 1 from rfl, List.rtake_concat_succ, List.rtake_zero]
      rfl
  | @counted attempt unbanned below =>
      cases found
      have succ := count_succ counting.lifted
      rw [succ, List.rtake_concat_succ, LoginAttempt.lifted_firstAttempt]
      by_cases restarted : attempt.lifted.count = 0
      · -- the only failure counted is this one
        have atLeastTwo : 2 ≤ maxAttempts := by
          rw [UInt32.lt_iff_toNat_lt, succ, restarted] at below
          exact UInt32.le_iff_toNat_le.mpr below
        rw [restarted, goesOn rfl attempt rfl unbanned restarted atLeastTwo]
        simp
      · have noBan : attempt.bannedUntil = none := by
          cases ban : attempt.bannedUntil with
          | none => rfl
          | some bannedUntil => exact absurd (LoginAttempt.lifted_of_some ban) restarted
        rw [LoginAttempt.lifted_of_none noBan] at restarted ⊢
        have positive : 1 ≤ attempt.count.toNat := by
          by_contra zero
          exact restarted (UInt32.toNat_inj.mp (by simpa using zero))
        -- one failure more at the end leaves the first one counted in place
        rw [List.head?_append, first attempt rfl positive noBan]
        rfl
  | bans =>
      cases found
      cases noBan

theorem Moves.added {duration now : Nat} {operation : TrackerOperation} {entry entry' : Option LoginAttempt}
    {added : List Nat} (moves : Moves maxAttempts duration now ip operation entry entry' added) :
    added = [] ∨ added = [now] := by
  cases moves <;> simp

theorem windowed_step {run next : TrackerRun} {call : TrackerCall} (windowed : Windowed run ip)
    (goesOn : ¬ Restarts run call) (taken : run.step call = some next) : Windowed next ip := by
  obtain ⟨forward, clock, -⟩ := step_frame taken
  obtain ⟨added, recorded, moves⟩ := step_moves taken ip
  have present : ∀ time ∈ added, time = call.now := by
    rcases moves.added with rfl | rfl <;> simp
  constructor
  · exact counting_step windowed.counting taken
  · rw [recorded, List.pairwise_append]
    refine ⟨windowed.ordered, ?_, fun earlier member later new => ?_⟩
    · rcases moves.added with rfl | rfl <;> simp
    · rw [present later new]
      exact (windowed.past earlier member).trans forward
  · rw [recorded, clock]
    intro time member
    rcases List.mem_append.mp member with earlier | new
    · exact (windowed.past time earlier).trans forward
    · exact Nat.le_of_eq (present time new)
  · unfold counted
    rw [recorded]
    refine first_moves windowed.counting windowed.first ?_ moves
    intro failure attempt found unbanned restarted atLeastTwo
    by_contra early
    exact goesOn ⟨ip, attempt, failure, found, unbanned, restarted, early, atLeastTwo⟩

theorem start_windowed {banDurationSecs : UInt64} : Windowed (start maxAttempts banDurationSecs) ip where
  counting := by
    intro attempt found
    cases found
  ordered := .nil
  past := by
    intro time member
    cases member
  first := by
    intro attempt found
    cases found

/-- The step that starts a count again leaves a first attempt that is not counted. -/
theorem restarts_breaks {run next : TrackerRun} {call : TrackerCall} (restarts : Restarts run call)
    (taken : run.step call = some next) : ¬ WindowKept next := by
  obtain ⟨ip, attempt, failure, found, unbanned, restarted, early, atLeastTwo⟩ := restarts
  obtain ⟨added, recorded, moves⟩ := step_moves taken ip
  intro kept
  have kept := kept ip
  unfold counted at kept
  rw [recorded] at kept
  rw [failure, found] at moves
  generalize next.tracker.attempts ip = entry' at moves kept
  cases moves with
  | aside apart => exact apart rfl
  | refused banned =>
      rw [unbanned] at banned
      cases banned
  | counted =>
      -- the one failure counted is at another time than the first attempt
      have isLeast := (kept _ rfl (by simp [restarted]) LoginAttempt.lifted_bannedUntil).1
      have one : (attempt.lifted.count + 1).toNat = 0 + 1 := by simp [restarted]
      simp only [one, List.rtake_concat_succ, LoginAttempt.lifted_firstAttempt] at isLeast
      have member := isLeast.1
      simp [early] at member
  | bans _ reached =>
      rw [restarted] at reached
      exact absurd (UInt32.le_iff_toNat_le.mp (UInt32.le_trans atLeastTwo reached)) (by decide)

/-- The window is kept throughout a run exactly when no count is started again in it. -/
theorem window_kept_iff {banDurationSecs : UInt64} {calls : List TrackerCall} {final : TrackerRun}
    (ran : exec step (start maxAttempts banDurationSecs) calls = some final) :
    (∀ earlier later middle, calls = earlier ++ later →
      exec step (start maxAttempts banDurationSecs) earlier = some middle → WindowKept middle) ↔
    Guarded step (fun run call => ¬ Restarts run call) (start maxAttempts banDurationSecs) calls := by
  constructor
  · intro kept
    refine .of_reached fun earlier call later middle same reached restarts => ?_
    rw [same, exec_append _ reached] at ran
    obtain ⟨next, taken, -⟩ := (exec_cons step).mp ran
    refine restarts_breaks restarts taken (kept (earlier ++ [call]) later next (by simp [same]) ?_)
    rw [exec_append _ reached]
    exact (exec_cons step).mpr ⟨next, taken, rfl⟩
  · rintro goesOn earlier later middle rfl reached
    refine Windowed.windowKept fun ip => ?_
    have keeps : ∀ run call next, Windowed run ip → ¬ Restarts run call → step run call = some next → Windowed next ip :=
      fun run call next => windowed_step
    exact exec_invariant keeps start_windowed goesOn.left reached

theorem window_kept_iff_guest : ∃ final,
    exec step (start 5 60) twoFailures = some final ∧ WindowKept final := by
  have goesOn : Guarded step (fun run call => ¬ Restarts run call) (start 5 60) twoFailures := by
    refine .cons ?_ rfl (.cons ?_ rfl trivial)
    · rintro ⟨ip, attempt, failure, found, -⟩
      cases found
    · rintro ⟨ip, attempt, failure, found, unbanned, restarted, -⟩
      cases failure
      cases found
      exact absurd restarted (by decide)
  exact ⟨_, rfl, (@window_kept_iff 5 60 twoFailures _ rfl).mpr goesOn twoFailures [] _ (List.append_nil _).symm rfl⟩

/-- After a ban the first failure counted is not the first attempt on record. -/
theorem window_lost : ¬ ∀ (maxAttempts : UInt32) (banDurationSecs : UInt64) (calls : List TrackerCall)
    (final : TrackerRun), exec step (start maxAttempts banDurationSecs) calls = some final → WindowKept final := by
  intro law
  have kept := law 2 1 [⟨.checkAndRecordFailure guest, 1⟩, ⟨.checkAndRecordFailure guest, 2⟩,
    ⟨.checkAndRecordFailure guest, 2000000000⟩] _ rfl guest ⟨1, 1, none⟩ rfl (by decide) rfl
  exact absurd kept.1.1 (by decide)

end Window

end Wftpd.Common.TrackerRun
