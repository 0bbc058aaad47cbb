import Wftpd.Common.LoginTracker

/-! When failed logins lead to a ban, and how long it holds. -/

set_option autoImplicit false

namespace Wftpd.Common.TrackerRun
open Wftpd.Posix Wftpd.Library

theorem count_succ {count maxAttempts : UInt32} (small : count.toNat < maxAttempts.toNat ∨ count.toNat ≤ 1) :
    (count + 1).toNat = count.toNat + 1 := by
  have bound := maxAttempts.toNat_lt
  rw [UInt32.toNat_add]
  apply Nat.mod_eq_of_lt
  simp only [UInt32.toNat_one]
  omega

theorem exec_frame {run final : TrackerRun} {calls : List TrackerCall} (reached : exec step run calls = some final) :
    run.clock ≤ final.clock ∧ final.tracker.maxAttempts = run.tracker.maxAttempts ∧
      final.tracker.banDuration = run.tracker.banDuration := by
  induction calls generalizing run with
  | nil =>
      cases reached
      exact ⟨Nat.le_refl _, rfl, rfl⟩
  | cons call rest ih =>
      obtain ⟨next, taken, reached⟩ := (exec_cons step).mp reached
      obtain ⟨forward, clock, sameMax, sameDuration⟩ := step_frame taken
      obtain ⟨later, keptMax, keptDuration⟩ := ih reached
      exact ⟨forward.trans (clock ▸ later), keptMax.trans sameMax, keptDuration.trans sameDuration⟩

section Banned
variable {ip : Text}

def BannedUntil (ip : Text) (bannedUntil : Nat) (tracker : LoginTracker) : Prop :=
  ∃ attempt, tracker.attempts ip = some attempt ∧ attempt.bannedUntil = some bannedUntil

theorem bannedUntil_of_failure {before after : LoginTracker} {now : Nat} (unbanned : (before.isBanned ip now).1 = false)
    (failed : before.checkAndRecordFailure ip now = some (false, after)) :
    BannedUntil ip (now + before.banDuration) after := by
  rcases LoginTracker.checkAndRecordFailure_cases failed with
    ⟨attempt, found, banned, -, -⟩ | ⟨-, impossible, -⟩ | ⟨-, -, -, -, impossible, -⟩ | ⟨attempt, -, -, -, -, rfl⟩
  · rw [LoginTracker.isBanned_fst.mpr ⟨attempt, found, banned⟩] at unbanned
    cases unbanned
  · cases impossible
  · cases impossible
  · exact ⟨_, by rw [LoginTracker.put_attempts, Function.update_self], rfl⟩

theorem BannedUntil.answers {tracker : LoginTracker} {bannedUntil time : Nat} (banned : BannedUntil ip bannedUntil tracker)
    (early : time < bannedUntil) :
    (tracker.isBanned ip time).1 = true ∧ tracker.checkAndRecordFailure ip time = some (false, tracker) := by
  obtain ⟨attempt, found, ban⟩ := banned
  have isBanned : attempt.bannedAt time = true := LoginAttempt.bannedAt_iff.mpr ⟨bannedUntil, ban, early⟩
  refine ⟨LoginTracker.isBanned_fst.mpr ⟨attempt, found, isBanned⟩, ?_⟩
  rw [LoginTracker.checkAndRecordFailure, found]
  exact if_pos isBanned

theorem banned_of_failure {before after : LoginTracker} {now : Nat} (lasting : 0 < before.banDuration)
    (failed : before.checkAndRecordFailure ip now = some (false, after)) : (after.isBanned ip now).1 = true := by
  cases asked : (before.isBanned ip now).1 with
  | false => exact ((bannedUntil_of_failure asked failed).answers (by omega)).1
  | true =>
      obtain ⟨attempt, found, banned⟩ := LoginTracker.isBanned_fst.mp asked
      rw [LoginTracker.checkAndRecordFailure, found] at failed
      have same := (if_pos banned).symm.trans failed
      cases same
      exact asked

end Banned

section Threshold
variable {maxAttempts : UInt32} {ip : Text}

def failures (ip : Text) (calls : List TrackerCall) : Nat :=
  calls.countP fun call => call.operation = .checkAndRecordFailure ip

/-- The call forgets nothing of the address, and no ban of it has run out. -/
def Undisturbed (ip : Text) (run : TrackerRun) (call : TrackerCall) : Prop :=
  call.operation ≠ .clearAttempts ip ∧ call.operation ≠ .cleanupExpired ∧
    ∀ attempt bannedUntil, run.tracker.attempts ip = some attempt → attempt.bannedUntil = some bannedUntil →
      call.now < bannedUntil

/-- What is kept of an address after so many failures. A second one is the first that can ban it. -/
def After (maxAttempts : UInt32) (count : Nat) : Option LoginAttempt → Prop
  | none => count = 0
  | some attempt =>
      match attempt.bannedUntil with
      | none => 1 ≤ count ∧ attempt.count.toNat = count ∧ (count < maxAttempts.toNat ∨ count ≤ 1)
      | some _ => 2 ≤ count ∧ maxAttempts.toNat ≤ count

theorem after_unbanned {count : Nat} {attempt : LoginAttempt} (unbanned : attempt.bannedUntil = none) :
    After maxAttempts count (some attempt) ↔
      1 ≤ count ∧ attempt.count.toNat = count ∧ (count < maxAttempts.toNat ∨ count ≤ 1) := by
  simp [After, unbanned]

theorem after_banned {count bannedUntil : Nat} {attempt : LoginAttempt} (banned : attempt.bannedUntil = some bannedUntil) :
    After maxAttempts count (some attempt) ↔ 2 ≤ count ∧ maxAttempts.toNat ≤ count := by
  simp [After, banned]

theorem Undisturbed.no_ban {run : TrackerRun} {call : TrackerCall} {attempt : LoginAttempt}
    (undisturbed : Undisturbed ip run call) (found : run.tracker.attempts ip = some attempt)
    (unbanned : attempt.bannedAt call.now = false) : attempt.bannedUntil = none := by
  cases banned : attempt.bannedUntil with
  | none => rfl
  | some bannedUntil =>
      have early := undisturbed.2.2 attempt bannedUntil found banned
      simp [LoginAttempt.bannedAt, banned, early] at unbanned

theorem after_step {run next : TrackerRun} {call : TrackerCall} {count : Nat}
    (after : After run.tracker.maxAttempts count (run.tracker.attempts ip)) (undisturbed : Undisturbed ip run call)
    (taken : run.step call = some next) :
    After next.tracker.maxAttempts (count + failures ip [call]) (next.tracker.attempts ip) := by
  obtain ⟨-, -, sameMax, -⟩ := step_frame taken
  obtain ⟨added, -, moves⟩ := step_moves taken ip
  obtain ⟨operation, now⟩ := call
  obtain ⟨noClear, noCleanup, running⟩ := undisturbed
  rw [sameMax]
  have isFailure : failures ip [⟨.checkAndRecordFailure ip, now⟩] = 1 := by simp [failures]
  have free : ∀ attempt, run.tracker.attempts ip = some attempt → attempt.bannedAt now = false →
      attempt.bannedUntil = none := fun attempt => Undisturbed.no_ban ⟨noClear, noCleanup, running⟩
  generalize run.tracker.attempts ip = entry at after moves free
  generalize next.tracker.attempts ip = entry' at moves
  -- only failures of the address count, and those refused for a ban find the count at the threshold
  cases moves with
  | aside apart particular =>
      have none : failures ip [⟨operation, now⟩] = 0 := by
        have other : operation ≠ .checkAndRecordFailure ip := by
          rintro rfl
          exact apart rfl
        simp [failures, other]
      rw [none]
      exact after
  | asked | unknown | banned => exact after
  | cleared => exact absurd rfl noClear
  | absent | retained | forgotten => exact absurd rfl noCleanup
  | @lifted attempt unbanned =>
      rw [LoginAttempt.lifted_of_none (free attempt rfl unbanned)]
      exact after
  | @refused attempt banned =>
      obtain ⟨bannedUntil, found, -⟩ := LoginAttempt.bannedAt_iff.mp banned
      rw [after_banned found] at after ⊢
      omega
  | first =>
      have zero : count = 0 := after
      rw [isFailure, zero, after_unbanned rfl]
      exact ⟨Nat.le_refl 1, rfl, .inr (Nat.le_refl 1)⟩
  | @counted attempt unbanned below =>
      have noBan := free attempt rfl unbanned
      rw [LoginAttempt.lifted_of_none noBan] at below ⊢
      obtain ⟨positive, same, small⟩ := (after_unbanned noBan).mp after
      have succ : (attempt.count + 1).toNat = attempt.count.toNat + 1 := count_succ (same ▸ small)
      rw [UInt32.lt_iff_toNat_lt, succ] at below
      have noBan' : ({ attempt with count := attempt.count + 1 } : LoginAttempt).bannedUntil = none := noBan
      rw [isFailure]
      refine (after_unbanned noBan').mpr ⟨by omega, ?_, .inl (by omega)⟩
      rw [succ, same]
  | @bans attempt unbanned reached =>
      have noBan := free attempt rfl unbanned
      rw [LoginAttempt.lifted_of_none noBan] at reached
      obtain ⟨positive, same, small⟩ := (after_unbanned noBan).mp after
      rw [UInt32.le_iff_toNat_le, count_succ (same ▸ small)] at reached
      rw [isFailure, after_banned rfl]
      omega

theorem after_exec {run final : TrackerRun} {calls : List TrackerCall} {count : Nat}
    (after : After run.tracker.maxAttempts count (run.tracker.attempts ip))
    (undisturbed : Guarded step (Undisturbed ip) run calls) (reached : exec step run calls = some final) :
    After run.tracker.maxAttempts (count + failures ip calls) (final.tracker.attempts ip) := by
  induction calls generalizing run count with
  | nil =>
      cases reached
      exact after
  | cons call rest ih =>
      obtain ⟨next, taken, reached⟩ := (exec_cons step).mp reached
      obtain ⟨-, -, sameMax, -⟩ := step_frame taken
      have later := ih (after_step after undisturbed.1 taken) (undisturbed.2 next taken) reached
      have counted : failures ip [call] + failures ip rest = failures ip (call :: rest) := by
        rw [failures, failures, failures, ← List.countP_append, List.singleton_append]
      rwa [sameMax, Nat.add_assoc, counted] at later

def Bans (ip : Text) (tracker : LoginTracker) (now : Nat) : Prop :=
  ∃ after, tracker.checkAndRecordFailure ip now = some (false, after) ∧ (after.isBanned ip now).1 = true

/-- A failure is refused for a ban, or for a threshold it reaches. Then the ban has to have an end: without
one the call panics. -/
theorem bans_iff {tracker : LoginTracker} {now : Nat} (lasting : 0 < tracker.banDuration) :
    Bans ip tracker now ↔ ∃ attempt, tracker.attempts ip = some attempt ∧ (attempt.bannedAt now = true ∨
      tracker.maxAttempts ≤ attempt.lifted.count + 1 ∧
        (LoginTracker.instantAfter now tracker.banDuration).isSome = true) := by
  have refused : Bans ip tracker now ↔ ∃ after, tracker.checkAndRecordFailure ip now = some (false, after) :=
    ⟨fun ⟨after, failed, _⟩ => ⟨after, failed⟩, fun ⟨after, failed⟩ => ⟨after, failed, banned_of_failure lasting failed⟩⟩
  rw [refused, LoginTracker.checkAndRecordFailure]
  cases tracker.attempts ip with
  | none => simp
  | some attempt =>
      by_cases banned : attempt.bannedAt now = true
      · simp [banned]
      · by_cases reached : tracker.maxAttempts ≤ attempt.lifted.count + 1
        · cases LoginTracker.instantAfter now tracker.banDuration <;> simp [banned, reached]
        · simp [banned, reached]

/-- The next failure of an undisturbed run is refused and banned exactly at the threshold, except that a first
failure never is, and that the failure which is to begin the ban panics where the ban would not end. -/
theorem ban_threshold_iff {banDurationSecs : UInt64} (positive : 1 ≤ maxAttempts) (lasting : 0 < banDurationSecs)
    {calls : List TrackerCall} {reached : TrackerRun} {now : Nat}
    (undisturbed : Guarded step (Undisturbed ip) (start maxAttempts banDurationSecs)
      (calls ++ [⟨.checkAndRecordFailure ip, now⟩]))
    (ran : exec step (start maxAttempts banDurationSecs) calls = some reached) :
    (Bans ip reached.tracker now ↔ maxAttempts.toNat ≤ failures ip calls + 1) ↔
      (maxAttempts ≠ 1 ∨ failures ip calls ≠ 0) ∧
        (failures ip calls + 1 = max maxAttempts.toNat 2 →
          (LoginTracker.instantAfter now (banDurationSecs.toNat * nanosPerSecond)).isSome = true) := by
  obtain ⟨-, sameMax, sameDuration⟩ := exec_frame ran
  have early : Guarded step (Undisturbed ip) (start maxAttempts banDurationSecs) calls := undisturbed.left
  have last : Undisturbed ip reached ⟨.checkAndRecordFailure ip, now⟩ := undisturbed.reached ran
  have fresh : After (start maxAttempts banDurationSecs).tracker.maxAttempts 0
      ((start maxAttempts banDurationSecs).tracker.attempts ip) := rfl
  have kept := after_exec fresh early ran
  rw [Nat.zero_add] at kept
  replace sameMax : reached.tracker.maxAttempts = maxAttempts := sameMax
  replace sameDuration : reached.tracker.banDuration = banDurationSecs.toNat * nanosPerSecond := sameDuration
  rw [show (start maxAttempts banDurationSecs).tracker.maxAttempts = maxAttempts from rfl] at kept
  have threshold : 1 ≤ maxAttempts.toNat := positive
  have one : maxAttempts = 1 ↔ maxAttempts.toNat = 1 := UInt32.toNat_inj.symm
  have lasts : 0 < reached.tracker.banDuration := by
    rw [sameDuration]
    exact Nat.mul_pos lasting (by decide)
  rw [bans_iff lasts, sameMax, sameDuration]
  cases found : reached.tracker.attempts ip with
  | none =>
      -- the first failure is allowed at every threshold
      rw [found] at kept
      have zero : failures ip calls = 0 := kept
      rw [zero, Ne, one]
      simp only [reduceCtorEq, false_and, exists_false, false_iff]
      omega
  | some attempt =>
      simp only [Option.some.injEq, exists_eq_left']
      by_cases banned : attempt.bannedAt now = true
      · -- banned already, so that there were as many failures before
        obtain ⟨bannedUntil, ban, -⟩ := LoginAttempt.bannedAt_iff.mp banned
        rw [found, after_banned ban] at kept
        simp only [banned, true_or, true_iff]
        omega
      · have unbanned : attempt.bannedAt now = false := by simpa using banned
        have noBan := last.no_ban found unbanned
        rw [found, after_unbanned noBan] at kept
        have count : (attempt.count + 1).toNat = failures ip calls + 1 := by
          rw [count_succ (kept.2.1.symm ▸ kept.2.2), kept.2.1]
        have reaches : maxAttempts ≤ attempt.lifted.count + 1 ↔ maxAttempts.toNat ≤ failures ip calls + 1 := by
          rw [LoginAttempt.lifted_of_none noBan, UInt32.le_iff_toNat_le, count]
        rw [unbanned, reaches]
        simp only [Bool.false_eq_true, false_or]
        cases (LoginTracker.instantAfter now (banDurationSecs.toNat * nanosPerSecond)).isSome with
        | true =>
            simp only [and_true, iff_self, true_iff, implies_true]
            omega
        | false =>
            simp only [Bool.false_eq_true, and_false, false_iff, imp_false]
            omega

section Second

def guest : Text := "10.0.0.9".toList

theorem undisturbed_failure {run : TrackerRun} {now : Nat}
    (noBan : ∀ attempt, run.tracker.attempts guest = some attempt → attempt.bannedUntil = none) :
    Undisturbed guest run ⟨.checkAndRecordFailure guest, now⟩ := by
  refine ⟨by simp, by simp, ?_⟩
  intro attempt bannedUntil found banned
  cases (noBan attempt found).symm.trans banned

theorem ban_threshold_iff_second : ∃ reached,
    exec step (start 2 60) [⟨.checkAndRecordFailure guest, 1⟩] = some reached ∧ Bans guest reached.tracker 2 := by
  have undisturbed : Guarded step (Undisturbed guest) (start 2 60)
      ([⟨.checkAndRecordFailure guest, 1⟩] ++ [⟨.checkAndRecordFailure guest, 2⟩]) := by
    refine .cons (undisturbed_failure ?_) rfl (.cons (undisturbed_failure ?_) rfl trivial)
    · intro attempt found
      cases found
    · intro attempt found
      cases found
      rfl
  exact ⟨_, rfl, ((ban_threshold_iff (by decide) (by decide) undisturbed rfl).mpr
    ⟨.inl (by decide), fun _ => by decide⟩).mpr (by decide)⟩

/-- Where one failure is too many already, the first of an address bans nobody. -/
theorem first_failure_allowed : ¬ ∀ (maxAttempts : UInt32) (banDurationSecs : UInt64), 1 ≤ maxAttempts →
    0 < banDurationSecs → ∀ (ip : Text) (calls : List TrackerCall) (reached : TrackerRun) (now : Nat),
    Guarded step (Undisturbed ip) (start maxAttempts banDurationSecs) (calls ++ [⟨.checkAndRecordFailure ip, now⟩]) →
    exec step (start maxAttempts banDurationSecs) calls = some reached →
    (Bans ip reached.tracker now ↔ maxAttempts.toNat ≤ failures ip calls + 1) := by
  intro law
  have undisturbed : Guarded step (Undisturbed guest) (start 1 60) ([] ++ [⟨.checkAndRecordFailure guest, 1⟩]) := by
    refine .cons (undisturbed_failure ?_) rfl trivial
    intro attempt found
    cases found
  obtain ⟨after, failed, -⟩ := (law 1 60 (by decide) (by decide) guest [] _ 1 undisturbed rfl).mpr (by decide)
  cases failed

end Second

end Threshold

section Holding
variable {ip : Text}

/-- The tracker answers alike about an address, at whatever time it is asked. -/
def SameAnswers (ip : Text) (first second : LoginTracker) : Prop :=
  ∀ time, (first.isBanned ip time).1 = (second.isBanned ip time).1 ∧
    (first.checkAndRecordFailure ip time).map Prod.fst = (second.checkAndRecordFailure ip time).map Prod.fst ∧
    first.getRemainingAttempts ip = second.getRemainingAttempts ip

theorem SameAnswers.of_attempts {first second : LoginTracker} (attempts : first.attempts ip = second.attempts ip)
    (maxAttempts : first.maxAttempts = second.maxAttempts) (banDuration : first.banDuration = second.banDuration) :
    SameAnswers ip first second := by
  intro time
  refine ⟨?_, ?_, ?_⟩
  · rw [Bool.eq_iff_iff, LoginTracker.isBanned_fst, LoginTracker.isBanned_fst, attempts]
  · simp only [LoginTracker.checkAndRecordFailure, attempts, maxAttempts, banDuration]
    cases second.attempts ip with
    | none => rfl
    | some attempt =>
        by_cases banned : attempt.bannedAt time = true
        · simp [banned]
        · by_cases reached : attempt.lifted.count + 1 ≥ second.maxAttempts <;>
            simp [banned, reached, Function.comp_def]
  · rw [LoginTracker.getRemainingAttempts, LoginTracker.getRemainingAttempts, attempts, maxAttempts]

theorem bannedUntil_step {run next : TrackerRun} {call : TrackerCall} {bannedUntil : Nat}
    (banned : BannedUntil ip bannedUntil run.tracker) (early : call.now < bannedUntil)
    (keeps : call.operation ≠ .clearAttempts ip) (taken : run.step call = some next) :
    BannedUntil ip bannedUntil next.tracker := by
  obtain ⟨attempt, found, ban⟩ := banned
  obtain ⟨added, -, moves⟩ := step_moves taken ip
  obtain ⟨operation, now⟩ := call
  have isBanned : attempt.bannedAt now = true := LoginAttempt.bannedAt_iff.mpr ⟨bannedUntil, ban, early⟩
  rw [found] at moves
  unfold BannedUntil
  generalize next.tracker.attempts ip = entry' at moves
  cases moves with
  | aside | asked | banned | retained | refused => exact ⟨attempt, rfl, ban⟩
  | cleared => exact absurd rfl keeps
  | forgotten forgotten =>
      rw [LoginAttempt.retainedAt_of_bannedAt isBanned] at forgotten
      cases forgotten
  | lifted unbanned | counted unbanned | bans unbanned =>
      rw [isBanned] at unbanned
      cases unbanned

theorem bannedUntil_exec {run final : TrackerRun} {calls : List TrackerCall} {bannedUntil : Nat}
    (banned : BannedUntil ip bannedUntil run.tracker) (keeps : ∀ call ∈ calls, call.operation ≠ .clearAttempts ip)
    (reached : exec step run calls = some final) (early : final.clock < bannedUntil) :
    BannedUntil ip bannedUntil final.tracker := by
  induction calls generalizing run with
  | nil =>
      cases reached
      exact banned
  | cons call rest ih =>
      obtain ⟨next, taken, reached⟩ := (exec_cons step).mp reached
      have later := (exec_frame reached).1
      have clock := (step_frame taken).2.1
      refine ih (bannedUntil_step banned ?_ (keeps call (by simp)) taken) (fun other member => keeps other (by simp [member])) reached
      omega

/-- What is about another address changes no answer, and a cleanup only forgets who is not banned. -/
theorem isolated {run next : TrackerRun} {call : TrackerCall} (taken : run.step call = some next)
    (apart : call.operation.ip? ≠ some ip) :
    SameAnswers ip run.tracker next.tracker ∨ call.operation = .cleanupExpired ∧
      next.tracker.attempts ip = none ∧ (run.tracker.isBanned ip call.now).1 = false := by
  obtain ⟨-, -, maxAttempts, banDuration⟩ := step_frame taken
  obtain ⟨added, -, moves⟩ := step_moves taken ip
  obtain ⟨operation, now⟩ := call
  have same : run.tracker.attempts ip = next.tracker.attempts ip → SameAnswers ip run.tracker next.tracker :=
    fun attempts => .of_attempts attempts maxAttempts.symm banDuration.symm
  have isBanned := @LoginTracker.isBanned_fst run.tracker ip now
  generalize run.tracker.attempts ip = entry at moves same isBanned
  generalize next.tracker.attempts ip = entry' at moves same
  cases moves with
  | aside | absent | retained => exact .inl (same rfl)
  | asked | cleared | unknown | banned | lifted | refused | first | counted | bans => exact absurd rfl apart
  | @forgotten attempt forgotten =>
      refine .inr ⟨rfl, rfl, ?_⟩
      by_contra banned
      obtain ⟨other, same, runs⟩ := isBanned.mp (by simpa using banned)
      cases same
      rw [LoginAttempt.retainedAt_of_bannedAt runs] at forgotten
      cases forgotten

/-- A ban holds until it expires or is cleared, and no call about another address has a say in it. -/
theorem ban_holds (ip : Text) :
    (∀ (before after : LoginTracker) (now : Nat), (before.isBanned ip now).1 = false →
      before.checkAndRecordFailure ip now = some (false, after) →
      ∀ (recorded : Text → List Nat) (calls : List TrackerCall) (final : TrackerRun) (time : Nat),
      exec step ⟨after, now, recorded⟩ calls = some final →
      (∀ call ∈ calls, call.operation ≠ .clearAttempts ip) → final.clock ≤ time → time < now + before.banDuration →
      (final.tracker.isBanned ip time).1 = true ∧
        final.tracker.checkAndRecordFailure ip time = some (false, final.tracker)) ∧
    ∀ (run next : TrackerRun) (call : TrackerCall), run.step call = some next → call.operation.ip? ≠ some ip →
      SameAnswers ip run.tracker next.tracker ∨ call.operation = .cleanupExpired ∧
        next.tracker.attempts ip = none ∧ (run.tracker.isBanned ip call.now).1 = false := by
  constructor
  · intro before after now unbanned failed recorded calls final time reached keeps asked early
    have banned := bannedUntil_of_failure unbanned failed
    have kept : BannedUntil ip (now + before.banDuration) final.tracker :=
      bannedUntil_exec banned keeps reached (Nat.lt_of_le_of_lt asked early)
    exact kept.answers early
  · intro run next call taken apart
    exact isolated taken apart

def failedOnce : LoginTracker := (LoginTracker.new 2 60).put guest ⟨1, 1, none⟩

def failedTwice : LoginTracker := failedOnce.put guest ⟨2, 1, some 60000000002⟩

def afterBan : List TrackerCall :=
  [⟨.isBanned guest, 3⟩, ⟨.checkAndRecordFailure "10.0.0.8".toList, 4⟩, ⟨.cleanupExpired, 5⟩]

theorem ban_holds_guest : ∃ final, exec step ⟨failedTwice, 2, fun _ => []⟩ afterBan = some final ∧
    (final.tracker.isBanned guest 6).1 = true := by
  have unbanned : (failedOnce.isBanned guest 2).1 = false := by decide
  have failed : failedOnce.checkAndRecordFailure guest 2 = some (false, failedTwice) := rfl
  have keeps : ∀ call ∈ afterBan, call.operation ≠ .clearAttempts guest := by decide
  exact ⟨_, rfl, ((ban_holds guest).1 failedOnce failedTwice 2 unbanned failed (fun _ => []) afterBan _ 6 rfl keeps
    (by decide) (by decide)).1⟩

end Holding

end Wftpd.Common.TrackerRun
