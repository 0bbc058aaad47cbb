import Wftpd.Common.AuditTrail
import Wftpd.Ftp.Changes
import Wftpd.Library.Parties

/-! The audit records of storage calls that many sessions make at once.

All front ends share one file logger behind a lock. A call does its operation, tries the lock
and, where it is free, writes its record and lets go of the lock; then it returns. An SFTP
session does the same with its records, and the back end takes the lock to read the recent ones.
-/

set_option autoImplicit false

namespace Wftpd.Ftp.Audit
open Wftpd.Posix Wftpd.Common Wftpd.Library

section Records
variable {α : Type} {env : CallEnv} {user : WftpdUser} {state : WftpdFilesystem}

def OneSuccess (records : List FileLogInfo) : Prop := ∃ record, records = [record] ∧ record.success = true

theorem leaves_sys_log (call : Action FileSystem ErrorKind α) : Action.Leaves WftpdFilesystem.log (sys call) :=
  fun _ => rfl

theorem unlogged_sys (call : Action FileSystem ErrorKind α) : Unlogged WftpdFilesystem.log (sys call) :=
  .of_leaves (leaves_sys_log call)

theorem logged_audit (free : env.loggerFree = true) (op : Text) (p : PathBuf) (size : Nat) (message : Text) :
    Logged WftpdFilesystem.log OneSuccess state.log (audit env user op p size true message state) :=
  ⟨[_], by simp only [audit, Action.modify_run, logIfFree, free]; rfl, _, rfl, rfl⟩

theorem unlogged_openOr (op message : Text) (options : FileSystem.OpenOptions) (p : PathBuf) :
    Unlogged WftpdFilesystem.log (openOr env user op message options p) := by
  apply Unlogged.bind (.of_leaves fun _ => rfl)
  intro answer
  cases answer with
  | ok file => exact .of_leaves (Action.still_pure file).leaves
  | error why =>
      intro state
      exact Logged.refused rfl rfl

theorem unlogged_copyFrom (file : FileSystem.OpenFile) (position written : Nat) (input : Upload) :
    Unlogged WftpdFilesystem.log (copyFrom env file position written input) := by
  induction input generalizing position written with
  | nil => exact .of_leaves (Action.still_pure _).leaves
  | cons piece rest ih =>
      apply Unlogged.bind (.of_leaves (Action.still_lift _).leaves)
      intro buffer
      split
      · exact .of_leaves (Action.still_pure _).leaves
      · exact (unlogged_sys _).bind fun _ => ih _ _

theorem unlogged_createParent (p : PathBuf) : Unlogged WftpdFilesystem.log (createParent env p) := by
  unfold createParent
  cases p.parent with
  | some parent => exact unlogged_sys _
  | none => exact .of_leaves (Action.still_pure ()).leaves

theorem put_logged (free : env.loggerFree = true) (input : Upload) (path : Text) (startPos : UInt64) :
    Logged WftpdFilesystem.log OneSuccess state.log (put env user input path startPos state) := by
  apply Logged.past (still_require _)
  intro _ _
  apply Logged.past (still_resolvePath path)
  intro p _
  apply Logged.past (still_checkQuota p)
  intro _ _
  apply (unlogged_createParent p).followed
  intro _ made _ sameParent
  rw [← sameParent]
  apply (unlogged_openOr _ _ _ p).followed
  intro file opened _ sameOpened
  rw [← sameOpened]
  apply Logged.past (still_seekTo startPos)
  intro _ _
  apply (unlogged_copyFrom file _ _ input).followed
  intro written copied _ sameCopied
  rw [← sameCopied]
  apply Logged.past (still_sys (FileSystem.readOnly_attempt _ _))
  intro _ _
  apply Logged.past still_currentRoot
  intro _ _
  exact (logged_audit free _ _ _ _).returns _

theorem del_logged (free : env.loggerFree = true) (path : Text) :
    Logged WftpdFilesystem.log OneSuccess state.log (del env user path state) := by
  apply Logged.past (still_require _)
  intro _ _
  apply Logged.past (still_resolvePath path)
  intro p _
  apply (unlogged_sys _).followed
  intro _ removed _ same
  rw [← same]
  apply Logged.past still_currentRoot
  intro _ _
  exact logged_audit free _ _ _ _

theorem mkd_logged (free : env.loggerFree = true) (path : Text) :
    Logged WftpdFilesystem.log OneSuccess state.log (mkd env user path state) := by
  apply Logged.past (still_require _)
  intro _ _
  apply Logged.past (still_resolvePath path)
  intro p _
  apply (unlogged_sys _).followed
  intro _ made _ same
  rw [← same]
  exact logged_audit free _ _ _ _

theorem rename_logged (free : env.loggerFree = true) («from» «to» : Text) :
    Logged WftpdFilesystem.log OneSuccess state.log (rename env user «from» «to» state) := by
  apply Logged.past (still_require _)
  intro _ _
  apply Logged.past (still_resolvePath «from»)
  intro _ _
  apply Logged.past (still_resolvePath «to»)
  intro _ _
  apply (unlogged_sys _).followed
  intro _ renamed _ same
  rw [← same]
  exact logged_audit free _ _ _ _

theorem rmd_logged (free : env.loggerFree = true) (path : Text) :
    Logged WftpdFilesystem.log OneSuccess state.log (rmd env user path state) := by
  apply Logged.past (still_require _)
  intro _ _
  apply Logged.past (still_resolvePath path)
  intro p _
  apply (unlogged_sys _).followed
  intro _ removed _ same
  rw [← same]
  exact logged_audit free _ _ _ _

theorem handleCall_logged (free : env.loggerFree = true) {call : Call} (changes : call.reads = false) :
    Logged WftpdFilesystem.log OneSuccess state.log (handleCall env user call state) := by
  cases call with
  | put input path startPos => exact (put_logged free input path startPos).returns _
  | del path => exact (del_logged free path).returns _
  | mkd path => exact (mkd_logged free path).returns _
  | rename «from» «to» => exact (rename_logged free «from» «to»).returns _
  | rmd path => exact (rmd_logged free path).returns _
  | metadata | list | get | cwd => cases changes

end Records

structure CallId where
  party : Nat
  number : Nat
  deriving DecidableEq, Repr

/-- What the sessions share. Whose call a record is of, how many calls of each party have
returned and what they returned is history, which no step reads. -/
structure Backend where
  fs : FileSystem
  lockedBy : Option Nat
  records : List (CallId × FileLogInfo)
  finished : Nat → Nat
  returned : List (CallId × Call × Except StorageError Answer)

def Backend.initial (fs : FileSystem) : Backend := ⟨fs, none, [], fun _ => 0, []⟩

/-- `storage` is a call of an FTP session, `sftp` a record of an SFTP session. -/
inductive Request where
  | storage (user : WftpdUser) (root : Option PathBuf) (call : Call)
  | sftp (info : FileLogInfo)
  | getFileOpLogContent

inductive Piece where
  | operate (user : WftpdUser) (root : Option PathBuf) (call : Call)
  | tryLock (info : FileLogInfo)
  | log (info : FileLogInfo)
  | lock
  | unlock
  | finish (result : Option (Call × Except StorageError Answer))

def program : Request → List Piece
  | .storage user root call => [.operate user root call]
  | .sftp info => [.tryLock info, .finish none]
  | .getFileOpLogContent => [.lock, .unlock, .finish none]

def act (party : Nat) (env : CallEnv) (backend : Backend) (piece : Piece) (rest : List Piece) :
    Option (Backend × List Piece) :=
  let id : CallId := ⟨party, backend.finished party⟩
  match piece with
  | .operate user root call =>
      -- what a call answers does not depend on the logger, and its records come last
      let (result, after) := handleCall { env with loggerFree := true } user call ⟨root, backend.fs, []⟩
      some ({ backend with fs := after.fs }, after.log.map .tryLock ++ [.finish (some (call, result))])
  | .tryLock info =>
      -- a record is dropped while another holds the logger
      if backend.lockedBy = none then some ({ backend with lockedBy := some party }, .log info :: .unlock :: rest)
      else some (backend, rest)
  | .log info => some ({ backend with records := backend.records ++ [(id, info)] }, rest)
  | .lock => if backend.lockedBy = none then some ({ backend with lockedBy := some party }, rest) else none
  | .unlock => some ({ backend with lockedBy := none }, rest)
  | .finish result =>
      some ({ backend with
        finished := Function.update backend.finished party (backend.finished party + 1)
        returned := backend.returned ++ (result.map fun (call, result) => (id, call, result)).toList }, rest)

def step : Parties Backend Piece → Move Request CallEnv → Option (Parties Backend Piece) := Parties.step program act

def Backend.successes (backend : Backend) (id : CallId) : Nat :=
  backend.records.countP fun (of, info) => of = id && info.success

/-- A PUT, DEL, MKD, RENAME or RMD that has returned with a success has one record of it. -/
def RecordedOnce (backend : Backend) : Prop :=
  ∀ id call answer, (id, call, .ok answer) ∈ backend.returned → call.reads = false → backend.successes id = 1

/-- When a call that has changed something tries the lock, it is free. -/
def LoggerFree (parties : Parties Backend Piece) : Move Request CallEnv → Prop
  | .arrive _ _ => True
  | .go party _ => ∀ info rest call answer, parties.todo party = .tryLock info :: rest →
      .finish (some (call, .ok answer)) ∈ rest → call.reads = false → parties.shared.lockedBy = none

section Invariant

def Piece.isLogging : Piece → Bool
  | .tryLock _ | .log _ | .lock | .unlock => true
  | .operate _ _ _ | .finish _ => false

/-- The records of success that a step is to write. -/
def Piece.owes : Piece → Nat
  | .tryLock info | .log info => if info.success then 1 else 0
  | _ => 0

def Backend.current (backend : Backend) (party : Nat) : CallId := ⟨party, backend.finished party⟩

/-- What has been recorded of a call that has changed something, with what is still to be
recorded, is one success. Nothing is recorded before the operation. -/
inductive Fits (party : Nat) (backend : Backend) : List Piece → Prop where
  | idle (fresh : backend.successes (backend.current party) = 0) : Fits party backend []
  | operate {user : WftpdUser} {root : Option PathBuf} {call : Call}
      (fresh : backend.successes (backend.current party) = 0) : Fits party backend [.operate user root call]
  | working {work : List Piece} {result : Option (Call × Except StorageError Answer)}
      (logging : ∀ piece ∈ work, piece.isLogging = true)
      (owed : ∀ call answer, result = some (call, .ok answer) → call.reads = false →
        backend.successes (backend.current party) + (work.map Piece.owes).sum = 1) :
      Fits party backend (work ++ [.finish result])

/-- No record is of a call that has not begun, and those that have returned have theirs. -/
structure Sound (backend : Backend) : Prop where
  begun : ∀ entry ∈ backend.records, entry.1.number ≤ backend.finished entry.1.party
  returned : ∀ entry ∈ backend.returned, entry.1.number < backend.finished entry.1.party
  once : RecordedOnce backend

variable {backend : Backend} {party : Nat}

section Log
variable {info : FileLogInfo}

def Backend.log (backend : Backend) (party : Nat) (info : FileLogInfo) : Backend :=
  { backend with records := backend.records ++ [(backend.current party, info)] }

theorem successes_log (id : CallId) : (backend.log party info).successes id =
    backend.successes id + if backend.current party = id ∧ info.success = true then 1 else 0 := by
  simp only [Backend.successes, Backend.log, List.countP_append, List.countP_singleton, Bool.and_eq_true,
    decide_eq_true_eq]

theorem successes_log_other {id : CallId} (apart : id ≠ backend.current party) :
    (backend.log party info).successes id = backend.successes id := by
  rw [successes_log, if_neg fun same => apart same.1.symm, Nat.add_zero]

theorem Sound.log (sound : Sound backend) : Sound (backend.log party info) where
  begun := by
    intro entry member
    rcases List.mem_append.mp member with member | same
    · exact sound.begun entry member
    · cases List.mem_singleton.mp same
      exact Nat.le_refl _
  returned := sound.returned
  once := by
    intro id call answer member changes
    rw [successes_log_other]
    · exact sound.once id call answer member changes
    · -- the party's present call has not returned
      rintro rfl
      exact Nat.lt_irrefl _ (sound.returned _ member)

end Log

/-- What has been recorded of a party's present call is all that its next steps depend on. -/
theorem Fits.congr {after : Backend} {pieces : List Piece} (current : after.current party = backend.current party)
    (successes : after.successes (backend.current party) = backend.successes (backend.current party))
    (fits : Fits party backend pieces) : Fits party after pieces := by
  cases fits with
  | idle fresh => exact .idle (by rw [current, successes, fresh])
  | operate fresh => exact .operate (by rw [current, successes, fresh])
  | working logging owed => exact .working logging (by rwa [current, successes])

theorem Fits.cons {piece : Piece} {rest : List Piece} (fits : Fits party backend (piece :: rest)) :
    (∃ user root call, piece = .operate user root call ∧ rest = [] ∧ backend.successes (backend.current party) = 0) ∨
    (∃ result, piece = .finish result ∧ rest = [] ∧ ∀ call answer, result = some (call, .ok answer) →
      call.reads = false → backend.successes (backend.current party) = 1) ∨
    ∃ work result, piece.isLogging = true ∧ rest = work ++ [.finish result] ∧
      (∀ piece ∈ work, piece.isLogging = true) ∧ ∀ call answer, result = some (call, .ok answer) → call.reads = false →
        backend.successes (backend.current party) + (piece.owes + (work.map Piece.owes).sum) = 1 := by
  generalize whole : piece :: rest = pieces at fits
  cases fits with
  | idle fresh => cases whole
  | operate fresh =>
      cases whole
      exact .inl ⟨_, _, _, rfl, rfl, fresh⟩
  | @working work result logging owed =>
      cases work with
      | nil =>
          cases whole
          exact .inr (.inl ⟨result, rfl, rfl, by simpa using owed⟩)
      | cons first work =>
          cases whole
          obtain ⟨isLogging, others⟩ := List.forall_mem_cons.mp logging
          exact .inr (.inr ⟨work, result, isLogging, rfl, others, by simpa using owed⟩)

structure Unrecorded (backend after : Backend) : Prop where
  records : after.records = backend.records
  finished : after.finished = backend.finished
  returned : after.returned = backend.returned

theorem Unrecorded.fits {after : Backend} {pieces : List Piece} (same : Unrecorded backend after)
    (fits : Fits party backend pieces) : Fits party after pieces :=
  fits.congr (by rw [Backend.current, same.finished]; rfl) (by rw [Backend.successes, same.records]; rfl)

theorem Unrecorded.sound {after : Backend} (same : Unrecorded backend after) (sound : Sound backend) : Sound after where
  begun := by
    rw [same.records, same.finished]
    exact sound.begun
  returned := by
    rw [same.returned, same.finished]
    exact sound.returned
  once := by
    rw [RecordedOnce, same.returned]
    intro id call answer member changes
    rw [Backend.successes, same.records]
    exact sound.once id call answer member changes

section Act
variable {rest left : List Piece} {after : Backend} {env : CallEnv}

/-- A call that has changed something is to write one record of it. -/
theorem act_operate {user : WftpdUser} {root : Option PathBuf} {call : Call}
    (fresh : backend.successes (backend.current party) = 0)
    (acted : act party env backend (.operate user root call) rest = some (after, left)) :
    Unrecorded backend after ∧ Fits party after left := by
  have logged (changes : call.reads = false) : Logged WftpdFilesystem.log OneSuccess []
      (handleCall { env with loggerFree := true } user call ⟨root, backend.fs, []⟩) := handleCall_logged rfl changes
  generalize ran : handleCall { env with loggerFree := true } user call ⟨root, backend.fs, []⟩ = result at logged
  obtain ⟨result, state⟩ := result
  simp only [act, ran, Option.some.injEq, Prod.mk.injEq] at acted
  obtain ⟨rfl, rfl⟩ := acted
  refine ⟨⟨rfl, rfl, rfl⟩, .working ?_ ?_⟩
  · intro piece member
    obtain ⟨info, -, rfl⟩ := List.mem_map.mp member
    rfl
  · rintro call answer same changes
    cases same
    obtain ⟨records, log, record, rfl, success⟩ := logged changes
    simp only [List.nil_append] at log
    have kept : backend.successes (backend.current party) + ([Piece.tryLock record].map Piece.owes).sum = 1 := by
      simp [fresh, Piece.owes, success]
    rw [log]
    exact kept

/-- A call that returns has its record, if it has changed something. -/
theorem act_finish {result : Option (Call × Except StorageError Answer)} (sound : Sound backend)
    (once : ∀ call answer, result = some (call, .ok answer) → call.reads = false →
      backend.successes (backend.current party) = 1)
    (acted : act party env backend (.finish result) [] = some (after, left)) :
    Sound after ∧ Fits party after left ∧ (∀ other, other ≠ party → after.current other = backend.current other) ∧
      after.records = backend.records := by
  cases acted
  have begun : ∀ entry ∈ backend.records, entry.1.party = party → entry.1.number ≤ backend.finished party := by
    rintro entry member rfl
    exact sound.begun entry member
  have grows (other : Nat) : backend.finished other ≤
      Function.update backend.finished party (backend.finished party + 1) other := by
    by_cases same : other = party
    · subst same
      simp
    · simp [same]
  refine ⟨⟨?_, ?_, ?_⟩, .idle ?_, ?_, rfl⟩
  · intro entry member
    exact (sound.begun entry member).trans (grows _)
  · intro entry member
    rcases List.mem_append.mp member with member | member
    · exact Nat.lt_of_lt_of_le (sound.returned entry member) (grows _)
    · obtain ⟨ended, -, rfl⟩ := Option.map_eq_some_iff.mp (Option.mem_toList.mp member)
      simp
  · intro id call answer member changes
    rcases List.mem_append.mp member with member | member
    · exact sound.once id call answer member changes
    · obtain ⟨ended, same, entry⟩ := Option.map_eq_some_iff.mp (Option.mem_toList.mp member)
      obtain ⟨endedCall, endedResult⟩ := ended
      cases entry
      exact once _ _ same changes
  · -- the party's next call has not begun, so that nothing is recorded of it
    apply List.countP_eq_zero.mpr
    rintro ⟨id, info⟩ member recorded
    simp only [Bool.and_eq_true, decide_eq_true_eq] at recorded
    obtain ⟨rfl, -⟩ := recorded
    have early := begun _ member rfl
    simp only [Backend.current, Function.update_self] at early
    exact Nat.lt_irrefl _ early
  · intro other apart
    simp [Backend.current, apart]

/-- A step of the audit writes what it owes, unless it finds the lock held. -/
theorem act_logging {piece : Piece} {work : List Piece} {result : Option (Call × Except StorageError Answer)}
    (isLogging : piece.isLogging = true) (logging : ∀ piece ∈ work, piece.isLogging = true)
    (owed : ∀ call answer, result = some (call, .ok answer) → call.reads = false →
      backend.successes (backend.current party) + (piece.owes + (work.map Piece.owes).sum) = 1)
    (free : ∀ info, piece = .tryLock info → ∀ call answer, result = some (call, .ok answer) → call.reads = false →
      backend.lockedBy = none)
    (acted : act party env backend piece (work ++ [.finish result]) = some (after, left)) :
    Fits party after left ∧ (Unrecorded backend after ∨ ∃ info, after = backend.log party info) := by
  cases piece with
  | operate | finish => cases isLogging
  | tryLock info =>
      simp only [act] at acted
      split at acted
      · cases acted
        have same : Unrecorded backend { backend with lockedBy := some party } := ⟨rfl, rfl, rfl⟩
        refine ⟨same.fits ?_, .inl same⟩
        exact .working (List.forall_mem_cons.mpr ⟨rfl, List.forall_mem_cons.mpr ⟨rfl, logging⟩⟩)
          (by simpa [Piece.owes] using owed)
      · next held =>
          cases acted
          have same : Unrecorded backend backend := ⟨rfl, rfl, rfl⟩
          refine ⟨.working logging fun call answer ended changes => ?_, .inl same⟩
          exact absurd (free info rfl call answer ended changes) held
  | log info =>
      cases acted
      refine ⟨.working logging fun call answer ended changes => ?_, .inr ⟨info, rfl⟩⟩
      have recorded := owed call answer ended changes
      change (backend.log party info).successes (backend.current party) + (work.map Piece.owes).sum = 1
      rw [successes_log]
      simp only [Piece.owes, true_and] at recorded ⊢
      omega
  | lock =>
      simp only [act] at acted
      split at acted
      · cases acted
        have same : Unrecorded backend { backend with lockedBy := some party } := ⟨rfl, rfl, rfl⟩
        exact ⟨same.fits (.working logging (by simpa [Piece.owes] using owed)), .inl same⟩
      · cases acted
  | unlock =>
      cases acted
      have same : Unrecorded backend { backend with lockedBy := none } := ⟨rfl, rfl, rfl⟩
      exact ⟨same.fits (.working logging (by simpa [Piece.owes] using owed)), .inl same⟩

end Act

theorem Fits.log_other {other : Nat} {info : FileLogInfo} {pieces : List Piece} (apart : other ≠ party)
    (fits : Fits other backend pieces) : Fits other (backend.log party info) pieces := by
  have unrecorded : (backend.log party info).successes (backend.current other) =
      backend.successes (backend.current other) :=
    successes_log_other fun same => apart (congrArg CallId.party same)
  have current : (backend.log party info).current other = backend.current other := rfl
  exact fits.congr current unrecorded

theorem act_outline (parties : Parties Backend Piece) (party : Nat) (env : CallEnv) (piece : Piece) (rest : List Piece)
    (after : Backend) (left : List Piece) (sound : Sound parties.shared)
    (fits : Fits party parties.shared (piece :: rest)) (todo : parties.todo party = piece :: rest)
    (free : LoggerFree parties (.go party env)) (acted : act party env parties.shared piece rest = some (after, left)) :
    Sound after ∧ Fits party after left ∧
      ∀ other pieces, other ≠ party → Fits other parties.shared pieces → Fits other after pieces := by
  rcases fits.cons with ⟨user, root, call, rfl, rfl, fresh⟩ | ⟨result, rfl, rfl, once⟩ |
    ⟨work, result, isLogging, rfl, logging, owed⟩
  · obtain ⟨same, working⟩ := act_operate fresh acted
    exact ⟨same.sound sound, working, fun other pieces _ fits => same.fits fits⟩
  · obtain ⟨kept, idle, others, records⟩ := act_finish sound once acted
    refine ⟨kept, idle, fun other pieces apart fits => fits.congr (others other apart) ?_⟩
    rw [Backend.successes, records]
    rfl
  · have unheld : ∀ info, piece = .tryLock info → ∀ call answer, result = some (call, .ok answer) →
        call.reads = false → parties.shared.lockedBy = none := by
      rintro info rfl call answer rfl changes
      exact free info _ call answer todo (by simp) changes
    obtain ⟨working, same | ⟨info, rfl⟩⟩ := act_logging isLogging logging owed unheld acted
    · exact ⟨same.sound sound, working, fun other pieces _ fits => same.fits fits⟩
    · exact ⟨sound.log, working, fun other pieces apart fits => fits.log_other apart⟩

theorem program_fits (parties : Parties Backend Piece) (party : Nat) (request : Request)
    (fits : Fits party parties.shared []) : Fits party parties.shared (program request) := by
  cases request with
  | storage user root call =>
      refine .operate ?_
      generalize nothing : ([] : List Piece) = pieces at fits
      cases fits with
      | idle fresh => exact fresh
      | operate => cases nothing
      | working => exact absurd nothing (by simp)
  | sftp info =>
      have logging : ∀ piece ∈ [Piece.tryLock info], piece.isLogging = true := by simp [Piece.isLogging]
      exact Fits.working logging fun call answer same => by cases same
  | getFileOpLogContent =>
      have logging : ∀ piece ∈ [Piece.lock, Piece.unlock], piece.isLogging = true := by simp [Piece.isLogging]
      exact Fits.working logging fun call answer same => by cases same

end Invariant

/-- While every call that has changed something finds the logger free, each of them that returns
has one record of its success. -/
theorem calls_recorded_once (fs : FileSystem) (moves : List (Move Request CallEnv)) (final : Parties Backend Piece)
    (free : Guarded step LoggerFree (.idle (.initial fs)) moves)
    (reached : exec step (.idle (.initial fs)) moves = some final) : RecordedOnce final.shared := by
  have initial : Sound (.initial fs) := by
    refine ⟨?_, ?_, fun id call answer member => ?_⟩
    · simp [Backend.initial]
    · simp [Backend.initial]
    · cases member
  have outline : Sound final.shared ∧ ∀ party, Fits party final.shared (final.todo party) :=
    exec_invariant (Parties.step_outline (fun parties party request fits _ => program_fits parties party request fits)
      act_outline) ⟨initial, fun _ => .idle rfl⟩ free reached
  exact outline.1.once

section Runs

def makeDir (path : Text) : Request := .storage (userWith .full) (some [.rootDir]) (.mkd path)

def start : Parties Backend Piece := .idle (.initial .empty)

def oneAfterTheOther : List (Move Request CallEnv) :=
  [.arrive 0 (makeDir "a".toList), .go 0 permissiveCall, .go 0 permissiveCall, .go 0 permissiveCall,
    .go 0 permissiveCall, .go 0 permissiveCall]

theorem calls_recorded_once_alone : ∃ final, exec step start oneAfterTheOther = some final ∧
    RecordedOnce final.shared := by
  have free : Guarded step LoggerFree start oneAfterTheOther := by
    refine .cons trivial rfl (.cons ?_ rfl (.cons ?_ rfl (.cons ?_ rfl (.cons ?_ rfl (.cons ?_ rfl trivial)))))
    · exact fun _ _ _ _ _ _ _ => rfl
    · exact fun _ _ _ _ _ _ _ => rfl
    · intro info rest call answer todo
      cases todo
    · intro info rest call answer todo
      cases todo
    · exact fun _ _ _ _ _ _ _ => rfl
  exact ⟨_, rfl, calls_recorded_once .empty oneAfterTheOther _ free rfl⟩

/-- Two sessions make a directory each. The second tries the lock while the first has it. -/
theorem atOnce_run : ∃ final, exec step start
    [.arrive 0 (makeDir "a".toList), .arrive 1 (makeDir "b".toList), .go 0 permissiveCall, .go 1 permissiveCall,
      .go 0 permissiveCall, .go 1 permissiveCall, .go 0 permissiveCall, .go 0 permissiveCall, .go 0 permissiveCall,
      .go 1 permissiveCall] = some final ∧
    (⟨1, 0⟩, .mkd "b".toList, .ok .done) ∈ final.shared.returned ∧ final.shared.successes ⟨1, 0⟩ = 0 := by
  refine ⟨_, rfl, ?_, rfl⟩
  exact List.mem_append_right _ (List.mem_singleton_self _)

theorem call_unrecorded : ¬ ∀ (fs : FileSystem) (moves : List (Move Request CallEnv)) (final : Parties Backend Piece),
    exec step (.idle (.initial fs)) moves = some final → RecordedOnce final.shared := by
  intro recorded
  obtain ⟨final, reached, returned, none⟩ := atOnce_run
  exact absurd (recorded .empty _ final reached _ _ _ returned rfl) (by rw [none]; exact Nat.zero_ne_one)

end Runs

end Wftpd.Ftp.Audit
