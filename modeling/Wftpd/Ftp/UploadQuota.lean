import Wftpd.Ftp.Changes

/-! Which uploads the quota stops.

The check is asked about the path of the upload, and not about the home of the user.
-/

set_option autoImplicit false

namespace Wftpd.Ftp
open Wftpd.Posix Wftpd.Common Wftpd.Library

variable {env : CallEnv} {user : WftpdUser} {state : WftpdFilesystem}

/-- What is stored below this path fills the quota of the user. -/
def Fills (env : CallEnv) (user : WftpdUser) (fs : FileSystem) (p : PathBuf) : Prop :=
  0 < user.quotaMb ∧ min (user.quotaMb.toNat * 2 ^ 20) u64Max ≤ dirSize env.os fs p

def OverQuota (env : CallEnv) (user : WftpdUser) (state : WftpdFilesystem) : Prop :=
  ∃ home, state.root = some home ∧ 0 < user.quotaMb ∧ user.quotaMb.toNat * 2 ^ 20 ≤ dirSize env.os state.fs home

/-- Refused for want of space, with nothing created, truncated or written. -/
def Refused (state : WftpdFilesystem) (result : Except StorageError Nat × WftpdFilesystem) : Prop :=
  result.1 = .error .insufficientStorageSpaceError ∧ result.2.fs = state.fs

def RespectsQuota (env : CallEnv) (user : WftpdUser) (state : WftpdFilesystem) (input : Upload) (path : Text)
    (startPos : UInt64) : Prop :=
  OverQuota env user state → Refused state (put env user input path startPos state)

section Errors

theorem ioErr_ne (why : ErrorKind) : ioErr why ≠ .insufficientStorageSpaceError := by
  cases why <;> exact fun same => by cases same

theorem avoids_sys {α : Type} (call : Action FileSystem ErrorKind α) :
    Action.Avoids .insufficientStorageSpaceError (sys call) := Action.avoids_zoom ioErr_ne call

theorem normalizeFrom_refusal {root normalized path : PathBuf} {why : StorageError}
    (refused : normalizeFrom root normalized path = .error why) : why = .fileNameNotAllowedError := by
  induction path generalizing normalized with
  | nil => cases refused
  | cons component rest ih =>
      cases component with
      | rootDir => exact (Except.error.inj refused).symm
      | curDir => exact ih refused
      | normal name => exact ih refused
      | parentDir =>
          rw [normalizeFrom] at refused
          split at refused
          · exact (Except.error.inj refused).symm
          · exact ih refused

theorem resolve_refusal {root : Option PathBuf} {path : PathBuf} {why : StorageError}
    (refused : resolve root path = .error why) : why ≠ .insufficientStorageSpaceError := by
  cases root with
  | none =>
      cases refused
      exact fun same => by cases same
  | some root =>
      rw [normalizeFrom_refusal refused]
      exact fun same => by cases same

theorem avoids_openOr (op message : Text) (options : FileSystem.OpenOptions) (p : PathBuf) :
    Action.Avoids .insufficientStorageSpaceError (openOr env user op message options p) := by
  apply Action.Avoids.bind fun _ failed => by cases failed
  intro answer
  cases answer with
  | ok file => exact Action.avoids_pure file
  | error why => exact (Action.avoids_modify _).bind fun _ => Action.avoids_fail (ioErr_ne why)

theorem avoids_createParent (p : PathBuf) :
    Action.Avoids .insufficientStorageSpaceError (createParent env p) := by
  unfold createParent
  cases p.parent with
  | some parent => exact avoids_sys _
  | none => exact Action.avoids_pure ()

theorem avoids_seekTo (startPos : UInt64) :
    Action.Avoids .insufficientStorageSpaceError (seekTo env startPos) := by
  unfold seekTo
  split
  · exact avoids_sys _
  · exact Action.avoids_pure ()

theorem avoids_copyFrom (file : FileSystem.OpenFile) (position written : Nat) (input : Upload) :
    Action.Avoids .insufficientStorageSpaceError (copyFrom env file position written input) := by
  induction input generalizing position written with
  | nil => exact Action.avoids_pure written
  | cons piece rest ih =>
      have taken : Action.Avoids StorageError.insufficientStorageSpaceError
          (Action.lift (piece.mapError ioErr) : Served (List UInt8)) := by
        intro state failed
        cases piece with
        | ok buffer => cases failed
        | error why => exact ioErr_ne why (Except.error.inj failed)
      apply taken.bind
      intro buffer
      split
      · exact Action.avoids_pure written
      · exact (avoids_sys _).bind fun _ => ih _ _

theorem avoids_currentRoot : Action.Avoids .insufficientStorageSpaceError currentRoot := by
  intro state failed
  rw [currentRoot, Action.query_run] at failed
  cases rooted : state.root <;> simp [rooted] at failed

theorem avoids_upload (input : Upload) (p : PathBuf) (startPos : UInt64) :
    Action.Avoids .insufficientStorageSpaceError (do
      createParent env p
      let file ← openOr env user "UPLOAD".toList "上传失败: ".toList
        { write := true, create := true, truncate := startPos = 0 } p
      finishPut env user input p startPos file) := by
  apply (avoids_createParent p).bind
  intro _
  apply (avoids_openOr _ _ _ p).bind
  intro file
  apply (avoids_seekTo startPos).bind
  intro _
  apply (avoids_copyFrom file _ _ input).bind
  intro written
  exact (avoids_sys _).bind fun _ => avoids_currentRoot.bind fun _ => (Action.avoids_modify _).bind fun _ =>
    Action.avoids_pure written

end Errors

theorem checkQuota_run (p : PathBuf) (state : WftpdFilesystem) :
    checkQuota env user p state = (.ok (), state) ∧ ¬ Fills env user state.fs p ∨
      checkQuota env user p state = (.error .insufficientStorageSpaceError, state) ∧ Fills env user state.fs p := by
  simp only [checkQuota, Action.query_run, Fills]
  by_cases unlimited : user.quotaMb = 0
  · exact .inl ⟨by rw [if_pos unlimited], fun fills => absurd unlimited (UInt64.pos_iff_ne_zero.mp fills.1)⟩
  · rw [if_neg unlimited]
    by_cases full : min (user.quotaMb.toNat * 2 ^ 20) u64Max ≤ dirSize env.os state.fs p
    · exact .inr ⟨by rw [if_pos full], UInt64.pos_iff_ne_zero.mpr unlimited, full⟩
    · exact .inl ⟨by rw [if_neg full], fun fills => full fills.2⟩

/-- A PUT is refused for want of space exactly when the user may write, the path is accepted and
what lies at this very path fills the quota. -/
theorem put_refused_iff (input : Upload) (path : Text) (startPos : UInt64) :
    Refused state (put env user input path startPos state) ↔
      user.permissions.canWrite = true ∧
        ∃ p, resolve state.root (components path) = .ok p ∧ Fills env user state.fs p := by
  cases granted : user.permissions.canWrite with
  | false =>
      have refused : (require false : Served Unit) state = (.error .permissionDenied, state) := rfl
      rw [put, granted, Action.bind_run_error refused]
      simp [Refused]
  | true =>
      have permitted : (require true : Served Unit) state = (.ok (), state) := rfl
      rw [put, granted, Action.bind_run_ok permitted]
      cases resolved : resolve state.root (components path) with
      | error why =>
          have stopped : resolvePath path state = (.error why, state) := by rw [resolvePath, Action.query_run, resolved]
          rw [Action.bind_run_error stopped]
          simp [Refused, resolve_refusal resolved]
      | ok p =>
          have accepted : resolvePath path state = (.ok p, state) := by rw [resolvePath, Action.query_run, resolved]
          rw [Action.bind_run_ok accepted]
          simp only [true_and, Except.ok.injEq, exists_eq_left']
          rcases checkQuota_run p state with ⟨passed, free⟩ | ⟨stopped, fills⟩
          · -- whatever fails from here on fails for another reason
            rw [Action.bind_run_ok passed]
            exact iff_of_false (fun refused => avoids_upload input p startPos state refused.1) free
          · rw [Action.bind_run_error stopped]
            exact iff_of_true ⟨rfl, rfl⟩ fills

/-- An upload to a full home is refused exactly when the upload's own path fills the quota. -/
theorem put_respectsQuota_iff (input : Upload) (path : Text) (startPos : UInt64) :
    RespectsQuota env user state input path startPos ↔
      (OverQuota env user state → user.permissions.canWrite = true ∧
        ∃ p, resolve state.root (components path) = .ok p ∧ Fills env user state.fs p) := by
  rw [RespectsQuota, put_refused_iff]

section Samples

def filledHome (bytes : List UInt8) : WftpdFilesystem := rootedAt [] (FileSystem.empty.addFile "f".toList bytes)

def oneMegabyteUser : WftpdUser := userWith { Permissions.full with quotaMb := some 1 }

theorem dirSize_filledHome (bytes : List UInt8) :
    dirSize permissiveCall.os (filledHome bytes).fs [.rootDir] = bytes.length % 2 ^ 64 := rfl

/-- A new file is accepted, whatever the home holds. -/
theorem put_filledHome (bytes : List UInt8) :
    (put permissiveCall oneMegabyteUser [.ok [115]] "/g".toList 0 (filledHome bytes)).1 = .ok 1 := rfl

/-- One megabyte is stored, one is allowed, and a new file is still taken. -/
theorem put_exceeds : ¬ ∀ (env : CallEnv) (user : WftpdUser) (state : WftpdFilesystem) (input : Upload) (path : Text)
    (startPos : UInt64), RespectsQuota env user state input path startPos := by
  intro respects
  have full : OverQuota permissiveCall oneMegabyteUser (filledHome (List.replicate 1048576 0)) := by
    refine ⟨[.rootDir], rfl, by decide, ?_⟩
    rw [dirSize_filledHome, List.length_replicate]
    decide
  have refused := (respects permissiveCall oneMegabyteUser _ [.ok [115]] "/g".toList 0 full).1
  rw [put_filledHome] at refused
  cases refused

end Samples

end Wftpd.Ftp
