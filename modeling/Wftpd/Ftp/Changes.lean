import Wftpd.Ftp.Storage
import Wftpd.Posix.Effects

/-! The file system after each storage call.

A call asks for a right and a path first; where that fails the session stays as it
was. PUT goes on in several steps, which are judged by a relation between file systems.
-/

set_option autoImplicit false

namespace Wftpd.Ftp
open Wftpd.Posix Wftpd.Common Wftpd.Library

variable {α β : Type} {env : CallEnv} {user : WftpdUser} {state : WftpdFilesystem}

section Tools

theorem still_require (holds : Bool) : Action.Still (require holds) := Action.still_check _ _

theorem still_resolvePath (path : Text) : Action.Still (resolvePath path) := Action.still_query _

theorem still_checkQuota (p : PathBuf) : Action.Still (checkQuota env user p) := Action.still_query _

theorem still_currentRoot : Action.Still currentRoot := Action.still_query _

theorem still_sys {call : Action FileSystem ErrorKind α} (kept : FileSystem.ReadOnly call) : Action.Still (sys call) := by
  intro state
  simp only [sys, Action.zoom, kept state.fs]

theorem leaves_sys_root (call : Action FileSystem ErrorKind α) : Action.Leaves WftpdFilesystem.root (sys call) :=
  fun _ => rfl

theorem leaves_audit_fs (op : Text) (p : PathBuf) (size : Nat) (success : Bool) (message : Text) :
    Action.Leaves WftpdFilesystem.fs (audit env user op p size success message) := fun _ => rfl

theorem leaves_audit_root (op : Text) (p : PathBuf) (size : Nat) (success : Bool) (message : Text) :
    Action.Leaves WftpdFilesystem.root (audit env user op p size success message) := fun _ => rfl

theorem still_seekTo (startPos : UInt64) : Action.Still (seekTo env startPos) := by
  unfold seekTo
  split
  · exact still_sys (FileSystem.readOnly_seek _ _)
  · exact Action.still_pure ()

theorem resolvePath_ok {path : Text} {after : WftpdFilesystem} {p : PathBuf}
    (ran : resolvePath path state = (.ok p, after)) : resolve state.root (components path) = .ok p :=
  (Prod.mk.inj ran).1

/-- What follows and leaves the file system alone does not matter to it. -/
theorem fs_before {first : Served α} {next : α → Served β}
    (rest : ∀ value, Action.Leaves WftpdFilesystem.fs (next value)) :
    ((first >>= next) state).2.fs = (first state).2.fs := Action.Leaves.before rest

theorem sys_fs {call : Action FileSystem ErrorKind α} {next : α → Served β}
    (rest : ∀ value, Action.Leaves WftpdFilesystem.fs (next value)) :
    ((sys call >>= next) state).2.fs = (call state.fs).2 := fs_before rest

theorem openOr_fs (op message : Text) (options : FileSystem.OpenOptions) (p : PathBuf) (state : WftpdFilesystem) :
    (openOr env user op message options p state).2.fs = (FileSystem.openFile env.os options p state.fs).2 := by
  unfold openOr
  refine (fs_before ?_).trans rfl
  intro answer
  cases answer with
  | ok file => exact (Action.still_pure file).leaves
  | error why => exact (leaves_audit_fs _ _ _ _ _).bind fun _ => (Action.still_fail _).leaves

theorem openOr_ok {op message : Text} {options : FileSystem.OpenOptions} {p : PathBuf} {after : WftpdFilesystem}
    {file : FileSystem.OpenFile} (ran : openOr env user op message options p state = (.ok file, after)) :
    FileSystem.openFile env.os options p state.fs = (.ok file, after.fs) ∧ after = { state with fs := after.fs } := by
  obtain ⟨answer, middle, opened, finish⟩ := Action.bind_ok ran
  cases answer with
  | error why =>
      obtain ⟨_, _, -, failed⟩ := Action.bind_ok finish
      cases failed
  | ok opened_file =>
      cases finish
      cases called : FileSystem.openFile env.os options p state.fs with
      | mk result fs =>
          simp only [Action.outcome, Action.zoom, called, Prod.mk.injEq, Except.ok.injEq] at opened
          obtain ⟨same, rfl⟩ := opened
          cases result with
          | error why => cases same
          | ok value =>
              cases same
              exact ⟨rfl, rfl⟩

theorem openOr_root (op message : Text) (options : FileSystem.OpenOptions) (p : PathBuf) :
    Action.Leaves WftpdFilesystem.root (openOr env user op message options p) := by
  apply Action.Leaves.bind (fun _ => rfl)
  intro answer
  cases answer with
  | ok file => exact (Action.still_pure file).leaves
  | error why => exact (leaves_audit_root _ _ _ _ _).bind fun _ => (Action.still_fail _).leaves

end Tools

section Root

theorem copyFrom_root (file : FileSystem.OpenFile) (position written : Nat) (input : Upload) :
    Action.Leaves WftpdFilesystem.root (copyFrom env file position written input) := by
  induction input generalizing position written with
  | nil => exact (Action.still_pure _).leaves
  | cons piece rest ih =>
      apply (Action.still_lift _).leaves.bind
      intro buffer
      split
      · exact (Action.still_pure _).leaves
      · exact (leaves_sys_root _).bind fun _ => ih _ _

theorem put_root (input : Upload) (path : Text) (startPos : UInt64) :
    Action.Leaves WftpdFilesystem.root (put env user input path startPos) := by
  apply (still_require _).leaves.bind
  intro _
  apply (still_resolvePath _).leaves.bind
  intro p
  apply (still_checkQuota p).leaves.bind
  intro _
  have parent : Action.Leaves WftpdFilesystem.root (createParent env p) := by
    unfold createParent
    cases p.parent with
    | some parent => exact leaves_sys_root _
    | none => exact (Action.still_pure ()).leaves
  exact parent.bind fun _ => (openOr_root _ _ _ p).bind fun file => (still_seekTo startPos).leaves.bind fun _ =>
    (copyFrom_root file _ _ input).bind fun _ => (leaves_sys_root _).bind fun _ =>
      still_currentRoot.leaves.bind fun _ => (leaves_audit_root _ _ _ _ _).bind fun _ => (Action.still_pure _).leaves

theorem get_root (path : Text) (startPos : UInt64) :
    Action.Leaves WftpdFilesystem.root (get env user path startPos) :=
  (still_require _).leaves.bind fun _ => (still_resolvePath path).leaves.bind fun p => (openOr_root _ _ _ p).bind fun _ =>
    (still_seekTo startPos).leaves.bind fun _ => (Action.still_read _).leaves.bind fun _ =>
      (leaves_audit_root _ _ _ _ _).bind fun _ => (Action.still_pure _).leaves

theorem handleCall_root (call : Call) : Action.Leaves WftpdFilesystem.root (handleCall env user call) := by
  cases call with
  | metadata path =>
      exact ((still_resolvePath path).leaves.bind fun _ => leaves_sys_root _).bind fun _ => (Action.still_pure _).leaves
  | list path =>
      exact ((still_require _).leaves.bind fun _ => (still_resolvePath path).leaves.bind fun _ =>
        (leaves_sys_root _).bind fun _ => leaves_sys_root _).bind fun _ => (Action.still_pure _).leaves
  | get path startPos => exact (get_root path startPos).bind fun _ => (Action.still_pure _).leaves
  | put input path startPos => exact (put_root input path startPos).bind fun _ => (Action.still_pure _).leaves
  | del path =>
      exact ((still_require _).leaves.bind fun _ => (still_resolvePath path).leaves.bind fun _ =>
        (leaves_sys_root _).bind fun _ => still_currentRoot.leaves.bind fun _ => leaves_audit_root _ _ _ _ _).bind
          fun _ => (Action.still_pure _).leaves
  | mkd path =>
      exact ((still_require _).leaves.bind fun _ => (still_resolvePath path).leaves.bind fun _ =>
        (leaves_sys_root _).bind fun _ => leaves_audit_root _ _ _ _ _).bind fun _ => (Action.still_pure _).leaves
  | rename «from» «to» =>
      exact ((still_require _).leaves.bind fun _ => (still_resolvePath «from»).leaves.bind fun _ =>
        (still_resolvePath «to»).leaves.bind fun _ => (leaves_sys_root _).bind fun _ =>
          leaves_audit_root _ _ _ _ _).bind fun _ => (Action.still_pure _).leaves
  | rmd path =>
      exact ((still_require _).leaves.bind fun _ => (still_resolvePath path).leaves.bind fun _ =>
        (leaves_sys_root _).bind fun _ => leaves_audit_root _ _ _ _ _).bind fun _ => (Action.still_pure _).leaves
  | cwd path =>
      exact ((still_resolvePath path).leaves.bind fun _ => (leaves_sys_root _).bind fun _ =>
        (Action.still_check _ _).leaves).bind fun _ => (Action.still_pure _).leaves

theorem run_root (user : WftpdUser) (state : WftpdFilesystem) (inputs : List CallInput) :
    (run (callStep user) state inputs).2.root = state.root := by
  have keeps : ∀ later input, later.root = state.root → True → (callStep user later input).2.root = state.root :=
    fun later input same _ => (handleCall_root input.2 later).trans same
  exact run_invariant keeps rfl (Along.of_forall fun _ _ => trivial)

end Root

section Calls
variable (final : FileSystem → Prop) (unchanged : final state.fs)
include unchanged

/-- A call that asks for a right and a path, and then makes one system call. -/
theorem guarded_final {holds : Bool} {path : Text} {call : PathBuf → Action FileSystem ErrorKind Unit}
    {tail : PathBuf → Unit → Served α} (quiet : ∀ p value, Action.Leaves WftpdFilesystem.fs (tail p value))
    (called : holds = true → ∀ p, resolve state.root (components path) = .ok p → final (call p state.fs).2) :
    final ((require holds >>= fun _ => resolvePath path >>= fun p => sys (call p) >>= tail p) state).2.fs := by
  apply (still_require holds).followed fun result => final result.2.fs
  · intro why
    exact unchanged
  · intro _ granted
    apply (still_resolvePath path).followed fun result => final result.2.fs
    · intro why
      exact unchanged
    · intro p ran
      rw [sys_fs (quiet p)]
      exact called (Action.check_ok granted) p (resolvePath_ok ran)

theorem del_final (path : Text)
    (removed : user.permissions.canDelete = true → ∀ p, resolve state.root (components path) = .ok p →
      final (FileSystem.removeFile env.os p state.fs).2) : final (del env user path state).2.fs := by
  apply guarded_final final unchanged _ removed
  intro p _
  exact still_currentRoot.leaves.bind fun _ => leaves_audit_fs _ _ _ _ _

theorem mkd_final (path : Text)
    (made : user.permissions.canMkdir = true → ∀ p, resolve state.root (components path) = .ok p →
      final (FileSystem.createDir env.os p state.fs).2) : final (mkd env user path state).2.fs := by
  apply guarded_final final unchanged _ made
  intro p _
  exact leaves_audit_fs _ _ _ _ _

theorem rmd_final (path : Text)
    (removed : user.permissions.canRmdir = true → ∀ p, resolve state.root (components path) = .ok p →
      final (FileSystem.removeDirAll env.os p state.fs).2) : final (rmd env user path state).2.fs := by
  apply guarded_final final unchanged _ removed
  intro p _
  exact leaves_audit_fs _ _ _ _ _

theorem rename_final («from» «to» : Text)
    (renamed : user.permissions.canRename = true → ∀ src dst, resolve state.root (components «from») = .ok src →
      resolve state.root (components «to») = .ok dst → final (FileSystem.rename env.os src dst state.fs).2) :
    final (rename env user «from» «to» state).2.fs := by
  apply (still_require _).followed fun result => final result.2.fs
  · intro why
    exact unchanged
  · intro _ granted
    apply (still_resolvePath «from»).followed fun result => final result.2.fs
    · intro why
      exact unchanged
    · intro src ranFrom
      apply (still_resolvePath «to»).followed fun result => final result.2.fs
      · intro why
        exact unchanged
      · intro dst ranTo
        rw [sys_fs fun _ => leaves_audit_fs _ _ _ _ _]
        exact renamed (Action.check_ok granted) src dst (resolvePath_ok ranFrom) (resolvePath_ok ranTo)

end Calls

section Put
variable {relation : FileSystem → FileSystem → Prop}

/-- The file systems before and after are related, whatever the answer. -/
def FsMoves (relation : FileSystem → FileSystem → Prop) (action : Served α) : Prop :=
  Action.Moves (fun state state' => relation state.fs state'.fs) action

theorem fsMoves_of_leaves (same : ∀ fs, relation fs fs) {action : Served α}
    (leaves : Action.Leaves WftpdFilesystem.fs action) : FsMoves relation action := by
  intro state
  rw [leaves state]
  exact same state.fs

theorem FsMoves.bind (compose : ∀ a b c, relation a b → relation b c → relation a c) {first : Served α}
    {next : α → Served β} (start : FsMoves relation first) (finish : ∀ value, FsMoves relation (next value)) :
    FsMoves relation (first >>= next) := by
  apply Action.Moves.bind _ start finish
  intro a b c left right
  exact compose a.fs b.fs c.fs left right

theorem copyFrom_moves (same : ∀ fs, relation fs fs) (compose : ∀ a b c, relation a b → relation b c → relation a c)
    {file : FileSystem.OpenFile}
    (writes : ∀ fs offset bytes, relation fs (FileSystem.writeAll env.os file offset bytes fs).2)
    (position written : Nat) (input : Upload) : FsMoves relation (copyFrom env file position written input) := by
  -- each piece is written where the one before it ended
  induction input generalizing position written with
  | nil => exact fsMoves_of_leaves same (Action.still_pure _).leaves
  | cons piece rest ih =>
      apply FsMoves.bind compose (fsMoves_of_leaves same (Action.still_lift _).leaves)
      intro buffer
      split
      · exact fsMoves_of_leaves same (Action.still_pure _).leaves
      · apply FsMoves.bind compose
        · intro state
          exact writes state.fs position buffer
        · intro _
          exact ih _ _

def QuotaAdmits (env : CallEnv) (user : WftpdUser) (fs : FileSystem) (p : PathBuf) : Prop :=
  user.quotaMb = 0 ∨ dirSize env.os fs p < min (user.quotaMb.toNat * 2 ^ 20) u64Max

theorem checkQuota_ok {p : PathBuf} {after : WftpdFilesystem}
    (ran : checkQuota env user p state = (.ok (), after)) : QuotaAdmits env user state.fs p := by
  simp only [checkQuota, Action.query_run, Prod.mk.injEq] at ran
  by_cases unlimited : user.quotaMb = 0
  · exact .inl unlimited
  · right
    by_contra full
    rw [if_neg unlimited, if_pos (Nat.le_of_not_lt full)] at ran
    cases ran.1

/-- What a PUT does once its file is open. -/
def finishPut (env : CallEnv) (user : WftpdUser) (input : Upload) (p : PathBuf) (startPos : UInt64)
    (file : FileSystem.OpenFile) : Served Nat := do
  seekTo env startPos
  let written ← copyFrom env file startPos.toNat 0 input
  sys (FileSystem.attempt env.os .flush)
  let _ ← currentRoot
  audit env user "UPLOAD".toList p written true "文件上传成功".toList
  return written

theorem finishPut_moves (same : ∀ fs, relation fs fs)
    (compose : ∀ a b c, relation a b → relation b c → relation a c) {file : FileSystem.OpenFile}
    (writes : ∀ fs offset bytes, relation fs (FileSystem.writeAll env.os file offset bytes fs).2)
    (input : Upload) (p : PathBuf) (startPos : UInt64) :
    FsMoves relation (finishPut env user input p startPos file) := by
  apply FsMoves.bind compose (fsMoves_of_leaves same (still_seekTo startPos).leaves)
  intro _
  apply FsMoves.bind compose (copyFrom_moves same compose writes _ _ input)
  intro written
  apply fsMoves_of_leaves same
  exact (still_sys (FileSystem.readOnly_attempt _ _)).leaves.bind fun _ => still_currentRoot.leaves.bind fun _ =>
    (leaves_audit_fs _ _ _ _ _).bind fun _ => (Action.still_pure _).leaves

theorem put_final (same : ∀ fs, relation fs fs) (compose : ∀ a b c, relation a b → relation b c → relation a c)
    (input : Upload) (path : Text) (startPos : UInt64)
    (parents : user.permissions.canWrite = true → ∀ p parent, resolve state.root (components path) = .ok p →
      QuotaAdmits env user state.fs p → p.parent = some parent →
      relation state.fs (FileSystem.createDirAll env.os parent state.fs).2)
    (opens : ∀ fs p truncate, relation fs
      (FileSystem.openFile env.os { write := true, create := true, truncate := truncate } p fs).2)
    (writes : ∀ fs file offset bytes, relation fs (FileSystem.writeAll env.os file offset bytes fs).2) :
    relation state.fs (put env user input path startPos state).2.fs := by
  let final (result : Except StorageError Nat × WftpdFilesystem) := relation state.fs result.2.fs
  have failed : ∀ why, final (.error why, state) := fun _ => same state.fs
  apply (still_require _).followed final failed
  intro _ granted
  apply (still_resolvePath path).followed final failed
  intro p ran
  apply (still_checkQuota p).followed final failed
  intro _ admitted
  have parent : relation state.fs (createParent env p state).2.fs := by
    unfold createParent
    cases above : p.parent with
    | some parent => exact parents (Action.check_ok granted) p parent (resolvePath_ok ran) (checkQuota_ok admitted) above
    | none => exact same state.fs
  -- past the directories nothing depends on what was found before them
  have rest : FsMoves relation (do
      let file ← openOr env user "UPLOAD".toList "上传失败: ".toList
        { write := true, create := true, truncate := startPos = 0 } p
      finishPut env user input p startPos file) := by
    apply FsMoves.bind compose
    · intro state
      rw [openOr_fs]
      exact opens state.fs p _
    · exact fun file => finishPut_moves same compose (fun fs => writes fs file) input p startPos
  apply Action.bind_cases final
  · intro why after made
    rw [made] at parent
    exact parent
  · intro _ after made
    rw [made] at parent
    exact compose _ _ _ parent (rest after)

end Put

section Step

def Call.reads : Call → Bool
  | .metadata _ | .list _ | .get _ _ | .cwd _ => true
  | _ => false

theorem get_fs (path : Text) (startPos : UInt64) :
    Action.Leaves WftpdFilesystem.fs (get env user path startPos) := by
  apply (still_require _).leaves.bind
  intro _
  apply (still_resolvePath path).leaves.bind
  intro p
  apply Action.Leaves.bind
  · intro state
    rw [openOr_fs]
    exact FileSystem.readOnly_openFile env.os rfl rfl p state.fs
  · intro file
    exact (still_seekTo startPos).leaves.bind fun _ => (Action.still_read _).leaves.bind fun _ =>
      (leaves_audit_fs _ _ _ _ _).bind fun _ => (Action.still_pure _).leaves

theorem handleCall_fs {call : Call} (reads : call.reads = true) :
    Action.Leaves WftpdFilesystem.fs (handleCall env user call) := by
  cases call with
  | metadata path =>
      exact ((still_resolvePath path).leaves.bind fun _ => (still_sys (FileSystem.readOnly_query _)).leaves).bind
        fun _ => (Action.still_pure _).leaves
  | list path =>
      exact ((still_require _).leaves.bind fun _ => (still_resolvePath path).leaves.bind fun _ =>
        (still_sys (FileSystem.readOnly_query _)).leaves.bind fun _ =>
          (still_sys (FileSystem.readOnly_query _)).leaves).bind fun _ => (Action.still_pure _).leaves
  | get path startPos => exact (get_fs path startPos).bind fun _ => (Action.still_pure _).leaves
  | cwd path =>
      exact ((still_resolvePath path).leaves.bind fun _ => (still_sys (FileSystem.readOnly_query _)).leaves.bind
        fun _ => (Action.still_check _ _).leaves).bind fun _ => (Action.still_pure _).leaves
  | _ => cases reads

/-- What a call answers does not matter to the file system. -/
theorem handleCall_before {first : Served α} {answer : α → Answer} :
    ((first >>= fun value => pure (answer value)) state).2.fs = (first state).2.fs :=
  fs_before fun _ => (Action.still_pure _).leaves

end Step

end Wftpd.Ftp
