import Wftpd.Posix.Walk
import Wftpd.Sftp.Frame

/-! The file system after each request that can change it.

A handler first asks questions; where one of them is answered with an error the
file system stays as it was. What is left is the call at its end.
-/

set_option autoImplicit false

namespace Wftpd.Sftp
open Wftpd.Posix Wftpd.Common Wftpd.Library

variable {α β : Type} {env : RequestEnv} {session : Session}

/-- A question that is passed with the session as it was, and failed with the file
system as it was. -/
structure Gate (first : Handled α) : Prop where
  leaves : Leaves Session.fs first
  passes : ∀ session after value, first session = (.ok value, after) → after = session

theorem Gate.followed {first : Handled α} {next : α → Handled β} (gate : Gate first) (final : FileSystem → Prop)
    (unchanged : final session.fs)
    (continued : ∀ value, first session = (.ok value, session) → final (next value session).2.fs) :
    final ((first >>= next) session).2.fs := by
  apply gate.leaves.cases fun after => final after.fs
  · intro after same
    rw [same]
    exact unchanged
  · intro value after ran _
    obtain rfl := gate.passes session after value ran
    exact continued value ran

theorem gate_query (ask : Session → Except StatusCode α) : Gate (Action.query ask) :=
  ⟨leaves_query ask, fun _ _ _ ran => (Prod.mk.inj ran).2.symm⟩

theorem gate_read (ask : Session → α) : Gate (Action.read ask : Handled α) :=
  ⟨leaves_read ask, fun _ _ _ ran => (Prod.mk.inj ran).2.symm⟩

theorem gate_requireAudited (granted : Permissions → Bool) (operation filePath : Text) :
    Gate (requireAudited env granted operation filePath) :=
  ⟨leaves_requireAudited (fun _ _ => rfl) granted operation filePath,
    fun _ _ _ passed => (requireAudited_ok passed).2⟩

theorem gate_readOnly {call : Action FileSystem ErrorKind α} (kept : FileSystem.ReadOnly call) : Gate (sys call) := by
  refine ⟨leaves_readOnly kept, ?_⟩
  intro session after value ran
  have unchanged : Leaves (fun session : Session => session) (sys call) := leaves_readOnly kept
  have same := unchanged session
  rwa [ran] at same

theorem writeCheck_ok {data : List UInt8} {after : Session}
    (passed : writeCheck env data session = (.ok (), after)) : session.quotaOk env data.length = true ∧ after = session := by
  simp only [writeCheck, Action.bind_run, Action.read_run] at passed
  cases fits : session.quotaOk env data.length with
  | true =>
      rw [fits] at passed
      cases passed
      exact ⟨rfl, rfl⟩
  | false =>
      rw [fits] at passed
      cases passed

theorem gate_writeCheck (data : List UInt8) : Gate (writeCheck env data) :=
  ⟨leaves_writeCheck (fun _ _ => rfl) data, fun _ _ _ passed => (writeCheck_ok passed).2⟩

theorem requireAbsent_ok {path : PathBuf} {after : Session}
    (ran : requireAbsent env path session = (.ok (), after)) : session.fs.pathExists env.os path = false := by
  simp only [requireAbsent, Action.query_run, Prod.mk.injEq] at ran
  cases found : session.fs.pathExists env.os path with
  | false => rfl
  | true => simp [found] at ran

theorem requirePermission_ok {granted : Permissions → Bool} {after : Session}
    (ran : requirePermission env granted session = (.ok (), after)) : granted (session.permissions env) = true := by
  simp only [requirePermission, Action.query_run, Prod.mk.injEq] at ran
  cases allowed : granted (session.permissions env) with
  | true => rfl
  | false => simp [allowed] at ran

theorem fs_before {first : Handled α} {next : α → Handled β} (rest : ∀ value, Leaves Session.fs (next value)) :
    ((first >>= next) session).2.fs = (first session).2.fs := Action.Leaves.before rest

theorem sys_fs {call : Action FileSystem ErrorKind α} {next : α → Handled β}
    (rest : ∀ value, Leaves Session.fs (next value)) :
    ((sys call >>= next) session).2.fs = (call session.fs).2 := fs_before rest

theorem setMode_ok {resolved : PathBuf} {permissions : Option UInt32} {after : Session}
    (ran : setMode env resolved permissions session = (.ok (), after)) :
    after = session ∨ (∃ loc, session.fs.locate env.os true resolved = .ok loc) ∧
      ∃ inode, after = { session with fs := { session.fs with inode := inode } } := by
  cases permissions with
  | none =>
      cases ran
      exact .inl rfl
  | some mode =>
      obtain ⟨called, same⟩ := sys_ok ran
      obtain ⟨loc, node, chmods, changed⟩ := FileSystem.setPermissions_ok called
      exact .inr ⟨⟨loc, chmods.located⟩, _, by rw [same, changed, FileSystem.withMode]⟩

theorem leaves_audited (id : UInt32) (operation filePath : Text) (size : Nat) (message : Text) :
    Leaves Session.fs (do
      audit env operation filePath size true message
      return Reply.status id .ok) :=
  (leaves_audit (fun _ _ => rfl) _ _ _ _ _).bind fun _ => leaves_pure _

section Requests
variable (final : FileSystem → Prop) (id : UInt32) (unchanged : final session.fs)
include unchanged

theorem open_final (filename : Text) (pflags : OpenFlags)
    (opened : pflags.granted (session.permissions env) = true → ∀ resolved,
      resolve session.homeDir filename = .ok resolved →
      final (FileSystem.openFile env.os pflags.options resolved session.fs).2) :
    final («open» env id filename pflags session).2.fs := by
  apply (gate_requireAudited _ _ _).followed final unchanged
  intro _ granted
  apply (gate_query _).followed final unchanged
  intro _ _
  apply (gate_query _).followed final unchanged
  intro resolved ran
  rw [sys_fs fun _ => (leaves_insertHandle (fun _ _ => rfl) (fun _ _ => rfl) _).bind fun _ => leaves_pure _]
  exact opened (requireAudited_ok granted).1 resolved (resolvePath_ok ran)

theorem writeData_final (handle : Text) (offset : UInt64) (data : List UInt8)
    (written : ∀ f, session.handles.lookup handle = some (.file f) →
      final (FileSystem.writeAll env.os f.file offset.toNat data session.fs).2) :
    final (writeData env id handle offset data session).2.fs := by
  apply (gate_query _).followed final unchanged
  intro f found
  have listed := (fileHandle_ok found).1
  apply (gate_readOnly (FileSystem.readOnly_seek _ _)).followed final unchanged
  intro _ _
  rw [sys_fs fun _ => (leaves_readOnly (FileSystem.readOnly_attempt _ _)).bind fun _ =>
    (leaves_throttle (fun _ _ => rfl) _).bind fun _ => leaves_pure _]
  exact written f listed

theorem write_final (handle : Text) (offset : UInt64) (data : List UInt8)
    (written : session.quotaOk env data.length = true → ∀ f, session.handles.lookup handle = some (.file f) →
      final (FileSystem.writeAll env.os f.file offset.toNat data session.fs).2) :
    final (write env id handle offset data session).2.fs := by
  apply (gate_writeCheck data).followed final unchanged
  intro _ passed
  apply writeData_final final id unchanged handle offset data
  exact written (writeCheck_ok passed).1

theorem remove_final (filename : Text)
    (removed : (session.permissions env).canDelete = true → ∀ resolved,
      resolve session.homeDir filename = .ok resolved →
      final (FileSystem.removeFile env.os resolved session.fs).2) :
    final (remove env id filename session).2.fs := by
  apply (gate_requireAudited _ _ _).followed final unchanged
  intro _ granted
  apply (gate_query _).followed final unchanged
  intro resolved ran
  apply (gate_read _).followed final unchanged
  intro size _
  rw [sys_fs fun _ => leaves_audited id _ _ _ _]
  exact removed (requireAudited_ok granted).1 resolved (resolvePath_ok ran)

theorem mkdir_final (path : Text)
    (made : ∀ resolved, resolve session.homeDir path = .ok resolved →
      final (FileSystem.createDir env.os resolved session.fs).2) :
    final (mkdir env id path session).2.fs := by
  apply (gate_requireAudited _ _ _).followed final unchanged
  intro _ _
  apply (gate_query _).followed final unchanged
  intro resolved ran
  rw [sys_fs fun _ => leaves_audited id _ _ _ _]
  exact made resolved (resolvePath_ok ran)

theorem rmdir_final (path : Text)
    (removed : (session.permissions env).canRmdir = true → ∀ resolved,
      resolve session.homeDir path = .ok resolved →
      final (FileSystem.removeDirAll env.os resolved session.fs).2) :
    final (rmdir env id path session).2.fs := by
  apply (gate_requireAudited _ _ _).followed final unchanged
  intro _ granted
  apply (gate_query _).followed final unchanged
  intro resolved ran
  rw [sys_fs fun _ => leaves_audited id _ _ _ _]
  exact removed (requireAudited_ok granted).1 resolved (resolvePath_ok ran)

theorem rename_final (oldpath newpath : Text)
    (renamed : (session.permissions env).canRename = true → ∀ «from» «to»,
      resolve session.homeDir oldpath = .ok «from» → resolve session.homeDir newpath = .ok «to» →
      session.fs.pathExists env.os «to» = false →
      final (FileSystem.rename env.os «from» «to» session.fs).2) :
    final (rename env id oldpath newpath session).2.fs := by
  apply (gate_requireAudited _ _ _).followed final unchanged
  intro _ granted
  apply (gate_query _).followed final unchanged
  intro «from» ranFrom
  apply (gate_query _).followed final unchanged
  intro «to» ranTo
  apply (gate_query _).followed final unchanged
  intro _ absent
  rw [sys_fs fun _ => leaves_audited id _ _ _ _]
  exact renamed (requireAudited_ok granted).1 «from» «to» (resolvePath_ok ranFrom) (resolvePath_ok ranTo)
    (requireAbsent_ok absent)

theorem symlink_final (linkpath targetpath : Text)
    (linked : (session.permissions env).canWrite = true → ∀ link, resolve session.homeDir targetpath = .ok link →
      (∃ checked, checkTarget session.homeDir link linkpath = .ok checked) → session.fs.pathExists env.os link = false →
      final (FileSystem.symlink env.os linkpath link session.fs).2) :
    final (symlink env id linkpath targetpath session).2.fs := by
  apply (gate_query _).followed final unchanged
  intro _ granted
  apply (gate_query _).followed final unchanged
  intro link ran
  apply (gate_query _).followed final unchanged
  intro target checked
  apply (gate_query _).followed final unchanged
  intro _ absent
  rw [sys_fs fun _ => leaves_audited id _ _ _ _]
  exact linked (requirePermission_ok granted) link (resolvePath_ok ran) ⟨target, (Prod.mk.inj checked).1⟩
    (requireAbsent_ok absent)

/-- A size is set on the regular file the path led to before the mode was set. -/
theorem setSize_final {resolved : PathBuf} {size : Option UInt64}
    (resized : ∀ length loc ino, size = some length → session.fs.locate env.os true resolved = .ok loc →
      session.fs.tree.find loc = some (.file ino) →
      FileSystem.Resizes env.os session.fs resolved length.toNat ino →
      final ((session.fs.setData ino (FileSystem.resize (session.fs.data ino) length.toNat)).touch ino env.os.now)) :
    final (setSize env resolved size session).2.fs := by
  cases size with
  | none => exact unchanged
  | some length =>
      apply (gate_readOnly (FileSystem.readOnly_openFile _ rfl rfl _)).followed final unchanged
      intro f opened
      obtain ⟨attempted, ⟨loc, located, found⟩, writable⟩ := FileSystem.openFile_writable rfl rfl (sys_ok opened).1
      apply (FileSystem.readOnly_check _ _).followed final unchanged
      intro _ fits
      apply (FileSystem.readOnly_attempt _ _).followed final unchanged
      intro _ completed
      have small := of_decide_eq_true (Action.check_ok fits)
      exact resized length loc f.ino rfl located found
        ⟨attempted, ⟨loc, located, found⟩, writable, small, FileSystem.attempt_ok completed⟩

theorem setstat_final (path : Text) (attrs : FileAttributes)
    (moded : ∀ inode, final { session.fs with inode := inode })
    (resized : (session.permissions env).canWrite = true → ∀ inode size resolved loc ino, attrs.size = some size →
      resolve session.homeDir path = .ok resolved → session.fs.locate env.os true resolved = .ok loc →
      session.fs.tree.find loc = some (.file ino) →
      setMode env resolved attrs.permissions session = (.ok (), { session with fs := { session.fs with inode := inode } }) →
      FileSystem.Resizes env.os { session.fs with inode := inode } resolved size.toNat ino →
      final (({ session.fs with inode := inode } : FileSystem).setData ino
        (FileSystem.resize (session.fs.data ino) size.toNat) |>.touch ino env.os.now)) :
    final (setstat env id path attrs session).2.fs := by
  apply (gate_query _).followed final unchanged
  intro _ granted
  have granted := requirePermission_ok granted
  apply (gate_query _).followed final unchanged
  intro resolved accepted
  have accepted := resolvePath_ok accepted
  refine Action.bind_cases (fun result : Except StatusCode Reply × Session => final result.2.fs) ?_ ?_
  · intro why after ran
    have ended : final (setMode env resolved attrs.permissions session).2.fs := by
      cases attrs.permissions with
      | none => exact unchanged
      | some mode => exact FileSystem.setPermissions_final final resolved _ unchanged moded
    rwa [ran] at ended
  · intro _ after ran
    rw [fs_before fun _ => leaves_audited id _ _ _ _]
    rcases setMode_ok ran with same | ⟨⟨loc, located⟩, inode, same⟩
    · subst after
      apply setSize_final final unchanged
      intro length place ino asked found there resizes
      exact resized granted session.fs.inode length resolved place ino asked accepted found there ran resizes
    · subst after
      apply setSize_final final (moded inode)
      intro length place ino asked found there resizes
      -- the path still leads where it led before the mode was set
      have tree : ({ session.fs with inode := inode } : FileSystem).tree = session.fs.tree := rfl
      have agree : place = loc := FileSystem.locate_agree tree located found
      subst place
      exact resized granted inode length resolved loc ino asked accepted located there ran resizes

end Requests

section Successes

/-- A sequence that succeeds past a gate went on from the same session. -/
theorem gate_ok {first : Handled α} {next : α → Handled β} (gate : Gate first) {reply : β} {after : Session}
    (ran : (first >>= next) session = (.ok reply, after)) :
    ∃ value, first session = (.ok value, session) ∧ next value session = (.ok reply, after) := by
  obtain ⟨value, middle, passed, rest⟩ := Action.bind_ok ran
  obtain rfl := gate.passes session middle value passed
  exact ⟨value, passed, rest⟩

/-- A sequence that fails at a gate has left the file system alone. -/
theorem gate_failed {first : Handled α} {next : α → Handled β} (gate : Gate first) {why : StatusCode} {after : Session}
    (ran : (first >>= next) session = (.error why, after)) :
    after.fs = session.fs ∨ ∃ value, first session = (.ok value, session) ∧ next value session = (.error why, after) := by
  rcases Action.bind_failed ran with failed | ⟨value, middle, passed, rest⟩
  · have same := gate.leaves session
    rw [failed] at same
    exact .inl same
  · obtain rfl := gate.passes session middle value passed
    exact .inr ⟨value, passed, rest⟩

theorem fs_after {rest : Handled α} {reply : α} {before after : Session} (leaves : Leaves Session.fs rest)
    (ran : rest before = (.ok reply, after)) : after.fs = before.fs := by
  have same := leaves before
  rwa [ran] at same

theorem open_ok {id : UInt32} {filename : Text} {pflags : OpenFlags} {reply : Reply} {after : Session}
    (opened : «open» env id filename pflags session = (.ok reply, after)) :
    pflags.granted (session.permissions env) = true ∧ ∃ path file, resolve session.homeDir filename = .ok path ∧
      FileSystem.openFile env.os pflags.options path session.fs = (.ok file, after.fs) := by
  obtain ⟨_, granted, opened⟩ := gate_ok (gate_requireAudited _ _ _) opened
  obtain ⟨_, _, opened⟩ := gate_ok (gate_query _) opened
  obtain ⟨path, accepted, opened⟩ := gate_ok (gate_query _) opened
  obtain ⟨file, middle, called, opened⟩ := Action.bind_ok opened
  have rest : Leaves Session.fs (insertHandle (.file ⟨file, pflags.wantsWrite⟩) >>= fun handle =>
      (pure (.handle id handle) : Handled Reply)) :=
    (leaves_insertHandle (fun _ _ => rfl) (fun _ _ => rfl) _).bind fun _ => leaves_pure _
  refine ⟨(requireAudited_ok granted).1, path, file, resolvePath_ok accepted, ?_⟩
  rw [fs_after rest opened]
  exact (sys_ok called).1

theorem sys_run {call : Action FileSystem ErrorKind α} {value : α} {fs : FileSystem}
    (called : call session.fs = (.ok value, fs)) : sys call session = (.ok value, { session with fs := fs }) := by
  simp only [sys, Action.zoom, called]
  rfl

theorem open_run {id : UInt32} {filename : Text} {pflags : OpenFlags} {path : PathBuf} {file : FileSystem.OpenFile}
    {fs : FileSystem} (granted : pflags.granted (session.permissions env) = true)
    (accepted : resolve session.homeDir filename = .ok path)
    (opened : FileSystem.openFile env.os pflags.options path session.fs = (.ok file, fs)) :
    ∃ reply after, «open» env id filename pflags session = (.ok reply, after) ∧ after.fs = fs := by
  have permitted : requireAudited env pflags.granted "OPEN".toList filename session = (.ok (), session) := by
    simp only [requireAudited, Action.bind_run, Action.read_run, granted]
    rfl
  have resolved : resolvePath filename session = (.ok path, session) := by
    rw [resolvePath, Action.query_run, accepted]
  -- nothing is added yet, so that the quota is no obstacle
  have quota : (Action.query fun session => if !pflags.wantsWrite || session.quotaOk env 0 then .ok ()
      else .error .failure : Handled Unit) session = (.ok (), session) := by
    simp [Session.quotaOk]
  unfold «open»
  rw [Action.bind_run_ok permitted, Action.bind_run_ok quota, Action.bind_run_ok resolved,
    Action.bind_run_ok (sys_run opened)]
  exact ⟨_, _, rfl, rfl⟩

end Successes

end Wftpd.Sftp
