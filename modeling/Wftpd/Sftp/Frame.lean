import Wftpd.Sftp.Protocol

/-! What each request leaves alone.

A view is some part of a session. `Leaves` says that an action does not change
it, whatever it answers; which handlers leave a view alone follows from the parts
the view ignores.
-/

set_option autoImplicit false

namespace Wftpd.Sftp
open Wftpd.Posix Wftpd.Common Wftpd.Library

variable {α β γ : Type}

def Leaves (view : Session → γ) (action : Handled α) : Prop :=
  Action.Moves (fun session session' => view session' = view session) action

theorem lookup_insert_dir {handles : AList fun _ : Text => OpenEntry} {handle other : Text} {dir : DirHandle}
    {f : FileHandle} (found : (handles.insert handle (.dir dir)).lookup other = some (.file f)) :
    handles.lookup other = some (.file f) := by
  by_cases here : other = handle
  · subst other
    rw [AList.lookup_insert] at found
    cases found
  · rwa [AList.lookup_insert_ne here] at found

theorem lookup_erase_some {handles : AList fun _ : Text => OpenEntry} {handle other : Text} {entry : OpenEntry}
    (found : (handles.erase handle).lookup other = some entry) : handles.lookup other = some entry := by
  by_cases here : other = handle
  · subst other
    rw [AList.lookup_erase] at found
    cases found
  · rwa [AList.lookup_erase_ne here] at found

section Rules
variable {view : Session → γ}

theorem Leaves.bind {first : Handled α} {next : α → Handled β} (start : Leaves view first)
    (finish : ∀ value, Leaves view (next value)) : Leaves view (first >>= next) :=
  Action.Leaves.bind start finish

/-- Past an action that leaves a view alone, with what it answered. -/
theorem Leaves.cases {first : Handled α} {next : α → Handled β} {session : Session} (leaves : Leaves view first)
    (final : Session → Prop) (failed : ∀ after, view after = view session → final after)
    (continued : ∀ value after, first session = (.ok value, after) → view after = view session →
      final (next value after).2) : final ((first >>= next) session).2 := by
  apply Action.Leaves.followed leaves fun result => final result.2
  · intro _ after same
    exact failed after same
  · exact continued

theorem leaves_pure (value : α) : Leaves view (pure value : Handled α) := (Action.still_pure value).leaves

theorem leaves_fail (why : StatusCode) : Leaves view (Action.fail why : Handled α) := (Action.still_fail why).leaves

theorem leaves_query (ask : Session → Except StatusCode α) : Leaves view (Action.query ask) :=
  (Action.still_query ask).leaves

theorem leaves_read (ask : Session → α) : Leaves view (Action.read ask : Handled α) := (Action.still_read ask).leaves

theorem leaves_lift (result : Except StatusCode α) : Leaves view (Action.lift result : Handled α) :=
  (Action.still_lift result).leaves

theorem leaves_check (holds : Bool) (why : StatusCode) : Leaves view (Action.check holds why : Handled Unit) :=
  (Action.still_check holds why).leaves

end Rules

/-- The view does not look at the file system, the log, the rate limiter, or the
handle table and its counter. -/
def IgnoresFs (view : Session → γ) : Prop := ∀ session fs, view { session with fs := fs } = view session
def IgnoresLog (view : Session → γ) : Prop := ∀ session log, view { session with log := log } = view session
def IgnoresLimiter (view : Session → γ) : Prop :=
  ∀ session limiter, view { session with speedLimiter := limiter } = view session
def IgnoresCounter (view : Session → γ) : Prop :=
  ∀ session next, view { session with nextHandle := next } = view session
def IgnoresHandles (view : Session → γ) : Prop :=
  ∀ session handles, view { session with handles := handles } = view session

section Tools
variable {view : Session → γ} {env : RequestEnv}

theorem leaves_sys (fs : IgnoresFs view) (call : Action FileSystem ErrorKind α) : Leaves view (sys call) :=
  fun session => fs session _

theorem sys_ok {call : Action FileSystem ErrorKind α} {session session' : Session} {value : α}
    (ran : sys call session = (.ok value, session')) :
    call session.fs = (.ok value, session'.fs) ∧ session' = { session with fs := session'.fs } := by
  unfold sys Action.zoom at ran
  cases called : call session.fs with
  | mk answer fs =>
      rw [called] at ran
      cases answer with
      | ok result =>
          cases ran
          exact ⟨rfl, rfl⟩
      | error why => cases ran

theorem leaves_readOnly {call : Action FileSystem ErrorKind α} (readOnly : FileSystem.ReadOnly call) :
    Leaves view (sys call) := by
  intro session
  simp only [sys, Action.zoom, readOnly session.fs]

theorem leaves_audit (log : IgnoresLog view) (operation filePath : Text) (size : Nat) (success : Bool)
    (message : Text) : Leaves view (audit env operation filePath size success message) :=
  fun session => log session _

theorem leaves_throttle (limiter : IgnoresLimiter view) (bytes : Nat) : Leaves view (throttle env bytes) :=
  fun session => limiter session _

theorem leaves_requirePermission (granted : Permissions → Bool) : Leaves view (requirePermission env granted) :=
  leaves_query _

theorem leaves_requireAudited (log : IgnoresLog view) (granted : Permissions → Bool) (operation filePath : Text) :
    Leaves view (requireAudited env granted operation filePath) := by
  refine (leaves_read _).bind fun allowed => ?_
  cases allowed with
  | true => exact leaves_pure ()
  | false => exact (leaves_audit log _ _ _ _ _).bind fun _ => leaves_fail _

theorem resolvePath_ok {path : Text} {session session' : Session} {resolved : PathBuf}
    (ran : resolvePath path session = (.ok resolved, session')) : resolve session.homeDir path = .ok resolved :=
  (Prod.mk.inj ran).1

theorem requireAudited_ok {env : RequestEnv} {granted : Permissions → Bool} {operation filePath : Text}
    {session session' : Session} (passed : requireAudited env granted operation filePath session = (.ok (), session')) :
    granted (session.permissions env) = true ∧ session' = session := by
  unfold requireAudited at passed
  simp only [Action.bind_run, Action.read_run] at passed
  cases allowed : granted (session.permissions env) with
  | false =>
      rw [allowed] at passed
      cases passed
  | true =>
      rw [allowed] at passed
      cases passed
      exact ⟨rfl, rfl⟩

theorem fileHandle_ok {handle : Text} {session session' : Session} {f : FileHandle}
    (found : fileHandle handle session = (.ok f, session')) :
    session.handles.lookup handle = some (.file f) ∧ session' = session := by
  have answer := congrArg Prod.fst found
  have state := congrArg Prod.snd found
  simp only [fileHandle, Action.query_run] at answer state
  split at answer
  · next file listed =>
      cases answer
      exact ⟨listed, state.symm⟩
  · cases answer

theorem leaves_insertHandle (counter : IgnoresCounter view) (handles : IgnoresHandles view) (entry : OpenEntry) :
    Leaves view (insertHandle entry) :=
  Leaves.bind (fun session => counter session _) fun _ =>
    Leaves.bind (fun session => handles session _) fun _ => leaves_pure _

theorem leaves_nextEntries (handles : IgnoresHandles view) (handle : Text) (dir : DirHandle) :
    Leaves view (nextEntries env handle dir) :=
  Leaves.bind (fun session => handles session _) fun _ => leaves_lift _

end Tools

section Handlers
variable {view : Session → γ} {env : RequestEnv}

theorem leaves_open (fs : IgnoresFs view) (log : IgnoresLog view) (counter : IgnoresCounter view)
    (handles : IgnoresHandles view) (id : UInt32) (filename : Text) (pflags : OpenFlags) :
    Leaves view («open» env id filename pflags) :=
  (leaves_requireAudited log _ _ _).bind fun _ => (leaves_query _).bind fun _ => (leaves_query _).bind fun _ =>
    (leaves_sys fs _).bind fun _ => (leaves_insertHandle counter handles _).bind fun _ => leaves_pure _

theorem leaves_close (handles : IgnoresHandles view) (id : UInt32) (handle : Text) :
    Leaves view (close id handle) :=
  (leaves_query _).bind fun _ => Leaves.bind (fun session => handles session _) fun _ => leaves_pure _

theorem leaves_readRequest (limiter : IgnoresLimiter view) (id : UInt32) (handle : Text) (offset : UInt64)
    (len : UInt32) : Leaves view (read env id handle offset len) :=
  (leaves_query _).bind fun _ => (leaves_readOnly (FileSystem.readOnly_seek _ _)).bind fun _ => (leaves_readOnly (FileSystem.readOnly_readAt _ _ _ _ _)).bind fun _ =>
    (leaves_check _ _).bind fun _ => (leaves_throttle limiter _).bind fun _ => leaves_pure _

theorem leaves_writeCheck (log : IgnoresLog view) (data : List UInt8) : Leaves view (writeCheck env data) := by
  refine (leaves_read _).bind fun fits => ?_
  cases fits with
  | true => exact leaves_pure ()
  | false => exact (leaves_audit log _ _ _ _ _).bind fun _ => leaves_fail _

theorem leaves_writeData (fs : IgnoresFs view) (limiter : IgnoresLimiter view) (id : UInt32) (handle : Text)
    (offset : UInt64) (data : List UInt8) : Leaves view (writeData env id handle offset data) :=
  (leaves_query _).bind fun _ => (leaves_readOnly (FileSystem.readOnly_seek _ _)).bind fun _ =>
    (leaves_sys fs _).bind fun _ => (leaves_readOnly (FileSystem.readOnly_attempt _ _)).bind fun _ =>
      (leaves_throttle limiter _).bind fun _ => leaves_pure _

theorem leaves_write (fs : IgnoresFs view) (log : IgnoresLog view) (limiter : IgnoresLimiter view) (id : UInt32)
    (handle : Text) (offset : UInt64) (data : List UInt8) : Leaves view (write env id handle offset data) :=
  (leaves_writeCheck log data).bind fun _ => leaves_writeData fs limiter id handle offset data

theorem leaves_lstat (id : UInt32) (path : Text) : Leaves view (lstat env id path) :=
  (leaves_requirePermission _).bind fun _ => (leaves_query _).bind fun _ => (leaves_query _).bind fun _ =>
    leaves_pure _

theorem leaves_stat (id : UInt32) (path : Text) : Leaves view (stat env id path) :=
  (leaves_requirePermission _).bind fun _ => (leaves_query _).bind fun _ => (leaves_query _).bind fun _ =>
    leaves_pure _

theorem leaves_fstat (id : UInt32) (handle : Text) : Leaves view (fstat env id handle) :=
  (leaves_query _).bind fun _ => (leaves_readOnly (FileSystem.readOnly_attempt _ _)).bind fun _ => (leaves_read _).bind fun _ => leaves_pure _

theorem leaves_setMode (fs : IgnoresFs view) (resolved : PathBuf) (permissions : Option UInt32) :
    Leaves view (setMode env resolved permissions) := by
  cases permissions with
  | none => exact leaves_pure ()
  | some mode => exact leaves_sys fs _

theorem leaves_setSize (fs : IgnoresFs view) (resolved : PathBuf) (size : Option UInt64) :
    Leaves view (setSize env resolved size) := by
  cases size with
  | none => exact leaves_pure ()
  | some size => exact (leaves_sys fs _).bind fun _ => leaves_sys fs _

theorem leaves_setstat (fs : IgnoresFs view) (log : IgnoresLog view) (id : UInt32) (path : Text)
    (attrs : FileAttributes) : Leaves view (setstat env id path attrs) :=
  (leaves_requirePermission _).bind fun _ => (leaves_query _).bind fun _ => (leaves_setMode fs _ _).bind fun _ =>
    (leaves_setSize fs _ _).bind fun _ => (leaves_audit log _ _ _ _ _).bind fun _ => leaves_pure _

theorem leaves_opendir (counter : IgnoresCounter view) (handles : IgnoresHandles view)
    (id : UInt32) (path : Text) : Leaves view (opendir env id path) :=
  (leaves_requirePermission _).bind fun _ => (leaves_query _).bind fun _ =>
    (leaves_readOnly (FileSystem.readOnly_query _)).bind fun _ =>
    (leaves_insertHandle counter handles _).bind fun _ => leaves_pure _

theorem leaves_readdir (handles : IgnoresHandles view) (id : UInt32) (handle : Text) :
    Leaves view (readdir env id handle) :=
  (leaves_query _).bind fun _ => (leaves_nextEntries handles _ _).bind fun _ => (leaves_check _ _).bind fun _ =>
    (leaves_read _).bind fun _ => leaves_pure _

theorem leaves_remove (fs : IgnoresFs view) (log : IgnoresLog view) (id : UInt32) (filename : Text) :
    Leaves view (remove env id filename) :=
  (leaves_requireAudited log _ _ _).bind fun _ => (leaves_query _).bind fun _ => (leaves_read _).bind fun _ =>
    (leaves_sys fs _).bind fun _ => (leaves_audit log _ _ _ _ _).bind fun _ => leaves_pure _

theorem leaves_mkdir (fs : IgnoresFs view) (log : IgnoresLog view) (id : UInt32) (path : Text) :
    Leaves view (mkdir env id path) :=
  (leaves_requireAudited log _ _ _).bind fun _ => (leaves_query _).bind fun _ => (leaves_sys fs _).bind fun _ =>
    (leaves_audit log _ _ _ _ _).bind fun _ => leaves_pure _

theorem leaves_rmdir (fs : IgnoresFs view) (log : IgnoresLog view) (id : UInt32) (path : Text) :
    Leaves view (rmdir env id path) :=
  (leaves_requireAudited log _ _ _).bind fun _ => (leaves_query _).bind fun _ => (leaves_sys fs _).bind fun _ =>
    (leaves_audit log _ _ _ _ _).bind fun _ => leaves_pure _

theorem leaves_realpath (id : UInt32) (path : Text) : Leaves view (realpath env id path) :=
  (leaves_query _).bind fun _ => (leaves_read _).bind fun _ => leaves_pure _

theorem leaves_rename (fs : IgnoresFs view) (log : IgnoresLog view) (id : UInt32) (oldpath newpath : Text) :
    Leaves view (rename env id oldpath newpath) :=
  (leaves_requireAudited log _ _ _).bind fun _ => (leaves_query _).bind fun _ => (leaves_query _).bind fun _ =>
    (leaves_query _).bind fun _ => (leaves_sys fs _).bind fun _ => (leaves_audit log _ _ _ _ _).bind fun _ =>
      leaves_pure _

theorem leaves_readlink (id : UInt32) (path : Text) : Leaves view (readlink env id path) :=
  (leaves_query _).bind fun _ => (leaves_readOnly (FileSystem.readOnly_query _)).bind fun _ => leaves_pure _

theorem leaves_symlink (fs : IgnoresFs view) (log : IgnoresLog view) (id : UInt32) (linkpath targetpath : Text) :
    Leaves view (symlink env id linkpath targetpath) :=
  (leaves_requirePermission _).bind fun _ => (leaves_query _).bind fun _ => (leaves_query _).bind fun _ =>
    (leaves_query _).bind fun _ => (leaves_sys fs _).bind fun _ => (leaves_audit log _ _ _ _ _).bind fun _ =>
      leaves_pure _

theorem readOnly_digestRead (file : FileSystem.OpenFile) (fuel count pos remaining : Nat) (fed : List UInt8) :
    FileSystem.ReadOnly (digestRead env file fuel count pos remaining fed) := by
  induction fuel generalizing count pos remaining fed with
  | zero => exact FileSystem.readOnly_pure _
  | succ fuel ih =>
      refine (FileSystem.readOnly_readAt _ _ _ _ _).bind fun piece => ?_
      split
      · exact FileSystem.readOnly_pure _
      split
      · exact FileSystem.readOnly_pure _
      · exact ih _ _ _ _

theorem readOnly_digestFile (hash : List UInt8 → List UInt8) (path : PathBuf) (offset length : Nat) :
    FileSystem.ReadOnly (digestFile env hash path offset length) :=
  (FileSystem.readOnly_openFile _ rfl rfl _).bind fun _ => (FileSystem.readOnly_seek _ _).bind fun _ =>
    (FileSystem.readOnly_read _).bind fun _ => (readOnly_digestRead _ _ _ _ _ _).bind fun _ =>
      FileSystem.readOnly_pure _

theorem leaves_extended (digests : Digests) (id : UInt32) (request : Text)
    (data : List UInt8) : Leaves view (extended digests env id request data) := by
  have digest : ∀ hash, Leaves view (extendedDigest env hash id data) := by
    intro hash
    unfold extendedDigest
    split
    · exact leaves_fail _
    · exact (leaves_query _).bind fun _ => (leaves_readOnly (readOnly_digestFile _ _ _ _)).bind fun _ => leaves_pure _
  have space : Leaves view (extendedSpaceAvailable env id data) := by
    unfold extendedSpaceAvailable
    split
    · exact leaves_fail _
    · exact (leaves_query _).bind fun _ => (leaves_query _).bind fun _ => leaves_pure _
  unfold extended
  split
  · exact digest _
  split
  · exact digest _
  split
  · exact space
  · exact leaves_fail _

end Handlers

def Request.usesTable : Request → Bool
  | .open _ _ _ | .close _ _ | .opendir _ _ | .readdir _ _ => true
  | _ => false

/-- The others leave everything alone that is not the file system, the log or the rate limiter. -/
theorem handleRequest_leaves {view : Session → γ} (fs : IgnoresFs view) (log : IgnoresLog view)
    (limiter : IgnoresLimiter view) (digests : Digests) (env : RequestEnv) {request : Request}
    (other : request.usesTable = false) : Leaves view (handleRequest digests env request) := by
  cases request with
  | «open» _ _ _ | close _ _ | opendir _ _ | readdir _ _ => cases other
  | init _ _ => exact leaves_pure _
  | read id handle offset len => exact leaves_readRequest limiter id handle offset len
  | write id handle offset data => exact leaves_write fs log limiter id handle offset data
  | lstat id path => exact leaves_lstat id path
  | fstat id handle => exact leaves_fstat id handle
  | setstat id path attrs => exact leaves_setstat fs log id path attrs
  | fsetstat _ _ _ => exact leaves_fail _
  | remove id filename => exact leaves_remove fs log id filename
  | mkdir id path => exact leaves_mkdir fs log id path
  | rmdir id path => exact leaves_rmdir fs log id path
  | realpath id path => exact leaves_realpath id path
  | stat id path => exact leaves_stat id path
  | rename id oldpath newpath => exact leaves_rename fs log id oldpath newpath
  | readlink id path => exact leaves_readlink id path
  | symlink id linkpath targetpath => exact leaves_symlink fs log id linkpath targetpath
  | extended id request data => exact leaves_extended digests id request data

def Session.owner (session : Session) : Text × Text := (session.username, session.homeDir)

theorem handleRequest_leaves_owner (digests : Digests) (env : RequestEnv) (request : Request) :
    Leaves Session.owner (handleRequest digests env request) := by
  have fs : IgnoresFs Session.owner := fun _ _ => rfl
  have log : IgnoresLog Session.owner := fun _ _ => rfl
  have limiter : IgnoresLimiter Session.owner := fun _ _ => rfl
  have counter : IgnoresCounter Session.owner := fun _ _ => rfl
  have handles : IgnoresHandles Session.owner := fun _ _ => rfl
  cases request with
  | «open» id filename pflags => exact leaves_open fs log counter handles id filename pflags
  | close id handle => exact leaves_close handles id handle
  | opendir id path => exact leaves_opendir counter handles id path
  | readdir id handle => exact leaves_readdir handles id handle
  | _ => exact handleRequest_leaves fs log limiter digests env rfl

theorem handleRequest_leaves_handles (digests : Digests) (env : RequestEnv) {request : Request}
    (other : request.usesTable = false) : Leaves Session.handles (handleRequest digests env request) :=
  handleRequest_leaves (fun _ _ => rfl) (fun _ _ => rfl) (fun _ _ => rfl) digests env other

def Request.mutates : Request → Bool
  | .open _ _ _ | .write _ _ _ _ | .setstat _ _ _ | .remove _ _ | .mkdir _ _ | .rmdir _ _ | .rename _ _ _
  | .symlink _ _ _ => true
  | _ => false

theorem handleRequest_leaves_fs (digests : Digests) (env : RequestEnv) {request : Request}
    (other : request.mutates = false) : Leaves Session.fs (handleRequest digests env request) := by
  have limiter : IgnoresLimiter Session.fs := fun _ _ => rfl
  have counter : IgnoresCounter Session.fs := fun _ _ => rfl
  have handles : IgnoresHandles Session.fs := fun _ _ => rfl
  cases request with
  | «open» _ _ _ | write _ _ _ _ | setstat _ _ _ | remove _ _ | mkdir _ _ | rmdir _ _ | rename _ _ _ | symlink _ _ _ =>
      cases other
  | init _ _ => exact leaves_pure _
  | close id handle => exact leaves_close handles id handle
  | read id handle offset len => exact leaves_readRequest limiter id handle offset len
  | lstat id path => exact leaves_lstat id path
  | fstat id handle => exact leaves_fstat id handle
  | fsetstat _ _ _ => exact leaves_fail _
  | opendir id path => exact leaves_opendir counter handles id path
  | readdir id handle => exact leaves_readdir handles id handle
  | realpath id path => exact leaves_realpath id path
  | stat id path => exact leaves_stat id path
  | readlink id path => exact leaves_readlink id path
  | extended id request data => exact leaves_extended digests id request data

end Wftpd.Sftp
