import Wftpd.Common.AuditTrail
import Wftpd.Posix.Effects
import Wftpd.Sftp.Changes

/-! Which requests of a session leave an audit record. -/

set_option autoImplicit false

namespace Wftpd.Sftp.Audit
open Wftpd.Posix Wftpd.Common Wftpd.Library

variable {α β : Type} {env : RequestEnv} {session : Session}

/-- A record of success that names a path. -/
def Records (named : Text → Prop) (records : List FileLogInfo) : Prop :=
  ∃ record ∈ records, record.success = true ∧ named record.filePath

section Rules
variable {succeeded : List FileLogInfo → Prop}

/-- A record of failure, and then the failure. -/
theorem logged_refusal (operation filePath message : Text) (size : Nat) (why : StatusCode) :
    Logged Session.log succeeded session.log
      ((audit env operation filePath size false message >>= fun _ => (Action.fail why : Handled α)) session) :=
  Logged.refused rfl rfl

theorem unlogged_requireAudited (granted : Permissions → Bool) (operation filePath : Text) :
    Unlogged Session.log (requireAudited env granted operation filePath) := by
  intro session
  unfold requireAudited
  rw [Action.bind_run_ok (Action.read_run _ _)]
  cases granted (session.permissions env) with
  | true => exact ⟨[], (List.append_nil _).symm, rfl⟩
  | false => exact logged_refusal _ _ _ _ _

theorem unlogged_writeCheck (data : List UInt8) : Unlogged Session.log (writeCheck env data) := by
  intro session
  unfold writeCheck
  rw [Action.bind_run_ok (Action.read_run _ _)]
  cases session.quotaOk env data.length with
  | true => exact ⟨[], (List.append_nil _).symm, rfl⟩
  | false => exact logged_refusal _ _ _ _ _

theorem logged_success {named : Text → Prop} {log : List FileLogInfo} (free : env.loggerFree = true)
    (operation filePath message : Text) (size : Nat) (reply : Reply) (same : session.log = log)
    (names : named filePath) : Logged Session.log (Records named) log
      ((audit env operation filePath size true message >>= fun _ => (pure reply : Handled Reply)) session) := by
  subst same
  refine ⟨[_], by simp only [audit, Action.bind_run, Action.modify_run, logIfFree, free]; rfl, ?_⟩
  exact ⟨_, List.mem_singleton_self _, rfl, names⟩

theorem logged_call {named : Text → Prop} (free : env.loggerFree = true) {call : Action FileSystem ErrorKind α}
    (operation filePath message : Text) (size : Nat) (reply : Reply) (names : named filePath) :
    Logged Session.log (Records named) session.log
      ((sys call >>= fun _ => audit env operation filePath size true message >>= fun _ =>
        (pure reply : Handled Reply)) session) := by
  apply (Unlogged.of_leaves (leaves_sys (fun _ _ => rfl) call)).followed
  intro _ after _ same
  exact logged_success free operation filePath message size reply same names

theorem requireAudited_logged {granted : Permissions → Bool} {operation filePath : Text} {next : Unit → Handled α}
    (continued : Logged Session.log succeeded session.log (next () session)) :
    Logged Session.log succeeded session.log ((requireAudited env granted operation filePath >>= next) session) := by
  apply (unlogged_requireAudited _ _ _).followed
  intro _ after passed _
  obtain rfl := (requireAudited_ok passed).2
  exact continued

end Rules

section Handlers
variable (free : env.loggerFree = true) (id : UInt32)

/-- What a record of a success has for a path: where the request's own paths lead. -/
def Names (session : Session) (request : Request) (filePath : Text) : Prop :=
  match request with
  | .open _ path _ | .setstat _ path _ | .remove _ path | .mkdir _ path | .rmdir _ path =>
      ∃ resolved, resolve session.homeDir path = .ok resolved ∧ filePath = resolved.toText
  | .rename _ oldpath newpath => ∃ «from» «to», resolve session.homeDir oldpath = .ok «from» ∧
      resolve session.homeDir newpath = .ok «to» ∧ filePath = arrow «from».toText «to».toText
  | .symlink _ linkpath targetpath => ∃ link, resolve session.homeDir targetpath = .ok link ∧
      filePath = arrow link.toText linkpath
  -- a handle does not tell which path it was opened by
  | _ => True

abbrev Recorded (session : Session) (request : Request) (result : Except StatusCode Reply × Session) : Prop :=
  Logged Session.log (Records (Names session request)) session.log result

include free

theorem remove_logged (filename : Text) :
    Recorded session (.remove id filename) (remove env id filename session) := by
  apply requireAudited_logged
  apply Logged.past (Action.still_query _)
  intro resolved accepted
  apply Logged.past (Action.still_read _)
  intro size _
  exact logged_call free _ _ _ _ _ ⟨resolved, resolvePath_ok accepted, rfl⟩

theorem mkdir_logged (path : Text) :
    Recorded session (.mkdir id path) (mkdir env id path session) := by
  apply requireAudited_logged
  apply Logged.past (Action.still_query _)
  intro resolved accepted
  exact logged_call free _ _ _ _ _ ⟨resolved, resolvePath_ok accepted, rfl⟩

theorem rmdir_logged (path : Text) :
    Recorded session (.rmdir id path) (rmdir env id path session) := by
  apply requireAudited_logged
  apply Logged.past (Action.still_query _)
  intro resolved accepted
  exact logged_call free _ _ _ _ _ ⟨resolved, resolvePath_ok accepted, rfl⟩

theorem rename_logged (oldpath newpath : Text) :
    Recorded session (.rename id oldpath newpath) (rename env id oldpath newpath session) := by
  apply requireAudited_logged
  apply Logged.past (Action.still_query _)
  intro «from» acceptedFrom
  apply Logged.past (Action.still_query _)
  intro «to» acceptedTo
  apply Logged.past (Action.still_query _)
  intro _ _
  exact logged_call free _ _ _ _ _ ⟨«from», «to», resolvePath_ok acceptedFrom, resolvePath_ok acceptedTo,
    rfl⟩

theorem symlink_logged (linkpath targetpath : Text) :
    Recorded session (.symlink id linkpath targetpath) (symlink env id linkpath targetpath session) := by
  apply Logged.past (Action.still_query _)
  intro _ _
  apply Logged.past (Action.still_query _)
  intro link accepted
  apply Logged.past (Action.still_query _)
  intro _ _
  apply Logged.past (Action.still_query _)
  intro _ _
  exact logged_call free _ _ _ _ _ ⟨link, resolvePath_ok accepted, rfl⟩

theorem setstat_logged (path : Text) (attrs : FileAttributes) :
    Recorded session (.setstat id path attrs) (setstat env id path attrs session) := by
  apply Logged.past (Action.still_query _)
  intro _ _
  apply Logged.past (Action.still_query _)
  intro resolved accepted
  apply (Unlogged.of_leaves (leaves_setMode (fun _ _ => rfl) resolved attrs.permissions)).followed
  intro _ moded _ sameMode
  rw [← sameMode]
  apply (Unlogged.of_leaves (leaves_setSize (fun _ _ => rfl) resolved attrs.size)).followed
  intro _ sized _ sameSize
  exact logged_success free _ _ _ _ _ sameSize ⟨resolved, resolvePath_ok accepted, rfl⟩

end Handlers

def Request.records : Request → Bool
  | .setstat _ _ _ | .remove _ _ | .mkdir _ _ | .rmdir _ _ | .rename _ _ _ | .symlink _ _ _ => true
  | _ => false

theorem handleRequest_records (digests : Digests) (free : env.loggerFree = true) {request : Request}
    (records : Request.records request = true) :
    Recorded session request (handleRequest digests env request session) := by
  cases request with
  | setstat id path attrs => exact setstat_logged free id path attrs
  | remove id filename => exact remove_logged free id filename
  | mkdir id path => exact mkdir_logged free id path
  | rmdir id path => exact rmdir_logged free id path
  | rename id oldpath newpath => exact rename_logged free id oldpath newpath
  | symlink id linkpath targetpath => exact symlink_logged free id linkpath targetpath
  | _ => cases records

theorem open_unlogged (id : UInt32) (filename : Text) (pflags : OpenFlags) :
    Unlogged Session.log («open» env id filename pflags) := by
  refine Unlogged.bind (unlogged_requireAudited _ _ _) fun _ => Unlogged.of_leaves ?_
  exact (leaves_query _).bind fun _ => (leaves_query _).bind fun _ => (leaves_sys (fun _ _ => rfl) _).bind fun _ =>
    (leaves_insertHandle (fun _ _ => rfl) (fun _ _ => rfl) _).bind fun _ => leaves_pure _

theorem write_unlogged (id : UInt32) (handle : Text) (offset : UInt64) (data : List UInt8) :
    Unlogged Session.log (write env id handle offset data) :=
  Unlogged.bind (unlogged_writeCheck data) fun _ =>
    Unlogged.of_leaves (leaves_writeData (fun _ _ => rfl) (fun _ _ => rfl) id handle offset data)

theorem handleRequest_unlogged (digests : Digests) {request : Request} (other : Request.records request = false) :
    Unlogged Session.log (handleRequest digests env request) := by
  have limiter : IgnoresLimiter Session.log := fun _ _ => rfl
  have counter : IgnoresCounter Session.log := fun _ _ => rfl
  have handles : IgnoresHandles Session.log := fun _ _ => rfl
  cases request with
  | setstat _ _ _ | remove _ _ | mkdir _ _ | rmdir _ _ | rename _ _ _ | symlink _ _ _ => cases other
  | «open» id filename pflags => exact open_unlogged id filename pflags
  | write id handle offset data => exact write_unlogged id handle offset data
  | init _ _ => exact Unlogged.of_leaves (leaves_pure _)
  | close id handle => exact Unlogged.of_leaves (leaves_close handles id handle)
  | read id handle offset len => exact Unlogged.of_leaves (leaves_readRequest limiter id handle offset len)
  | lstat id path => exact Unlogged.of_leaves (leaves_lstat id path)
  | fstat id handle => exact Unlogged.of_leaves (leaves_fstat id handle)
  | fsetstat _ _ _ => exact Unlogged.of_leaves (leaves_fail _)
  | opendir id path => exact Unlogged.of_leaves (leaves_opendir counter handles id path)
  | readdir id handle => exact Unlogged.of_leaves (leaves_readdir handles id handle)
  | realpath id path => exact Unlogged.of_leaves (leaves_realpath id path)
  | stat id path => exact Unlogged.of_leaves (leaves_stat id path)
  | readlink id path => exact Unlogged.of_leaves (leaves_readlink id path)
  | extended id request data => exact Unlogged.of_leaves (leaves_extended digests id request data)

section Changes

/-- What is at a location: its node with the attributes and the content. -/
def content (fs : FileSystem) (loc : Loc) : Option (Node × Inode × List UInt8) :=
  (fs.tree.find loc).map fun node => (node, fs.inode node.ino, fs.data node.ino)

def Changes (env : RequestEnv) (session : Session) (after : FileSystem) : Prop :=
  ∃ home loc, session.fs.locate env.os true session.home = .ok home ∧ home <+: loc ∧
    content after loc ≠ content session.fs loc

/-- The log of a request that changes something under home tells of its success, and that of a
failure of none. -/
def Audited (digests : Digests) (session : Session) (input : Input) : Prop :=
  Logged Session.log (fun records => Changes input.1 session (sessionStep digests session input).2.fs →
    Records (Names session input.2) records) session.log (sessionStep digests session input)

/-- An OPEN that creates or truncates a file under home, or a WRITE that changes one. -/
def Unrecorded (session : Session) (input : Input) : Prop :=
  match input.2 with
  | .open _ filename pflags =>
      pflags.granted (session.permissions input.1) = true ∧ ∃ path after,
        resolve session.homeDir filename = .ok path ∧
        FileSystem.OpenChanges input.1.os session.fs pflags.options path after ∧ Changes input.1 session after
  | .write _ handle offset data =>
      session.quotaOk input.1 data.length = true ∧ offset.toNat < FileSystem.maxOffset ∧
        input.1.os.fault .seek = none ∧ input.1.os.fault .flush = none ∧
        ∃ f, session.handles.lookup handle = some (.file f) ∧
          FileSystem.Stores input.1.os session.fs f.file offset.toNat data ∧
          Changes input.1 session ((session.fs.setData f.file.ino (FileSystem.overwrite (session.fs.data f.file.ino)
            (f.file.start session.fs offset.toNat) data)).touch f.file.ino input.1.os.now)
  | _ => False

theorem not_changes_self : ¬ Changes env session session.fs := by
  rintro ⟨home, loc, -, -, differs⟩
  exact differs rfl

end Changes

section Step
variable {digests : Digests}

theorem write_ok {id : UInt32} {handle : Text} {offset : UInt64} {data : List UInt8} {reply : Reply} {after : Session}
    (written : write env id handle offset data session = (.ok reply, after)) :
    session.quotaOk env data.length = true ∧ offset.toNat < FileSystem.maxOffset ∧
      env.os.fault .seek = none ∧ env.os.fault .flush = none ∧
      ∃ f, session.handles.lookup handle = some (.file f) ∧
        FileSystem.writeAll env.os f.file offset.toNat data session.fs = (.ok (), after.fs) := by
  obtain ⟨_, checked, written⟩ := gate_ok (gate_writeCheck data) written
  obtain ⟨f, found, written⟩ := gate_ok (gate_query _) written
  obtain ⟨_, sought, written⟩ := gate_ok (gate_readOnly (FileSystem.readOnly_seek _ _)) written
  obtain ⟨_, stored, called, written⟩ := Action.bind_ok written
  obtain ⟨_, flushed, written⟩ := gate_ok (gate_readOnly (FileSystem.readOnly_attempt _ _)) written
  obtain ⟨_, inRange, attempted⟩ := Action.Still.bind_ok (FileSystem.readOnly_check _ _) (sys_ok sought).1
  have rest : Leaves Session.fs (throttle env data.length >>= fun _ => (pure (.status id .ok) : Handled Reply)) :=
    (leaves_throttle (fun _ _ => rfl) _).bind fun _ => leaves_pure _
  refine ⟨(writeCheck_ok checked).1, by simpa using Action.check_ok inRange, FileSystem.attempt_ok attempted,
    FileSystem.attempt_ok (sys_ok flushed).1, f, (fileHandle_ok found).1, ?_⟩
  rw [fs_after rest written]
  exact (sys_ok called).1

theorem write_run {id : UInt32} {handle : Text} {offset : UInt64} {data : List UInt8} {f : FileHandle} {fs : FileSystem}
    (fits : session.quotaOk env data.length = true) (inRange : offset.toNat < FileSystem.maxOffset)
    (seeks : env.os.fault .seek = none) (flushes : env.os.fault .flush = none)
    (found : session.handles.lookup handle = some (.file f))
    (stored : FileSystem.writeAll env.os f.file offset.toNat data session.fs = (.ok (), fs)) :
    ∃ reply after, write env id handle offset data session = (.ok reply, after) ∧ after.fs = fs := by
  have checked : writeCheck env data session = (.ok (), session) := by
    simp only [writeCheck, Action.bind_run, Action.read_run, fits]
    rfl
  have handled : fileHandle handle session = (.ok f, session) := by
    rw [fileHandle, Action.query_run, found]
  have sought : FileSystem.seek env.os offset.toNat session.fs = (.ok (), session.fs) := by
    simp [FileSystem.seek, Action.bind_run, Action.check_run, inRange, FileSystem.attempt, seeks]
  have flushed (fs : FileSystem) : FileSystem.attempt env.os .flush fs = (.ok (), fs) := by
    simp [FileSystem.attempt, flushes]
  unfold write writeData
  rw [Action.bind_run_ok checked, Action.bind_run_ok handled, Action.bind_run_ok (sys_run sought),
    Action.bind_run_ok (sys_run stored), Action.bind_run_ok (sys_run (flushed _))]
  exact ⟨_, _, rfl, rfl⟩

/-- What records no success is audited when its success changes nothing under home. -/
theorem audited_unlogged_iff {input : Input} (other : Request.records input.2 = false) :
    Audited digests session input ↔
      ∀ reply after, sessionStep digests session input = (.ok reply, after) → ¬ Changes input.1 session after.fs := by
  have unlogged : Logged Session.log (· = []) session.log (sessionStep digests session input) :=
    handleRequest_unlogged digests other session
  constructor
  · rintro ⟨records, same, kind⟩ reply after ran changes
    rw [ran] at unlogged same kind
    obtain ⟨none, unchanged, empty⟩ := unlogged
    obtain rfl : none = [] := empty
    have nothing : records = [] := List.append_cancel_left (same.symm.trans unchanged)
    obtain ⟨record, member, -⟩ := kind changes
    rw [nothing] at member
    cases member
  · intro quiet
    apply unlogged.imp
    intro reply answered records none changes
    exact absurd changes (quiet reply _ (Prod.ext answered rfl))

/-- A request is audited exactly when it is not one that changes something unrecorded. -/
theorem audited_iff {input : Input} (free : input.1.loggerFree = true) :
    Audited digests session input ↔ ¬ Unrecorded session input := by
  cases records : Request.records input.2 with
  | true =>
      have unaffected : ¬ Unrecorded session input := by
        obtain ⟨env, request⟩ := input
        intro unrecorded
        cases request <;> first | exact unrecorded | cases records
      refine iff_of_true ?_ unaffected
      apply (handleRequest_records digests free records).imp
      intro _ _ _ recorded _
      exact recorded
  | false =>
      rw [audited_unlogged_iff records]
      obtain ⟨env, request⟩ := input
      cases request with
      | «open» id filename pflags =>
          constructor
          · rintro quiet ⟨granted, path, fs, accepted, changes, differs⟩
            obtain ⟨file, opened⟩ := changes.openFile
            obtain ⟨reply, after, ran, rfl⟩ := open_run granted accepted opened
            exact quiet reply after ran differs
          · rintro recorded reply after ran differs
            obtain ⟨granted, path, file, accepted, opened⟩ := open_ok ran
            rcases FileSystem.openFile_changes opened with same | changes
            · rw [same] at differs
              exact not_changes_self differs
            · exact recorded ⟨granted, path, after.fs, accepted, changes, differs⟩
      | write id handle offset data =>
          constructor
          · rintro quiet ⟨fits, inRange, seeks, flushes, f, found, stores, differs⟩
            obtain ⟨reply, after, ran, same⟩ := write_run fits inRange seeks flushes found stores.writeAll
            refine quiet reply after ran ?_
            rwa [same]
          · rintro recorded reply after ran differs
            obtain ⟨fits, inRange, seeks, flushes, f, found, written⟩ := write_ok ran
            rcases FileSystem.writeAll_ok written with ⟨-, same⟩ | ⟨stores, same⟩
            · rw [same] at differs
              exact not_changes_self differs
            · rw [same] at differs
              exact recorded ⟨fits, inRange, seeks, flushes, f, found, stores, differs⟩
      | setstat _ _ _ | remove _ _ | mkdir _ _ | rmdir _ _ | rename _ _ _ | symlink _ _ _ => cases records
      | _ =>
          -- what is left never changes the file system
          refine iff_of_true (fun reply after ran differs => ?_) id
          rw [fs_after (handleRequest_leaves_fs digests env rfl) ran] at differs
          exact not_changes_self differs

end Step

/-- With the logger free at every request, every request of a run that succeeds and changes
something under home is recorded, and none that fails is recorded as a success, exactly when
no OPEN of the run creates or truncates a file under home and no WRITE changes one. -/
theorem run_audited_iff (digests : Digests) (session : Session) (inputs : List Input)
    (free : ∀ input ∈ inputs, input.1.loggerFree = true) :
    Along (sessionStep digests) (Audited digests) session inputs ↔
      Along (sessionStep digests) (fun session input => ¬ Unrecorded session input) session inputs := by
  induction inputs generalizing session with
  | nil => exact Iff.rfl
  | cons input rest ih =>
      have first : Audited digests session input ↔ ¬ Unrecorded session input :=
        audited_iff (free input (List.mem_cons_self ..))
      exact and_congr first (ih _ fun other member => free other (List.mem_cons_of_mem _ member))

section Samples

def writer : Permissions := { Permissions.full with canDelete := false }

def makesDirectory : List Input := [(permissiveEnv writer, .mkdir 1 "d".toList)]

theorem run_audited_mkdir : Along (sessionStep noDigests) (Audited noDigests) (sessionAt .empty) makesDirectory := by
  refine (run_audited_iff noDigests (sessionAt .empty) makesDirectory ?_).mpr ⟨id, trivial⟩
  intro input member
  cases List.mem_singleton.mp member
  rfl

def upload : List Input :=
  [(permissiveEnv writer, .open 1 "f".toList { write := true, create := true, truncate := true }),
    (permissiveEnv writer, .write 2 "h1".toList 0 [1, 2, 3]), (permissiveEnv writer, .close 3 "h1".toList)]

/-- It succeeds, and nothing is recorded. -/
example : (run (sessionStep noDigests) (sessionAt .empty) upload).1 =
      [.ok (.handle 1 "h1".toList), .ok (.status 2 .ok), .ok (.status 3 .ok)] ∧
    (run (sessionStep noDigests) (sessionAt .empty) upload).2.log = [] := by
  decide

theorem upload_unrecorded : ¬ ∀ (digests : Digests) (session : Session) (inputs : List Input),
    (∀ input ∈ inputs, input.1.loggerFree = true) →
    Along (sessionStep digests) (Audited digests) session inputs := by
  intro audited
  have free : ∀ input ∈ upload, input.1.loggerFree = true := by
    intro input member
    simp only [upload, List.mem_cons, List.not_mem_nil, or_false] at member
    rcases member with rfl | rfl | rfl <;> rfl
  have quiet := (audited_unlogged_iff rfl).mp (audited noDigests (sessionAt .empty) upload free).1
  -- the file was not there before
  exact quiet _ _ rfl ⟨[], ["f".toList], rfl, List.nil_prefix, by decide⟩

end Samples

end Wftpd.Sftp.Audit
