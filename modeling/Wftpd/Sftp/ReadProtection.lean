import Wftpd.Sftp.Frame

/-! What the handle table can hold, and reading without the right to read. -/

set_option autoImplicit false

namespace Wftpd.Sftp
open Wftpd.Posix Wftpd.Common Wftpd.Library

section Table

/-- The file handles after a step are old ones, or satisfy `opened`. -/
def TableGrows (opened : FileHandle → Prop) (session session' : Session) : Prop :=
  ∀ handle f, session'.handles.lookup handle = some (.file f) →
    session.handles.lookup handle = some (.file f) ∨ opened f

variable {opened : FileHandle → Prop}

theorem TableGrows.of_same {session session' : Session} (same : session'.handles = session.handles) :
    TableGrows opened session session' := by
  intro handle f found
  rw [same] at found
  exact .inl found

theorem TableGrows.insert {session session' : Session} (handle : Text) (entry : OpenEntry)
    (added : ∀ f, entry = .file f → opened f)
    (same : session'.handles = session.handles.insert handle entry) : TableGrows opened session session' := by
  intro other f found
  rw [same] at found
  by_cases here : other = handle
  · subst other
    rw [AList.lookup_insert] at found
    exact .inr (added f (Option.some.inj found))
  · rw [AList.lookup_insert_ne here] at found
    exact .inl found

theorem TableGrows.erase {session session' : Session} (handle : Text)
    (same : session'.handles = session.handles.erase handle) : TableGrows opened session session' := by
  intro other f found
  rw [same] at found
  exact .inl (lookup_erase_some found)

theorem insertHandle_handles {α : Type} (entry : OpenEntry) (next : Text → α) (session : Session) :
    ∃ handle, ((insertHandle entry >>= fun handle => pure (next handle)) session).2.handles =
      session.handles.insert handle entry :=
  ⟨_, rfl⟩

def OpenedBy (pflags : OpenFlags) (f : FileHandle) : Prop :=
  f.file.read = pflags.read ∧ f.writable = pflags.wantsWrite

def HasMode (pflags : OpenFlags) (f : FileHandle) : Prop := f.file = pflags.options.file f.file.ino f.file.isDir

/-- The path of an OPEN leads to this file, and it can be opened. -/
def OpensFile (env : RequestEnv) (session : Session) (filename : Text) (pflags : OpenFlags)
    (file : FileSystem.OpenFile) : Prop :=
  ∃ path fs, resolve session.homeDir filename = .ok path ∧
    FileSystem.openFile env.os pflags.options path session.fs = (.ok file, fs)

theorem open_tableGrows (env : RequestEnv) (id : UInt32) (filename : Text) (pflags : OpenFlags) (session : Session) :
    TableGrows (fun f => pflags.granted (session.permissions env) = true ∧ OpenedBy pflags f ∧ HasMode pflags f ∧
        OpensFile env session filename pflags f.file)
      session («open» env id filename pflags session).2 := by
  have fs : IgnoresFs Session.handles := fun _ _ => rfl
  have log : IgnoresLog Session.handles := fun _ _ => rfl
  have kept : ∀ after : Session, after.handles = session.handles →
      TableGrows (fun f => pflags.granted (session.permissions env) = true ∧ OpenedBy pflags f ∧ HasMode pflags f ∧
          OpensFile env session filename pflags f.file) session after :=
    fun after same => .of_same same
  refine (leaves_requireAudited log pflags.granted _ _).cases _ kept fun _ guarded ran sameGuarded => ?_
  obtain ⟨granted, rfl⟩ := requireAudited_ok ran
  refine (leaves_query _).cases _ kept fun _ checked checks sameChecked => ?_
  obtain rfl : guarded = checked := (Prod.mk.inj checks).2
  refine (leaves_query _).cases _ kept fun path resolved resolves sameResolved => ?_
  obtain rfl : guarded = resolved := (Prod.mk.inj resolves).2
  refine (leaves_sys fs _).cases _ kept fun file opened ran sameOpened => ?_
  have mode : file = pflags.options.file file.ino file.isDir := FileSystem.openFile_mode (sys_ok ran).1
  have readable : file.read = pflags.read := congrArg FileSystem.OpenFile.read mode
  obtain ⟨handle, inserted⟩ := insertHandle_handles (.file ⟨file, pflags.wantsWrite⟩) (Reply.handle id) opened
  refine .insert handle _ (fun f added => ?_) (inserted.trans (by rw [sameOpened]))
  cases added
  exact ⟨granted, ⟨readable, rfl⟩, mode, path, opened.fs, resolvePath_ok resolves, (sys_ok ran).1⟩

theorem opendir_tableGrows (env : RequestEnv) (id : UInt32) (path : Text) (session : Session) :
    TableGrows opened session (opendir env id path session).2 := by
  have kept : ∀ after : Session, after.handles = session.handles → TableGrows opened session after :=
    fun after same => .of_same same
  refine (leaves_requirePermission _).cases _ kept fun _ allowed _ sameAllowed => ?_
  refine (leaves_query _).cases _ (fun after same => kept after (same.trans sameAllowed)) fun _ resolved _ same => ?_
  have sameResolved := same.trans sameAllowed
  refine (leaves_readOnly (FileSystem.readOnly_query _)).cases _ (fun after same => kept after (same.trans sameResolved))
    fun listing listed _ same => ?_
  obtain ⟨handle, inserted⟩ := insertHandle_handles (.dir ⟨listing.1, listing.2⟩) (Reply.handle id) listed
  refine .insert handle _ (fun f added => ?_) (inserted.trans (by rw [same, sameResolved]))
  cases added

theorem close_tableGrows (id : UInt32) (handle : Text) (session : Session) :
    TableGrows opened session (close id handle session).2 := by
  refine (leaves_query _).cases _ (fun after same => .of_same same) fun _ found _ same => ?_
  exact .erase handle (by rw [← same]; rfl)

theorem readdir_tableGrows (env : RequestEnv) (id : UInt32) (handle : Text) (session : Session) :
    TableGrows opened session (readdir env id handle session).2 := by
  refine (leaves_query _).cases _ (fun after same => .of_same same) fun dir found _ same => ?_
  have advanced : ∀ answer after, nextEntries env handle dir found = (answer, after) →
      TableGrows opened session after := by
    intro answer after ran
    have state : (nextEntries env handle dir found).2 = after := by rw [ran]
    refine .insert handle (.dir { dir with pending := (takeEntries env.streamError batch 0 dir.pending).2 })
      (fun f added => by cases added) ?_
    rw [← state, ← same]
    rfl
  refine Action.bind_cases (fun result => TableGrows opened session result.2)
    (fun why after ran => advanced _ after ran) fun entries after ran => ?_
  have tail : Leaves Session.handles (Action.check (entries ≠ []) .eof >>= fun _ =>
      Action.read (fun session => entries.map (listEntry env session.fs dir.ino)) >>= fun files =>
        (pure (.name id files) : Handled Reply)) :=
    (leaves_check _ _).bind fun _ => (leaves_read _).bind fun _ => leaves_pure _
  intro other f listed
  exact advanced _ after ran other f (by rw [← tail after]; exact listed)

theorem handleRequest_tableGrows (digests : Digests) (env : RequestEnv) (request : Request) (session : Session) :
    TableGrows (fun f => ∃ id filename pflags, request = .open id filename pflags ∧
        pflags.granted (session.permissions env) = true ∧ OpenedBy pflags f ∧ HasMode pflags f ∧
        OpensFile env session filename pflags f.file) session
      (handleRequest digests env request session).2 := by
  cases request with
  | «open» id filename pflags =>
      intro handle f found
      rcases open_tableGrows env id filename pflags session handle f found with old | ⟨granted, opened⟩
      · exact .inl old
      · exact .inr ⟨id, filename, pflags, rfl, granted, opened⟩
  | opendir id path => exact opendir_tableGrows env id path session
  | close id handle => exact close_tableGrows id handle session
  | readdir id handle => exact readdir_tableGrows env id handle session
  | _ => exact .of_same (handleRequest_leaves_handles digests env rfl session)

end Table

section Reading

def NoReadable (session : Session) : Prop :=
  ∀ handle f, session.handles.lookup handle = some (.file f) → f.file.read = false

/-- An OPEN that is granted through its write flags opens a file for reading too. -/
def OpensForReading (session : Session) (input : Input) : Prop :=
  ∃ id filename pflags file, input.2 = .open id filename pflags ∧ pflags.read = true ∧ pflags.wantsWrite = true ∧
    pflags.granted (session.permissions input.1) = true ∧ OpensFile input.1 session filename pflags file

def AnsweredWithData (answer : Except StatusCode Reply) : Prop := ∃ id data, answer = .ok (.data id data)

theorem sessionStep_username (digests : Digests) (session : Session) (input : Input) :
    (sessionStep digests session input).2.username = session.username :=
  congrArg Prod.fst (handleRequest_leaves_owner digests input.1 input.2 session)

theorem sessionStep_noReadable {digests : Digests} {session : Session} {input : Input}
    (unreadable : (input.1.permissionsOf session.username).canRead = false)
    (harmless : ¬ OpensForReading session input) (closed : NoReadable session) :
    NoReadable (sessionStep digests session input).2 := by
  intro handle f found
  rcases handleRequest_tableGrows digests input.1 input.2 session handle f found with
    old | ⟨id, filename, pflags, isOpen, granted, ⟨opened, -⟩, -, opens⟩
  · exact closed handle f old
  · -- without a write flag the OPEN would have needed the right to read
    have writes : pflags.wantsWrite = true := by
      by_contra readOnly
      simp [OpenFlags.granted, readOnly, Session.permissions, unreadable] at granted
    rw [opened]
    by_contra reads
    exact harmless ⟨id, filename, pflags, f.file, isOpen, by simpa using reads, writes, granted, opens⟩

theorem read_data {env : RequestEnv} {id : UInt32} {handle : Text} {offset : UInt64} {len : UInt32}
    {session : Session} (answered : AnsweredWithData (read env id handle offset len session).1) :
    ∃ f, session.handles.lookup handle = some (.file f) ∧ f.file.read = true := by
  obtain ⟨id', data, answered⟩ := answered
  have ran : read env id handle offset len session = (.ok (.data id' data), (read env id handle offset len session).2) :=
    Prod.ext answered rfl
  obtain ⟨f, found, located, ran⟩ := Action.bind_ok ran
  obtain ⟨_, sought, _, ran⟩ := Action.bind_ok ran
  obtain ⟨buf, _, received, ran⟩ := Action.bind_ok ran
  obtain ⟨_, _, checked, _⟩ := Action.bind_ok ran
  have some : buf ≠ [] := by simpa using Action.check_ok checked
  exact ⟨f, (fileHandle_ok located).1, (FileSystem.readAt_ok (sys_ok received).1).2 some⟩

/-- Without the right to read, no READ of a run is answered with data, as long as
no OPEN that is granted for writing opens a file for reading as well. -/
theorem run_no_data (digests : Digests) (session : Session) (inputs : List Input) (fresh : session.handles = ∅)
    (unreadable : ∀ input ∈ inputs, (input.1.permissionsOf session.username).canRead = false)
    (harmless : Along (sessionStep digests) (fun state input => ¬ OpensForReading state input) session inputs) :
    ∀ pair ∈ inputs.zip (run (sessionStep digests) session inputs).1,
      (∃ id handle offset len, pair.1.2 = .read id handle offset len) → ¬ AnsweredWithData pair.2 := by
  let invariant (state : Session) := state.username = session.username ∧ NoReadable state
  let condition (state : Session) (input : Input) :=
    (input.1.permissionsOf session.username).canRead = false ∧ ¬ OpensForReading state input
  let good (input : Input) (answer : Except StatusCode Reply) :=
    (∃ id handle offset len, input.2 = .read id handle offset len) → ¬ AnsweredWithData answer
  have initial : invariant session := ⟨rfl, fun handle f found => by simp [fresh] at found⟩
  have keeps : ∀ state input, invariant state → condition state input →
      invariant (sessionStep digests state input).2 := by
    intro state input ⟨same, closed⟩ ⟨unreadable, harmless⟩
    refine ⟨(sessionStep_username digests state input).trans same, sessionStep_noReadable ?_ harmless closed⟩
    rwa [same]
  have answers : ∀ state input, invariant state → condition state input →
      good input (sessionStep digests state input).1 := by
    intro state input ⟨_, closed⟩ _ ⟨id, handle, offset, len, isRead⟩ answered
    obtain ⟨env, request⟩ := input
    cases isRead
    obtain ⟨f, found, readable⟩ := read_data answered
    rw [closed handle f found] at readable
    cases readable
  exact run_answers keeps answers initial ((Along.of_forall unreadable).and harmless)

def Request.onFiles : Request → Bool
  | .open _ _ _ | .read _ _ _ _ | .write _ _ _ _ | .close _ _ => true
  | _ => false

def writeOnly : Permissions := { Permissions.default with canWrite := true }

def secretHome : Session := sessionAt (FileSystem.empty.addFile "f".toList [115])

def openThenRead (pflags : OpenFlags) : List Input :=
  [(permissiveEnv writeOnly, .open 1 "f".toList pflags), (permissiveEnv writeOnly, .read 2 "h1".toList 0 16)]

theorem openThenRead_unreadable (pflags : OpenFlags) :
    ∀ input ∈ openThenRead pflags, (input.1.permissionsOf secretHome.username).canRead = false := by
  intro input member
  rcases List.mem_cons.mp member with same | member
  · subst input
    rfl
  · cases List.mem_singleton.mp member
    rfl

theorem openThenRead_onFiles (pflags : OpenFlags) :
    ∀ input ∈ openThenRead pflags, input.2.onFiles = true := by
  intro input member
  rcases List.mem_cons.mp member with same | member
  · subst input
    rfl
  · cases List.mem_singleton.mp member
    rfl

theorem run_no_data_write_only :
    secretHome.handles = ∅ ∧ ∀ pair ∈ (openThenRead { write := true }).zip
        (run (sessionStep noDigests) secretHome (openThenRead { write := true })).1,
      (∃ id handle offset len, pair.1.2 = .read id handle offset len) → ¬ AnsweredWithData pair.2 := by
  refine ⟨rfl, run_no_data noDigests secretHome _ rfl (openThenRead_unreadable _) ⟨?_, ?_, trivial⟩⟩
  · rintro ⟨id, filename, pflags, file, isOpen, reads, -⟩
    cases isOpen
    cases reads
  · rintro ⟨id, filename, pflags, file, isOpen, -⟩
    cases isOpen

/-- A READ through a handle opened to read and write gets the secret byte. -/
theorem data_without_canRead : ¬ ∀ (digests : Digests) (session : Session) (inputs : List Input),
    session.handles = ∅ → (∀ input ∈ inputs, input.2.onFiles = true) →
    (∀ input ∈ inputs, (input.1.permissionsOf session.username).canRead = false) →
    ∀ pair ∈ inputs.zip (run (sessionStep digests) session inputs).1,
      (∃ id handle offset len, pair.1.2 = .read id handle offset len) → ¬ AnsweredWithData pair.2 := by
  intro protects
  have answers : (run (sessionStep noDigests) secretHome (openThenRead { read := true, write := true })).1 =
      [.ok (.handle 1 "h1".toList), .ok (.data 2 [115])] := rfl
  refine protects noDigests secretHome _ rfl (openThenRead_onFiles _) (openThenRead_unreadable { read := true, write := true })
    ((permissiveEnv writeOnly, .read 2 "h1".toList 0 16), .ok (.data 2 [115])) ?_
    ⟨2, "h1".toList, 0, 16, rfl⟩ ⟨2, [115], rfl⟩
  rw [answers]
  exact List.mem_cons_of_mem _ List.mem_cons_self

end Reading

end Wftpd.Sftp
