import Wftpd.Posix.Contents
import Wftpd.Posix.Effects
import Wftpd.Sftp.Frame

/-! What replies reveal about the bytes of files.

Two sessions are compared that differ in nothing but those bytes and hold no open
file. A handler that answers both alike, and leaves them so, reveals nothing.
-/

set_option autoImplicit false

namespace Wftpd.Sftp
open Wftpd.Posix Wftpd.Common Wftpd.Library

structure Indistinguishable (session session' : Session) : Prop where
  rest : session' = { session with fs := session'.fs }
  contents : FileSystem.SameButBytes session.fs session'.fs
  noFiles : ∀ handle f, session.handles.lookup handle ≠ some (.file f)

/-- Handlers that reveal no bytes. -/
abbrev Discreet {α : Type} (action : Handled α) : Prop := Action.Agrees Indistinguishable action

variable {α β : Type}

section Tools
variable {session session' : Session}

theorem Indistinguishable.withFs (same : Indistinguishable session session') {fs fs' : FileSystem}
    (contents : FileSystem.SameButBytes fs fs') :
    Indistinguishable { session with fs := fs } { session' with fs := fs' } := by
  refine ⟨?_, contents, same.noFiles⟩
  rw [same.rest]

theorem Indistinguishable.withHandles (same : Indistinguishable session session')
    {handles : AList fun _ : Text => OpenEntry}
    (old : ∀ handle f, handles.lookup handle = some (.file f) → session.handles.lookup handle = some (.file f)) :
    Indistinguishable { session with handles := handles } { session' with handles := handles } := by
  refine ⟨?_, same.contents, fun handle f found => same.noFiles handle f (old handle f found)⟩
  rw [same.rest]

theorem Indistinguishable.handles (same : Indistinguishable session session') : session'.handles = session.handles := by
  rw [same.rest]

theorem discreet_sys {call : Action FileSystem ErrorKind α} (blind : FileSystem.BytesBlind call) :
    Discreet (sys call) :=
  Action.Agrees.zoom (fun _ _ same => same.contents) (fun _ _ same _ _ contents => same.withFs contents) blind

/-- A question to the session about the tree, the metadata and what is not the
file system. -/
theorem discreet_query {ask : Session → Except StatusCode α}
    (blind : ∀ session data, (∀ ino, (data ino).length = (session.fs.data ino).length) →
      ask { session with fs := session.fs.withData data } = ask session) : Discreet (Action.query ask) := by
  refine Action.Agrees.query fun session session' same => ?_
  obtain ⟨data, other, lengths⟩ := same.contents
  rw [same.rest, other, blind session data lengths]

theorem discreet_read {ask : Session → α}
    (blind : ∀ session data, (∀ ino, (data ino).length = (session.fs.data ino).length) →
      ask { session with fs := session.fs.withData data } = ask session) :
    Discreet (Action.read ask : Handled α) := by
  refine Action.Agrees.read fun session session' same => ?_
  obtain ⟨data, other, lengths⟩ := same.contents
  rw [same.rest, other, blind session data lengths]

theorem discreet_resolvePath (path : Text) : Discreet (resolvePath path) :=
  discreet_query fun _ _ _ => rfl

theorem discreet_requirePermission (env : RequestEnv) (granted : Permissions → Bool) :
    Discreet (requirePermission env granted) :=
  discreet_query fun _ _ _ => rfl

theorem discreet_audit (env : RequestEnv) (operation filePath : Text) (size : Nat) (success : Bool)
    (message : Text) : Discreet (audit env operation filePath size success message) := by
  refine Action.Agrees.modify fun session session' same => ⟨?_, same.contents, same.noFiles⟩
  rw [same.rest]

theorem discreet_requireAudited (env : RequestEnv) (granted : Permissions → Bool) (operation filePath : Text) :
    Discreet (requireAudited env granted operation filePath) := by
  refine (discreet_read fun _ _ _ => rfl).bind fun allowed => ?_
  cases allowed with
  | true => exact Action.Agrees.pure ()
  | false => exact (discreet_audit env _ _ _ _ _).bind fun _ => Action.Agrees.fail _

theorem discreet_nextHandleId : Discreet nextHandleId := by
  intro session session' same
  rw [same.rest]
  exact ⟨rfl, ⟨rfl, same.contents, same.noFiles⟩⟩

theorem discreet_insertDir (dir : DirHandle) : Discreet (insertHandle (.dir dir)) := by
  refine discreet_nextHandleId.bind fun handle => Action.Agrees.bind ?_ fun _ => Action.Agrees.pure _
  refine Action.Agrees.modify fun session session' same => ?_
  rw [same.handles]
  exact same.withHandles fun _ _ => lookup_insert_dir

/-- Without open files a request on a file handle goes no further. -/
theorem discreet_fileHandle (handle : Text) (next : FileHandle → Handled β) :
    Discreet (fileHandle handle >>= next) := by
  have refused : ∀ session, (∀ f, session.handles.lookup handle ≠ some (.file f)) →
      fileHandle handle session = (.error .noSuchFile, session) := by
    intro session noFile
    rw [fileHandle, Action.query_run]
    cases found : session.handles.lookup handle with
    | none => rfl
    | some entry =>
        cases entry with
        | dir dir => rfl
        | file f => exact absurd found (noFile f)
  intro session session' same
  have noFile' : ∀ f, session'.handles.lookup handle ≠ some (.file f) := by
    rw [same.rest]
    exact same.noFiles handle
  rw [Action.bind_run_error (refused session (same.noFiles handle)), Action.bind_run_error (refused session' noFile')]
  exact ⟨rfl, same⟩

theorem discreet_requireAbsent (env : RequestEnv) (path : PathBuf) : Discreet (requireAbsent env path) :=
  discreet_query fun session _ lengths => by
    simp only [FileSystem.pathExists_data env.os session.fs lengths]

theorem discreet_statAttrs (env : RequestEnv) (path : PathBuf) : Discreet (statAttrs env path) :=
  discreet_query fun session _ lengths => by
    simp only [FileSystem.metadata_data env.os session.fs lengths]

theorem discreet_symlinkAttrs (env : RequestEnv) (path : PathBuf) : Discreet (symlinkAttrs env path) :=
  discreet_query fun session _ lengths => by
    simp only [FileSystem.symlinkMetadata_data env.os session.fs lengths]

end Tools

section Handlers
variable (env : RequestEnv)

theorem discreet_close (id : UInt32) (handle : Text) : Discreet (close id handle) := by
  refine (discreet_query fun _ _ _ => rfl).bind fun _ => Action.Agrees.bind ?_ fun _ => Action.Agrees.pure _
  refine Action.Agrees.modify fun session session' same => ?_
  rw [same.handles]
  exact same.withHandles fun _ _ => lookup_erase_some

theorem discreet_writeCheck (data : List UInt8) : Discreet (writeCheck env data) := by
  refine Action.Agrees.bind (discreet_read fun session _ lengths => ?_) fun fits => ?_
  · unfold Session.quotaOk
    rw [dirSize_data env.os session.fs lengths]
    rfl
  · cases fits with
    | true => exact Action.Agrees.pure ()
    | false => exact (discreet_audit env _ _ _ _ _).bind fun _ => Action.Agrees.fail _

theorem discreet_write (id : UInt32) (handle : Text) (offset : UInt64) (data : List UInt8) :
    Discreet (write env id handle offset data) :=
  (discreet_writeCheck env data).bind fun _ => discreet_fileHandle handle _

theorem discreet_lstat (id : UInt32) (path : Text) : Discreet (lstat env id path) :=
  (discreet_requirePermission env _).bind fun _ => (discreet_resolvePath path).bind fun resolved =>
    (discreet_symlinkAttrs env resolved).bind fun _ => Action.Agrees.pure _

theorem discreet_stat (id : UInt32) (path : Text) : Discreet (stat env id path) :=
  (discreet_requirePermission env _).bind fun _ => (discreet_resolvePath path).bind fun resolved =>
    (discreet_statAttrs env resolved).bind fun _ => Action.Agrees.pure _

theorem discreet_setMode (resolved : PathBuf) (permissions : Option UInt32) :
    Discreet (setMode env resolved permissions) := by
  cases permissions with
  | none => exact Action.Agrees.pure ()
  | some mode => exact discreet_sys (FileSystem.bytesBlind_setPermissions env.os resolved _)

theorem discreet_setSize (resolved : PathBuf) (size : Option UInt64) : Discreet (setSize env resolved size) := by
  cases size with
  | none => exact Action.Agrees.pure ()
  | some size =>
      exact (discreet_sys (FileSystem.bytesBlind_openFile env.os _ resolved)).bind fun f =>
        discreet_sys (FileSystem.bytesBlind_setLen env.os f _)

theorem discreet_setstat (id : UInt32) (path : Text) (attrs : FileAttributes) :
    Discreet (setstat env id path attrs) :=
  (discreet_requirePermission env _).bind fun _ => (discreet_resolvePath path).bind fun resolved =>
    (discreet_setMode env resolved _).bind fun _ => (discreet_setSize env resolved _).bind fun _ =>
      (discreet_audit env _ _ _ _ _).bind fun _ => Action.Agrees.pure _

theorem discreet_opendir (id : UInt32) (path : Text) : Discreet (opendir env id path) := by
  refine (discreet_requirePermission env _).bind fun _ => (discreet_resolvePath path).bind fun resolved =>
    Action.Agrees.bind (discreet_sys (FileSystem.bytesBlind_query fun fs data => ?_)) fun listing =>
      (discreet_insertDir _).bind fun _ => Action.Agrees.pure _
  exact FileSystem.readDir_data env.os fs data resolved

theorem discreet_nextEntries (handle : Text) (dir : DirHandle) : Discreet (nextEntries env handle dir) := by
  refine Action.Agrees.bind ?_ fun _ => Action.Agrees.lift _
  refine Action.Agrees.modify fun session session' same => ?_
  rw [same.handles]
  exact same.withHandles fun _ _ => lookup_insert_dir

theorem discreet_readdir (id : UInt32) (handle : Text) : Discreet (readdir env id handle) := by
  refine Action.Agrees.bind (discreet_query fun _ _ _ => rfl) fun dir =>
    (discreet_nextEntries env handle dir).bind fun entries => (Action.Agrees.check _ _).bind fun _ =>
      Action.Agrees.bind (discreet_read fun session data lengths => ?_) fun _ => Action.Agrees.pure _
  have alike : listEntry env (session.fs.withData data) dir.ino = listEntry env session.fs dir.ino := by
    funext name
    unfold listEntry
    rw [FileSystem.entryMetadata_data env.os session.fs lengths]
  show entries.map (listEntry env (session.fs.withData data) dir.ino) = _
  rw [alike]

theorem discreet_remove (id : UInt32) (filename : Text) : Discreet (remove env id filename) := by
  refine (discreet_requireAudited env _ _ _).bind fun _ => (discreet_resolvePath filename).bind fun resolved =>
    Action.Agrees.bind (discreet_read fun session _ lengths => ?_) fun _ =>
      (discreet_sys (FileSystem.bytesBlind_removeFile env.os resolved)).bind fun _ =>
        (discreet_audit env _ _ _ _ _).bind fun _ => Action.Agrees.pure _
  simp only [FileSystem.metadata_data env.os session.fs lengths]

theorem discreet_mkdir (id : UInt32) (path : Text) : Discreet (mkdir env id path) :=
  (discreet_requireAudited env _ _ _).bind fun _ => (discreet_resolvePath path).bind fun resolved =>
    (discreet_sys (FileSystem.bytesBlind_createDir env.os resolved)).bind fun _ =>
      (discreet_audit env _ _ _ _ _).bind fun _ => Action.Agrees.pure _

theorem discreet_rmdir (id : UInt32) (path : Text) : Discreet (rmdir env id path) :=
  (discreet_requireAudited env _ _ _).bind fun _ => (discreet_resolvePath path).bind fun resolved =>
    (discreet_sys (FileSystem.bytesBlind_removeDirAll env.os resolved)).bind fun _ =>
      (discreet_audit env _ _ _ _ _).bind fun _ => Action.Agrees.pure _

theorem discreet_realpath (id : UInt32) (path : Text) : Discreet (realpath env id path) :=
  (discreet_resolvePath path).bind fun _ =>
    Action.Agrees.bind (discreet_read fun session data _ => by simp [Session.home]) fun _ => Action.Agrees.pure _

theorem discreet_rename (id : UInt32) (oldpath newpath : Text) : Discreet (rename env id oldpath newpath) :=
  (discreet_requireAudited env _ _ _).bind fun _ => (discreet_resolvePath oldpath).bind fun source =>
    (discreet_resolvePath newpath).bind fun target => (discreet_requireAbsent env target).bind fun _ =>
      (discreet_sys (FileSystem.bytesBlind_rename env.os source target)).bind fun _ =>
        (discreet_audit env _ _ _ _ _).bind fun _ => Action.Agrees.pure _

theorem discreet_readlink (id : UInt32) (path : Text) : Discreet (readlink env id path) :=
  (discreet_resolvePath path).bind fun resolved =>
    (discreet_sys (FileSystem.bytesBlind_query fun fs data => FileSystem.readLink_data env.os fs data resolved)).bind
      fun _ => Action.Agrees.pure _

theorem discreet_symlink (id : UInt32) (linkpath targetpath : Text) :
    Discreet (symlink env id linkpath targetpath) :=
  (discreet_requirePermission env _).bind fun _ => (discreet_resolvePath targetpath).bind fun link =>
    (discreet_query fun _ _ _ => rfl).bind fun _ => (discreet_requireAbsent env link).bind fun _ =>
      (discreet_sys (FileSystem.bytesBlind_symlink env.os linkpath link)).bind fun _ =>
        (discreet_audit env _ _ _ _ _).bind fun _ => Action.Agrees.pure _

theorem discreet_spaceAvailable (id : UInt32) (data : List UInt8) :
    Discreet (extendedSpaceAvailable env id data) := by
  unfold extendedSpaceAvailable
  split
  · exact Action.Agrees.fail _
  · next path pos _ =>
      refine (discreet_resolvePath path).bind fun resolved =>
        Action.Agrees.bind (discreet_query fun session data _ => ?_) fun _ => Action.Agrees.pure _
      unfold statVfsOf
      rw [FileSystem.locate_data]
      rfl

end Handlers

section Digests
variable {env : RequestEnv}

/-- A digest request that reads at least one byte of a regular file. -/
def DigestsBytes (env : RequestEnv) (session : Session) (data : List UInt8) : Prop :=
  ∃ path offset length resolved loc ino, parseDigestRequest data = some (path, offset, length) ∧
    resolve session.homeDir path = .ok resolved ∧ session.fs.locate env.os true resolved = .ok loc ∧
    session.fs.tree.find loc = some (.file ino) ∧ env.os.may (session.fs.inode ino) .read = true ∧
    (∀ call ∈ [Syscall.openat, .seek, .read], env.os.fault call = none) ∧
    offset < (session.fs.data ino).length

/-- What a file answers that opens to no bytes: an error, or its end. -/
def silence (os : Os) (file : FileSystem.OpenFile) : Except ErrorKind (List UInt8) :=
  match os.fault .read with
  | some why => .error why
  | none => if !file.read then .error .other else if file.isDir then .error .isADirectory else .ok []

def Silent (os : Os) (fs : FileSystem) (file : FileSystem.OpenFile) (offset : Nat) : Prop :=
  file.isDir = true ∨ os.fault .read ≠ none ∨ (fs.data file.ino).length ≤ offset

theorem Silent.readAt {os : Os} {fs : FileSystem} {file : FileSystem.OpenFile} {offset : Nat}
    (silent : Silent os fs file offset) (count : Nat) {len : Nat} (room : len ≠ 0) :
    FileSystem.readAt os file count offset len fs = (silence os file, fs) := by
  rw [FileSystem.readAt, if_neg room]
  unfold FileSystem.attempt silence
  cases faulty : os.fault .read with
  | some why => rfl
  | none =>
      cases readable : file.read with
      | false => rfl
      | true =>
          cases directory : file.isDir with
          | true => rfl
          | false =>
              -- a plain file that can be read: only its end keeps it silent
              have past : (fs.data file.ino).length ≤ offset := by
                rcases silent with isDir | fault | past
                · simp [directory] at isDir
                · exact absurd faulty fault
                · exact past
              have rest : (fs.data file.ino).drop offset = [] := List.drop_eq_nil_of_le past
              simp [Action.bind_run, Action.check_run, rest]

theorem Silent.digestRead {fs : FileSystem} {file : FileSystem.OpenFile} {offset : Nat}
    (silent : Silent env.os fs file offset) (fuel count remaining : Nat) (fed : List UInt8) :
    Sftp.digestRead env file (fuel + 1) count offset remaining fed fs = ((silence env.os file).map fun _ => fed, fs) := by
  have room : (if remaining = 0 then digestChunk else min digestChunk remaining) ≠ 0 := by
    unfold digestChunk
    split <;> omega
  rw [Sftp.digestRead, Action.bind_run, silent.readAt _ room]
  have empty : ∀ piece, silence env.os file = .ok piece → piece = [] := by
    intro piece answer
    unfold silence at answer
    split at answer
    · cases answer
    split at answer
    · cases answer
    split at answer
    · cases answer
    · cases answer
      rfl
  cases answer : silence env.os file with
  | error why => rfl
  | ok piece =>
      rw [empty piece answer]
      rfl

theorem Silent.agrees {os : Os} {fs fs' : FileSystem} {file : FileSystem.OpenFile} {offset : Nat}
    (silent : Silent os fs file offset) (same : FileSystem.SameButBytes fs fs') : Silent os fs' file offset := by
  unfold Silent
  rwa [same.length file.ino]

theorem seek_ok {os : Os} {fs fs' : FileSystem} {offset : Nat} (moved : FileSystem.seek os offset fs = (.ok (), fs')) :
    os.fault .seek = none := by
  obtain ⟨_, _, _, attempted⟩ := Action.bind_ok moved
  exact FileSystem.attempt_ok attempted

/-- The digest of a path says nothing of bytes it does not read. -/
theorem digestFile_agrees {fs fs' : FileSystem} (same : FileSystem.SameButBytes fs fs')
    (hash : List UInt8 → List UInt8) {path : PathBuf} {offset length : Nat}
    (quiet : ∀ loc ino, fs.locate env.os true path = .ok loc → fs.tree.find loc = some (.file ino) →
      env.os.may (fs.inode ino) .read = true → (∀ call ∈ [Syscall.openat, .seek, .read], env.os.fault call = none) →
      (fs.data ino).length ≤ offset) :
    (digestFile env hash path offset length fs).1 = (digestFile env hash path offset length fs').1 := by
  refine (FileSystem.bytesBlind_openFile env.os _ path).bind_answer (FileSystem.readOnly_openFile _ rfl rfl _) same
    fun file opened => ?_
  refine (FileSystem.bytesBlind_seek env.os offset).bind_answer (FileSystem.readOnly_seek _ _) same
    fun _ moved => ?_
  obtain ⟨opens, loc, located, place⟩ := FileSystem.openFile_ok rfl opened
  have silent : Silent env.os fs file offset := by
    rcases place with ⟨isDir, -⟩ | ⟨found, may⟩
    · exact .inl isDir
    · by_cases reads : env.os.fault .read = none
      · exact .inr (.inr (quiet loc _ located found (may rfl) (by simp [opens, reads, seek_ok moved])))
      · exact .inr (.inl reads)
  simp only [Action.bind_run, Action.read_run, silent.digestRead, (silent.agrees same).digestRead]
  cases silence env.os file <;> rfl

theorem extendedDigest_agrees {session session' : Session} (same : Indistinguishable session session')
    (hash : List UInt8 → List UInt8) (id : UInt32) {data : List UInt8} (quiet : ¬ DigestsBytes env session data) :
    (extendedDigest env hash id data session).1 = (extendedDigest env hash id data session').1 := by
  unfold extendedDigest
  cases parsed : parseDigestRequest data with
  | none => rfl
  | some request =>
      obtain ⟨path, offset, length⟩ := request
      have home : session'.homeDir = session.homeDir := by rw [same.rest]
      have ask : ∀ other : Session, resolvePath path other = (resolve other.homeDir path, other) := fun _ => rfl
      simp only [Action.bind_run, ask, home]
      cases resolved : resolve session.homeDir path with
      | error why => rfl
      | ok target =>
          have answers : (digestFile env hash target offset length session.fs).1 =
              (digestFile env hash target offset length session'.fs).1 := by
            refine digestFile_agrees same.contents hash fun loc ino located found may free => ?_
            by_contra reads
            exact quiet ⟨path, offset, length, target, loc, ino, parsed, resolved, located, found, may, free,
              Nat.lt_of_not_le reads⟩
          simp only [sys, Action.zoom, answers]
          cases (digestFile env hash target offset length session'.fs).1 <;> rfl

def Request.digestData : Request → Option (List UInt8)
  | .extended _ request data =>
      if request = "md5sum@openssh.com".toList ∨ request = "sha256sum@openssh.com".toList then some data else none
  | _ => none

theorem extended_agrees {session session' : Session} (same : Indistinguishable session session') (digests : Digests)
    (id : UInt32) (request : Text) (data : List UInt8)
    (quiet : ∀ digested, (Request.extended id request data).digestData = some digested →
      ¬ DigestsBytes env session digested) :
    (extended digests env id request data session).1 = (extended digests env id request data session').1 ∧
      Indistinguishable (extended digests env id request data session).2
        (extended digests env id request data session').2 := by
  have kept : Leaves (fun other : Session => other) (extended digests env id request data) :=
    leaves_extended digests id request data
  have unchanged : ∀ other, (extended digests env id request data other).2 = other := kept
  rw [unchanged, unchanged]
  refine ⟨?_, same⟩
  unfold extended
  split
  · next isMd5 => exact extendedDigest_agrees same _ id (quiet data (if_pos (.inl isMd5)))
  split
  · next isSha256 => exact extendedDigest_agrees same _ id (quiet data (if_pos (.inr isSha256)))
  split
  · exact (discreet_spaceAvailable env id data _ _ same).1
  · rfl

end Digests

section Runs

def Request.opensFile : Request → Bool
  | .open _ _ _ => true
  | _ => false

def Quiet (session : Session) (input : Input) : Prop :=
  ∀ data, input.2.digestData = some data → ¬ DigestsBytes input.1 session data

theorem handleRequest_discreet (digests : Digests) (env : RequestEnv) {request : Request}
    (noOpen : request.opensFile = false) (noDigest : request.digestData = none) :
    Discreet (handleRequest digests env request) := by
  cases request with
  | init _ _ => exact Action.Agrees.pure _
  | «open» _ _ _ => cases noOpen
  | close id handle => exact discreet_close id handle
  | read id handle offset len => exact discreet_fileHandle handle _
  | write id handle offset data => exact discreet_write env id handle offset data
  | lstat id path => exact discreet_lstat env id path
  | fstat id handle => exact discreet_fileHandle handle _
  | setstat id path attrs => exact discreet_setstat env id path attrs
  | fsetstat _ _ _ => exact Action.Agrees.fail _
  | opendir id path => exact discreet_opendir env id path
  | readdir id handle => exact discreet_readdir env id handle
  | remove id filename => exact discreet_remove env id filename
  | mkdir id path => exact discreet_mkdir env id path
  | rmdir id path => exact discreet_rmdir env id path
  | realpath id path => exact discreet_realpath env id path
  | stat id path => exact discreet_stat env id path
  | rename id oldpath newpath => exact discreet_rename env id oldpath newpath
  | readlink id path => exact discreet_readlink env id path
  | symlink id linkpath targetpath => exact discreet_symlink env id linkpath targetpath
  | extended id request data =>
      -- a digest is the only extension that looks into a file
      have other : ¬ (request = "md5sum@openssh.com".toList ∨ request = "sha256sum@openssh.com".toList) := by
        intro isDigest
        rw [Request.digestData, if_pos isDigest] at noDigest
        cases noDigest
      obtain ⟨notMd5, notSha256⟩ := not_or.mp other
      show Discreet (extended digests env id request data)
      unfold extended
      rw [if_neg notMd5, if_neg notSha256]
      split
      · exact discreet_spaceAvailable env id data
      · exact Action.Agrees.fail _

theorem sessionStep_agrees (digests : Digests) (session session' : Session) (input : Input)
    (same : Indistinguishable session session') (noOpen : input.2.opensFile = false) (quiet : Quiet session input) :
    (sessionStep digests session input).1 = (sessionStep digests session' input).1 ∧
      Indistinguishable (sessionStep digests session input).2 (sessionStep digests session' input).2 := by
  obtain ⟨env, request⟩ := input
  cases asked : request.digestData with
  | none => exact handleRequest_discreet digests env noOpen asked session session' same
  | some data =>
      cases request with
      | extended id request data => exact extended_agrees same digests id request data quiet
      | _ => cases asked

/-- Without an OPEN, and without a digest that reads a file, the replies of a whole
run are the same whatever the bytes of the files are. -/
theorem run_secret (digests : Digests) (session : Session) (fs' : FileSystem) (inputs : List Input)
    (fresh : session.handles = ∅) (contents : FileSystem.SameButBytes session.fs fs')
    (noOpen : ∀ input ∈ inputs, input.2.opensFile = false)
    (quiet : Along (sessionStep digests) Quiet session inputs) :
    (run (sessionStep digests) session inputs).1 =
      (run (sessionStep digests) { session with fs := fs' } inputs).1 := by
  have initial : Indistinguishable session { session with fs := fs' } :=
    ⟨rfl, contents, fun handle f found => by simp [fresh] at found⟩
  have along := Along.and (Along.of_forall noOpen) quiet
  exact (run_agree (fun first second input same allowed =>
    sessionStep_agrees digests first second input same allowed.1 allowed.2) initial along).1

def listOnly : Permissions := { Permissions.default with canList := true, canRead := false }

def abc : List UInt8 := [97, 98, 99]

def abd : List UInt8 := [97, 98, 100]

def sampleDigests : Digests where
  md5 bytes :=
    if bytes = abc then [0x90, 0x01, 0x50, 0x98, 0x3c, 0xd2, 0x4f, 0xb0, 0xd6, 0x96, 0x3f, 0x7d, 0x28, 0xe1, 0x7f, 0x72]
    else [0x49, 0x11, 0xe5, 0x16, 0xe5, 0xaa, 0x21, 0xd3, 0x27, 0x51, 0x2e, 0x0c, 0x8b, 0x19, 0x76, 0x16]
  sha256 _ := []

def holding (bytes : List UInt8) : Session := sessionAt (FileSystem.empty.addFile "f".toList bytes)

theorem holding_sameButBytes {bytes bytes' : List UInt8} (length : bytes'.length = bytes.length) :
    FileSystem.SameButBytes (holding bytes).fs (holding bytes').fs := by
  refine ⟨(holding bytes').fs.data, rfl, fun ino => ?_⟩
  show (Function.update (Function.update FileSystem.empty.data 1 []) 1 bytes' ino).length =
    (Function.update (Function.update FileSystem.empty.data 1 []) 1 bytes ino).length
  by_cases here : ino = 1
  · simp [here, length]
  · simp [here]

def statInput : Input := (permissiveEnv listOnly, .stat 1 "f".toList)

theorem run_secret_stat :
    (run (sessionStep sampleDigests) (holding abc) [statInput]).1 =
      (run (sessionStep sampleDigests) { holding abc with fs := (holding abd).fs } [statInput]).1 := by
  refine run_secret sampleDigests (holding abc) (holding abd).fs _ rfl (holding_sameButBytes rfl) ?_ ⟨?_, trivial⟩
  · intro input member
    cases List.mem_singleton.mp member
    rfl
  · intro data digested
    cases digested

def digestInput : Input := (permissiveEnv listOnly, .extended 1 "md5sum@openssh.com".toList [0, 0, 0, 1, 102])

theorem digest_reveals : ¬ ∀ (digests : Digests) (session : Session) (fs' : FileSystem) (inputs : List Input),
    session.handles = ∅ → FileSystem.SameButBytes session.fs fs' →
    (∀ input ∈ inputs, (input.1.permissionsOf session.username).canRead = false) →
    (∀ input ∈ inputs, input.2.opensFile = false) →
    (run (sessionStep digests) session inputs).1 =
      (run (sessionStep digests) { session with fs := fs' } inputs).1 := by
  intro secret
  have equal := secret sampleDigests (holding abc) (holding abd).fs [digestInput] rfl (holding_sameButBytes rfl)
    (by simp [digestInput]; rfl) (by simp [digestInput]; rfl)
  have first : (run (sessionStep sampleDigests) (holding abc) [digestInput]).1 =
      [.ok (.extendedReply 1 ("900150983cd24fb0d6963f7d28e17f72".toList.map fun c => UInt8.ofNat c.toNat))] := rfl
  have second : (run (sessionStep sampleDigests) { holding abc with fs := (holding abd).fs } [digestInput]).1 =
      [.ok (.extendedReply 1 ("4911e516e5aa21d327512e0c8b197616".toList.map fun c => UInt8.ofNat c.toNat))] := rfl
  rw [first, second] at equal
  revert equal
  decide

end Runs

end Wftpd.Sftp
