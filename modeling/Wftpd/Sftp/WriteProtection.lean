import Wftpd.Posix.Survival
import Wftpd.Sftp.Changes
import Wftpd.Sftp.ReadProtection

/-! Stored files in the hands of a user without a destructive right.

Someone who may append opens files for writing, but his handles write at the end. A
RENAME asks whether something is at its target, and takes a failure to find out for no.
-/

set_option autoImplicit false

namespace Wftpd.Sftp
open Wftpd.Posix Wftpd.Common Wftpd.Library

/-- What may become of the bytes of a file: more of them, for someone who appends. -/
def Extends (appends : Bool) (old new : List UInt8) : Prop := old <+: new ∧ (appends = false → new = old)

theorem Extends.refl (appends : Bool) (bytes : List UInt8) : Extends appends bytes bytes :=
  ⟨List.prefix_refl bytes, fun _ => rfl⟩

theorem Extends.trans {appends : Bool} (a b c : List UInt8) (first : Extends appends a b)
    (second : Extends appends b c) : Extends appends a c :=
  ⟨first.1.trans second.1, fun never => (second.2 never).trans (first.2 never)⟩

/-- Rights that destroy nothing; `appends` tells whether appending may be one of them. -/
structure SparesFiles (appends : Bool) (perms : Permissions) : Prop where
  write : perms.canWrite = false
  delete : perms.canDelete = false
  rmdir : perms.canRmdir = false
  append : appends = false → perms.canAppend = false

/-- A RENAME that does not see the regular file it replaces. -/
def ReplacesUnseen (session : Session) (input : Input) : Prop :=
  ∃ id oldpath newpath «from» «to» source target, input.2 = .rename id oldpath newpath ∧
    resolve session.homeDir oldpath = .ok «from» ∧ resolve session.homeDir newpath = .ok «to» ∧
    session.fs.pathExists input.1.os «to» = false ∧
    FileSystem.Renames input.1.os session.fs «from» «to» source target ∧ session.fs.ReplacesFile target

/-- It happens only when the call that looks at the target fails. -/
theorem ReplacesUnseen.fault {session : Session} {input : Input} (unseen : ReplacesUnseen session input) :
    input.1.os.fault .stat ≠ none := by
  obtain ⟨id, oldpath, newpath, «from», «to», source, target, -, -, -, absent, renames, ino, found⟩ := unseen
  intro sound
  rw [FileSystem.pathExists_file renames.locatedTarget found sound] at absent
  cases absent

/-- A handle that writes writes at the end, and belongs to someone who may append. -/
def WritesAtEnd (appends : Bool) (f : FileHandle) : Prop :=
  f.file.write = true → f.file.append = true ∧ appends = true

section Steps
variable {appends : Bool} {env : RequestEnv} {session : Session}

theorem overwrite_end (old new : List UInt8) : FileSystem.overwrite old old.length new = old ++ new := by
  simp [FileSystem.overwrite]

/-- Without the right to write, only an append is granted anything beyond reading. -/
theorem granted_append {pflags : OpenFlags} {perms : Permissions} (spares : SparesFiles appends perms)
    (granted : pflags.granted perms = true) (writes : pflags.wantsWrite = true) :
    pflags.append = true ∧ appends = true := by
  unfold OpenFlags.granted at granted
  rw [if_pos writes, spares.write] at granted
  cases asked : pflags.append with
  | false => simp [asked] at granted
  | true =>
      refine ⟨rfl, ?_⟩
      by_contra never
      have denied := spares.append (by simpa using never)
      simp [asked, denied] at granted

theorem filesKept_open (id : UInt32) (filename : Text) (pflags : OpenFlags)
    (spares : SparesFiles appends (session.permissions env)) :
    FileSystem.FilesKept (Extends appends) session.fs («open» env id filename pflags session).2.fs := by
  have same := Extends.refl appends
  have unchanged := FileSystem.FilesKept.refl same session.fs
  apply open_final (FileSystem.FilesKept (Extends appends) session.fs) id unchanged
  intro granted resolved _
  apply FileSystem.openFile_final _ _ resolved unchanged
  · intro parent name _ _
    exact (FileSystem.filesKept_create same parent name .file env.os.created).touchDir _ _
  · intro ino valid truncates
    -- it would be an append, and those are refused together with a truncation
    have truncate : pflags.truncate = true := truncates
    have writes : pflags.wantsWrite = true := by simp [OpenFlags.wantsWrite, truncate]
    have append := (granted_append spares granted writes).1
    simp [FileSystem.OpenOptions.valid, OpenFlags.options, append, truncate] at valid

theorem filesKept_write (id : UInt32) (handle : Text) (offset : UInt64) (data : List UInt8)
    (closed : ∀ handle f, session.handles.lookup handle = some (.file f) → WritesAtEnd appends f) :
    FileSystem.FilesKept (Extends appends) session.fs (write env id handle offset data session).2.fs := by
  have same := Extends.refl appends
  have unchanged := FileSystem.FilesKept.refl same session.fs
  apply write_final (FileSystem.FilesKept (Extends appends) session.fs) id unchanged
  intro _ f found
  apply FileSystem.writeAll_final _ f.file offset.toNat data unchanged
  intro part writes _
  obtain ⟨append, may⟩ := closed handle f found writes
  apply FileSystem.filesKept_setData same
  have start : f.file.start session.fs offset.toNat = (session.fs.data f.file.ino).length := by
    simp [FileSystem.OpenFile.start, append]
  rw [start, overwrite_end]
  refine ⟨List.prefix_append _ _, fun never => ?_⟩
  rw [may] at never
  cases never

theorem filesKept_rename (id : UInt32) (oldpath newpath : Text)
    (seen : ¬ ReplacesUnseen session (env, .rename id oldpath newpath)) :
    FileSystem.FilesKept (Extends appends) session.fs (rename env id oldpath newpath session).2.fs := by
  have same := Extends.refl appends
  have unchanged := FileSystem.FilesKept.refl same session.fs
  apply rename_final (FileSystem.FilesKept (Extends appends) session.fs) id unchanged
  intro _ «from» «to» acceptedFrom acceptedTo absent
  apply FileSystem.rename_final _ «from» «to» unchanged
  intro source target renames
  have spared : ¬ session.fs.ReplacesFile target := fun replaces =>
    seen ⟨id, oldpath, newpath, «from», «to», source, target, rfl, acceptedFrom, acceptedTo, absent, renames, replaces⟩
  exact ((FileSystem.filesKept_moveEntry same (renames.no_file spared)).touchDir _ _).touchDir _ _

/-- No request of such a user takes a file away or changes the bytes it had. -/
theorem filesKept_step (digests : Digests) {request : Request}
    (spares : SparesFiles appends (session.permissions env))
    (closed : ∀ handle f, session.handles.lookup handle = some (.file f) → WritesAtEnd appends f)
    (seen : ¬ ReplacesUnseen session (env, request)) :
    FileSystem.FilesKept (Extends appends) session.fs (handleRequest digests env request session).2.fs := by
  have same := Extends.refl appends
  have unchanged := FileSystem.FilesKept.refl same session.fs
  cases mutates : request.mutates with
  | false =>
      rw [handleRequest_leaves_fs digests env mutates session]
      exact unchanged
  | true =>
      -- what the user has no right to is refused, and what is left makes new entries only
      cases request with
      | «open» id filename pflags => exact filesKept_open id filename pflags spares
      | write id handle offset data => exact filesKept_write id handle offset data closed
      | setstat id path attrs =>
          apply setstat_final (FileSystem.FilesKept (Extends appends) session.fs) id unchanged
          · intro inode loc ino found
            exact ⟨⟨loc, found⟩, same _⟩
          · intro granted
            rw [spares.write] at granted
            cases granted
      | remove id filename =>
          apply remove_final (FileSystem.FilesKept (Extends appends) session.fs) id unchanged
          intro granted
          rw [spares.delete] at granted
          cases granted
      | mkdir id path =>
          apply mkdir_final (FileSystem.FilesKept (Extends appends) session.fs) id unchanged
          intro resolved _
          apply FileSystem.createDir_final _ resolved unchanged
          intro parent name _
          exact (FileSystem.filesKept_create same parent name .dir env.os.created).touchDir _ _
      | rmdir id path =>
          apply rmdir_final (FileSystem.FilesKept (Extends appends) session.fs) id unchanged
          intro granted
          rw [spares.rmdir] at granted
          cases granted
      | rename id oldpath newpath => exact filesKept_rename id oldpath newpath seen
      | symlink id linkpath targetpath =>
          apply symlink_final (FileSystem.FilesKept (Extends appends) session.fs) id unchanged
          intro _ link _ _ _
          apply FileSystem.symlink_final _ linkpath link unchanged
          intro parent name _
          exact (FileSystem.filesKept_create same parent name (.link linkpath) env.os.created).touchDir _ _
      | _ => cases mutates

theorem writesAtEnd_step (digests : Digests) {request : Request}
    (spares : SparesFiles appends (session.permissions env))
    (closed : ∀ handle f, session.handles.lookup handle = some (.file f) → WritesAtEnd appends f) :
    ∀ handle f, (handleRequest digests env request session).2.handles.lookup handle = some (.file f) →
      WritesAtEnd appends f := by
  intro handle f found writes
  rcases handleRequest_tableGrows digests env request session handle f found with
    old | ⟨id, filename, pflags, -, granted, -, mode, -⟩
  · exact closed handle f old writes
  · rw [mode] at writes ⊢
    have asked : pflags.wantsWrite = true := by
      have writes : pflags.options.writes = true := writes
      simp only [FileSystem.OpenOptions.writes, OpenFlags.options, Bool.or_eq_true] at writes
      simp only [OpenFlags.wantsWrite, Bool.or_eq_true]
      tauto
    exact granted_append spares granted asked

end Steps

/-- Every file there at the start is there at the end, with the bytes it had and, where
the user may append, perhaps more of them. -/
theorem run_files_kept (digests : Digests) (session : Session) (appends : Bool) (inputs : List Input)
    (fresh : session.handles = ∅)
    (spares : ∀ input ∈ inputs, SparesFiles appends (input.1.permissionsOf session.username))
    (seen : Along (sessionStep digests) (fun state input => ¬ ReplacesUnseen state input) session inputs) :
    FileSystem.FilesKept (Extends appends) session.fs (run (sessionStep digests) session inputs).2.fs := by
  let invariant (state : Session) := state.username = session.username ∧
    (∀ handle f, state.handles.lookup handle = some (.file f) → WritesAtEnd appends f) ∧
    FileSystem.FilesKept (Extends appends) session.fs state.fs
  let condition (state : Session) (input : Input) :=
    SparesFiles appends (input.1.permissionsOf session.username) ∧ ¬ ReplacesUnseen state input
  have initial : invariant session :=
    ⟨rfl, fun handle f found => by simp [fresh] at found, FileSystem.FilesKept.refl (Extends.refl appends) session.fs⟩
  have keeps : ∀ state input, invariant state → condition state input →
      invariant (sessionStep digests state input).2 := by
    intro state input ⟨same, closed, kept⟩ ⟨spares, seen⟩
    rw [← same] at spares
    refine ⟨(sessionStep_username digests state input).trans same, ?_, ?_⟩
    · exact writesAtEnd_step digests spares closed
    · exact kept.trans Extends.trans (filesKept_step digests spares closed seen)
  have along : Along (sessionStep digests) condition session inputs := Along.and (Along.of_forall spares) seen
  have kept : invariant (run (sessionStep digests) session inputs).2 := run_invariant keeps initial along
  exact kept.2.2

section Samples

def appendOnly : Permissions := { Permissions.default with canAppend := true }

def renameOnly : Permissions := { Permissions.default with canRename := true }

def twoFileHome : Session :=
  sessionAt ((FileSystem.empty.addFile "a".toList [1]).addFile "b".toList [2])

def appendRun : List Input :=
  [(permissiveEnv appendOnly, .open 1 "a".toList { append := true }),
    (permissiveEnv appendOnly, .write 2 "h1".toList 0 [3])]

theorem run_files_kept_append :
    FileSystem.FilesKept (Extends true) twoFileHome.fs (run (sessionStep noDigests) twoFileHome appendRun).2.fs := by
  apply run_files_kept noDigests twoFileHome true appendRun rfl
  · intro input member
    simp only [appendRun, List.mem_cons, List.not_mem_nil, or_false] at member
    rcases member with rfl | rfl <;> exact ⟨rfl, rfl, rfl, fun never => by cases never⟩
  · refine ⟨?_, ?_, trivial⟩
    · rintro ⟨id, oldpath, newpath, «from», «to», source, target, isRename, -⟩
      cases isRename
    · rintro ⟨id, oldpath, newpath, «from», «to», source, target, isRename, -⟩
      cases isRename

def blindRename : List Input :=
  let env := permissiveEnv renameOnly
  [({ env with os := { env.os with fault := fun call => if call = .stat then some .other else none } },
    .rename 1 "a".toList "b".toList)]

theorem rename_replaces_unseen : ¬ ∀ (digests : Digests) (session : Session) (appends : Bool) (inputs : List Input),
    session.handles = ∅ → (∀ input ∈ inputs, SparesFiles appends (input.1.permissionsOf session.username)) →
    FileSystem.FilesKept (Extends appends) session.fs (run (sessionStep digests) session inputs).2.fs := by
  intro kept
  have spares : ∀ input ∈ blindRename, SparesFiles false (input.1.permissionsOf twoFileHome.username) := by
    intro input member
    cases List.mem_singleton.mp member
    exact ⟨rfl, rfl, rfl, fun _ => rfl⟩
  obtain ⟨⟨loc, found⟩, -⟩ := kept noDigests twoFileHome false blindRename rfl spares ["b".toList] 2 rfl
  have entries : (run (sessionStep noDigests) twoFileHome blindRename).2.fs.tree.entries =
      [(["b".toList], .file 1), ([], .dir 0)] := rfl
  have member := Tree.mem_iff_find.mpr found
  simp [entries] at member

end Samples

end Wftpd.Sftp
