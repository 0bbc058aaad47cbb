import Wftpd.Posix.FileSystem

/-! Which calls depend on the bytes of files, and which on their lengths alone. -/

set_option autoImplicit false

namespace Wftpd.Posix.FileSystem
open Wftpd.Library

def withData (fs : FileSystem) (data : Nat → List UInt8) : FileSystem := { fs with data := data }

/-- The same tree, links, lengths and metadata; the bytes of files may differ. -/
def SameButBytes (fs fs' : FileSystem) : Prop :=
  ∃ data : Nat → List UInt8, fs' = fs.withData data ∧ ∀ ino, (data ino).length = (fs.data ino).length

section Views
variable (os : Os) (fs : FileSystem) (data : Nat → List UInt8)

theorem walkWith_data (expand : Loc → Text → List Hop → Except ErrorKind Loc) (follow : Bool) (hops : List Hop)
    (dir : Loc) : (fs.withData data).walkWith os expand follow dir hops = fs.walkWith os expand follow dir hops := by
  induction hops generalizing dir with
  | nil => rfl
  | cons hop rest ih =>
      have access : (fs.withData data).allowed os dir .search = fs.allowed os dir .search := rfl
      have tree : (fs.withData data).tree = fs.tree := rfl
      simp only [walkWith, access, tree, ih]

theorem walk_data (follow : Bool) (budget : Nat) :
    (fs.withData data).walk os follow budget = fs.walk os follow budget := by
  induction budget with
  | zero =>
      funext dir hops
      exact walkWith_data os fs data _ follow hops dir
  | succ budget ih =>
      funext dir hops
      simp only [walk, ih]
      exact walkWith_data os fs data _ follow hops dir

@[simp] theorem locate_data (follow : Bool) (path : PathBuf) :
    (fs.withData data).locate os follow path = fs.locate os follow path := by
  simp only [locate, walk_data]

@[simp] theorem tree_data : (fs.withData data).tree = fs.tree := rfl

@[simp] theorem readDir_data (path : PathBuf) : (fs.withData data).readDir os path = fs.readDir os path := by
  unfold readDir
  rw [locate_data]
  rfl

@[simp] theorem scanDir_data (path : PathBuf) : (fs.withData data).scanDir os path = fs.scanDir os path := by
  unfold scanDir
  rw [readDir_data]

@[simp] theorem touchDir_withData (loc : Loc) (now : Int) :
    (fs.withData data).touchDir loc now = (fs.touchDir loc now).withData data := by
  unfold touchDir
  rw [tree_data]
  cases fs.tree.find loc <;> rfl

@[simp] theorem emptied_data (loc : Loc) : emptied os (fs.withData data) loc = (emptied os fs loc).withData data := by
  unfold emptied
  rw [tree_data]
  split
  · rfl
  · exact touchDir_withData (fs.sweep fun part => loc <+: part && part ≠ loc) data loc os.now

@[simp] theorem canonicalize_data (path : PathBuf) :
    (fs.withData data).canonicalize os path = fs.canonicalize os path := by
  unfold canonicalize
  rw [locate_data]
  rfl

@[simp] theorem readLink_data (path : PathBuf) : (fs.withData data).readLink os path = fs.readLink os path := by
  unfold readLink
  rw [locate_data]
  rfl

variable {data} (lengths : ∀ ino, (data ino).length = (fs.data ino).length)
include lengths

theorem nodeMetadata_data (node : Node) : (fs.withData data).nodeMetadata os node = fs.nodeMetadata os node := by
  cases node with
  | file ino => simp [nodeMetadata, withData, lengths]
  | dir ino => rfl
  | link ino target => rfl

theorem status_data (follow : Bool) (path : PathBuf) :
    (fs.withData data).status os follow path = fs.status os follow path := by
  unfold status
  rw [locate_data]
  cases fs.locate os follow path with
  | error why => rfl
  | ok loc =>
      simp only [bind, Except.bind, tree_data]
      cases fs.tree.find loc with
      | none => rfl
      | some node => simp only [nodeMetadata_data os fs lengths]

theorem metadata_data (path : PathBuf) : (fs.withData data).metadata os path = fs.metadata os path := by
  unfold metadata
  rw [status_data os fs lengths]

theorem symlinkMetadata_data (path : PathBuf) :
    (fs.withData data).symlinkMetadata os path = fs.symlinkMetadata os path := by
  unfold symlinkMetadata
  rw [status_data os fs lengths]

theorem pathExists_data (path : PathBuf) : (fs.withData data).pathExists os path = fs.pathExists os path := by
  unfold pathExists
  rw [metadata_data os fs lengths]

theorem isDirPath_data (path : PathBuf) : (fs.withData data).isDirPath os path = fs.isDirPath os path := by
  unfold isDirPath
  rw [status_data os fs lengths]

theorem fileSize_data (path : PathBuf) : (fs.withData data).fileSize os path = fs.fileSize os path := by
  unfold fileSize
  rw [status_data os fs lengths]

theorem entryMetadata_data (dir : Nat) (name : Name) :
    (fs.withData data).entryMetadata os dir name = fs.entryMetadata os dir name := by
  unfold entryMetadata
  have place : (fs.withData data).findDir dir = fs.findDir dir := rfl
  rw [place]
  cases fs.findDir dir with
  | none => rfl
  | some loc =>
      simp only [tree_data]
      cases fs.tree.find (loc ++ [name]) with
      | none => rfl
      | some node => simp only [nodeMetadata_data os fs lengths]

end Views

section Changes
variable {fs fs' : FileSystem}

theorem SameButBytes.touch (same : SameButBytes fs fs') (ino : Nat) (now : Int) :
    SameButBytes (fs.touch ino now) (fs'.touch ino now) := by
  obtain ⟨data, rfl, lengths⟩ := same
  exact ⟨data, rfl, lengths⟩

theorem SameButBytes.touchDir (same : SameButBytes fs fs') (loc : Loc) (now : Int) :
    SameButBytes (fs.touchDir loc now) (fs'.touchDir loc now) := by
  obtain ⟨data, rfl, lengths⟩ := same
  unfold FileSystem.touchDir
  rw [tree_data]
  cases fs.tree.find loc with
  | none => exact ⟨data, rfl, lengths⟩
  | some node => exact ⟨data, rfl, lengths⟩

theorem SameButBytes.create (same : SameButBytes fs fs') (parent : Loc) (name : Name) (new : NewNode)
    (created : Inode) : SameButBytes (fs.create parent name new created) (fs'.create parent name new created) := by
  obtain ⟨data, rfl, lengths⟩ := same
  refine ⟨Function.update data fs.next [], rfl, fun ino => ?_⟩
  by_cases fresh : ino = fs.next
  · simp [FileSystem.create, fresh]
  · simp [FileSystem.create, fresh, lengths]

theorem SameButBytes.sweep (same : SameButBytes fs fs') (gone : Loc → Bool) :
    SameButBytes (fs.sweep gone) (fs'.sweep gone) := by
  obtain ⟨data, rfl, lengths⟩ := same
  exact ⟨data, rfl, lengths⟩

theorem SameButBytes.emptied (same : SameButBytes fs fs') (os : Os) (loc : Loc) :
    SameButBytes (emptied os fs loc) (emptied os fs' loc) := by
  obtain ⟨data, rfl, lengths⟩ := same
  refine ⟨data, emptied_data os fs data loc, fun ino => ?_⟩
  unfold FileSystem.emptied FileSystem.touchDir
  split
  · exact lengths ino
  · split <;> exact lengths ino

theorem SameButBytes.moveEntry (same : SameButBytes fs fs') (source target : Loc) :
    SameButBytes (fs.moveEntry source target) (fs'.moveEntry source target) := by
  obtain ⟨data, rfl, lengths⟩ := same
  unfold FileSystem.moveEntry
  cases target.getLast? with
  | none => exact ⟨data, rfl, lengths⟩
  | some name => exact ⟨data, rfl, lengths⟩

theorem SameButBytes.setInode (same : SameButBytes fs fs') (ino : Nat) (change : Inode → Inode) :
    SameButBytes { fs with inode := Function.update fs.inode ino (change (fs.inode ino)) }
      { fs' with inode := Function.update fs'.inode ino (change (fs'.inode ino)) } := by
  obtain ⟨data, rfl, lengths⟩ := same
  exact ⟨data, rfl, lengths⟩

theorem SameButBytes.setData (same : SameButBytes fs fs') (ino : Nat) {bytes bytes' : List UInt8}
    (equal : bytes'.length = bytes.length) : SameButBytes (fs.setData ino bytes) (fs'.setData ino bytes') := by
  obtain ⟨data, rfl, lengths⟩ := same
  refine ⟨Function.update data ino bytes', rfl, fun other => ?_⟩
  by_cases here : other = ino
  · simp [FileSystem.setData, here, equal]
  · simp [FileSystem.setData, here, lengths]

theorem SameButBytes.length (same : SameButBytes fs fs') (ino : Nat) :
    (fs'.data ino).length = (fs.data ino).length := by
  obtain ⟨data, rfl, lengths⟩ := same
  exact lengths ino

end Changes

section Calls
variable {α : Type} (os : Os)

/-- Calls that answer alike, and end alike, whatever the bytes of files are. -/
abbrev BytesBlind (call : Action FileSystem ErrorKind α) : Prop := Action.Agrees SameButBytes call

theorem bytesBlind_query {ask : FileSystem → Except ErrorKind α}
    (blind : ∀ fs data, ask (fs.withData data) = ask fs) : BytesBlind (Action.query ask) :=
  Action.Agrees.query fun fs _ ⟨data, other, _⟩ => by rw [other, blind fs data]

theorem bytesBlind_read {view : FileSystem → α} (blind : ∀ fs data, view (fs.withData data) = view fs) :
    BytesBlind (Action.read view) :=
  Action.Agrees.read fun fs _ ⟨data, other, _⟩ => by rw [other, blind fs data]

theorem bytesBlind_attempt (call : Syscall) : BytesBlind (attempt os call) := by
  unfold attempt
  cases os.fault call with
  | none => exact Action.Agrees.pure ()
  | some why => exact Action.Agrees.fail why

theorem bytesBlind_locateFor (follow : Bool) (path : PathBuf) : BytesBlind (locateFor os follow path) :=
  bytesBlind_query fun fs data => locate_data os fs data follow path

theorem bytesBlind_requireAccess (loc : Loc) (access : Access) : BytesBlind (requireAccess os loc access) :=
  (bytesBlind_read fun _ _ => rfl).bind fun _ => Action.Agrees.check _ _

theorem bytesBlind_createAt (loc : Loc) (new : NewNode) : BytesBlind (createAt os loc new) := by
  refine (bytesBlind_read fun _ _ => rfl).bind fun free => (Action.Agrees.check _ _).bind fun _ => ?_
  cases loc.getLast? with
  | none => exact Action.Agrees.fail _
  | some name =>
      refine (bytesBlind_requireAccess os _ _).bind fun _ => Action.Agrees.modify fun fs fs' same => ?_
      exact (same.create _ name new os.created).touchDir _ os.now

theorem bytesBlind_createDir (path : PathBuf) : BytesBlind (createDir os path) :=
  (bytesBlind_attempt os .mkdir).bind fun _ => (bytesBlind_locateFor os false path).bind fun loc =>
    bytesBlind_createAt os loc .dir

theorem bytesBlind_symlink (target : Text) (path : PathBuf) : BytesBlind (FileSystem.symlink os target path) :=
  (bytesBlind_attempt os .symlink).bind fun _ => (Action.Agrees.check _ _).bind fun _ =>
    (Action.Agrees.check _ _).bind fun _ => (bytesBlind_locateFor os false path).bind fun loc =>
      bytesBlind_createAt os loc (.link target)

theorem bytesBlind_unlink (loc : Loc) : BytesBlind (do
    requireAccess os loc.dropLast .write
    Action.modify fun fs => (fs.sweep fun part => part = loc).touchDir loc.dropLast os.now) :=
  (bytesBlind_requireAccess os _ _).bind fun _ => Action.Agrees.modify fun _ _ same =>
    (same.sweep _).touchDir _ os.now

theorem bytesBlind_removeFile (path : PathBuf) : BytesBlind (removeFile os path) := by
  refine (bytesBlind_attempt os .unlink).bind fun _ => (bytesBlind_locateFor os false path).bind fun loc =>
    (bytesBlind_read fun _ _ => rfl).bind fun found => ?_
  cases found with
  | none => exact Action.Agrees.fail _
  | some node =>
      cases node with
      | dir ino => exact Action.Agrees.fail _
      | file ino => exact bytesBlind_unlink os loc
      | link ino target => exact bytesBlind_unlink os loc

theorem bytesBlind_removeSome (loc : Loc) : BytesBlind (removeSome os loc) :=
  Action.Agrees.modify fun _ _ same => same.sweep _

theorem bytesBlind_removeDirAll (path : PathBuf) : BytesBlind (removeDirAll os path) := by
  refine (bytesBlind_locateFor os false path).bind fun loc => (bytesBlind_read fun _ _ => rfl).bind fun found => ?_
  cases found with
  | none => exact Action.Agrees.fail _
  | some node =>
      cases node with
      | file ino => exact Action.Agrees.fail _
      | link ino target => exact bytesBlind_unlink os loc
      | dir ino =>
          simp only
          cases os.fault .removeDirAll with
          | some why => exact (bytesBlind_removeSome os loc).bind fun _ => Action.Agrees.fail why
          | none =>
              have empties : BytesBlind (Action.modify fun fs => emptied os fs loc) :=
                Action.Agrees.modify fun _ _ same => same.emptied os loc
              refine (bytesBlind_read fun _ _ => rfl).bind fun removable => ?_
              cases removable with
              | false => exact (bytesBlind_removeSome os loc).bind fun _ => Action.Agrees.fail _
              | true =>
                  refine (bytesBlind_read fun _ _ => by rw [emptied_data, locate_data]).bind fun again => ?_
                  cases again with
                  | error why => cases why <;> first | exact empties | exact empties.bind fun _ => Action.Agrees.fail _
                  | ok found =>
                      refine (bytesBlind_read fun _ _ => rfl).bind fun permitted => ?_
                      cases permitted with
                      | true => exact Action.Agrees.modify fun _ _ same => (same.sweep _).touchDir _ os.now
                      | false => exact empties.bind fun _ => Action.Agrees.fail _

theorem bytesBlind_rename (src dst : PathBuf) : BytesBlind (rename os src dst) := by
  refine (bytesBlind_attempt os .rename).bind fun _ => (Action.Agrees.check _ _).bind fun _ =>
    (bytesBlind_locateFor os false src).bind fun source => (bytesBlind_locateFor os false dst).bind fun target =>
      (bytesBlind_query fun _ _ => rfl).bind fun moves => ?_
  cases moves with
  | false => exact Action.Agrees.pure ()
  | true =>
      exact (bytesBlind_requireAccess os _ _).bind fun _ => (bytesBlind_requireAccess os _ _).bind fun _ =>
        Action.Agrees.modify fun _ _ same => ((same.moveEntry _ _).touchDir _ os.now).touchDir _ os.now

theorem bytesBlind_setPermissions (path : PathBuf) (mode : Nat) : BytesBlind (setPermissions os path mode) := by
  refine (bytesBlind_attempt os .chmod).bind fun _ => (bytesBlind_locateFor os true path).bind fun loc =>
    (bytesBlind_read fun _ _ => rfl).bind fun found => ?_
  cases found with
  | none => exact Action.Agrees.fail _
  | some node =>
      exact (bytesBlind_requireAccess os _ _).bind fun _ => Action.Agrees.modify fun _ _ same =>
        same.setInode node.ino fun inode => { inode with mode := mode }

theorem bytesBlind_requireMode (asked : Bool) (ino : Nat) (access : Access) :
    BytesBlind (requireMode os asked ino access) :=
  (bytesBlind_read fun _ _ => rfl).bind fun _ => Action.Agrees.check _ _

theorem bytesBlind_openFile (options : OpenOptions) (path : PathBuf) : BytesBlind (openFile os options path) := by
  refine (Action.Agrees.check _ _).bind fun _ => (bytesBlind_attempt os .openat).bind fun _ =>
    (bytesBlind_locateFor os true path).bind fun loc => (bytesBlind_read fun _ _ => rfl).bind fun found => ?_
  cases found with
  | none =>
      exact (Action.Agrees.check _ _).bind fun _ => (bytesBlind_read fun _ _ => rfl).bind fun _ =>
        (bytesBlind_createAt os loc .file).bind fun _ => Action.Agrees.pure _
  | some node =>
      cases node with
      | dir ino =>
          exact (Action.Agrees.check _ _).bind fun _ => (bytesBlind_requireAccess os _ _).bind fun _ =>
            Action.Agrees.pure _
      | file ino =>
          refine (bytesBlind_requireMode os _ _ _).bind fun _ => (bytesBlind_requireMode os _ _ _).bind fun _ =>
            Action.Agrees.bind ?_ fun _ => Action.Agrees.pure _
          unfold truncateIf
          split
          · exact Action.Agrees.modify fun _ _ same => (same.setData ino rfl).touch ino os.now
          · exact Action.Agrees.pure ()
      | link ino target => exact Action.Agrees.fail _

theorem bytesBlind_seek (offset : Nat) : BytesBlind (seek os offset) :=
  (Action.Agrees.check _ _).bind fun _ => bytesBlind_attempt os .seek

theorem bytesBlind_setLen (file : OpenFile) (size : Nat) : BytesBlind (setLen os file size) := by
  refine (Action.Agrees.check _ _).bind fun _ => (bytesBlind_attempt os .ftruncate).bind fun _ =>
    Action.Agrees.modify fun fs fs' same => (same.setData file.ino ?_).touch file.ino os.now
  have equal := same.length file.ino
  simp [resize, equal]

variable {β : Type}

/-- After a call that changes nothing and does not see the bytes, compare what follows. -/
theorem BytesBlind.bind_answer {first : Action FileSystem ErrorKind α} {next : α → Action FileSystem ErrorKind β}
    {fs fs' : FileSystem} (blind : BytesBlind first) (kept : ReadOnly first) (same : SameButBytes fs fs')
    (continued : ∀ value, first fs = (.ok value, fs) → (next value fs).1 = (next value fs').1) :
    ((first >>= next) fs).1 = ((first >>= next) fs').1 := by
  have answers := (blind fs fs' same).1
  have unchanged := kept fs
  have unchanged' := kept fs'
  cases ran : first fs with
  | mk answer after =>
      cases ran' : first fs' with
      | mk answer' after' =>
          simp only [ran, ran'] at answers unchanged unchanged'
          subst answer' after after'
          cases answer with
          | error why => rw [Action.bind_run_error ran, Action.bind_run_error ran']
          | ok value =>
              rw [Action.bind_run_ok ran, Action.bind_run_ok ran']
              exact continued value ran

end Calls

end Wftpd.Posix.FileSystem
