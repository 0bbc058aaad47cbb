import Mathlib.Logic.Function.Basic
import Wftpd.Library.Action
import Wftpd.Posix.Tree

/-! A POSIX file system: inodes, path walks that follow symbolic links, and the
calls a program makes on it.

What the kernel decides during one request is an `Os`: which access it grants,
which calls and paths it makes fail, how far a failing write or removal got, how a read is
split, and the clock. Laws proved here hold for every such decision.
-/

set_option autoImplicit false

namespace Wftpd.Posix
open Wftpd.Library

inductive ErrorKind where
  | notFound
  | permissionDenied
  | alreadyExists
  | invalidInput
  | notADirectory
  | isADirectory
  | directoryNotEmpty
  | filesystemLoop
  | fileTooLarge
  | resourceBusy
  | other
  deriving DecidableEq, Repr

structure Inode where
  mode : Nat
  uid : Nat
  gid : Nat
  atime : Int
  mtime : Int
  deriving DecidableEq, Repr

inductive Access where
  | read
  | write
  | search
  | own
  deriving DecidableEq, Repr

inductive Syscall where
  | stat
  | openat
  | seek
  | read
  | write
  | flush
  | chmod
  | ftruncate
  | unlink
  | mkdir
  | removeDirAll
  | rename
  | readlink
  | symlink
  | readdir
  deriving DecidableEq, Repr

structure Os where
  may : Inode → Access → Bool
  fault : Syscall → Option ErrorKind
  /-- Why no call gets through with this path: it has more than 4095 bytes, or a disk fails on the way. -/
  refused : PathBuf → Option ErrorKind
  /-- Entries lost to an error while a scan reads this directory. -/
  dropped : PathBuf → Name → Bool
  /-- The metadata of a new inode. -/
  created : Inode
  cwd : Loc
  /-- One less than the most bytes the n-th read of a request returns. -/
  chunk : Nat → Nat
  /-- Bytes a failing write leaves behind, and subtrees a failing removal has taken. -/
  written : Nat
  removed : Loc → Bool
  now : Int
  dirLen : Nat → Nat

/-- A kernel that grants and completes everything. -/
def Os.permissive : Os :=
  ⟨fun _ _ => true, fun _ => none, fun _ => none, fun _ _ => false, ⟨0o755, 0, 0, 0, 0⟩, [], fun _ => 8191, 0, fun _ => false, 0, fun _ => 4096⟩

inductive Hop where
  | dot
  | dotdot
  | name (name : Name)
  deriving DecidableEq, Repr

def Component.hop : Component → Option Hop
  | .rootDir => none
  | .curDir => some .dot
  | .parentDir => some .dotdot
  | .normal name => some (.name name)

def segmentHop : Text → Option Hop
  | [] => none
  | ['.'] => some .dot
  | ['.', '.'] => some .dotdot
  | name => some (.name name)

/-- The hops of a link target; a trailing separator asks for a directory. -/
def targetHops (target : Text) : List Hop :=
  (target.splitOn '/').filterMap segmentHop ++
    if (target.splitOn '/').getLast? = some [] then [.dot] else []

inductive NewNode where
  | dir
  | file
  | link (target : Text)

def NewNode.node : NewNode → Nat → Node
  | .dir, ino => .dir ino
  | .file, ino => .file ino
  | .link target, ino => .link ino target

@[simp] theorem NewNode.ino_node (new : NewNode) (ino : Nat) : (new.node ino).ino = ino := by
  cases new <;> rfl

structure FileSystem where
  tree : Tree
  inode : Nat → Inode
  data : Nat → List UInt8
  next : Nat
  fresh : ∀ entry ∈ tree.entries, entry.2.ino < next

namespace FileSystem

def allowed (os : Os) (fs : FileSystem) (loc : Loc) (access : Access) : Bool :=
  match fs.tree.find loc with
  | some node => os.may (fs.inode node.ino) access
  | none => false

section Walk
variable (os : Os) (fs : FileSystem)

/-- Walk hops from a directory. `expand` takes over at a link that is followed. -/
def walkWith (expand : Loc → Text → List Hop → Except ErrorKind Loc) (follow : Bool) :
    Loc → List Hop → Except ErrorKind Loc
  | dir, [] => .ok dir
  | dir, hop :: rest =>
      if !fs.allowed os dir .search then .error .permissionDenied
      else match hop with
        | .dot => walkWith expand follow dir rest
        | .dotdot => walkWith expand follow dir.dropLast rest
        | .name name =>
            match fs.tree.find (dir ++ [name]) with
            -- only the last name may be missing: what becomes of it is up to the call
            | none => if rest = [] then .ok (dir ++ [name]) else .error .notFound
            | some (.dir _) => walkWith expand follow (dir ++ [name]) rest
            | some (.file _) => if rest = [] then .ok (dir ++ [name]) else .error .notADirectory
            -- a last link that is not followed stands for itself
            | some (.link _ target) =>
                if rest = [] ∧ follow = false then .ok (dir ++ [name]) else expand dir target rest

def linkStart (dir : Loc) (target : Text) : Loc := if startsWith '/' target then [] else dir

def walk (follow : Bool) : Nat → Loc → List Hop → Except ErrorKind Loc
  | 0 => fs.walkWith os (fun _ _ _ => .error .filesystemLoop) follow
  | budget + 1 => fs.walkWith os
      (fun dir target rest => walk follow budget (linkStart dir target) (targetHops target ++ rest)) follow

def maxSymlinks : Nat := 40

/-- The physical location a path leads to; its last component may be missing. -/
def locate (follow : Bool) (path : PathBuf) : Except ErrorKind Loc :=
  if path.any (fun component => (PathBuf.componentText component).contains '\x00') then .error .invalidInput
  else match os.refused path with
    | some why => .error why
    | none => fs.walk os follow maxSymlinks (if path.isAbsolute then [] else os.cwd) (path.filterMap Component.hop)

end Walk

inductive FileType where
  | dir
  | file
  | link
  deriving DecidableEq, Repr

structure Metadata where
  fileType : FileType
  inode : Inode
  len : Nat
  deriving DecidableEq, Repr

section Status
variable (os : Os) (fs : FileSystem)

def nodeMetadata : Node → Metadata
  | .dir ino => ⟨.dir, fs.inode ino, os.dirLen ino⟩
  | .file ino => ⟨.file, fs.inode ino, (fs.data ino).length⟩
  | .link ino target => ⟨.link, fs.inode ino, utf8Length target⟩

def status (follow : Bool) (path : PathBuf) : Except ErrorKind Metadata := do
  let loc ← fs.locate os follow path
  match fs.tree.find loc with
  | some node => return fs.nodeMetadata os node
  | none => throw .notFound

def metadata (path : PathBuf) : Except ErrorKind Metadata :=
  match os.fault .stat with
  | some why => .error why
  | none => fs.status os true path

def symlinkMetadata (path : PathBuf) : Except ErrorKind Metadata :=
  match os.fault .stat with
  | some why => .error why
  | none => fs.status os false path

def pathExists (path : PathBuf) : Bool := (fs.metadata os path).isOk

def pathIsDir (path : PathBuf) : Bool :=
  match fs.metadata os path with
  | .ok found => found.fileType = .dir
  | .error _ => false

/-- `Path::is_dir`, as a directory scan asks it. -/
def isDirPath (path : PathBuf) : Bool :=
  match fs.status os true path with
  | .ok found => found.fileType = .dir
  | .error _ => false

/-- The length of what `is_file` accepts, and zero for everything else. -/
def fileSize (path : PathBuf) : Nat :=
  match fs.status os true path with
  | .ok found => if found.fileType = .file then found.len else 0
  | .error _ => 0

/-- The names `fs::read_dir` lists, and the directory it opened. -/
def readDir (path : PathBuf) : Except ErrorKind (Nat × List Name) := do
  let loc ← fs.locate os true path
  match fs.tree.find loc with
  | some (.dir ino) =>
      if os.may (fs.inode ino) .read then return (ino, fs.tree.children loc) else throw .permissionDenied
  | some _ => throw .notADirectory
  | none => throw .notFound

/-- The entries that `flatten` leaves of a directory. -/
def scanDir (path : PathBuf) : Except ErrorKind (List Name) := do
  let (_, names) ← fs.readDir os path
  return names.filter fun name => !os.dropped path name

/-- Where a directory inode is, if it is still in the tree. -/
def findDir (ino : Nat) : Option Loc :=
  (fs.tree.entries.find? fun entry => entry.2 = .dir ino).map Prod.fst

/-- `DirEntry::metadata`: the named entry of an open directory, not following links. -/
def entryMetadata (dir : Nat) (name : Name) : Except ErrorKind Metadata :=
  match fs.findDir dir with
  | none => .error .notFound
  | some loc =>
      match fs.tree.find (loc ++ [name]) with
      | some node => .ok (fs.nodeMetadata os node)
      | none => .error .notFound

def canonicalize (path : PathBuf) : Except ErrorKind PathBuf := do
  let loc ← fs.locate os true path
  if fs.tree.find loc = none then throw .notFound else return .ofNames loc

def readLink (path : PathBuf) : Except ErrorKind Text :=
  match os.fault .readlink with
  | some why => .error why
  | none => do
    let loc ← fs.locate os false path
    match fs.tree.find loc with
    | some (.link _ target) => return target
    | some _ => throw .invalidInput
    | none => throw .notFound

end Status

section Update

def touch (fs : FileSystem) (ino : Nat) (now : Int) : FileSystem :=
  { fs with inode := Function.update fs.inode ino { fs.inode ino with mtime := now } }

def touchDir (fs : FileSystem) (loc : Loc) (now : Int) : FileSystem :=
  match fs.tree.find loc with
  | some node => fs.touch node.ino now
  | none => fs

def create (fs : FileSystem) (parent : Loc) (name : Name) (new : NewNode) (created : Inode) : FileSystem where
  tree := fs.tree.insert parent name (new.node fs.next)
  inode := Function.update fs.inode fs.next created
  data := Function.update fs.data fs.next []
  next := fs.next + 1
  fresh := by
    intro entry member
    rcases Tree.mem_insert member with same | member
    · simp [same]
    · exact Nat.lt_succ_of_lt (fs.fresh entry member)

def sweep (fs : FileSystem) (gone : Loc → Bool) : FileSystem :=
  { fs with
    tree := fs.tree.sweep gone
    fresh := fun entry member => fs.fresh entry (List.mem_filter.mp member).1 }

/-- Move an entry onto a free or replaceable target. -/
def moveEntry (fs : FileSystem) (source target : Loc) : FileSystem :=
  match target.getLast? with
  | none => fs
  | some name =>
      -- what is replaced goes first, so that the target is free
      { fs with
        tree := (fs.tree.prune target).move source target.dropLast name
        fresh := by
          intro entry member
          unfold Tree.move at member
          split at member
          · obtain ⟨old, there, same⟩ := List.mem_map.mp member
            rw [← same]
            exact fs.fresh old (List.mem_filter.mp there).1
          · exact fs.fresh entry (List.mem_filter.mp member).1 }

def setData (fs : FileSystem) (ino : Nat) (bytes : List UInt8) : FileSystem :=
  { fs with data := Function.update fs.data ino bytes }

/-- Bytes written at an offset; a gap reads as zeros. -/
def overwrite (old : List UInt8) (offset : Nat) (new : List UInt8) : List UInt8 :=
  old.take offset ++ List.replicate (offset - old.length) 0 ++ new ++ old.drop (offset + new.length)

def resize (old : List UInt8) (size : Nat) : List UInt8 :=
  old.take size ++ List.replicate (size - old.length) 0

end Update

def empty : FileSystem where
  tree := {
    entries := [([], .dir 0)]
    nodup := by decide
    rooted := ⟨0, by decide⟩
    closed := by simp }
  inode := fun _ => ⟨0o755, 0, 0, 0, 0⟩
  data := fun _ => []
  next := 1
  fresh := by simp [Node.ino]

def addFile (fs : FileSystem) (name : Name) (bytes : List UInt8) : FileSystem :=
  (fs.create [] name .file ⟨0o644, 0, 0, 0, 0⟩).setData fs.next bytes

section Calls
variable (os : Os)

def attempt (call : Syscall) : Action FileSystem ErrorKind Unit :=
  match os.fault call with
  | some why => Action.fail why
  | none => pure ()

def locateFor (follow : Bool) (path : PathBuf) : Action FileSystem ErrorKind Loc :=
  Action.query fun fs => fs.locate os follow path

def requireAccess (loc : Loc) (access : Access) : Action FileSystem ErrorKind Unit := do
  Action.check (← Action.read fun fs => fs.allowed os loc access) .permissionDenied

def createAt (loc : Loc) (new : NewNode) : Action FileSystem ErrorKind Unit := do
  Action.check (← Action.read fun fs => decide (fs.tree.find loc = none)) .alreadyExists
  match loc.getLast? with
  | none => Action.fail .alreadyExists
  | some name =>
      requireAccess os loc.dropLast .write
      Action.modify fun fs => (fs.create loc.dropLast name new os.created).touchDir loc.dropLast os.now

def createDir (path : PathBuf) : Action FileSystem ErrorKind Unit := do
  attempt os .mkdir
  createAt os (← locateFor os false path) .dir

/-- A directory that is there makes up for the error of making it. -/
def orIsDir (path : PathBuf) (why : ErrorKind) : Action FileSystem ErrorKind Unit := do
  Action.check (← Action.read fun fs => fs.pathIsDir os path) why

/-- `fs::create_dir_all` on the components of a path, the last one first. -/
def createDirAllRev : List Component → Action FileSystem ErrorKind Unit
  | [] => pure ()
  | last :: above => do
      match ← (createDir os (last :: above).reverse).outcome with
      | .ok () => pure ()
      | .error .notFound =>
          -- the root has no parent to make
          if last = .rootDir then Action.fail .other
          else
            createDirAllRev above
            match ← (createDir os (last :: above).reverse).outcome with
            | .ok () => pure ()
            | .error why => orIsDir os (last :: above).reverse why
      | .error why => orIsDir os (last :: above).reverse why

def createDirAll (path : PathBuf) : Action FileSystem ErrorKind Unit := createDirAllRev os path.reverse

def symlink (target : Text) (path : PathBuf) : Action FileSystem ErrorKind Unit := do
  attempt os .symlink
  Action.check (target ≠ []) .notFound
  Action.check (!target.contains '\x00') .invalidInput
  createAt os (← locateFor os false path) (.link target)

def removeFile (path : PathBuf) : Action FileSystem ErrorKind Unit := do
  attempt os .unlink
  let loc ← locateFor os false path
  match ← Action.read fun fs => fs.tree.find loc with
  | none => Action.fail .notFound
  | some (.dir _) => Action.fail .isADirectory
  | some _ =>
      requireAccess os loc.dropLast .write
      Action.modify fun fs => (fs.sweep fun part => part = loc).touchDir loc.dropLast os.now

def endsInName (path : PathBuf) : Bool :=
  match path.getLast? with
  | some (.normal _) => true
  | _ => false

/-- A directory can be emptied by someone who may list, search and change it. -/
def removable (fs : FileSystem) (loc : Loc) : Bool :=
  fs.tree.entries.all fun entry =>
    if loc <+: entry.1 then
      match entry.2 with
      | .dir ino => os.may (fs.inode ino) .read &&
          (fs.tree.children entry.1 = [] || (os.may (fs.inode ino) .write && os.may (fs.inode ino) .search))
      | _ => true
    else true

/-- What a removal that stops halfway has taken: whole subtrees below the target. -/
def removeSome (loc : Loc) : Action FileSystem ErrorKind Unit :=
  Action.modify fun fs => fs.sweep fun part => loc <+: part && part ≠ loc && os.removed part

/-- Why a directory that is found is not removed. -/
def rmdirRefusal (path : PathBuf) : ErrorKind :=
  match path.getLast? with
  | some (.normal _) => .permissionDenied
  | some .parentDir => .directoryNotEmpty
  | _ => .resourceBusy

/-- All that is below a directory goes, and with it what the directory lists. -/
def emptied (fs : FileSystem) (loc : Loc) : FileSystem :=
  if fs.tree.children loc = [] then fs
  else (fs.sweep fun part => loc <+: part && part ≠ loc).touchDir loc os.now

/-- `fs::remove_dir_all`: a link is unlinked, a directory goes with its content. -/
def removeDirAll (path : PathBuf) : Action FileSystem ErrorKind Unit := do
  let loc ← locateFor os false path
  match ← Action.read fun fs => fs.tree.find loc with
  | none => Action.fail .notFound
  | some (.file _) => Action.fail .notADirectory
  | some (.link _ _) =>
      requireAccess os loc.dropLast .write
      Action.modify fun fs => (fs.sweep fun part => part = loc).touchDir loc.dropLast os.now
  | some (.dir _) =>
      match os.fault .removeDirAll with
      | some why =>
          removeSome os loc
          Action.fail why
      | none =>
          if ← Action.read fun fs => fs.removable os loc then
            -- with its content gone, the path of the directory is walked again
            match ← Action.read fun fs => (emptied os fs loc).locate os false path with
            | .error .notFound =>
                -- it led through the content, and a directory that is not found counts as removed
                Action.modify fun fs => emptied os fs loc
            | .error why =>
                Action.modify fun fs => emptied os fs loc
                Action.fail why
            | .ok _ =>
                -- the kernel does not remove the root
                if ← Action.read fun fs => endsInName path && fs.allowed os loc.dropLast .write then
                  Action.modify fun fs => (fs.sweep fun part => part = loc).touchDir loc.dropLast os.now
                else
                  Action.modify fun fs => emptied os fs loc
                  Action.fail (rmdirRefusal path)
          else
            removeSome os loc
            Action.fail .permissionDenied

/-- Whether a rename has anything to move, or why it is refused. -/
def renameVerdict (fs : FileSystem) (source target : Loc) : Except ErrorKind Bool :=
  match fs.tree.find source with
  | none => .error .notFound
  | some moved =>
      if source = target then .ok false
      else if source <+: target then .error .invalidInput
      else if target <+: source then .error .directoryNotEmpty
      else match moved, fs.tree.find target with
        | _, none => .ok true
        | .dir _, some (.dir _) => if fs.tree.children target = [] then .ok true else .error .directoryNotEmpty
        | .dir _, some _ => .error .notADirectory
        | _, some (.dir _) => .error .isADirectory
        -- two names of one file: nothing to do
        | .file old, some (.file existing) => .ok (old ≠ existing)
        | _, some _ => .ok true

def rename (src dst : PathBuf) : Action FileSystem ErrorKind Unit := do
  attempt os .rename
  Action.check (endsInName src && endsInName dst) .resourceBusy
  let source ← locateFor os false src
  let target ← locateFor os false dst
  if ← Action.query fun fs => fs.renameVerdict source target then
    requireAccess os source.dropLast .write
    requireAccess os target.dropLast .write
    Action.modify fun fs =>
      ((fs.moveEntry source target).touchDir source.dropLast os.now).touchDir target.dropLast os.now

def setPermissions (path : PathBuf) (mode : Nat) : Action FileSystem ErrorKind Unit := do
  attempt os .chmod
  let loc ← locateFor os true path
  match ← Action.read fun fs => fs.tree.find loc with
  | none => Action.fail .notFound
  | some node =>
      requireAccess os loc .own
      Action.modify fun fs =>
        { fs with inode := Function.update fs.inode node.ino { fs.inode node.ino with mode := mode } }

structure OpenOptions where
  read : Bool := false
  write : Bool := false
  append : Bool := false
  create : Bool := false
  truncate : Bool := false
  deriving DecidableEq, Repr

/-- The combinations `OpenOptions::open` accepts before it asks the kernel. -/
def OpenOptions.valid (options : OpenOptions) : Bool :=
  (options.read || options.write || options.append) &&
    if options.append then !options.truncate
    else options.write || !(options.truncate || options.create)

def OpenOptions.writes (options : OpenOptions) : Bool := options.write || options.append

structure OpenFile where
  ino : Nat
  isDir : Bool
  read : Bool
  write : Bool
  append : Bool
  deriving DecidableEq, Repr

def OpenOptions.file (options : OpenOptions) (ino : Nat) (isDir : Bool) : OpenFile :=
  ⟨ino, isDir, options.read, options.writes, options.append⟩

def requireMode (asked : Bool) (ino : Nat) (access : Access) : Action FileSystem ErrorKind Unit := do
  Action.check (← Action.read fun fs => !asked || os.may (fs.inode ino) access) .permissionDenied

def truncateIf (truncate : Bool) (ino : Nat) : Action FileSystem ErrorKind Unit :=
  if truncate then Action.modify fun fs => (fs.setData ino []).touch ino os.now else pure ()

def openFile (options : OpenOptions) (path : PathBuf) : Action FileSystem ErrorKind OpenFile := do
  Action.check options.valid .invalidInput
  attempt os .openat
  let loc ← locateFor os true path
  match ← Action.read fun fs => fs.tree.find loc with
  | some (.dir ino) =>
      Action.check (!(options.writes || options.create)) .isADirectory
      requireAccess os loc .read
      pure (options.file ino true)
  | some (.file ino) =>
      requireMode os options.read ino .read
      requireMode os options.writes ino .write
      truncateIf os options.truncate ino
      pure (options.file ino false)
  | some (.link _ _) => Action.fail .filesystemLoop
  | none =>
      -- the walk has followed every link, so the new file is made where it ended
      Action.check options.create .notFound
      let ino ← Action.read FileSystem.next
      createAt os loc .file
      pure (options.file ino false)

/-- The largest file offset, exclusive. -/
def maxOffset : Nat := 2 ^ 63

def seek (offset : Nat) : Action FileSystem ErrorKind Unit := do
  Action.check (offset < maxOffset) .invalidInput
  attempt os .seek

/-- One read of at most `len` bytes; it is short only as the kernel decides. -/
def readAt (file : OpenFile) (count offset len : Nat) : Action FileSystem ErrorKind (List UInt8) := do
  -- without room for a byte nothing is asked of the kernel
  if len = 0 then pure []
  else
    attempt os .read
    Action.check file.read .other
    Action.check (!file.isDir) .isADirectory
    Action.read fun fs => ((fs.data file.ino).drop offset).take (min len (os.chunk count + 1))

def store (ino start : Nat) (part : List UInt8) : Action FileSystem ErrorKind Unit :=
  if part = [] then pure ()
  else Action.modify fun fs => (fs.setData ino (overwrite (fs.data ino) start part)).touch ino os.now

/-- Write everything, at the end of the file when it was opened to append. -/
def writeAll (file : OpenFile) (offset : Nat) (bytes : List UInt8) : Action FileSystem ErrorKind Unit := do
  if bytes = [] then pure ()
  else
    Action.check file.write .other
    let size ← Action.read fun fs => (fs.data file.ino).length
    let start := if file.append then size else offset
    match if start + bytes.length < maxOffset then os.fault .write else some .fileTooLarge with
    | some why =>
        -- a write that fails may have stored a prefix
        store os file.ino start (bytes.take os.written)
        Action.fail why
    | none => store os file.ino start bytes

def setLen (file : OpenFile) (size : Nat) : Action FileSystem ErrorKind Unit := do
  Action.check (size < maxOffset) .invalidInput
  attempt os .ftruncate
  Action.modify fun fs => (fs.setData file.ino (resize (fs.data file.ino) size)).touch file.ino os.now

end Calls

section ReadOnly
variable {α β : Type}

def ReadOnly (call : Action FileSystem ErrorKind α) : Prop := Action.Moves (fun fs fs' => fs' = fs) call

theorem ReadOnly.bind {first : Action FileSystem ErrorKind α} {next : α → Action FileSystem ErrorKind β}
    (start : ReadOnly first) (finish : ∀ value, ReadOnly (next value)) : ReadOnly (first >>= next) :=
  Action.Still.bind start finish

theorem readOnly_pure (value : α) : ReadOnly (pure value) := Action.still_pure value

theorem readOnly_fail (why : ErrorKind) : ReadOnly (Action.fail why : Action FileSystem ErrorKind α) :=
  Action.still_fail why

theorem readOnly_query (ask : FileSystem → Except ErrorKind α) : ReadOnly (Action.query ask) :=
  Action.still_query ask

theorem readOnly_read (view : FileSystem → α) : ReadOnly (Action.read view) := Action.still_read view

theorem readOnly_check (holds : Bool) (why : ErrorKind) : ReadOnly (Action.check holds why) :=
  Action.still_check holds why

theorem readOnly_attempt (os : Os) (call : Syscall) : ReadOnly (attempt os call) := by
  unfold attempt
  cases os.fault call with
  | none => exact readOnly_pure ()
  | some why => exact readOnly_fail why

theorem readOnly_requireAccess (os : Os) (loc : Loc) (access : Access) : ReadOnly (requireAccess os loc access) :=
  (readOnly_read _).bind fun _ => readOnly_check _ _

theorem readOnly_seek (os : Os) (offset : Nat) : ReadOnly (seek os offset) :=
  (readOnly_check _ _).bind fun _ => readOnly_attempt os .seek

theorem readOnly_readAt (os : Os) (file : OpenFile) (count offset len : Nat) :
    ReadOnly (readAt os file count offset len) := by
  unfold readAt
  split
  · exact readOnly_pure []
  · exact (readOnly_attempt os .read).bind fun _ => (readOnly_check _ _).bind fun _ => (readOnly_check _ _).bind fun _ =>
      readOnly_read _

theorem readOnly_requireMode (os : Os) (asked : Bool) (ino : Nat) (access : Access) :
    ReadOnly (requireMode os asked ino access) :=
  (readOnly_read _).bind fun _ => readOnly_check _ _

/-- Opening neither creates nor truncates unless it is asked to. -/
theorem readOnly_openFile (os : Os) {options : OpenOptions} (keeps : options.create = false)
    (whole : options.truncate = false) (path : PathBuf) : ReadOnly (openFile os options path) := by
  refine (readOnly_check _ _).bind fun _ => (readOnly_attempt os .openat).bind fun _ =>
    (readOnly_query _).bind fun loc => (readOnly_read _).bind fun found => ?_
  split
  · exact (readOnly_check _ _).bind fun _ => (readOnly_requireAccess os _ _).bind fun _ => readOnly_pure _
  · refine (readOnly_requireMode os _ _ _).bind fun _ => (readOnly_requireMode os _ _ _).bind fun _ => ?_
    rw [whole]
    exact (readOnly_pure ()).bind fun _ => readOnly_pure _
  · exact readOnly_fail _
  · rw [keeps]
    exact fun _ => rfl

end ReadOnly

end FileSystem

end Wftpd.Posix
