import Wftpd.Common.FileLogger
import Wftpd.Common.Quota
import Wftpd.Common.SpeedLimiter
import Wftpd.Common.Users
import Wftpd.Library.Runs
import Wftpd.Posix.FileSystem

/-! The storage behind one FTP session: the calls the FTP library makes for a user
who is logged in. His rights are those of the login. The library that speaks the
protocol is outside; its uploads come as the answers of a reader.
-/

set_option autoImplicit false

namespace Wftpd.Ftp
open Wftpd.Posix Wftpd.Common Wftpd.Library

structure WftpdUser where
  username : Text
  home : PathBuf
  permissions : Permissions
  quotaMb : UInt64
  anonymous : Bool
  deriving DecidableEq, Repr

def WftpdUser.new (username : Text) (home : PathBuf) (permissions : Permissions) : WftpdUser where
  username := username
  home := home
  permissions := permissions
  quotaMb := permissions.quotaMb.getD 0
  anonymous := false

def WftpdUser.newAnonymous (home : PathBuf) : WftpdUser where
  username := "anonymous".toList
  home := home
  permissions := .full
  quotaMb := 0
  anonymous := true

inductive StorageError where
  | permanentFileNotAvailable
  | permanentDirectoryNotAvailable
  | fileNameNotAllowedError
  | permissionDenied
  | insufficientStorageSpaceError
  | localError
  deriving DecidableEq, Repr

def ioErr : ErrorKind → StorageError
  | .notFound | .alreadyExists => .permanentFileNotAvailable
  | .permissionDenied => .permissionDenied
  | _ => .localError

/-- `WftpdFilesystem`, with the file system and the audit log. -/
structure WftpdFilesystem where
  root : Option PathBuf
  fs : FileSystem
  log : List FileLogInfo

structure CallEnv where
  os : Os
  loggerFree : Bool
  /-- The text of an operating system error. -/
  describe : ErrorKind → Text
  /-- Transient errors of a directory stream, by the number of the entry. -/
  streamError : Nat → Option ErrorKind

abbrev Served (α : Type) : Type := Action WftpdFilesystem StorageError α

/-- The loop over the components, in `resolve`. -/
def normalizeFrom (root : PathBuf) : PathBuf → PathBuf → Except StorageError PathBuf
  | normalized, [] => .ok normalized
  | normalized, .normal seg :: rest => normalizeFrom root (normalized.push [.normal seg]) rest
  | normalized, .curDir :: rest => normalizeFrom root normalized rest
  | normalized, .parentDir :: rest =>
      if normalized = root then .error .fileNameNotAllowedError else normalizeFrom root normalized.pop rest
  | _, .rootDir :: _ => .error .fileNameNotAllowedError

def resolve (root : Option PathBuf) (path : PathBuf) : Except StorageError PathBuf :=
  match root with
  | none => .error .permanentFileNotAvailable
  | some root => normalizeFrom root root ((path.stripPrefix [.rootDir]).getD path)

def resolvePath (path : Text) : Served PathBuf :=
  Action.query fun state => resolve state.root (components path)

def currentRoot : Served PathBuf :=
  Action.query fun state =>
    match state.root with
    | some root => .ok root
    | none => .error .permanentFileNotAvailable

def sys {α : Type} (call : Action FileSystem ErrorKind α) : Served α :=
  call.zoom WftpdFilesystem.fs (fun state fs => { state with fs := fs }) ioErr

def require (holds : Bool) : Served Unit := Action.check holds .permissionDenied

section Calls
variable (env : CallEnv) (user : WftpdUser)

def audit (op : Text) (path : PathBuf) (size : Nat) (success : Bool) (message : Text) : Served Unit :=
  Action.modify fun state => { state with
    log := logIfFree env.loggerFree {
      username := user.username
      clientIp := "-".toList
      operation := op
      filePath := path.toText
      fileSize := UInt64.ofNat size
      protocol := "FTP".toList
      success := success
      message := message } state.log }

/-- `check_quota`, on whatever path it is given. -/
def checkQuota (home : PathBuf) : Served Unit :=
  Action.query fun state =>
    if user.quotaMb = 0 then .ok ()
    else if min (user.quotaMb.toNat * 2 ^ 20) u64Max ≤ dirSize env.os state.fs home then
      .error .insufficientStorageSpaceError
    else .ok ()

/-- `StorageBackend::enter`: the canonical home becomes the root. -/
def enter : Action WftpdFilesystem ErrorKind Unit := do
  (FileSystem.createDirAll env.os user.home).zoom WftpdFilesystem.fs (fun state fs => { state with fs := fs }) id
  let canon ← Action.query fun state => state.fs.canonicalize env.os user.home
  Action.modify fun state => { state with root := some canon }

def metadata (path : Text) : Served FileSystem.Metadata := do
  let p ← resolvePath path
  sys (Action.query fun fs => fs.symlinkMetadata env.os p)

structure Fileinfo where
  path : PathBuf
  metadata : FileSystem.Metadata
  deriving DecidableEq, Repr

/-- The rest of a directory stream; the first error ends the listing. -/
def listEntries (fs : FileSystem) (dir : Nat) (p : PathBuf) : Nat → List Name → Except ErrorKind (List Fileinfo)
  | taken, [] =>
      match env.streamError taken with
      | some why => .error why
      | none => .ok []
  | taken, name :: rest =>
      match env.streamError taken with
      | some why => .error why
      | none => do
          let md ← fs.entryMetadata env.os dir name
          let others ← listEntries fs dir p (taken + 1) rest
          return ⟨p.join [.normal name], md⟩ :: others

def list (path : Text) : Served (List Fileinfo) := do
  require user.permissions.canList
  let p ← resolvePath path
  let (dir, names) ← sys (Action.query fun fs => fs.readDir env.os p)
  sys (Action.query fun fs => listEntries env fs dir p 0 names)

def openOr (op message : Text) (options : FileSystem.OpenOptions) (p : PathBuf) : Served FileSystem.OpenFile := do
  match ← ((FileSystem.openFile env.os options p).zoom WftpdFilesystem.fs
      (fun state fs => { state with fs := fs }) id).outcome with
  | .ok file => pure file
  | .error why =>
      audit env user op p 0 false (message ++ env.describe why)
      Action.fail (ioErr why)

def seekTo (startPos : UInt64) : Served Unit :=
  if 0 < startPos then sys (FileSystem.seek env.os startPos.toNat) else pure ()

/-- The opened file and the position the library reads on from. -/
def get (path : Text) (startPos : UInt64) : Served (FileSystem.OpenFile × UInt64) := do
  require user.permissions.canRead
  let p ← resolvePath path
  let file ← openOr env user "DOWNLOAD".toList "下载失败: ".toList { read := true } p
  seekTo env startPos
  let size ← Action.read fun state =>
    match env.os.fault .stat with
    | some _ => 0
    | none => (state.fs.nodeMetadata env.os (if file.isDir then .dir file.ino else .file file.ino)).len
  audit env user "DOWNLOAD".toList p size true "文件下载成功".toList
  return (file, startPos)

/-- What an upload's reader answers, piece by piece; an empty piece ends it. -/
abbrev Upload : Type := List (Except ErrorKind (List UInt8))

/-- The copying loop of `put`, from a position in the file: how much was written. -/
def copyFrom (file : FileSystem.OpenFile) : Nat → Nat → Upload → Served Nat
  | _, written, [] => pure written
  | position, written, piece :: rest => do
      let buffer ← Action.lift (piece.mapError ioErr)
      if buffer = [] then pure written
      else
        sys (FileSystem.writeAll env.os file position buffer)
        copyFrom file (position + buffer.length) (written + buffer.length) rest

def createParent (p : PathBuf) : Served Unit :=
  match p.parent with
  | some parent => sys (FileSystem.createDirAll env.os parent)
  | none => pure ()

def put (input : Upload) (path : Text) (startPos : UInt64) : Served Nat := do
  require user.permissions.canWrite
  let p ← resolvePath path
  checkQuota env user p
  createParent env p
  let file ← openOr env user "UPLOAD".toList "上传失败: ".toList
    { write := true, create := true, truncate := startPos = 0 } p
  seekTo env startPos
  let written ← copyFrom env file startPos.toNat 0 input
  sys (FileSystem.attempt env.os .flush)
  let _ ← currentRoot
  audit env user "UPLOAD".toList p written true "文件上传成功".toList
  return written

def del (path : Text) : Served Unit := do
  require user.permissions.canDelete
  let p ← resolvePath path
  sys (FileSystem.removeFile env.os p)
  let _ ← currentRoot
  audit env user "DELETE".toList p 0 true "文件删除成功".toList

def mkd (path : Text) : Served Unit := do
  require user.permissions.canMkdir
  let p ← resolvePath path
  sys (FileSystem.createDir env.os p)
  audit env user "MKDIR".toList p 0 true "目录创建成功".toList

def rename («from» «to» : Text) : Served Unit := do
  require user.permissions.canRename
  let «from» ← resolvePath «from»
  let «to» ← resolvePath «to»
  sys (FileSystem.rename env.os «from» «to»)
  audit env user "RENAME".toList «from» 0 true ("重命名为 ".toList ++ «to».toText)

def rmd (path : Text) : Served Unit := do
  require user.permissions.canRmdir
  let p ← resolvePath path
  sys (FileSystem.removeDirAll env.os p)
  audit env user "RMDIR".toList p 0 true "目录删除成功".toList

def cwd (path : Text) : Served Unit := do
  let p ← resolvePath path
  let md ← sys (Action.query fun fs => fs.metadata env.os p)
  Action.check (md.fileType = .dir) .permanentDirectoryNotAvailable

end Calls

inductive Call where
  | metadata (path : Text)
  | list (path : Text)
  | get (path : Text) (startPos : UInt64)
  | put (input : Upload) (path : Text) (startPos : UInt64)
  | del (path : Text)
  | mkd (path : Text)
  | rename («from» «to» : Text)
  | rmd (path : Text)
  | cwd (path : Text)

inductive Answer where
  | metadata (md : FileSystem.Metadata)
  | files (listed : List Fileinfo)
  | reader (file : FileSystem.OpenFile) (position : UInt64)
  | written (bytes : Nat)
  | done
  deriving DecidableEq, Repr

def handleCall (env : CallEnv) (user : WftpdUser) : Call → Served Answer
  | .metadata path => do return .metadata (← metadata env path)
  | .list path => do return .files (← list env user path)
  | .get path startPos => do
      let (file, position) ← get env user path startPos
      return .reader file position
  | .put input path startPos => do return .written (← put env user input path startPos)
  | .del path => do del env user path; return .done
  | .mkd path => do mkd env user path; return .done
  | .rename «from» «to» => do rename env user «from» «to»; return .done
  | .rmd path => do rmd env user path; return .done
  | .cwd path => do cwd env path; return .done

abbrev CallInput : Type := CallEnv × Call

def callStep (user : WftpdUser) (state : WftpdFilesystem) (input : CallInput) :
    Except StorageError Answer × WftpdFilesystem :=
  handleCall input.1 user input.2 state

section Samples

def permissiveCall : CallEnv := ⟨.permissive, true, fun _ => [], fun _ => none⟩

def rootedAt (root : Loc) (fs : FileSystem) : WftpdFilesystem := ⟨some (.ofNames root), fs, []⟩

def userWith (permissions : Permissions) : WftpdUser := .new "bob".toList [.rootDir] permissions

end Samples

end Wftpd.Ftp
