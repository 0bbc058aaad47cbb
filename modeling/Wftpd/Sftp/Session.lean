import Wftpd.Common.FileLogger
import Wftpd.Common.Quota
import Wftpd.Common.SpeedLimiter
import Wftpd.Common.Users
import Wftpd.Sftp.Resolve

/-! The state of one SFTP session and the tools its requests share.

The file system is the one the session sees; the user store, the clock and the
kernel's decisions come with each request. Usage figures are computed afresh for
every check, so the cache that only records them is left out.
-/

set_option autoImplicit false

namespace Wftpd.Sftp
open Wftpd.Posix Wftpd.Common Wftpd.Library

def sftpVersion : UInt32 := 3

def maxReadLen : UInt32 := 256 * 1024

structure FileHandle where
  file : FileSystem.OpenFile
  writable : Bool
  deriving DecidableEq, Repr

/-- A directory stream: the open directory and the names not yet listed. -/
structure DirHandle where
  ino : Nat
  pending : List Name
  deriving DecidableEq, Repr

inductive OpenEntry where
  | file (handle : FileHandle)
  | dir (handle : DirHandle)
  deriving DecidableEq, Repr

/-- `SftpFileHandler`, with the file system and the audit log. -/
structure Session where
  username : Text
  homeDir : Text
  clientIp : Text
  handles : AList fun _ : Text => OpenEntry
  nextHandle : UInt64
  speedLimiter : Option SpeedLimiter
  fs : FileSystem
  log : List FileLogInfo

structure FileAttributes where
  size : Option UInt64
  uid : Option UInt32
  gid : Option UInt32
  permissions : Option UInt32
  atime : Option UInt32
  mtime : Option UInt32
  deriving DecidableEq, Repr

/-- A listed file; without attributes when they are the dummy ones. -/
structure File where
  filename : Text
  attrs : Option FileAttributes
  deriving DecidableEq, Repr

inductive Reply where
  | version (version : UInt32) (extensions : List (Text × Text))
  | handle (id : UInt32) (handle : Text)
  | status (id : UInt32) (code : StatusCode)
  | data (id : UInt32) (data : List UInt8)
  | attrs (id : UInt32) (attrs : FileAttributes)
  | name (id : UInt32) (files : List File)
  | extendedReply (id : UInt32) (data : List UInt8)
  deriving DecidableEq, Repr

structure StatVfs where
  blockSize : UInt64
  fragmentSize : UInt64
  blocks : UInt64
  blocksFree : UInt64
  blocksAvailable : UInt64
  files : UInt64
  filesFree : UInt64
  filesAvailable : UInt64
  nameMax : UInt64
  deriving DecidableEq, Repr

structure RequestEnv where
  os : Os
  users : UserManager
  loggerFree : Bool
  /-- Nanoseconds of the monotonic clock. -/
  clock : Nat
  statVfs : Loc → StatVfs
  /-- Transient errors of a directory stream, by the number of the entry. -/
  streamError : Nat → Option ErrorKind

abbrev Handled (α : Type) : Type := Action Session StatusCode α

def Session.new (username homeDir clientIp : Text) (users : UserManager) (now : Nat) (fs : FileSystem)
    (log : List FileLogInfo) : Session where
  username := username
  homeDir := homeDir
  clientIp := clientIp
  handles := ∅
  nextHandle := 1
  speedLimiter :=
    (((users.getUser username).bind fun user => user.permissions.speedLimitKbps).filter (0 < ·)).map
      (SpeedLimiter.new now)
  fs := fs
  log := log

def ioStatus : ErrorKind → StatusCode
  | .notFound => .noSuchFile
  | .permissionDenied => .permissionDenied
  | _ => .failure

/-- The rights of a user by the store of this moment; none for an unknown user. -/
def RequestEnv.permissionsOf (env : RequestEnv) (username : Text) : Permissions :=
  ((env.users.getUser username).map User.permissions).getD .default

def Session.permissions (session : Session) (env : RequestEnv) : Permissions :=
  env.permissionsOf session.username

def Session.home (session : Session) : PathBuf := components session.homeDir

def sys {α : Type} (call : Action FileSystem ErrorKind α) : Handled α :=
  call.zoom Session.fs (fun session fs => { session with fs := fs }) ioStatus

def resolvePath (path : Text) : Handled PathBuf :=
  Action.query fun session => resolve session.homeDir path

def audit (env : RequestEnv) (operation filePath : Text) (fileSize : Nat) (success : Bool) (message : Text) :
    Handled Unit :=
  Action.modify fun session => { session with
    log := logIfFree env.loggerFree {
      username := session.username
      clientIp := session.clientIp
      operation := operation
      filePath := filePath
      fileSize := UInt64.ofNat fileSize
      protocol := "SFTP".toList
      success := success
      message := message } session.log }

def requirePermission (env : RequestEnv) (granted : Permissions → Bool) : Handled Unit :=
  Action.query fun session => if granted (session.permissions env) then .ok () else .error .permissionDenied

/-- A missing right that is also recorded. -/
def requireAudited (env : RequestEnv) (granted : Permissions → Bool) (operation filePath : Text) : Handled Unit := do
  if ← Action.read fun session => granted (session.permissions env) then pure ()
  else
    audit env operation filePath 0 false "权限拒绝".toList
    Action.fail .permissionDenied

def handleText (id : UInt64) : Text := 'h' :: Nat.toDigits 16 id.toNat

/-- `next_handle_id`: the first counter value whose text is not in use. One among
more values than there are handles is free. -/
def nextHandleId : Handled Text := fun session =>
  let tries := List.range (session.handles.entries.length + 1)
  let skipped := (tries.find? fun skip =>
    (session.handles.lookup (handleText (session.nextHandle + UInt64.ofNat skip))).isNone).getD 0
  let id := session.nextHandle + UInt64.ofNat skipped
  (.ok (handleText id), { session with nextHandle := id + 1 })

def insertHandle (entry : OpenEntry) : Handled Text := do
  let handle ← nextHandleId
  Action.modify fun session => { session with handles := session.handles.insert handle entry }
  return handle

def fileHandle (handle : Text) : Handled FileHandle :=
  Action.query fun session =>
    match session.handles.lookup handle with
    | some (.file file) => .ok file
    | _ => .error .noSuchFile

def dirHandle (handle : Text) : Handled DirHandle :=
  Action.query fun session =>
    match session.handles.lookup handle with
    | some (.dir dir) => .ok dir
    | _ => .error .noSuchFile

/-- The bytes of a quota of so many megabytes, saturating at 64 bits. -/
def quotaBytes (limitMb : UInt64) : Nat := min (limitMb.toNat * 2 ^ 20) u64Max

def Session.quotaOk (session : Session) (env : RequestEnv) (additional : Nat) : Bool :=
  if additional = 0 then true
  else match (session.permissions env).quotaMb.filter (0 < ·) with
    | none => true
    | some limit => min (dirSize env.os session.fs session.home + additional) u64Max ≤ quotaBytes limit

def throttle (env : RequestEnv) (bytes : Nat) : Handled Unit :=
  Action.modify fun session => { session with
    speedLimiter := session.speedLimiter.map fun limiter => (limiter.throttle env.clock bytes).1 }

def typeBits : FileSystem.FileType → Nat
  | .dir => 0o040000
  | .file => 0o100000
  | .link => 0o120000

def clampTime (seconds : Int) : UInt32 := UInt32.ofNat (min (max seconds 0).toNat (2 ^ 32 - 1))

def attrsFrom (metadata : FileSystem.Metadata) : FileAttributes where
  size := some (UInt64.ofNat metadata.len)
  uid := some (UInt32.ofNat metadata.inode.uid)
  gid := some (UInt32.ofNat metadata.inode.gid)
  permissions := some (UInt32.ofNat (typeBits metadata.fileType ||| metadata.inode.mode))
  atime := some (clampTime metadata.inode.atime)
  mtime := some (clampTime metadata.inode.mtime)

/-- Any error of a path query is reported as a missing file. -/
def orNoSuchFile {α : Type} : Except ErrorKind α → Except StatusCode α
  | .ok value => .ok value
  | .error _ => .error .noSuchFile

def statAttrs (env : RequestEnv) (path : PathBuf) : Handled FileAttributes :=
  Action.query fun session => (orNoSuchFile (session.fs.metadata env.os path)).map attrsFrom

def symlinkAttrs (env : RequestEnv) (path : PathBuf) : Handled FileAttributes :=
  Action.query fun session => (orNoSuchFile (session.fs.symlinkMetadata env.os path)).map attrsFrom

section Samples

def usersWith (permissions : Permissions) : UserManager :=
  ⟨AList.singleton "ann".toList ⟨"ann".toList, "hash".toList, "/".toList, permissions, 0, none, true, false⟩⟩

def permissiveEnv (permissions : Permissions) : RequestEnv :=
  ⟨.permissive, usersWith permissions, true, 0, fun _ => ⟨0, 0, 0, 0, 0, 0, 0, 0, 0⟩, fun _ => none⟩

def sessionAt (fs : FileSystem) : Session :=
  .new "ann".toList "/".toList "10.0.0.1".toList (usersWith .default) 0 fs []

end Samples

end Wftpd.Sftp
