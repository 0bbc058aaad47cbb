import Wftpd.Library.Runs
import Wftpd.Sftp.Session

/-! The SFTP requests, one handler each, and the session as a machine that
answers them. The digest functions are parameters.
-/

set_option autoImplicit false

namespace Wftpd.Sftp
open Wftpd.Posix Wftpd.Common Wftpd.Library

structure OpenFlags where
  read : Bool := false
  write : Bool := false
  append : Bool := false
  create : Bool := false
  truncate : Bool := false
  exclude : Bool := false
  deriving DecidableEq, Repr

namespace OpenFlags

def wantsWrite (pflags : OpenFlags) : Bool :=
  pflags.write || pflags.append || pflags.truncate || pflags.create

def granted (pflags : OpenFlags) (perms : Permissions) : Bool :=
  if pflags.wantsWrite then
    if pflags.append then perms.canAppend || perms.canWrite else perms.canWrite
  else perms.canRead

def options (pflags : OpenFlags) : FileSystem.OpenOptions where
  read := pflags.read
  write := pflags.write || pflags.append || pflags.create
  append := pflags.append
  create := pflags.create
  truncate := pflags.truncate

end OpenFlags

structure Digests where
  md5 : List UInt8 → List UInt8
  sha256 : List UInt8 → List UInt8

inductive Request where
  | init (version : UInt32) (extensions : List (Text × Text))
  | «open» (id : UInt32) (filename : Text) (pflags : OpenFlags)
  | close (id : UInt32) (handle : Text)
  | read (id : UInt32) (handle : Text) (offset : UInt64) (len : UInt32)
  | write (id : UInt32) (handle : Text) (offset : UInt64) (data : List UInt8)
  | lstat (id : UInt32) (path : Text)
  | fstat (id : UInt32) (handle : Text)
  | setstat (id : UInt32) (path : Text) (attrs : FileAttributes)
  | fsetstat (id : UInt32) (handle : Text) (attrs : FileAttributes)
  | opendir (id : UInt32) (path : Text)
  | readdir (id : UInt32) (handle : Text)
  | remove (id : UInt32) (filename : Text)
  | mkdir (id : UInt32) (path : Text)
  | rmdir (id : UInt32) (path : Text)
  | realpath (id : UInt32) (path : Text)
  | stat (id : UInt32) (path : Text)
  | rename (id : UInt32) (oldpath newpath : Text)
  | readlink (id : UInt32) (path : Text)
  | symlink (id : UInt32) (linkpath targetpath : Text)
  | extended (id : UInt32) (request : Text) (data : List UInt8)
  deriving DecidableEq, Repr

section Files
variable (env : RequestEnv)

def init : Handled Reply :=
  pure (.version sftpVersion [("md5sum@openssh.com".toList, "1".toList), ("sha256sum@openssh.com".toList, "1".toList),
    ("space-available@openssh.com".toList, "1".toList)])

def «open» (id : UInt32) (filename : Text) (pflags : OpenFlags) : Handled Reply := do
  requireAudited env pflags.granted "OPEN".toList filename
  Action.query fun session => if !pflags.wantsWrite || session.quotaOk env 0 then .ok () else .error .failure
  let path ← resolvePath filename
  let file ← sys (FileSystem.openFile env.os pflags.options path)
  let handle ← insertHandle (.file ⟨file, pflags.wantsWrite⟩)
  return .handle id handle

def close (id : UInt32) (handle : Text) : Handled Reply := do
  Action.query fun session => if (session.handles.lookup handle).isSome then .ok () else .error .noSuchFile
  Action.modify fun session => { session with handles := session.handles.erase handle }
  return .status id .ok

def read (id : UInt32) (handle : Text) (offset : UInt64) (len : UInt32) : Handled Reply := do
  let f ← fileHandle handle
  sys (FileSystem.seek env.os offset.toNat)
  let buf ← sys (FileSystem.readAt env.os f.file 0 offset.toNat (min len maxReadLen).toNat)
  Action.check (buf ≠ []) .eof
  throttle env buf.length
  return .data id buf

/-- The quota check a WRITE starts with. -/
def writeCheck (data : List UInt8) : Handled Unit := do
  if ← Action.read fun session => session.quotaOk env data.length then pure ()
  else
    audit env "WRITE".toList [] data.length false "配额超限".toList
    Action.fail .failure

def writeData (id : UInt32) (handle : Text) (offset : UInt64) (data : List UInt8) : Handled Reply := do
  let f ← fileHandle handle
  sys (FileSystem.seek env.os offset.toNat)
  sys (FileSystem.writeAll env.os f.file offset.toNat data)
  sys (FileSystem.attempt env.os .flush)
  throttle env data.length
  return .status id .ok

def write (id : UInt32) (handle : Text) (offset : UInt64) (data : List UInt8) : Handled Reply := do
  writeCheck env data
  writeData env id handle offset data

end Files

section Attributes
variable (env : RequestEnv)

def lstat (id : UInt32) (path : Text) : Handled Reply := do
  requirePermission env Permissions.canList
  let resolved ← resolvePath path
  let attrs ← symlinkAttrs env resolved
  return .attrs id attrs

def openMetadata (fs : FileSystem) (file : FileSystem.OpenFile) : FileSystem.Metadata :=
  fs.nodeMetadata env.os (if file.isDir then .dir file.ino else .file file.ino)

def fstat (id : UInt32) (handle : Text) : Handled Reply := do
  let f ← fileHandle handle
  sys (FileSystem.attempt env.os .stat)
  let attrs ← Action.read fun session => attrsFrom (openMetadata env session.fs f.file)
  return .attrs id attrs

def setMode (resolved : PathBuf) : Option UInt32 → Handled Unit
  | none => pure ()
  | some permissions => sys (FileSystem.setPermissions env.os resolved (permissions &&& 0o7777).toNat)

/-- A size is set through a file opened for writing; no quota is asked. -/
def setSize (resolved : PathBuf) : Option UInt64 → Handled Unit
  | none => pure ()
  | some size => do
      let f ← sys (FileSystem.openFile env.os { write := true } resolved)
      sys (FileSystem.setLen env.os f size.toNat)

def setstat (id : UInt32) (path : Text) (attrs : FileAttributes) : Handled Reply := do
  requirePermission env Permissions.canWrite
  let resolved ← resolvePath path
  setMode env resolved attrs.permissions
  setSize env resolved attrs.size
  audit env "SETSTAT".toList resolved.toText 0 true "设置属性成功".toList
  return .status id .ok

end Attributes

section Directories
variable (env : RequestEnv)

def opendir (id : UInt32) (path : Text) : Handled Reply := do
  requirePermission env Permissions.canList
  let resolved ← resolvePath path
  let (ino, names) ← sys (Action.query fun fs => fs.readDir env.os resolved)
  let handle ← insertHandle (.dir ⟨ino, names⟩)
  return .handle id handle

/-- The entries one READDIR answers with at most. -/
def batch : Nat := 100

/-- Take entries from the stream, up to a count, an error or the end: what was
taken and what is left. -/
def takeEntries (streamError : Nat → Option ErrorKind) : Nat → Nat → List Name →
    Except ErrorKind (List Name) × List Name
  | 0, _, pending => (.ok [], pending)
  | more + 1, taken, pending =>
      match streamError taken with
      | some why => (.error why, pending)
      | none =>
          match pending with
          | [] => (.ok [], [])
          | name :: rest =>
              let (entries, left) := takeEntries streamError more (taken + 1) rest
              (entries.map (name :: ·), left)

def listEntry (fs : FileSystem) (dir : Nat) (name : Name) : File where
  filename := name
  attrs :=
    match fs.entryMetadata env.os dir name with
    | .ok metadata => some (attrsFrom metadata)
    | .error _ => none

/-- Read on in a directory stream. Entries read before an error are not kept. -/
def nextEntries (handle : Text) (dir : DirHandle) : Handled (List Name) := do
  let (entries, left) := takeEntries env.streamError batch 0 dir.pending
  Action.modify fun session => { session with
    handles := session.handles.insert handle (.dir { dir with pending := left }) }
  Action.lift (entries.mapError ioStatus)

def readdir (id : UInt32) (handle : Text) : Handled Reply := do
  let dir ← dirHandle handle
  let entries ← nextEntries env handle dir
  Action.check (entries ≠ []) .eof
  let files ← Action.read fun session => entries.map (listEntry env session.fs dir.ino)
  return .name id files

end Directories

section Entries
variable (env : RequestEnv)

def remove (id : UInt32) (filename : Text) : Handled Reply := do
  requireAudited env Permissions.canDelete "DELETE".toList filename
  let resolved ← resolvePath filename
  let size ← Action.read fun session =>
    match session.fs.metadata env.os resolved with
    | .ok metadata => metadata.len
    | .error _ => 0
  sys (FileSystem.removeFile env.os resolved)
  audit env "DELETE".toList resolved.toText size true "文件删除成功".toList
  return .status id .ok

def mkdir (id : UInt32) (path : Text) : Handled Reply := do
  requireAudited env Permissions.canMkdir "MKDIR".toList path
  let resolved ← resolvePath path
  sys (FileSystem.createDir env.os resolved)
  audit env "MKDIR".toList resolved.toText 0 true "目录创建成功".toList
  return .status id .ok

def rmdir (id : UInt32) (path : Text) : Handled Reply := do
  requireAudited env Permissions.canRmdir "RMDIR".toList path
  let resolved ← resolvePath path
  sys (FileSystem.removeDirAll env.os resolved)
  audit env "RMDIR".toList resolved.toText 0 true "目录删除成功".toList
  return .status id .ok

/-- The text of the location that `resolve` accepts a request for. What follows the real home in the request
stands as it was sent. -/
def resolvedText (homeDir path : Text) (resolved : PathBuf) : Text :=
  let stripped := trim path
  PathBuf.pushText homeDir
    (if startsWith '/' stripped ∧ trimStartMatches '/' stripped ≠ [] ∧ components homeDir <+: components stripped then
      PathBuf.textBehind (components homeDir).length stripped
    else PathBuf.toText (resolved.drop (components homeDir).length))

/-- The path a client sees for a location: its home is the root. -/
def virtualPath (home resolved : PathBuf) (text : Text) : Text :=
  match resolved.stripPrefix home with
  | none => "/".toList
  | some _ =>
      match PathBuf.textBehind home.length text with
      | [] => "/".toList
      | within => '/' :: within

def realpath (id : UInt32) (path : Text) : Handled Reply := do
  let resolved ← resolvePath path
  let virtual ← Action.read fun session =>
    let homeCanon := match session.fs.canonicalize env.os session.home with
      | .ok canonical => canonical
      | .error _ => session.home
    virtualPath homeCanon resolved (resolvedText session.homeDir path resolved)
  return .name id [⟨virtual, none⟩]

def stat (id : UInt32) (path : Text) : Handled Reply := do
  requirePermission env Permissions.canList
  let resolved ← resolvePath path
  let attrs ← statAttrs env resolved
  return .attrs id attrs

def arrow (source target : Text) : Text := source ++ " -> ".toList ++ target

def requireAbsent (path : PathBuf) : Handled Unit :=
  Action.query fun session => if session.fs.pathExists env.os path then .error .failure else .ok ()

def rename (id : UInt32) (oldpath newpath : Text) : Handled Reply := do
  requireAudited env Permissions.canRename "RENAME".toList (arrow oldpath newpath)
  let «from» ← resolvePath oldpath
  let «to» ← resolvePath newpath
  requireAbsent env «to»
  sys (FileSystem.rename env.os «from» «to»)
  audit env "RENAME".toList (arrow «from».toText «to».toText) 0 true "文件重命名成功".toList
  return .status id .ok

end Entries

section Links
variable (env : RequestEnv)

def readlink (id : UInt32) (path : Text) : Handled Reply := do
  let resolved ← resolvePath path
  let target ← sys (Action.query fun fs => fs.readLink env.os resolved)
  return .name id [⟨target, none⟩]

/-- The check of a link target: an absolute one is resolved like a request path, a
relative one from the directory that holds the link. -/
def checkTarget (homeDir : Text) (link : PathBuf) (targetRaw : Text) : Except StatusCode PathBuf :=
  if startsWith '/' targetRaw then resolve homeDir targetRaw
  else
    let linkDir := link.parent.getD (components homeDir)
    normalize (components homeDir) .permissionDenied (linkDir.join (components targetRaw))

/-- Clients send the target first, so `linkpath` is the target. -/
def symlink (id : UInt32) (linkpath targetpath : Text) : Handled Reply := do
  requirePermission env Permissions.canWrite
  let link ← resolvePath targetpath
  let _ ← Action.query fun session => checkTarget session.homeDir link linkpath
  requireAbsent env link
  sys (FileSystem.symlink env.os linkpath link)
  audit env "SYMLINK".toList (arrow link.toText linkpath) 0 true "符号链接创建成功".toList
  return .status id .ok

end Links

section Extensions
variable (digests : Digests) (env : RequestEnv)

def readBe (data : List UInt8) (pos width : Nat) : Option Nat :=
  if pos + width ≤ data.length then
    some (((data.drop pos).take width).foldl (fun sum byte => sum * 256 + byte.toNat) 0)
  else none

def readPath (data : List UInt8) : Option (Text × Nat) := do
  let pathLen ← readBe data 0 4
  if 4 + pathLen ≤ data.length then
    let path ← decodeUtf8 ((data.drop 4).take pathLen)
    return (path, 4 + pathLen)
  else none

/-- `parse_digest_request`: path, offset and length, the last two zero when short. -/
def parseDigestRequest (data : List UInt8) : Option (Text × Nat × Nat) := do
  let (path, pos) ← readPath data
  return (path, (readBe data pos 8).getD 0, (readBe data (pos + 8) 8).getD 0)

def digestChunk : Nat := 8192

/-- The reading loop of `digest_file`: everything fed to the hash. A remaining
length of zero reads to the end. -/
def digestRead (file : FileSystem.OpenFile) : Nat → Nat → Nat → Nat → List UInt8 →
    Action FileSystem ErrorKind (List UInt8)
  | 0, _, _, _, fed => pure fed
  | fuel + 1, count, pos, remaining, fed => do
      let want := if remaining = 0 then digestChunk else min digestChunk remaining
      let piece ← FileSystem.readAt env.os file count pos want
      if piece = [] then pure fed
      else if 0 < remaining ∧ remaining - piece.length = 0 then pure (fed ++ piece)
      else digestRead file fuel (count + 1) (pos + piece.length) (remaining - piece.length) (fed ++ piece)

def hexEncode (bytes : List UInt8) : List UInt8 :=
  bytes.flatMap fun byte => [byte / 16, byte % 16].map fun nibble =>
    UInt8.ofNat (Nat.digitChar nibble.toNat).toNat

/-- `digest_file`: every piece is non-empty, so one step more than there are bytes
is enough. -/
def digestFile (hash : List UInt8 → List UInt8) (path : PathBuf) (offset length : Nat) :
    Action FileSystem ErrorKind (List UInt8) := do
  let file ← FileSystem.openFile env.os { read := true } path
  FileSystem.seek env.os offset
  let fuel ← Action.read fun fs => (fs.data file.ino).length + 1
  let fed ← digestRead env file fuel 0 offset length []
  return hexEncode (hash fed)

def extendedDigest (hash : List UInt8 → List UInt8) (id : UInt32) (data : List UInt8) : Handled Reply := do
  match parseDigestRequest data with
  | none => Action.fail .badMessage
  | some (path, offset, length) =>
      let resolved ← resolvePath path
      let payload ← sys (digestFile env hash resolved offset length)
      return .extendedReply id payload

def beBytes (value : UInt64) : List UInt8 :=
  (List.range 8).map fun byte => (value >>> UInt64.ofNat (56 - 8 * byte)).toUInt8

def statVfsOf (path : PathBuf) (fs : FileSystem) : Except ErrorKind StatVfs := do
  let loc ← fs.locate env.os true path
  if fs.tree.find loc = none then throw .notFound else return env.statVfs loc

def spacePayload (stats : StatVfs) : List UInt8 :=
  [stats.blockSize, stats.fragmentSize, stats.blocks, stats.blocksFree, stats.blocksAvailable, stats.files,
    stats.filesFree, stats.filesAvailable, 0, 0, stats.nameMax].flatMap beBytes

def extendedSpaceAvailable (id : UInt32) (data : List UInt8) : Handled Reply := do
  match readPath data with
  | none => Action.fail .badMessage
  | some (path, _) =>
      let resolved ← resolvePath path
      let stats ← Action.query fun session => (statVfsOf env resolved session.fs).mapError fun _ => .failure
      return .extendedReply id (spacePayload stats)

def extended (id : UInt32) (request : Text) (data : List UInt8) : Handled Reply :=
  if request = "md5sum@openssh.com".toList then extendedDigest env digests.md5 id data
  else if request = "sha256sum@openssh.com".toList then extendedDigest env digests.sha256 id data
  else if request = "space-available@openssh.com".toList then extendedSpaceAvailable env id data
  else Action.fail .opUnsupported

end Extensions

/-- The handler of each request. FSETSTAT has none. -/
def handleRequest (digests : Digests) (env : RequestEnv) : Request → Handled Reply
  | .init _ _ => init
  | .open id filename pflags => «open» env id filename pflags
  | .close id handle => close id handle
  | .read id handle offset len => read env id handle offset len
  | .write id handle offset data => write env id handle offset data
  | .lstat id path => lstat env id path
  | .fstat id handle => fstat env id handle
  | .setstat id path attrs => setstat env id path attrs
  | .fsetstat _ _ _ => Action.fail .opUnsupported
  | .opendir id path => opendir env id path
  | .readdir id handle => readdir env id handle
  | .remove id filename => remove env id filename
  | .mkdir id path => mkdir env id path
  | .rmdir id path => rmdir env id path
  | .realpath id path => realpath env id path
  | .stat id path => stat env id path
  | .rename id oldpath newpath => rename env id oldpath newpath
  | .readlink id path => readlink env id path
  | .symlink id linkpath targetpath => symlink env id linkpath targetpath
  | .extended id request data => extended digests env id request data

abbrev Input : Type := RequestEnv × Request

def sessionStep (digests : Digests) (session : Session) (input : Input) : Except StatusCode Reply × Session :=
  handleRequest digests input.1 input.2 session

def noDigests : Digests := ⟨id, id⟩

end Wftpd.Sftp
