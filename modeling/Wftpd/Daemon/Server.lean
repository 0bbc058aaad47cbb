import Wftpd.Ftp.Confined
import Wftpd.Sftp.Confined

/-! The daemon as its clients see it.

FTP logins and SFTP sessions come and go; they share one file system and one audit log,
and each has a home. A request is served as a whole before the next one.
-/

set_option autoImplicit false

namespace Wftpd.Daemon
open Wftpd.Posix Wftpd.Posix.FileSystem Wftpd.Common Wftpd.Library Wftpd.Ftp Wftpd.Sftp

inductive Client where
  | ftp (who : Nat)
  | sftp (who : Nat)
  deriving DecidableEq, Repr

/-- An FTP login: its user, and the root that `enter` has set. -/
structure FtpLogin where
  user : WftpdUser
  root : Option PathBuf

structure Server where
  fs : FileSystem
  log : List FileLogInfo
  logins : Nat → Option FtpLogin
  sessions : Nat → Option Session

inductive ServerInput where
  | enter (who : Nat) (env : CallEnv) (user : WftpdUser)
  | call (who : Nat) (input : CallInput)
  | start (who : Nat) (username homeDir clientIp : Text) (users : UserManager) (now : Nat)
  | request (who : Nat) (input : Input)

inductive ServerAnswer where
  | entered (result : Except ErrorKind Unit)
  | called (result : Except StorageError Ftp.Answer)
  | started
  | replied (result : Except StatusCode Reply)
  /-- There is no such client. -/
  | none

def ServerInput.client : ServerInput → Client
  | .enter who _ _ | .call who _ => .ftp who
  | .start who _ _ _ _ _ | .request who _ => .sftp who

namespace Server

def idle (fs : FileSystem) (log : List FileLogInfo) : Server := ⟨fs, log, fun _ => none, fun _ => none⟩

def storage (server : Server) (root : Option PathBuf) : WftpdFilesystem := ⟨root, server.fs, server.log⟩

def view (server : Server) (session : Session) : Session := { session with fs := server.fs, log := server.log }

def putLogin (server : Server) (who : Nat) (login : Option FtpLogin) (after : WftpdFilesystem) : Server :=
  { server with fs := after.fs, log := after.log, logins := Function.update server.logins who login }

def putSession (server : Server) (who : Nat) (after : Session) : Server :=
  { server with fs := after.fs, log := after.log, sessions := Function.update server.sessions who (some after) }

end Server

open Server in
def serverStep (digests : Digests) (server : Server) : ServerInput → ServerAnswer × Server
  | .enter who env user =>
      match enter env user (server.storage none) with
      | (.ok (), after) => (.entered (.ok ()), server.putLogin who (some ⟨user, after.root⟩) after)
      | (.error why, after) => (.entered (.error why), server.putLogin who none after)
  | .call who input =>
      match server.logins who with
      | none => (.none, server)
      | some login =>
          let (result, after) := callStep login.user (server.storage login.root) input
          (.called result, server.putLogin who (some { login with root := after.root }) after)
  | .start who username homeDir clientIp users now =>
      (.started, server.putSession who (.new username homeDir clientIp users now server.fs server.log))
  | .request who input =>
      match server.sessions who with
      | none => (.none, server)
      | some session =>
          let (result, after) := sessionStep digests (server.view session) input
          (.replied result, server.putSession who after)

section Acts

inductive Acts (digests : Digests) (server : Server) : ServerInput → Server → Prop where
  | absent {input : ServerInput} : Acts digests server input server
  | entered {who : Nat} {env : CallEnv} {user : WftpdUser} {after : WftpdFilesystem}
      (ran : enter env user (server.storage none) = (.ok (), after)) :
      Acts digests server (.enter who env user) (server.putLogin who (some ⟨user, after.root⟩) after)
  | refused {who : Nat} {env : CallEnv} {user : WftpdUser} {after : WftpdFilesystem} {why : ErrorKind}
      (ran : enter env user (server.storage none) = (.error why, after)) :
      Acts digests server (.enter who env user) (server.putLogin who none after)
  | called {who : Nat} {input : CallInput} {login : FtpLogin} {after : WftpdFilesystem}
      (found : server.logins who = some login)
      (ran : (callStep login.user (server.storage login.root) input).2 = after) :
      Acts digests server (.call who input) (server.putLogin who (some { login with root := after.root }) after)
  | started {who : Nat} {username homeDir clientIp : Text} {users : UserManager} {now : Nat} :
      Acts digests server (.start who username homeDir clientIp users now)
        (server.putSession who (.new username homeDir clientIp users now server.fs server.log))
  | replied {who : Nat} {input : Input} {session after : Session} (found : server.sessions who = some session)
      (ran : (sessionStep digests (server.view session) input).2 = after) :
      Acts digests server (.request who input) (server.putSession who after)

theorem serverStep_acts (digests : Digests) (server : Server) (input : ServerInput) :
    Acts digests server input (serverStep digests server input).2 := by
  cases input with
  | enter who env user =>
      cases ran : enter env user (server.storage none) with
      | mk result after =>
          cases result with
          | error why =>
              simp only [serverStep, ran]
              exact .refused ran
          | ok done =>
              simp only [serverStep, ran]
              exact .entered ran
  | call who input =>
      cases found : server.logins who with
      | none =>
          simp only [serverStep, found]
          exact .absent
      | some login =>
          simp only [serverStep, found]
          exact .called found rfl
  | start who username homeDir clientIp users now => exact .started
  | request who input =>
      cases found : server.sessions who with
      | none =>
          simp only [serverStep, found]
          exact .absent
      | some session =>
          simp only [serverStep, found]
          exact .replied found rfl

end Acts

section Isolation
variable (homes : Client → Loc)

/-- Clients log in to their homes, and the requests of SFTP sessions stay below them. -/
def Fits (server : Server) : ServerInput → Prop
  | .enter who _ user => user.home = .ofNames (homes (.ftp who))
  | .call _ _ => True
  | .start who _ homeDir _ _ _ => IsHome homeDir ∧ components homeDir = .ofNames (homes (.sftp who))
  | .request who input => ∀ session, server.sessions who = some session → StaysBelow session input.2

def HomesApart : Prop := ∀ first second, homes first = homes second ∨ Apart (homes second) (homes first)

structure Separate (server : Server) : Prop where
  fenced : ∀ client, Fenced (homes client) server.fs
  roots : ∀ who login, server.logins who = some login → login.root = some (.ofNames (homes (.ftp who)))
  homed : ∀ who session, server.sessions who = some session → HomedAt (homes (.sftp who)) session
  owns : ∀ who session, server.sessions who = some session →
    OwnsHandles (homes (.sftp who)) (server.view session)

variable {homes} {server : Server}

theorem Separate.idle {fs : FileSystem} (fenced : ∀ client, Fenced (homes client) fs) (log : List FileLogInfo) :
    Separate homes (.idle fs log) where
  fenced := fenced
  roots _ _ found := by cases found
  homed _ _ found := by cases found
  owns _ _ found := by cases found

theorem Separate.fenced_after (separate : Separate homes server) (disjoint : HomesApart homes) {actor : Client}
    {fs : FileSystem} (within : Within (homes actor) server.fs fs) (client : Client) : Fenced (homes client) fs :=
  within.fenced (disjoint client actor) (separate.fenced client)

theorem Separate.putLogin (separate : Separate homes server) (disjoint : HomesApart homes) {who : Nat}
    {after : WftpdFilesystem} (within : Within (homes (.ftp who)) server.fs after.fs) {login : Option FtpLogin}
    (rooted : ∀ kept, login = some kept → kept.root = some (.ofNames (homes (.ftp who)))) :
    Separate homes (server.putLogin who login after) where
  fenced := separate.fenced_after disjoint within
  roots other kept found := by
    by_cases same : other = who
    · subst other
      exact rooted kept (by simpa [Server.putLogin] using found)
    · exact separate.roots other kept (by simpa [Server.putLogin, same] using found)
  homed := separate.homed
  owns who' session found handle f opened writes :=
    within.owns (disjoint (.sftp who') (.ftp who)) (separate.owns who' session found handle f opened writes)

theorem Separate.putSession (separate : Separate homes server) (disjoint : HomesApart homes) {who : Nat}
    {after : Session} (within : Within (homes (.sftp who)) server.fs after.fs)
    (homed : HomedAt (homes (.sftp who)) after) (owns : OwnsHandles (homes (.sftp who)) after) :
    Separate homes (server.putSession who after) where
  fenced := separate.fenced_after disjoint within
  roots := separate.roots
  homed other kept found := by
    by_cases same : other = who
    · subst other
      obtain rfl : after = kept := by simpa [Server.putSession] using found
      exact homed
    · exact separate.homed other kept (by simpa [Server.putSession, same] using found)
  owns other kept found handle f opened writes := by
    by_cases same : other = who
    · subst other
      obtain rfl : after = kept := by simpa [Server.putSession] using found
      exact owns handle f opened writes
    · have before : server.sessions other = some kept := by simpa [Server.putSession, same] using found
      exact within.owns (disjoint (.sftp other) (.sftp who)) (separate.owns other kept before handle f opened writes)

/-- One step: it stays inside the home of the client that acts, and all homes stay separate. -/
theorem Acts.separate {digests : Digests} {next : Server} {input : ServerInput} (acts : Acts digests server input next)
    (disjoint : HomesApart homes) (separate : Separate homes server) (fits : Fits homes server input) :
    Within (homes input.client) server.fs next.fs ∧ Separate homes next := by
  cases acts with
  | absent => exact ⟨.refl _ _, separate⟩
  | @entered who env user after ran =>
      have fenced : Fenced (homes (.ftp who)) (server.storage none).fs := separate.fenced (.ftp who)
      have within := within_enter env fenced fits
      rw [ran] at within
      refine ⟨within, separate.putLogin disjoint within ?_⟩
      rintro kept ⟨rfl⟩
      exact enter_root fenced fits ran
  | @refused who env user after why ran =>
      have fenced : Fenced (homes (.ftp who)) (server.storage none).fs := separate.fenced (.ftp who)
      have within := within_enter env fenced fits
      rw [ran] at within
      exact ⟨within, separate.putLogin disjoint within (by simp)⟩
  | @called who input login after found ran =>
      have rooted := separate.roots who login found
      have fenced : Fenced (homes (.ftp who)) (server.storage login.root).fs := separate.fenced (.ftp who)
      have within := within_call login.user fenced rooted input
      have kept : (callStep login.user (server.storage login.root) input).2.root = login.root :=
        handleCall_root input.2 (server.storage login.root)
      rw [ran] at within kept
      refine ⟨within, separate.putLogin disjoint within ?_⟩
      rintro _ ⟨rfl⟩
      exact kept.trans rooted
  | started =>
      refine ⟨.refl _ _, separate.putSession disjoint (.refl _ _) ⟨fits.1, fits.2⟩ ?_⟩
      intro handle f opened
      cases opened
  | @replied who input session after found ran =>
      have homed := separate.homed who session found
      have fenced : Fenced (homes (.sftp who)) (server.view session).fs := separate.fenced (.sftp who)
      have seen : HomedAt (homes (.sftp who)) (server.view session) := ⟨homed.isHome, homed.atHome⟩
      have stays : StaysBelow (server.view session) input.2 := ⟨(fits session found).steady, (fits session found).level⟩
      have owns := separate.owns who session found
      have within := within_request input.1 fenced seen digests owns stays
      have owned := ownsHandles_request input.1 fenced seen digests owns stays
      have owner := handleRequest_leaves_owner digests input.1 input.2 (server.view session)
      rw [sessionStep] at ran
      rw [ran] at within owned owner
      obtain ⟨-, sameHome⟩ := Prod.mk.inj owner
      refine ⟨within, separate.putSession disjoint within ⟨?_, ?_⟩ owned⟩
      · rw [sameHome]
        exact homed.isHome
      · rw [Session.home, sameHome]
        exact homed.atHome

theorem serverStep_separate (digests : Digests) (disjoint : HomesApart homes) (separate : Separate homes server)
    {input : ServerInput} (fits : Fits homes server input) :
    Within (homes input.client) server.fs (serverStep digests server input).2.fs ∧
      Separate homes (serverStep digests server input).2 :=
  (serverStep_acts digests server input).separate disjoint separate fits

/-- What is at a location is as it was: the entry, its bytes, and all its metadata but the time
of modification. -/
def Untouched (fs fs' : FileSystem) (loc : Loc) : Prop :=
  fs'.tree.find loc = fs.tree.find loc ∧ ∀ node, fs.tree.find loc = some node →
    fs'.data node.ino = fs.data node.ino ∧ ∃ mtime, fs'.inode node.ino = { fs.inode node.ino with mtime := mtime }

theorem Untouched.refl (fs : FileSystem) (loc : Loc) : Untouched fs fs loc :=
  ⟨rfl, fun node _ => ⟨rfl, (fs.inode node.ino).mtime, rfl⟩⟩

theorem Untouched.trans {fs fs' fs'' : FileSystem} {loc : Loc} (first : Untouched fs fs' loc)
    (second : Untouched fs' fs'' loc) : Untouched fs fs'' loc := by
  refine ⟨second.1.trans first.1, fun node found => ?_⟩
  obtain ⟨bytes, _, status⟩ := first.2 node found
  obtain ⟨bytes', mtime, status'⟩ := second.2 node (first.1.trans found)
  exact ⟨bytes'.trans bytes, mtime, by rw [status', status]⟩

theorem untouched_of_within {home loc : Loc} {fs fs' : FileSystem} (within : Within home fs fs')
    (outside : ¬ home <+: loc) : Untouched fs fs' loc :=
  ⟨within.entries loc outside, fun node found => ⟨within.bytes loc node outside found, within.status loc node outside found⟩⟩

end Isolation

section Samples

def twoHomes : FileSystem :=
  (FileSystem.empty.create [] "a".toList .dir ⟨0o755, 0, 0, 0, 0⟩).create [] "b".toList .dir ⟨0o755, 0, 0, 0, 0⟩

def homeOf (client : Client) : Loc := if client = .ftp 0 then ["a".toList] else ["b".toList]

theorem homeOf_apart : HomesApart homeOf := by
  have apart : Apart ["a".toList] ["b".toList] := ⟨by decide, by decide⟩
  intro first second
  unfold homeOf
  split <;> split
  · exact .inl rfl
  · exact .inr ⟨apart.2, apart.1⟩
  · exact .inr apart
  · exact .inl rfl

theorem twoHomes_fenced (client : Client) : Fenced (homeOf client) twoHomes := by
  apply fenced_plain
  · unfold homeOf
    split <;> decide
  · intro entry member ino target same
    have shapes : twoHomes.tree.entries = [(["b".toList], .dir 2), (["a".toList], .dir 1), ([], .dir 0)] := by decide
    rw [shapes] at member
    simp only [List.mem_cons, List.not_mem_nil, or_false] at member
    rcases member with rfl | rfl | rfl <;> cases same
  · decide

def fullUser : WftpdUser := .new "bob".toList (.ofNames ["a".toList]) .full

def secondStarts : ServerInput := .start 1 "ann".toList "/b".toList "10.0.0.1".toList (usersWith .full) 0

def firstMakes : ServerInput := .call 0 (permissiveCall, .mkd "/x".toList)

end Samples

end Wftpd.Daemon
