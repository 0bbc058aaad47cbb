import Wftpd.Daemon.Server

/-! Users who may only look.

Without the rights to write, append, delete, rename and make or remove directories a
client changes nothing, through either front end, whatever the others do.
-/

set_option autoImplicit false

namespace Wftpd.Common

structure Permissions.Looks (permissions : Permissions) : Prop where
  write : permissions.canWrite = false
  append : permissions.canAppend = false
  delete : permissions.canDelete = false
  mkdir : permissions.canMkdir = false
  rmdir : permissions.canRmdir = false
  rename : permissions.canRename = false

end Wftpd.Common

namespace Wftpd.Sftp
open Wftpd.Posix Wftpd.Common Wftpd.Library

section Requests
variable {env : RequestEnv} {session : Session}

def NoWrites (session : Session) : Prop :=
  ∀ handle f, session.handles.lookup handle = some (.file f) → f.file.write = false

theorem Looks.wantsWrite {permissions : Permissions} (looks : permissions.Looks) {pflags : OpenFlags}
    (granted : pflags.granted permissions = true) : pflags.wantsWrite = false := by
  by_contra wants
  simp [OpenFlags.granted, wants, looks.write, looks.append] at granted

theorem options_reads {pflags : OpenFlags} (reads : pflags.wantsWrite = false) :
    pflags.options.create = false ∧ pflags.options.truncate = false ∧ pflags.options.writes = false := by
  simp only [OpenFlags.wantsWrite, Bool.or_eq_false_iff] at reads
  simp [OpenFlags.options, FileSystem.OpenOptions.writes, reads]

theorem handleRequest_looks (digests : Digests) (request : Request) (looks : (session.permissions env).Looks)
    (closed : NoWrites session) : (handleRequest digests env request session).2.fs = session.fs := by
  let final (fs : FileSystem) := fs = session.fs
  have unchanged : final session.fs := rfl
  cases mutates : request.mutates with
  | false => exact handleRequest_leaves_fs digests env mutates session
  | true =>
      cases request with
      | «open» id filename pflags =>
          apply open_final final id unchanged
          intro granted resolved _
          obtain ⟨create, truncate, -⟩ := options_reads (Looks.wantsWrite looks granted)
          exact FileSystem.readOnly_openFile env.os create truncate resolved session.fs
      | write id handle offset data =>
          apply write_final final id unchanged
          intro _ f found
          apply FileSystem.writeAll_final final f.file offset.toNat data unchanged
          intro part writes
          rw [closed handle f found] at writes
          cases writes
      | setstat id path attrs =>
          apply (gate_query _).followed final unchanged
          intro _ granted
          have granted := requirePermission_ok granted
          rw [looks.write] at granted
          cases granted
      | remove id filename =>
          apply remove_final final id unchanged
          intro granted
          rw [looks.delete] at granted
          cases granted
      | mkdir id path =>
          apply (gate_requireAudited _ _ _).followed final unchanged
          intro _ passed
          have granted := (requireAudited_ok passed).1
          rw [looks.mkdir] at granted
          cases granted
      | rmdir id path =>
          apply rmdir_final final id unchanged
          intro granted
          rw [looks.rmdir] at granted
          cases granted
      | rename id oldpath newpath =>
          apply rename_final final id unchanged
          intro granted
          rw [looks.rename] at granted
          cases granted
      | symlink id linkpath targetpath =>
          apply (gate_query _).followed final unchanged
          intro _ granted
          have granted := requirePermission_ok granted
          rw [looks.write] at granted
          cases granted
      | _ => cases mutates

theorem noWrites_request (digests : Digests) (request : Request) (looks : (session.permissions env).Looks)
    (closed : NoWrites session) : NoWrites (handleRequest digests env request session).2 := by
  intro handle f found
  rcases handleRequest_tableGrows digests env request session handle f found with
    old | ⟨id, filename, pflags, -, granted, -, mode, -⟩
  · exact closed handle f old
  · rw [mode]
    exact (options_reads (Looks.wantsWrite looks granted)).2.2

end Requests

end Wftpd.Sftp

namespace Wftpd.Ftp
open Wftpd.Posix Wftpd.Common Wftpd.Library

section Calls
variable {env : CallEnv} {user : WftpdUser} {state : WftpdFilesystem}

theorem refused_fs {α : Type} {next : Unit → Served α} {right : Bool} (missing : right = false) :
    ((require right >>= next) state).2.fs = state.fs := by
  subst missing
  rfl

theorem handleCall_looks (looks : user.permissions.Looks) (call : Call) :
    (handleCall env user call state).2.fs = state.fs := by
  by_cases reads : call.reads = true
  · exact handleCall_fs reads state
  cases call with
  | metadata path | list path | get path startPos | cwd path => exact absurd rfl reads
  | put input path startPos =>
      rw [handleCall, handleCall_before]
      exact refused_fs looks.write
  | del path =>
      rw [handleCall, handleCall_before]
      exact refused_fs looks.delete
  | mkd path =>
      rw [handleCall, handleCall_before]
      exact refused_fs looks.mkdir
  | rmd path =>
      rw [handleCall, handleCall_before]
      exact refused_fs looks.rmdir
  | rename «from» «to» =>
      rw [handleCall, handleCall_before]
      exact refused_fs looks.rename

theorem enter_there (there : FileSystem.IsThere env.os state.fs user.home) :
    (enter env user state).2.fs = state.fs := by
  rw [enter_fs]
  exact FileSystem.createDirAll_there there

theorem enter_existing {home : Loc} (dir : state.fs.tree.isDir home = true) (named : user.home = .ofNames home) :
    (enter env user state).2.fs = state.fs := by
  apply enter_there
  rw [named]
  exact FileSystem.isThere_ofNames dir

end Calls

end Wftpd.Ftp

namespace Wftpd.Daemon
open Wftpd.Posix Wftpd.Common Wftpd.Library Wftpd.Ftp Wftpd.Sftp

/-- Whoever sends this may only look, and logs in to a home that is there. -/
def OnlyLooks (fs : FileSystem) (server : Server) : ServerInput → Prop
  | .enter _ env user => user.permissions.Looks ∧ FileSystem.IsThere env.os fs user.home
  | .call _ _ | .start _ _ _ _ _ _ => True
  | .request who input => ∀ session, server.sessions who = some session → (input.1.permissionsOf session.username).Looks

structure Looking (fs : FileSystem) (server : Server) : Prop where
  same : server.fs = fs
  logins : ∀ who login, server.logins who = some login → login.user.permissions.Looks
  sessions : ∀ who session, server.sessions who = some session → NoWrites session

section Steps
variable {fs : FileSystem} {server : Server}

theorem Looking.putLogin (looking : Looking fs server) {who : Nat} {login : Option FtpLogin} {after : WftpdFilesystem}
    (same : after.fs = fs) (looks : ∀ kept, login = some kept → kept.user.permissions.Looks) :
    Looking fs (server.putLogin who login after) where
  same := same
  logins other kept found := by
    by_cases here : other = who
    · subst other
      exact looks kept (by simpa [Server.putLogin] using found)
    · exact looking.logins other kept (by simpa [Server.putLogin, here] using found)
  sessions := looking.sessions

theorem Looking.putSession (looking : Looking fs server) {who : Nat} {after : Session} (same : after.fs = fs)
    (closed : NoWrites after) : Looking fs (server.putSession who after) where
  same := same
  logins := looking.logins
  sessions other kept found := by
    by_cases here : other = who
    · subst other
      obtain rfl : after = kept := by simpa [Server.putSession] using found
      exact closed
    · exact looking.sessions other kept (by simpa [Server.putSession, here] using found)

theorem Acts.looks {digests : Digests} {next : Server} {input : ServerInput} (acts : Acts digests server input next)
    (looking : Looking fs server) (looks : OnlyLooks fs server input) : Looking fs next := by
  have same := looking.same
  cases acts with
  | absent => exact looking
  | @entered who env user after ran =>
      obtain ⟨permitted, there⟩ := looks
      rw [← same] at there
      have kept : (enter env user (server.storage none)).2.fs = server.fs := enter_there there
      rw [ran] at kept
      apply looking.putLogin (kept.trans same)
      rintro _ ⟨rfl⟩
      exact permitted
  | @refused who env user after why ran =>
      obtain ⟨-, there⟩ := looks
      rw [← same] at there
      have kept : (enter env user (server.storage none)).2.fs = server.fs := enter_there there
      rw [ran] at kept
      exact looking.putLogin (kept.trans same) (by simp)
  | @called who input login after found ran =>
      have permitted := looking.logins who login found
      have kept : (handleCall input.1 login.user input.2 (server.storage login.root)).2.fs = server.fs :=
        handleCall_looks permitted input.2
      rw [callStep] at ran
      rw [ran] at kept
      apply looking.putLogin (kept.trans same)
      rintro _ ⟨rfl⟩
      exact permitted
  | started =>
      apply looking.putSession same
      intro handle f opened
      cases opened
  | @replied who input session after found ran =>
      have permitted : ((server.view session).permissions input.1).Looks := looks session found
      have closed : NoWrites (server.view session) := looking.sessions who session found
      have kept := handleRequest_looks digests input.2 permitted closed
      have closed' := noWrites_request digests input.2 permitted closed
      rw [sessionStep] at ran
      rw [ran] at kept closed'
      exact looking.putSession (kept.trans same) closed'

end Steps

/-- However many they are and whatever they send, users who may only look leave the disk as it is. -/
theorem looks_run (digests : Digests) (fs : FileSystem) (log : List FileLogInfo) (inputs : List ServerInput)
    (looks : Along (serverStep digests) (OnlyLooks fs) (.idle fs log) inputs) :
    (run (serverStep digests) (.idle fs log) inputs).2.fs = fs := by
  have initial : Looking fs (.idle fs log) := by
    refine ⟨rfl, fun _ _ found => ?_, fun _ _ found => ?_⟩ <;> cases found
  have keeps : ∀ server input, Looking fs server → OnlyLooks fs server input →
      Looking fs (serverStep digests server input).2 :=
    fun server input looking looks => (serverStep_acts digests server input).looks looking looks
  exact (run_invariant keeps initial looks).same

section Samples

def lister : Permissions := { Permissions.default with canList := true, canRead := true }

def lookers : List ServerInput :=
  [.start 0 "ann".toList "/b".toList "10.0.0.1".toList (usersWith lister) 0,
    .enter 0 permissiveCall (.new "bob".toList (.ofNames ["a".toList]) lister),
    .request 0 (permissiveEnv lister, .mkdir 1 "x".toList), .call 0 (permissiveCall, .put [.ok [1, 2]] "/y".toList 0)]

theorem looks_run_pair : (run (serverStep noDigests) (.idle twoHomes []) lookers).2.fs = twoHomes := by
  have looks : lister.Looks := ⟨rfl, rfl, rfl, rfl, rfl, rfl⟩
  apply looks_run noDigests twoHomes []
  refine ⟨trivial, ⟨looks, FileSystem.isThere_ofNames (by decide)⟩, fun session found => ?_, trivial, trivial⟩
  cases found
  exact looks

end Samples

end Wftpd.Daemon
