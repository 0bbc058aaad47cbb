import Wftpd.Daemon.Server
import Wftpd.Sftp.Revocation

/-! Rights decide whether a request is refused, and nothing else.

A request that is granted does the same whatever other rights its user has. So whoever is
given more rights keeps everything that worked before.
-/

set_option autoImplicit false

namespace Wftpd.Common

/-- The second rights are at least the first, with the same limits. -/
structure Permissions.Within (permissions wider : Permissions) : Prop where
  read : permissions.canRead = true → wider.canRead = true
  write : permissions.canWrite = true → wider.canWrite = true
  delete : permissions.canDelete = true → wider.canDelete = true
  list : permissions.canList = true → wider.canList = true
  mkdir : permissions.canMkdir = true → wider.canMkdir = true
  rmdir : permissions.canRmdir = true → wider.canRmdir = true
  rename : permissions.canRename = true → wider.canRename = true
  append : permissions.canAppend = true → wider.canAppend = true
  quota : wider.quotaMb = permissions.quotaMb
  speed : wider.speedLimitKbps = permissions.speedLimitKbps

end Wftpd.Common

namespace Wftpd.Sftp
open Wftpd.Posix Wftpd.Common Wftpd.Library

section Gate
variable {env : RequestEnv} {users : UserManager} {session : Session}

def Allowed (permissions : Permissions) (request : Request) : Prop :=
  ∀ right, request.asks = some right → right permissions = true

theorem allowed_wider {permissions wider : Permissions} (within : permissions.Within wider) {request : Request}
    (allowed : Allowed permissions request) : Allowed wider request := by
  intro right asks
  have has := allowed right asks
  cases request with
  | «open» id filename pflags =>
      cases asks
      simp only [OpenFlags.granted] at has ⊢
      split at has
      · next wants =>
          rw [if_pos wants]
          split at has
          · next appends =>
              rw [if_pos appends, Bool.or_eq_true]
              exact (Bool.or_eq_true _ _ ▸ has).imp within.append within.write
          · next stays =>
              rw [if_neg stays]
              exact within.write has
      · next reads =>
          rw [if_neg reads]
          exact within.read has
  | stat _ _ | lstat _ _ | opendir _ _ =>
      cases asks
      exact within.list has
  | setstat _ _ _ | symlink _ _ _ =>
      cases asks
      exact within.write has
  | remove _ _ =>
      cases asks
      exact within.delete has
  | mkdir _ _ =>
      cases asks
      exact within.mkdir has
  | rmdir _ _ =>
      cases asks
      exact within.rmdir has
  | rename _ _ _ =>
      cases asks
      exact within.rename has
  | _ => cases asks

theorem requirePermission_granted {right : Permissions → Bool} (has : right (session.permissions env) = true) :
    requirePermission env right session = (.ok (), session) := by
  simp only [requirePermission, Action.query_run, has, if_true]

theorem requireAudited_granted {right : Permissions → Bool} {operation filePath : Text}
    (has : right (session.permissions env) = true) :
    requireAudited env right operation filePath session = (.ok (), session) := by
  rw [requireAudited, Action.bind_run, Action.read_run]
  simp only [has, if_true]
  rfl

theorem quotaOk_users (quota : (session.permissions { env with users := users }).quotaMb = (session.permissions env).quotaMb)
    (additional : Nat) : session.quotaOk { env with users := users } additional = session.quotaOk env additional := by
  simp only [Session.quotaOk, quota]

/-- What two programs do behind guards that both let pass. -/
theorem guarded_congr {α : Type} {guard guard' : Handled Unit} {next next' : Unit → Handled α}
    (passes : guard session = (.ok (), session)) (passes' : guard' session = (.ok (), session))
    (same : next' () session = next () session) : (guard' >>= next') session = (guard >>= next) session := by
  rw [Action.bind_run_ok passes, Action.bind_run_ok passes', same]

theorem writeCheck_users (quota : (session.permissions { env with users := users }).quotaMb = (session.permissions env).quotaMb)
    (data : List UInt8) : writeCheck { env with users := users } data session = writeCheck env data session := by
  rw [writeCheck, writeCheck, Action.bind_run, Action.bind_run, Action.read_run, Action.read_run]
  simp only [quotaOk_users quota]
  rfl

theorem digestRead_users (file : FileSystem.OpenFile) (fuel count pos remaining : Nat) (fed : List UInt8) :
    digestRead { env with users := users } file fuel count pos remaining fed =
      digestRead env file fuel count pos remaining fed := by
  induction fuel generalizing count pos remaining fed with
  | zero => rfl
  | succ fuel ih => simp only [digestRead, ih]

theorem extended_users (digests : Digests) (id : UInt32) (request : Text) (data : List UInt8) :
    extended digests { env with users := users } id request data = extended digests env id request data := by
  have file : ∀ hash path offset length,
      digestFile { env with users := users } hash path offset length = digestFile env hash path offset length := by
    intro hash path offset length
    simp only [digestFile, digestRead_users]
  simp only [extended, extendedDigest, file]
  rfl

/-- A granted request does the same for every store that grants it and has the same quota. -/
theorem handleRequest_users (digests : Digests) (request : Request)
    (allowed : Allowed (session.permissions env) request)
    (allowed' : Allowed (session.permissions { env with users := users }) request)
    (quota : (session.permissions { env with users := users }).quotaMb = (session.permissions env).quotaMb) :
    handleRequest digests { env with users := users } request session = handleRequest digests env request session := by
  cases request with
  | «open» id filename pflags =>
      exact guarded_congr (requireAudited_granted (allowed _ rfl)) (requireAudited_granted (allowed' _ rfl)) rfl
  | remove id filename =>
      exact guarded_congr (requireAudited_granted (allowed _ rfl)) (requireAudited_granted (allowed' _ rfl)) rfl
  | mkdir id path =>
      exact guarded_congr (requireAudited_granted (allowed _ rfl)) (requireAudited_granted (allowed' _ rfl)) rfl
  | rmdir id path =>
      exact guarded_congr (requireAudited_granted (allowed _ rfl)) (requireAudited_granted (allowed' _ rfl)) rfl
  | rename id oldpath newpath =>
      exact guarded_congr (requireAudited_granted (allowed _ rfl)) (requireAudited_granted (allowed' _ rfl)) rfl
  | lstat id path =>
      exact guarded_congr (requirePermission_granted (allowed _ rfl)) (requirePermission_granted (allowed' _ rfl)) rfl
  | stat id path =>
      exact guarded_congr (requirePermission_granted (allowed _ rfl)) (requirePermission_granted (allowed' _ rfl)) rfl
  | setstat id path attrs =>
      exact guarded_congr (requirePermission_granted (allowed _ rfl)) (requirePermission_granted (allowed' _ rfl)) rfl
  | opendir id path =>
      exact guarded_congr (requirePermission_granted (allowed _ rfl)) (requirePermission_granted (allowed' _ rfl)) rfl
  | symlink id linkpath targetpath =>
      exact guarded_congr (requirePermission_granted (allowed _ rfl)) (requirePermission_granted (allowed' _ rfl)) rfl
  | write id handle offset data =>
      -- no right is asked, but the quota is
      show (writeCheck _ data >>= _) session = (writeCheck _ data >>= _) session
      rw [Action.bind_run, Action.bind_run, writeCheck_users quota]
      rfl
  | extended id request data => exact congrFun (extended_users digests id request data) session
  | readdir id handle =>
      have entry : listEntry { env with users := users } = listEntry env := rfl
      simp only [handleRequest, readdir, nextEntries, entry]
  | init _ _ | close _ _ | read _ _ _ _ | fstat _ _ | fsetstat _ _ _ | realpath _ _ | readlink _ _ => rfl

end Gate

end Wftpd.Sftp

namespace Wftpd.Ftp
open Wftpd.Posix Wftpd.Common Wftpd.Library

def Call.asks : Call → Option (Permissions → Bool)
  | .list _ => some Permissions.canList
  | .get _ _ => some Permissions.canRead
  | .put _ _ _ => some Permissions.canWrite
  | .del _ => some Permissions.canDelete
  | .mkd _ => some Permissions.canMkdir
  | .rename _ _ => some Permissions.canRename
  | .rmd _ => some Permissions.canRmdir
  | .metadata _ | .cwd _ => none

def Allowed (permissions : Permissions) (call : Call) : Prop :=
  ∀ right, call.asks = some right → right permissions = true

theorem allowed_wider {permissions wider : Permissions} (within : permissions.Within wider) {call : Call}
    (allowed : Allowed permissions call) : Allowed wider call := by
  intro right asks
  have has := allowed right asks
  cases call with
  | list _ =>
      cases asks
      exact within.list has
  | get _ _ =>
      cases asks
      exact within.read has
  | put _ _ _ =>
      cases asks
      exact within.write has
  | del _ =>
      cases asks
      exact within.delete has
  | mkd _ =>
      cases asks
      exact within.mkdir has
  | rename _ _ =>
      cases asks
      exact within.rename has
  | rmd _ =>
      cases asks
      exact within.rmdir has
  | metadata _ | cwd _ => cases asks

/-- A granted call does the same for whatever other rights. -/
theorem handleCall_permissions (env : CallEnv) (user : WftpdUser) (wider : Permissions) (call : Call)
    (allowed : Allowed user.permissions call) (allowed' : Allowed wider call) :
    handleCall env { user with permissions := wider } call = handleCall env user call := by
  have gated {α : Type} {right : Permissions → Bool} {next next' : Unit → Served α} (has : right user.permissions = true)
      (has' : right wider = true) (same : next' () = next ()) :
      (require (right wider) >>= next') = (require (right user.permissions) >>= next) := by
    rw [has, has']
    exact same
  have answered {α : Type} {first first' : Served α} (answer : α → Answer) (same : first' = first) :
      (do return answer (← first') : Served Answer) = (do return answer (← first)) := by rw [same]
  cases call with
  | metadata path | cwd path => rfl
  | list path => exact answered .files (gated (allowed _ rfl) (allowed' _ rfl) rfl)
  | get path startPos => exact answered (fun opened : FileSystem.OpenFile × UInt64 => .reader opened.1 opened.2) (gated (allowed _ rfl) (allowed' _ rfl) rfl)
  | put input path startPos => exact answered .written (gated (allowed _ rfl) (allowed' _ rfl) rfl)
  | del path => exact answered (fun _ => .done) (gated (allowed _ rfl) (allowed' _ rfl) rfl)
  | mkd path => exact answered (fun _ => .done) (gated (allowed _ rfl) (allowed' _ rfl) rfl)
  | rename «from» «to» => exact answered (fun _ => .done) (gated (allowed _ rfl) (allowed' _ rfl) rfl)
  | rmd path => exact answered (fun _ => .done) (gated (allowed _ rfl) (allowed' _ rfl) rfl)

end Wftpd.Ftp

namespace Wftpd.Daemon
open Wftpd.Posix Wftpd.Common Wftpd.Library Wftpd.Ftp Wftpd.Sftp

def WiderStore (users wider : UserManager) : Prop :=
  ∀ username, (((users.getUser username).map User.permissions).getD .default).Within
    (((wider.getUser username).map User.permissions).getD .default)

inductive Widened : ServerInput → ServerInput → Prop where
  | enter {who : Nat} {env : CallEnv} {user : WftpdUser} {wider : Permissions} (within : user.permissions.Within wider) :
      Widened (.enter who env user) (.enter who env { user with permissions := wider })
  | call {who : Nat} {input : CallInput} : Widened (.call who input) (.call who input)
  | start {who : Nat} {username homeDir clientIp : Text} {users wider : UserManager} {now : Nat}
      (within : WiderStore users wider) :
      Widened (.start who username homeDir clientIp users now) (.start who username homeDir clientIp wider now)
  | request {who : Nat} {env : RequestEnv} {request : Request} {wider : UserManager} (within : WiderStore env.users wider) :
      Widened (.request who (env, request)) (.request who ({ env with users := wider }, request))

def Granted (server : Server) : ServerInput → Prop
  | .enter _ _ _ | .start _ _ _ _ _ _ => True
  | .call who input => ∀ login, server.logins who = some login → Ftp.Allowed login.user.permissions input.2
  | .request who input =>
      ∀ session, server.sessions who = some session → Sftp.Allowed (session.permissions input.1) input.2

/-- The same server, but for the rights of those who are logged in. -/
structure Alike (server wider : Server) : Prop where
  fs : wider.fs = server.fs
  log : wider.log = server.log
  sessions : wider.sessions = server.sessions
  logins : ∀ who, (server.logins who = none ∧ wider.logins who = none) ∨
    ∃ login permissions, server.logins who = some login ∧ login.user.permissions.Within permissions ∧
      wider.logins who = some { login with user := { login.user with permissions := permissions } }

section Steps
variable {server wider : Server}

theorem Alike.putLogin (alike : Alike server wider) (who : Nat) {login login' : Option FtpLogin} {after : WftpdFilesystem}
    (same : (login = none ∧ login' = none) ∨ ∃ kept permissions, login = some kept ∧
      kept.user.permissions.Within permissions ∧
      login' = some { kept with user := { kept.user with permissions := permissions } }) :
    Alike (server.putLogin who login after) (wider.putLogin who login' after) where
  fs := rfl
  log := rfl
  sessions := alike.sessions
  logins := by
    intro other
    by_cases this : other = who
    · subst this
      simpa [Server.putLogin] using same
    · simpa [Server.putLogin, this] using alike.logins other

theorem Alike.putSession (alike : Alike server wider) (who : Nat) (after : Session) :
    Alike (server.putSession who after) (wider.putSession who after) where
  fs := rfl
  log := rfl
  sessions := by rw [Server.putSession, Server.putSession, alike.sessions]
  logins := alike.logins

theorem Alike.storage (alike : Alike server wider) (root : Option PathBuf) : wider.storage root = server.storage root := by
  rw [Server.storage, Server.storage, alike.fs, alike.log]

theorem Alike.view (alike : Alike server wider) (session : Session) : wider.view session = server.view session := by
  rw [Server.view, Server.view, alike.fs, alike.log]

theorem speedLimit_eq (users : UserManager) (username : Text) :
    ((users.getUser username).bind fun user => user.permissions.speedLimitKbps) =
      (((users.getUser username).map User.permissions).getD .default).speedLimitKbps := by
  cases users.getUser username <;> rfl

/-- One step with more rights, where the rights there were are enough. -/
theorem Alike.step (digests : Digests) (alike : Alike server wider) {input input' : ServerInput}
    (widened : Widened input input') (granted : Granted server input) :
    (serverStep digests wider input').1 = (serverStep digests server input).1 ∧
      Alike (serverStep digests server input).2 (serverStep digests wider input').2 := by
  cases widened with
  | @enter who env user permissions within =>
      -- the login looks at the home only
      have same : Ftp.enter env { user with permissions := permissions } (wider.storage none) =
          Ftp.enter env user (server.storage none) := by
        rw [alike.storage]
        rfl
      simp only [serverStep, same]
      rcases Ftp.enter env user (server.storage none) with ⟨_ | _, after⟩
      · exact ⟨rfl, alike.putLogin who (.inl ⟨rfl, rfl⟩)⟩
      · exact ⟨rfl, alike.putLogin who (.inr ⟨_, permissions, rfl, within, rfl⟩)⟩
  | @call who input =>
      rcases alike.logins who with ⟨absent, absent'⟩ | ⟨login, permissions, found, within, found'⟩
      · simp only [serverStep, absent, absent']
        exact ⟨trivial, alike⟩
      · have allowed := granted login found
        have same : callStep { login.user with permissions := permissions } (server.storage login.root) input =
            callStep login.user (server.storage login.root) input :=
          congrFun (handleCall_permissions input.1 login.user permissions input.2 allowed
            (Ftp.allowed_wider within allowed)) _
        simp only [serverStep, found, found', alike.storage, same]
        exact ⟨trivial, alike.putLogin who (.inr ⟨_, permissions, rfl, within, rfl⟩)⟩
  | @start who username homeDir clientIp users store now within =>
      have same : Session.new username homeDir clientIp store now wider.fs wider.log =
          Session.new username homeDir clientIp users now server.fs server.log := by
        rw [alike.fs, alike.log, Session.new, Session.new, speedLimit_eq, speedLimit_eq, (within username).speed]
      simp only [serverStep, same]
      exact ⟨trivial, alike.putSession who _⟩
  | @request who env request store within =>
      cases found : server.sessions who with
      | none =>
          have found' : wider.sessions who = none := by rw [alike.sessions, found]
          simp only [serverStep, found, found']
          exact ⟨trivial, alike⟩
      | some session =>
          have found' : wider.sessions who = some session := by rw [alike.sessions, found]
          have allowed := granted session found
          have rights := within session.username
          have same : sessionStep digests (server.view session) ({ env with users := store }, request) =
              sessionStep digests (server.view session) (env, request) :=
            handleRequest_users digests request allowed (Sftp.allowed_wider rights allowed) rights.quota
          simp only [serverStep, found, found', alike.view, same]
          exact ⟨trivial, alike.putSession who _⟩

end Steps

section Runs
variable {server wider : Server}

theorem Alike.run (digests : Digests) {inputs inputs' : List ServerInput} (alike : Alike server wider)
    (widened : List.Forall₂ Widened inputs inputs') (granted : Along (serverStep digests) Granted server inputs) :
    (run (serverStep digests) wider inputs').1 = (run (serverStep digests) server inputs).1 ∧
      Alike (run (serverStep digests) server inputs).2 (run (serverStep digests) wider inputs').2 := by
  induction widened generalizing server wider with
  | nil => exact ⟨rfl, alike⟩
  | cons first rest ih =>
      obtain ⟨answer, next⟩ := alike.step digests first granted.1
      obtain ⟨answers, final⟩ := ih next granted.2
      exact ⟨by rw [run_cons, run_cons, answer, answers], final⟩

end Runs

/-- In a run in which every request has its right, more rights change no answer, and nothing on the disk
or in the audit log. -/
theorem rights_widened (digests : Digests) (fs : FileSystem) (log : List FileLogInfo) (inputs inputs' : List ServerInput)
    (granted : Along (serverStep digests) Granted (.idle fs log) inputs) (widened : List.Forall₂ Widened inputs inputs') :
    (run (serverStep digests) (.idle fs log) inputs').1 = (run (serverStep digests) (.idle fs log) inputs).1 ∧
      (run (serverStep digests) (.idle fs log) inputs').2.fs = (run (serverStep digests) (.idle fs log) inputs).2.fs ∧
      (run (serverStep digests) (.idle fs log) inputs').2.log = (run (serverStep digests) (.idle fs log) inputs).2.log := by
  have alike : Alike (.idle fs log) (.idle fs log) := ⟨rfl, rfl, rfl, fun who => .inl ⟨rfl, rfl⟩⟩
  obtain ⟨answers, final⟩ := alike.run digests widened granted
  exact ⟨answers, final.fs, final.log⟩

section Sample

def looksHome (permissions : Permissions) : List ServerInput :=
  [.start 0 "ann".toList "/".toList "10.0.0.1".toList (usersWith permissions) 0,
    .request 0 (permissiveEnv permissions, .stat 1 "/".toList)]

theorem widerStore_full : WiderStore (usersWith mayList) (usersWith .full) := by
  intro username
  by_cases ann : username = "ann".toList
  · subst ann
    constructor <;> decide
  · have stranger (permissions : Permissions) : (usersWith permissions).getUser username = none := by
      apply AList.lookup_eq_none.mpr
      rw [usersWith, AList.mem_keys]
      simpa [AList.keys_singleton] using ann
    rw [stranger, stranger]
    constructor <;> decide

theorem rights_widened_looks : (run (serverStep noDigests) (.idle .empty []) (looksHome .full)).1 =
    (run (serverStep noDigests) (.idle .empty []) (looksHome mayList)).1 := by
  have granted : Along (serverStep noDigests) Granted (.idle .empty []) (looksHome mayList) := by
    refine ⟨trivial, ?_, trivial⟩
    rintro session ⟨rfl⟩ right ⟨rfl⟩
    rfl
  have widened : List.Forall₂ Widened (looksHome mayList) (looksHome .full) :=
    .cons (.start widerStore_full) (.cons (.request widerStore_full) .nil)
  exact (rights_widened noDigests .empty [] _ _ granted widened).1

end Sample

end Wftpd.Daemon
