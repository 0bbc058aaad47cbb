import Wftpd.Daemon.Server

/-! Whose records the audit log holds.

A record is signed with the name, the address and the protocol of the client at whose
request it was written; no client writes in the name of another, and nobody takes a
record away.
-/

set_option autoImplicit false

namespace Wftpd.Common
open Wftpd.Posix

structure Author where
  username : Text
  clientIp : Text
  protocol : Text
  deriving DecidableEq, Repr

def FileLogInfo.author (info : FileLogInfo) : Author := ⟨info.username, info.clientIp, info.protocol⟩

/-- The log has grown by records of this author. -/
def SignedBy (author : Author) (before after : List FileLogInfo) : Prop :=
  ∃ records, after = before ++ records ∧ ∀ record ∈ records, record.author = author

theorem SignedBy.refl (author : Author) (log : List FileLogInfo) : SignedBy author log log :=
  ⟨[], (List.append_nil log).symm, fun _ never => by cases never⟩

theorem SignedBy.trans {author : Author} {first second third : List FileLogInfo} (start : SignedBy author first second)
    (finish : SignedBy author second third) : SignedBy author first third := by
  obtain ⟨records, rfl, signed⟩ := start
  obtain ⟨more, rfl, signed'⟩ := finish
  refine ⟨records ++ more, List.append_assoc _ _ _, fun record member => ?_⟩
  rcases List.mem_append.mp member with member | member
  · exact signed record member
  · exact signed' record member

theorem signedBy_logIfFree (free : Bool) (info : FileLogInfo) (log : List FileLogInfo) :
    SignedBy info.author log (logIfFree free info log) := by
  cases free with
  | true => exact ⟨[info], rfl, fun record member => by rw [List.mem_singleton.mp member]⟩
  | false => exact .refl _ log

end Wftpd.Common

namespace Wftpd.Sftp
open Wftpd.Posix Wftpd.Common Wftpd.Library

section Requests
variable {α : Type} {env : RequestEnv}

def Session.author (session : Session) : Author := ⟨session.username, session.clientIp, "SFTP".toList⟩

def Signs (session session' : Session) : Prop :=
  session'.author = session.author ∧ SignedBy session.author session.log session'.log

theorem Signs.trans {first second third : Session} (start : Signs first second) (finish : Signs second third) :
    Signs first third :=
  ⟨finish.1.trans start.1, start.2.trans (start.1 ▸ finish.2)⟩

theorem signs_of_leaves {action : Handled α} (leaves : Leaves (fun session => (session.author, session.log)) action) :
    Action.Moves Signs action := by
  intro session
  obtain ⟨author, log⟩ := Prod.mk.inj (leaves session)
  exact ⟨author, log ▸ .refl _ _⟩

theorem signs_audit (operation filePath message : Text) (size : Nat) (success : Bool) :
    Action.Moves Signs (audit env operation filePath size success message) :=
  fun session => ⟨rfl, signedBy_logIfFree env.loggerFree _ session.log⟩

theorem signs_bind {β : Type} {first : Handled α} {next : α → Handled β} (start : Action.Moves Signs first)
    (finish : ∀ value, Action.Moves Signs (next value)) : Action.Moves Signs (first >>= next) :=
  start.bind (fun _ _ _ first second => first.trans second) finish

theorem signs_sys (call : Action FileSystem ErrorKind α) : Action.Moves Signs (sys call) :=
  signs_of_leaves (leaves_sys (fun _ _ => rfl) call)

theorem signs_query (ask : Session → Except StatusCode α) : Action.Moves Signs (Action.query ask) :=
  signs_of_leaves (leaves_query ask)

theorem signs_reply (reply : α) : Action.Moves Signs (pure reply : Handled α) := signs_of_leaves (leaves_pure reply)

theorem signs_requireAudited (granted : Permissions → Bool) (operation filePath : Text) :
    Action.Moves Signs (requireAudited env granted operation filePath) := by
  apply signs_bind (signs_of_leaves (leaves_read _))
  intro allowed
  cases allowed with
  | true => exact signs_reply ()
  | false => exact signs_bind (signs_audit _ _ _ _ _) fun _ => signs_of_leaves (leaves_fail _)

theorem signs_recorded (call : Action FileSystem ErrorKind α) (operation filePath message : Text) (size : Nat)
    (reply : Reply) : Action.Moves Signs (do
      let _ ← sys call
      audit env operation filePath size true message
      return reply) :=
  signs_bind (signs_sys call) fun _ => signs_bind (signs_audit _ _ _ _ _) fun _ => signs_reply reply

theorem signs_request (digests : Digests) (request : Request) : Action.Moves Signs (handleRequest digests env request) := by
  have limiter : IgnoresLimiter fun session : Session => (session.author, session.log) := fun _ _ => rfl
  have handles : IgnoresHandles fun session : Session => (session.author, session.log) := fun _ _ => rfl
  have counter : IgnoresCounter fun session : Session => (session.author, session.log) := fun _ _ => rfl
  have fs : IgnoresFs fun session : Session => (session.author, session.log) := fun _ _ => rfl
  cases request with
  | init version extensions => exact signs_reply _
  | «open» id filename pflags =>
      exact signs_bind (signs_requireAudited _ _ _) fun _ => signs_bind (signs_query _) fun _ =>
        signs_bind (signs_query _) fun _ => signs_bind (signs_sys _) fun _ =>
          signs_bind (signs_of_leaves (leaves_insertHandle counter handles _)) fun _ => signs_reply _
  | close id handle => exact signs_of_leaves (leaves_close handles id handle)
  | read id handle offset len => exact signs_of_leaves (leaves_readRequest limiter id handle offset len)
  | write id handle offset data =>
      apply signs_bind
      · apply signs_bind (signs_of_leaves (leaves_read _))
        intro fits
        cases fits with
        | true => exact signs_reply ()
        | false => exact signs_bind (signs_audit _ _ _ _ _) fun _ => signs_of_leaves (leaves_fail _)
      · exact fun _ => signs_of_leaves (leaves_writeData fs limiter id handle offset data)
  | lstat id path => exact signs_of_leaves (leaves_lstat id path)
  | fstat id handle => exact signs_of_leaves (leaves_fstat id handle)
  | setstat id path attrs =>
      exact signs_bind (signs_query _) fun _ => signs_bind (signs_query _) fun resolved =>
        signs_bind (signs_of_leaves (leaves_setMode fs resolved _)) fun _ =>
          signs_bind (signs_of_leaves (leaves_setSize fs resolved _)) fun _ =>
            signs_bind (signs_audit _ _ _ _ _) fun _ => signs_reply _
  | fsetstat _ _ _ => exact signs_of_leaves (leaves_fail _)
  | opendir id path => exact signs_of_leaves (leaves_opendir counter handles id path)
  | readdir id handle => exact signs_of_leaves (leaves_readdir handles id handle)
  | remove id filename =>
      exact signs_bind (signs_requireAudited _ _ _) fun _ => signs_bind (signs_query _) fun _ =>
        signs_bind (signs_of_leaves (leaves_read _)) fun _ => signs_recorded _ _ _ _ _ _
  | mkdir id path =>
      exact signs_bind (signs_requireAudited _ _ _) fun _ => signs_bind (signs_query _) fun _ =>
        signs_recorded _ _ _ _ _ _
  | rmdir id path =>
      exact signs_bind (signs_requireAudited _ _ _) fun _ => signs_bind (signs_query _) fun _ =>
        signs_recorded _ _ _ _ _ _
  | realpath id path => exact signs_of_leaves (leaves_realpath id path)
  | stat id path => exact signs_of_leaves (leaves_stat id path)
  | rename id oldpath newpath =>
      exact signs_bind (signs_requireAudited _ _ _) fun _ => signs_bind (signs_query _) fun _ =>
        signs_bind (signs_query _) fun _ => signs_bind (signs_query _) fun _ => signs_recorded _ _ _ _ _ _
  | readlink id path => exact signs_of_leaves (leaves_readlink id path)
  | symlink id linkpath targetpath =>
      exact signs_bind (signs_query _) fun _ => signs_bind (signs_query _) fun _ =>
        signs_bind (signs_query _) fun _ => signs_bind (signs_query _) fun _ => signs_recorded _ _ _ _ _ _
  | extended id request data => exact signs_of_leaves (leaves_extended digests id request data)

end Requests

end Wftpd.Sftp

namespace Wftpd.Ftp
open Wftpd.Posix Wftpd.Common Wftpd.Library

section Calls
variable {α β : Type} {env : CallEnv} {user : WftpdUser}

def WftpdUser.author (user : WftpdUser) : Author := ⟨user.username, "-".toList, "FTP".toList⟩

def Signs (user : WftpdUser) (state state' : WftpdFilesystem) : Prop := SignedBy user.author state.log state'.log

theorem signs_of_leaves {action : Served α} (leaves : Action.Leaves WftpdFilesystem.log action) :
    Action.Moves (Signs user) action := by
  intro state
  have same : (action state).2.log = state.log := leaves state
  rw [Signs, same]
  exact .refl _ _

theorem signs_still {action : Served α} (still : Action.Still action) : Action.Moves (Signs user) action :=
  signs_of_leaves still.leaves

theorem signs_bind {first : Served α} {next : α → Served β} (start : Action.Moves (Signs user) first)
    (finish : ∀ value, Action.Moves (Signs user) (next value)) : Action.Moves (Signs user) (first >>= next) := by
  have compose : ∀ a b c, Signs user a b → Signs user b c → Signs user a c := fun _ _ _ first second => first.trans second
  exact start.bind compose finish

theorem signs_sys (call : Action FileSystem ErrorKind α) : Action.Moves (Signs user) (sys call) :=
  signs_of_leaves fun _ => rfl

theorem signs_audit (op : Text) (p : PathBuf) (size : Nat) (success : Bool) (message : Text) :
    Action.Moves (Signs user) (audit env user op p size success message) :=
  fun state => signedBy_logIfFree env.loggerFree _ state.log

theorem signs_openOr (op message : Text) (options : FileSystem.OpenOptions) (p : PathBuf) :
    Action.Moves (Signs user) (openOr env user op message options p) := by
  apply signs_bind (signs_of_leaves fun _ => rfl)
  intro answer
  cases answer with
  | ok file => exact signs_still (Action.still_pure file)
  | error why => exact signs_bind (signs_audit _ _ _ _ _) fun _ => signs_still (Action.still_fail _)

theorem signs_copyFrom (file : FileSystem.OpenFile) (position written : Nat) (input : Upload) :
    Action.Moves (Signs user) (copyFrom env file position written input) := by
  induction input generalizing position written with
  | nil => exact signs_still (Action.still_pure _)
  | cons piece rest ih =>
      apply signs_bind (signs_still (Action.still_lift _))
      intro buffer
      split
      · exact signs_still (Action.still_pure _)
      · exact signs_bind (signs_sys _) fun _ => ih _ _

theorem signs_createParent (p : PathBuf) : Action.Moves (Signs user) (createParent env p) := by
  unfold createParent
  split
  · exact signs_sys _
  · exact signs_still (Action.still_pure _)

theorem signs_changed {right : Bool} {path : Text} {rest : PathBuf → Served α}
    (works : ∀ p, Action.Moves (Signs user) (rest p)) :
    Action.Moves (Signs user) (require right >>= fun _ => resolvePath path >>= rest) :=
  signs_bind (signs_still (still_require _)) fun _ => signs_bind (signs_still (still_resolvePath path)) works

theorem signs_call (call : Call) : Action.Moves (Signs user) (handleCall env user call) := by
  have answers : ∀ {γ : Type} {first : Served γ} (answer : γ → Answer), Action.Moves (Signs user) first →
      Action.Moves (Signs user) (first >>= fun value => pure (answer value)) :=
    fun _ moves => signs_bind moves fun _ => signs_still (Action.still_pure _)
  cases call with
  | metadata path =>
      exact answers _ (signs_bind (signs_still (still_resolvePath path)) fun _ => signs_sys _)
  | list path => exact answers _ (signs_changed fun _ => signs_bind (signs_sys _) fun _ => signs_sys _)
  | get path startPos =>
      apply answers
      apply signs_changed
      intro p
      exact signs_bind (signs_openOr _ _ _ _) fun _ => signs_bind (signs_still (still_seekTo startPos)) fun _ =>
        signs_bind (signs_still (Action.still_read _)) fun _ => signs_bind (signs_audit _ _ _ _ _) fun _ =>
          signs_still (Action.still_pure _)
  | put input path startPos =>
      apply answers
      apply signs_changed
      intro p
      exact signs_bind (signs_still (still_checkQuota p)) fun _ => signs_bind (signs_createParent p) fun _ =>
        signs_bind (signs_openOr _ _ _ _) fun file => signs_bind (signs_still (still_seekTo startPos)) fun _ =>
          signs_bind (signs_copyFrom file _ _ input) fun _ => signs_bind (signs_sys _) fun _ =>
            signs_bind (signs_still still_currentRoot) fun _ => signs_bind (signs_audit _ _ _ _ _) fun _ =>
              signs_still (Action.still_pure _)
  | del path =>
      exact answers _ (signs_changed fun _ => signs_bind (signs_sys _) fun _ =>
        signs_bind (signs_still still_currentRoot) fun _ => signs_audit _ _ _ _ _)
  | mkd path => exact answers _ (signs_changed fun _ => signs_bind (signs_sys _) fun _ => signs_audit _ _ _ _ _)
  | rename «from» «to» =>
      exact answers _ (signs_changed fun _ => signs_bind (signs_still (still_resolvePath «to»)) fun _ =>
        signs_bind (signs_sys _) fun _ => signs_audit _ _ _ _ _)
  | rmd path => exact answers _ (signs_changed fun _ => signs_bind (signs_sys _) fun _ => signs_audit _ _ _ _ _)
  | cwd path =>
      exact answers _ (signs_bind (signs_still (still_resolvePath path)) fun _ => signs_bind (signs_sys _) fun _ =>
        signs_still (Action.still_check _ _))

variable (env user) in
theorem enter_log (state : WftpdFilesystem) : (enter env user state).2.log = state.log := by
  have leaves : Action.Leaves WftpdFilesystem.log (enter env user) :=
    Action.Leaves.bind (fun _ => rfl) fun _ => (Action.still_query _).leaves.bind fun _ _ => rfl
  exact leaves state

end Calls

end Wftpd.Ftp

namespace Wftpd.Daemon
open Wftpd.Posix Wftpd.Common Wftpd.Library Wftpd.Ftp Wftpd.Sftp

/-- In whose name a step may write: the client at whose request it is. -/
def ServerInput.author (server : Server) : ServerInput → Option Author
  | .call who _ => (server.logins who).map fun login => login.user.author
  | .request who _ => (server.sessions who).map Session.author
  | .enter _ _ _ | .start _ _ _ _ _ _ => none

section Steps
variable {digests : Digests} {server next : Server} {input : ServerInput}

theorem Acts.signed (acts : Acts digests server input next) :
    next.log = server.log ∨ ∃ author, input.author server = some author ∧ SignedBy author server.log next.log := by
  cases acts with
  | absent | started => exact .inl rfl
  | @entered who env user after ran =>
      have kept := enter_log env user (server.storage none)
      rw [ran] at kept
      exact .inl kept
  | @refused who env user after why ran =>
      have kept := enter_log env user (server.storage none)
      rw [ran] at kept
      exact .inl kept
  | @called who input login after found ran =>
      have signed : Ftp.Signs login.user (server.storage login.root) after := ran ▸ Ftp.signs_call input.2 _
      exact .inr ⟨login.user.author, by simp [ServerInput.author, found], signed⟩
  | @replied who input session after found ran =>
      have signed : Sftp.Signs (server.view session) after := ran ▸ Sftp.signs_request digests input.2 _
      exact .inr ⟨session.author, by simp [ServerInput.author, found], signed.2⟩

end Steps

/-- In every run the audit log only grows, and each new record names the client at whose
request it was written. -/
theorem audit_attributed (digests : Digests) (server : Server) (inputs : List ServerInput) :
    ∃ records, (run (serverStep digests) server inputs).2.log = server.log ++ records ∧
      ∀ record ∈ records, ∃ earlier input later, inputs = earlier ++ input :: later ∧
        input.author (run (serverStep digests) server earlier).2 = some record.author := by
  induction inputs generalizing server with
  | nil => exact ⟨[], (List.append_nil _).symm, fun _ never => by cases never⟩
  | cons input rest ih =>
      obtain ⟨records, grown, later⟩ := ih (serverStep digests server input).2
      have onward : ∀ record ∈ records, ∃ earlier other others, input :: rest = earlier ++ other :: others ∧
          other.author (run (serverStep digests) server earlier).2 = some record.author := by
        intro record member
        obtain ⟨earlier, other, others, rfl, author⟩ := later record member
        exact ⟨input :: earlier, other, others, rfl, author⟩
      rcases (serverStep_acts digests server input).signed with same | ⟨author, acting, first, wrote, signed⟩
      · exact ⟨records, by rw [run_cons, grown, same], onward⟩
      · refine ⟨first ++ records, by rw [run_cons, grown, wrote, List.append_assoc], fun record member => ?_⟩
        rcases List.mem_append.mp member with member | member
        · exact ⟨[], input, rest, rfl, by rw [run_nil, acting, signed record member]⟩
        · exact onward record member

end Wftpd.Daemon
