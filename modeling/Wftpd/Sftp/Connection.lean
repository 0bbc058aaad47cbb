import Wftpd.Library.Runs
import Wftpd.Sftp.Handler
import Wftpd.Sftp.Session

/-! One SSH connection: logins, channels and the start of the SFTP subsystem.

The client may log in again and again, and start the subsystem on several channels.
Whatever else uses the user store, the key files and the file system comes in with
each callback.
-/

set_option autoImplicit false

namespace Wftpd.Sftp
open Wftpd.Posix Wftpd.Common Wftpd.Library

namespace SftpHandler

/-- A login that recorded its user and his home, or one that left the handler as it was. -/
def Concludes (handler : SftpHandler) (proven : Text → Prop) (user : Text) (result : Except Panic Auth × AuthState) :
    Prop :=
  (result.1 = .ok .accept ∧ ∃ home, proven home ∧
    result.2.handler = { handler with homeDir := some home, username := some user, authenticated := true }) ∨
  (result.1 ≠ .ok .accept ∧ result.2.handler = handler)

/-- The canonical home of an enabled account that has shown what is asked of it. -/
def HomeOf (shown : User → Prop) (env : AuthEnv) (state : AuthState) (user home : Text) : Prop :=
  ∃ accounts account, AccountFound env state user accounts account ∧ shown account ∧
    validateHomeDir env user account.homeDir = .ok home

section Conclusions
variable {env : AuthEnv} {user : Text} {state : AuthState} {proven : Text → Prop} {handler : SftpHandler}

theorem resolveUser_handler : Action.Leaves AuthState.handler (resolveUser env user) := by
  unfold resolveUser
  split
  · exact (Action.still_pure none).leaves
  · apply Action.Leaves.bind
    · intro state
      unfold reloadUsers
      cases state.accounts.reload env.login <;> rfl
    · intro _
      apply Action.Leaves.bind (Action.still_read _).leaves
      intro found
      exact (Action.still_pure _).leaves

theorem resolveUser_some {homeDir : Text} {enabled : Bool} {after : AuthState}
    (ran : resolveUser env user state = (.ok (some (homeDir, enabled)), after)) :
    ∃ accounts account, AccountFound env state user accounts account ∧ homeDir = account.homeDir ∧
      enabled = true ∧ after = { state with accounts := accounts } := by
  rcases resolveUser_cases env user state with ⟨crash, -⟩ | ⟨missing, -⟩ | ⟨accounts, account, found, run⟩
  · rw [ran] at crash
    cases crash
  · rw [ran] at missing
    cases missing
  · cases ran.symm.trans run
    exact ⟨accounts, account, found, rfl, rfl, rfl⟩

theorem concludes_reject {via : Text} (same : state.handler = handler) :
    Concludes handler proven user (reject env user via state) := by
  right
  constructor
  · intro accepted
    cases accepted
  · exact same

theorem concludes_finishLogin {homeDir message : Text} (same : state.handler = handler)
    (proves : ∀ home, validateHomeDir env user homeDir = .ok home → proven home) :
    Concludes handler proven user (finishLogin env user homeDir message state) := by
  unfold finishLogin
  cases checked : validateHomeDir env user homeDir with
  | ok home =>
      left
      refine ⟨rfl, home, proves home checked, ?_⟩
      subst handler
      rfl
  | error why =>
      right
      refine ⟨?_, same⟩
      intro accepted
      cases accepted

/-- Past a part that leaves the handler alone. -/
theorem concludes_bind {α : Type} {first : Action AuthState Panic α} {next : α → Action AuthState Panic Auth}
    (leaves : Action.Leaves AuthState.handler first)
    (continued : ∀ value after, first state = (.ok value, after) → after.handler = state.handler →
      Concludes state.handler proven user (next value after)) :
    Concludes state.handler proven user ((first >>= next) state) := by
  apply leaves.followed (Concludes state.handler proven user)
  · intro why after same
    right
    refine ⟨?_, same⟩
    intro accepted
    cases accepted
  · exact continued

/-- The end of both methods: what the client shows, then the home. -/
theorem concludes_checked {check : Action AuthState Panic Bool} {via message : Text} {shown : User → Prop}
    {accounts : Accounts} {account : User} (found : AccountFound env state user accounts account)
    (leaves : Action.Leaves AuthState.handler check)
    (shows : ∀ after, check { state with accounts := accounts } = (.ok true, after) → shown account) :
    Concludes state.handler (HomeOf shown env state user) user
      ((check >>= fun ok => if !ok then reject env user via else finishLogin env user account.homeDir message)
        { state with accounts := accounts }) := by
  apply concludes_bind leaves
  intro verified after checked same
  cases verified with
  | false => exact concludes_reject same
  | true =>
      apply concludes_finishLogin same
      intro home valid
      exact ⟨accounts, account, found, shows after checked, valid⟩

theorem authPassword_concludes (verifyPassword : Text → Text → Bool) (password : Text) :
    Concludes state.handler
      (HomeOf (fun account => verifyPassword password account.passwordHash = true) env state user) user
      (authPassword verifyPassword env user password state) := by
  apply concludes_bind resolveUser_handler
  rintro (_ | ⟨homeDir, enabled⟩) after ran same
  · exact concludes_reject same
  · obtain ⟨accounts, account, found, rfl, -, rfl⟩ := resolveUser_some ran
    apply concludes_checked found
    · intro _
      rfl
    · intro after checked
      have verdict := Accounts.authenticate_found verifyPassword env.login password found.2.2.1 found.2.2.2
      rw [← verdict]
      exact Except.ok.inj (Prod.mk.inj checked).1

theorem authPublickey_concludes {PublicKey : Type} [DecidableEq PublicKey]
    (parsePublicKeyBase64 : Text → Option PublicKey) (publicKey : PublicKey) :
    Concludes state.handler
      (HomeOf (fun _ => keyMatches parsePublicKeyBase64 env state.handler.keysDir user publicKey = true) env state user)
      user (authPublickey parsePublicKeyBase64 env user publicKey state) := by
  apply concludes_bind resolveUser_handler
  rintro (_ | ⟨homeDir, enabled⟩) after ran same
  · exact concludes_reject same
  · obtain ⟨accounts, account, found, rfl, rfl, rfl⟩ := resolveUser_some ran
    apply concludes_checked found
    · exact (Action.still_read _).leaves
    · intro after checked
      exact Except.ok.inj (Prod.mk.inj checked).1

end Conclusions

end SftpHandler

/-- One connection; it ends when the process does. -/
structure Connection where
  auth : AuthState
  openChannels : Finset UInt32
  alive : Bool

/-- What one callback meets: the user store as it has become, and the clock, and whether
the client can still be told that its subsystem starts. -/
structure CallbackEnv where
  auth : AuthEnv
  accounts : Accounts
  clock : Nat
  channelSuccess : Bool

inductive Callback (PublicKey : Type) where
  | authPassword (user password : Text)
  | authPublickey (user : Text) (publicKey : PublicKey)
  | channelOpenSession (channel : UInt32)
  | subsystemRequest (channel : UInt32) (name : Text)
  deriving DecidableEq, Repr

inductive CallbackAnswer where
  | auth (answer : Auth)
  | opened
  | channelFailure
  /-- The handler that serves the channel from now on. -/
  | serving (session : Session)
  | failed
  | none

namespace Connection

def new (clientIp : Text) (keysDir : PathBuf) (accounts : Accounts) (log : List FileLogInfo) : Connection :=
  ⟨⟨.new clientIp keysDir, accounts, log⟩, ∅, true⟩

def authAnswer (conn : Connection) : Except Panic Auth × AuthState → CallbackAnswer × Connection
  | (.ok answer, auth) => (.auth answer, { conn with auth := auth })
  | (.error .panicked, auth) => (.none, { conn with auth := auth, alive := false })

def channelOpenSession (channel : UInt32) (conn : Connection) : CallbackAnswer × Connection :=
  (.opened, { conn with openChannels := insert channel conn.openChannels })

def subsystemRequest (env : CallbackEnv) (channel : UInt32) (name : Text) (conn : Connection) :
    CallbackAnswer × Connection :=
  if name ≠ "sftp".toList then (.channelFailure, conn)
  else if !conn.auth.handler.authenticated then (.channelFailure, conn)
  else if channel ∉ conn.openChannels then (.channelFailure, conn)
  else
    let rest := { conn with openChannels := conn.openChannels.erase channel }
    -- a login sets both, so the defaults are never used
    let username := conn.auth.handler.username.getD []
    let homeDir := conn.auth.handler.homeDir.getD []
    let handler := Session.new username homeDir conn.auth.handler.clientIp env.accounts.manager env.clock env.auth.fs
      conn.auth.log
    if env.channelSuccess then (.serving handler, rest) else (.failed, rest)

theorem subsystemRequest_handler (env : CallbackEnv) (channel : UInt32) (name : Text) (conn : Connection) :
    (conn.subsystemRequest env channel name).1 ≠ .auth .accept ∧
      (conn.subsystemRequest env channel name).2.auth.handler = conn.auth.handler := by
  unfold subsystemRequest
  split_ifs <;> exact ⟨by simp, rfl⟩

theorem subsystemRequest_serving {env : CallbackEnv} {channel : UInt32} {name : Text} {conn : Connection}
    {session : Session} (serving : (conn.subsystemRequest env channel name).1 = .serving session) :
    conn.auth.handler.authenticated = true ∧ session.username = conn.auth.handler.username.getD [] ∧
      session.homeDir = conn.auth.handler.homeDir.getD [] := by
  unfold subsystemRequest at serving
  cases authenticated : conn.auth.handler.authenticated with
  | false =>
      rw [authenticated] at serving
      split at serving <;> cases serving
  | true =>
      refine ⟨rfl, ?_⟩
      split_ifs at serving
      cases serving
      exact ⟨rfl, rfl⟩

end Connection

section Callbacks
variable {PublicKey : Type} [DecidableEq PublicKey] (verifyPassword : Text → Text → Bool)
  (parsePublicKeyBase64 : Text → Option PublicKey)

def Connection.meets (conn : Connection) (env : CallbackEnv) : Connection :=
  { conn with auth := { conn.auth with accounts := env.accounts } }

def connectionStep (conn : Connection) (input : CallbackEnv × Callback PublicKey) : CallbackAnswer × Connection :=
  let found := conn.meets input.1
  if !conn.alive then (.none, conn)
  else match input.2 with
    | .authPassword user password =>
        found.authAnswer (SftpHandler.authPassword verifyPassword input.1.auth user password found.auth)
    | .authPublickey user publicKey =>
        found.authAnswer (SftpHandler.authPublickey parsePublicKeyBase64 input.1.auth user publicKey found.auth)
    | .channelOpenSession channel => found.channelOpenSession channel
    | .subsystemRequest channel name => found.subsystemRequest input.1 channel name

def CallbackAnswer.Accepts (answer : CallbackAnswer) : Prop := answer = .auth .accept

/-- A login of an enabled user who showed his password or key, with his canonical home. -/
def LoggedIn (conn : Connection) (input : CallbackEnv × Callback PublicKey) (user home : Text) : Prop :=
  match input.2 with
  | .authPassword name password => user = name ∧ SftpHandler.HomeOf
      (fun account => verifyPassword password account.passwordHash = true) input.1.auth (conn.meets input.1).auth name home
  | .authPublickey name publicKey => user = name ∧ SftpHandler.HomeOf
      (fun _ => SftpHandler.keyMatches parsePublicKeyBase64 input.1.auth conn.auth.handler.keysDir name publicKey = true)
      input.1.auth (conn.meets input.1).auth name home
  | _ => False

/-- The handler holds what a login proved. -/
def Recorded (conn : Connection) (input : CallbackEnv × Callback PublicKey) (handler : SftpHandler) : Prop :=
  ∃ user home, LoggedIn verifyPassword parsePublicKeyBase64 conn input user home ∧ handler.authenticated = true ∧
    handler.username = some user ∧ handler.homeDir = some home

variable {verifyPassword parsePublicKeyBase64} {conn : Connection} {input : CallbackEnv × Callback PublicKey}

theorem authAnswer_concludes (conn : Connection) {proven : Text → Prop} {user : Text} {result : Except Panic Auth × AuthState}
    (concludes : SftpHandler.Concludes conn.auth.handler proven user result) :
    ((conn.authAnswer result).1.Accepts ∧ ∃ home, proven home ∧ (conn.authAnswer result).2.auth.handler =
        { conn.auth.handler with homeDir := some home, username := some user, authenticated := true }) ∨
      (¬ (conn.authAnswer result).1.Accepts ∧ (conn.authAnswer result).2.auth.handler = conn.auth.handler) := by
  obtain ⟨answer, auth⟩ := result
  rcases concludes with ⟨accepted, proved⟩ | ⟨refused, same⟩
  · simp only at accepted
    subst answer
    exact .inl ⟨rfl, proved⟩
  · right
    cases answer with
    | ok answer =>
        refine ⟨?_, same⟩
        intro accepted
        cases accepted
        exact refused rfl
    | error why =>
        cases why
        refine ⟨?_, same⟩
        intro accepted
        cases accepted

theorem connectionStep_cases (conn : Connection) (input : CallbackEnv × Callback PublicKey) :
    (connectionStep verifyPassword parsePublicKeyBase64 conn input).1.Accepts ∧
        Recorded verifyPassword parsePublicKeyBase64 conn input
          (connectionStep verifyPassword parsePublicKeyBase64 conn input).2.auth.handler ∨
      ¬ (connectionStep verifyPassword parsePublicKeyBase64 conn input).1.Accepts ∧
        (connectionStep verifyPassword parsePublicKeyBase64 conn input).2.auth.handler = conn.auth.handler := by
  obtain ⟨env, callback⟩ := input
  unfold connectionStep
  -- nothing answers on a connection that a panic has ended
  cases conn.alive with
  | false =>
      right
      refine ⟨?_, rfl⟩
      intro accepted
      cases accepted
  | true =>
      cases callback with
      | authPassword user password =>
          rcases authAnswer_concludes (conn.meets env)
            (SftpHandler.authPassword_concludes verifyPassword password) with ⟨accepted, home, proved, same⟩ | refused
          · refine .inl ⟨accepted, user, home, ⟨rfl, proved⟩, ?_⟩
            simp only [Bool.not_true, Bool.false_eq_true, if_false, same, and_self]
          · exact .inr refused
      | authPublickey user publicKey =>
          rcases authAnswer_concludes (conn.meets env)
            (SftpHandler.authPublickey_concludes parsePublicKeyBase64 publicKey) with
            ⟨accepted, home, proved, same⟩ | refused
          · refine .inl ⟨accepted, user, home, ⟨rfl, proved⟩, ?_⟩
            simp only [Bool.not_true, Bool.false_eq_true, if_false, same, and_self]
          · exact .inr refused
      | channelOpenSession channel =>
          right
          refine ⟨?_, rfl⟩
          intro accepted
          cases accepted
      | subsystemRequest channel name => exact .inr (Connection.subsystemRequest_handler env channel name (conn.meets env))

/-- Only an authenticated connection serves, and as the handler says. -/
theorem connectionStep_serving {session : Session}
    (serving : (connectionStep verifyPassword parsePublicKeyBase64 conn input).1 = .serving session) :
    conn.auth.handler.authenticated = true ∧ session.username = conn.auth.handler.username.getD [] ∧
      session.homeDir = conn.auth.handler.homeDir.getD [] := by
  obtain ⟨env, callback⟩ := input
  have answers : ∀ result, (Connection.authAnswer (conn.meets env) result).1 ≠ .serving session := by
    rintro ⟨why | answer, auth⟩ serves
    · cases why
      cases serves
    · cases serves
  unfold connectionStep at serving
  cases alive : conn.alive with
  | false =>
      rw [alive] at serving
      cases serving
  | true =>
      simp only [alive, Bool.not_true, Bool.false_eq_true, if_false] at serving
      cases callback with
      | authPassword user password => exact absurd serving (answers _)
      | authPublickey user publicKey => exact absurd serving (answers _)
      | channelOpenSession channel => cases serving
      | subsystemRequest channel name =>
          have served : ((conn.meets env).subsystemRequest env channel name).1 = .serving session := serving
          have held := Connection.subsystemRequest_serving served
          exact held

end Callbacks

/-- A handler is started only after a login was accepted, for the user and the home that the
last accepted login proved; a callback that is not an accepted login changes neither. -/
theorem run_serving {PublicKey : Type} [DecidableEq PublicKey] (verifyPassword : Text → Text → Bool)
    (parsePublicKeyBase64 : Text → Option PublicKey) (clientIp : Text) (keysDir : PathBuf) (accounts : Accounts)
    (log : List FileLogInfo) :
    (∀ (conn : Connection) (input : CallbackEnv × Callback PublicKey),
      ¬ (connectionStep verifyPassword parsePublicKeyBase64 conn input).1.Accepts →
        (connectionStep verifyPassword parsePublicKeyBase64 conn input).2.auth.handler = conn.auth.handler) ∧
    ∀ (inputs : List (CallbackEnv × Callback PublicKey)) (input : CallbackEnv × Callback PublicKey) (session : Session),
      (connectionStep verifyPassword parsePublicKeyBase64
        (run (connectionStep verifyPassword parsePublicKeyBase64) (.new clientIp keysDir accounts log) inputs).2
        input).1 = .serving session →
      ∃ conn login, LastMarked (connectionStep verifyPassword parsePublicKeyBase64) CallbackAnswer.Accepts
          (.new clientIp keysDir accounts log) inputs conn login ∧
        LoggedIn verifyPassword parsePublicKeyBase64 conn login session.username session.homeDir := by
  have keeps : ∀ (conn : Connection) (input : CallbackEnv × Callback PublicKey),
      ¬ (connectionStep verifyPassword parsePublicKeyBase64 conn input).1.Accepts →
        (connectionStep verifyPassword parsePublicKeyBase64 conn input).2.auth.handler = conn.auth.handler := by
    intro conn input refused
    rcases connectionStep_cases conn input with ⟨accepted, -⟩ | ⟨-, same⟩
    · exact absurd accepted refused
    · exact same
  refine ⟨keeps, ?_⟩
  intro inputs input session serving
  obtain ⟨authenticated, sameUser, sameHome⟩ := connectionStep_serving serving
  have records : ∀ (conn : Connection) (input : CallbackEnv × Callback PublicKey),
      (connectionStep verifyPassword parsePublicKeyBase64 conn input).1.Accepts →
        Recorded verifyPassword parsePublicKeyBase64 conn input
          (connectionStep verifyPassword parsePublicKeyBase64 conn input).2.auth.handler := by
    intro conn input accepted
    rcases connectionStep_cases conn input with ⟨-, recorded⟩ | ⟨refused, -⟩
    · exact recorded
    · exact absurd accepted refused
  rcases run_lastMarked (fun conn => conn.auth.handler) (Recorded verifyPassword parsePublicKeyBase64) keeps records
    (.new clientIp keysDir accounts log) inputs with
    ⟨same, -⟩ | ⟨conn, login, last, user, home, loggedIn, -, isUser, isHome⟩
  · -- nobody has logged in
    rw [same] at authenticated
    cases authenticated
  · rw [isUser] at sameUser
    rw [isHome] at sameHome
    refine ⟨conn, login, last, ?_⟩
    rw [sameUser, sameHome]
    exact loggedIn

section Samples

def annEnv : CallbackEnv :=
  ⟨⟨⟨1, true, true⟩, .permissive, .empty, fun _ => none, fun _ => [], true⟩, ⟨.absent, usersWith .default⟩, 0, true⟩

def annThenBob : List (CallbackEnv × Callback Text) :=
  [(annEnv, .authPassword "ann".toList "pw".toList), (annEnv, .authPassword "bob".toList "pw".toList),
    (annEnv, .channelOpenSession 0)]

theorem run_serving_ann :
    ∃ conn login, LastMarked (connectionStep (fun _ _ => true) (some : Text → Option Text)) CallbackAnswer.Accepts
        (.new "10.0.0.1".toList [.rootDir] ⟨.absent, .new⟩ []) annThenBob conn login ∧
      LoggedIn (fun _ _ => true) (some : Text → Option Text) conn login "ann".toList "/".toList :=
  (run_serving (fun _ _ => true) (some : Text → Option Text) "10.0.0.1".toList [.rootDir] ⟨.absent, .new⟩ []).2
    annThenBob (annEnv, .subsystemRequest 0 "sftp".toList) (.new "ann".toList "/".toList _ _ _ _ _) rfl

end Samples


end Wftpd.Sftp
