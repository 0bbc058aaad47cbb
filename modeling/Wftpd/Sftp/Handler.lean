import Wftpd.Common.Config
import Wftpd.Common.FileLogger
import Wftpd.Common.Users
import Wftpd.Posix.FileSystem

/-! SSH authentication of the SFTP front end. -/

set_option autoImplicit false

namespace Wftpd.Sftp
open Wftpd.Posix Wftpd.Common Wftpd.Library

inductive Panic where
  | panicked
  deriving DecidableEq, Repr

inductive Auth where
  | accept
  | reject
  deriving DecidableEq, Repr

structure SftpHandler where
  clientIp : Text
  keysDir : PathBuf
  authenticated : Bool
  username : Option Text
  homeDir : Option Text
  deriving DecidableEq, Repr

namespace SftpHandler

def new (clientIp : Text) (keysDir : PathBuf) : SftpHandler := ⟨clientIp, keysDir, false, none, none⟩

def newClient (clientAddr : Option IpAddr) (keysDir : PathBuf) : SftpHandler :=
  new ((clientAddr.map IpAddr.toText).getD "unknown".toList) keysDir

end SftpHandler

structure AuthEnv where
  login : LoginEnv
  os : Os
  fs : FileSystem
  /-- Reading a key file as text. -/
  readToString : PathBuf → Option Text
  /-- The text of an operating system error. -/
  describe : ErrorKind → Text
  loggerFree : Bool

/-- One connection with the shared user store and the audit log. -/
structure AuthState where
  handler : SftpHandler
  accounts : Accounts
  log : List FileLogInfo

namespace SftpHandler

def audit (env : AuthEnv) (message : Text) (username : Option Text) (result : Text) :
    Action AuthState Panic Unit :=
  Action.modify fun state => { state with
    log := logIfFree env.loggerFree {
      username := username.getD "unknown".toList
      clientIp := state.handler.clientIp
      operation := "SFTP".toList
      filePath := message
      fileSize := 0
      protocol := "SFTP".toList
      success := result = "LOGIN".toList
      message := result } state.log }

def reloadUsers (env : AuthEnv) : Action AuthState Panic Unit := fun state =>
  match state.accounts.reload env.login with
  | .done accounts => (.ok (), { state with accounts := accounts })
  | .crashed => (.error .panicked, state)

def resolveUser (env : AuthEnv) (user : Text) : Action AuthState Panic (Option (Text × Bool)) := do
  if !isSafeUsername user then return none
  reloadUsers env
  let found ← Action.read fun state => state.accounts.manager.getUser user
  return (found.filter User.enabled).map fun account => (account.homeDir, account.enabled)

/-- The checks of `validate_and_set_home_dir`: the canonical home, or the error text. -/
def validateHomeDir (env : AuthEnv) (user homeDir : Text) : Except Text Text :=
  if trim homeDir = [] then
    .error ("home directory not configured for user '".toList ++ user ++ "'".toList)
  else match env.fs.metadata env.os (components homeDir) with
    | .error why => .error ("home directory '".toList ++ homeDir ++
        "' does not exist or cannot be accessed: ".toList ++ env.describe why)
    | .ok metadata =>
        if metadata.fileType ≠ .dir then
          .error ("home path '".toList ++ homeDir ++ "' is not a directory".toList)
        else match env.fs.canonicalize env.os (components homeDir) with
          | .error why => .error ("cannot canonicalize home directory '".toList ++ homeDir ++
              "': ".toList ++ env.describe why)
          | .ok canonical => .ok canonical.toText

def setHomeDir (user home : Text) : Action AuthState Panic Unit :=
  Action.modify fun state => { state with
    handler := { state.handler with homeDir := some home, username := some user, authenticated := true } }

def reject (env : AuthEnv) (user via : Text) : Action AuthState Panic Auth := do
  audit env (via ++ " auth failed for user ".toList ++ user) (some user) "AUTH_FAIL".toList
  return .reject

/-- The end of both methods, once the client has proved who it is. -/
def finishLogin (env : AuthEnv) (user homeDir loginMessage : Text) : Action AuthState Panic Auth := do
  match validateHomeDir env user homeDir with
  | .ok home =>
      setHomeDir user home
      audit env loginMessage (some user) "LOGIN".toList
      return .accept
  | .error why =>
      audit env ("Login failed: ".toList ++ why) (some user) "AUTH_FAIL".toList
      return .reject

def checkPassword (verifyPassword : Text → Text → Bool) (env : AuthEnv) (user password : Text) :
    Action AuthState Panic Bool := fun state =>
  (.ok (state.accounts.authenticate verifyPassword env.login user password).1,
    { state with accounts := (state.accounts.authenticate verifyPassword env.login user password).2 })

def authPassword (verifyPassword : Text → Text → Bool) (env : AuthEnv) (user password : Text) :
    Action AuthState Panic Auth := do
  match ← resolveUser env user with
  | none => reject env user "password".toList
  | some (homeDir, _) =>
      if !(← checkPassword verifyPassword env user password) then reject env user "password".toList
      else finishLogin env user homeDir ("User ".toList ++ user ++ " logged in".toList)

section PublicKey
variable {PublicKey : Type} [DecidableEq PublicKey] (parsePublicKeyBase64 : Text → Option PublicKey)

def userPubkeyPath (keysDir : PathBuf) (user : Text) : PathBuf :=
  keysDir.join (components (user ++ ".pub".toList))

/-- The key file of the user holds exactly this key. -/
def keyMatches (env : AuthEnv) (keysDir : PathBuf) (user : Text) (publicKey : PublicKey) : Bool :=
  match env.readToString (userPubkeyPath keysDir user) with
  | none => false
  | some storedKey =>
      match parsePublicKeyBase64 (trim storedKey) with
      | some storedPubkey => publicKey = storedPubkey
      | none => false

def checkKey (env : AuthEnv) (user : Text) (publicKey : PublicKey) : Action AuthState Panic Bool :=
  Action.read fun state => keyMatches parsePublicKeyBase64 env state.handler.keysDir user publicKey

def authPublickey (env : AuthEnv) (user : Text) (publicKey : PublicKey) : Action AuthState Panic Auth := do
  match ← resolveUser env user with
  | none => reject env user "public key".toList
  | some (homeDir, enabled) =>
      if !enabled then reject env user "public key".toList
      else if !(← checkKey parsePublicKeyBase64 env user publicKey) then reject env user "public key".toList
      else finishLogin env user homeDir ("User ".toList ++ user ++ " logged in via public key".toList)

end PublicKey

/-- The account a login finds: the file replaces the memory copy first. -/
def AccountFound (env : AuthEnv) (state : AuthState) (user : Text) (accounts : Accounts) (account : User) : Prop :=
  isSafeUsername user = true ∧ state.accounts.reload env.login = .done accounts ∧
    accounts.manager.getUser user = some account ∧ account.enabled = true

def PasswordValid (verifyPassword : Text → Text → Bool) (env : AuthEnv) (state : AuthState)
    (user password : Text) : Prop :=
  ∃ accounts account, AccountFound env state user accounts account ∧
    verifyPassword password account.passwordHash = true ∧ (validateHomeDir env user account.homeDir).isOk = true

def KeyValid {PublicKey : Type} [DecidableEq PublicKey] (parsePublicKeyBase64 : Text → Option PublicKey)
    (env : AuthEnv) (state : AuthState) (user : Text) (publicKey : PublicKey) : Prop :=
  ∃ accounts account, AccountFound env state user accounts account ∧
    keyMatches parsePublicKeyBase64 env state.handler.keysDir user publicKey = true ∧
      (validateHomeDir env user account.homeDir).isOk = true

@[simp] theorem reject_answer (env : AuthEnv) (user via : Text) (state : AuthState) :
    (reject env user via state).1 = .ok .reject := rfl

theorem finishLogin_accept_iff {env : AuthEnv} {user homeDir loginMessage : Text} {state : AuthState} :
    (finishLogin env user homeDir loginMessage state).1 = .ok .accept ↔ (validateHomeDir env user homeDir).isOk = true := by
  unfold finishLogin
  cases validateHomeDir env user homeDir with
  | ok home => exact ⟨fun _ => rfl, fun _ => rfl⟩
  | error why =>
      constructor <;>
        · intro impossible
          cases impossible

/-- A login that has found its account is accepted by its check and its home. -/
theorem checked_accept_iff {check : Action AuthState Panic Bool} {env : AuthEnv} {user homeDir via message : Text}
    {state next : AuthState} {verdict : Bool} (checked : check state = (.ok verdict, next)) :
    ((check >>= fun ok => if !ok then reject env user via else finishLogin env user homeDir message) state).1 =
        .ok .accept ↔
      verdict = true ∧ (validateHomeDir env user homeDir).isOk = true := by
  rw [Action.bind_run_ok checked]
  cases verdict with
  | false => simp
  | true => simp [finishLogin_accept_iff]

theorem checked_accounts {check : Action AuthState Panic Bool} {env : AuthEnv} {user homeDir via message : Text}
    {state next : AuthState} {verdict : Bool} (checked : check state = (.ok verdict, next)) :
    ((check >>= fun ok => if !ok then reject env user via else finishLogin env user homeDir message) state).2.accounts =
      next.accounts := by
  rw [Action.bind_run_ok checked]
  cases verdict with
  | false => rfl
  | true =>
      simp only [Bool.not_true, Bool.false_eq_true, if_false, finishLogin]
      cases validateHomeDir env user homeDir <;> rfl

/-- What looking up a user does: a crash, no account, or the account after a reload. -/
theorem resolveUser_cases (env : AuthEnv) (user : Text) (state : AuthState) :
    (resolveUser env user state).1 = .error .panicked ∧ (∀ accounts account, ¬ AccountFound env state user accounts account) ∨
    (resolveUser env user state).1 = .ok none ∧ (∀ accounts account, ¬ AccountFound env state user accounts account) ∨
    ∃ accounts account, AccountFound env state user accounts account ∧
      resolveUser env user state = (.ok (some (account.homeDir, true)), { state with accounts := accounts }) := by
  cases safe : isSafeUsername user with
  | false =>
      right; left
      refine ⟨by simp [resolveUser, safe], fun accounts account found => ?_⟩
      rw [found.1] at safe
      cases safe
  | true =>
      cases reloaded : state.accounts.reload env.login with
      | crashed =>
          left
          refine ⟨by simp [resolveUser, safe, Action.bind_run, reloadUsers, reloaded], fun accounts account found => ?_⟩
          rw [found.2.1] at reloaded
          cases reloaded
      | done accounts =>
          right
          have run : resolveUser env user state =
              (.ok (((accounts.manager.getUser user).filter User.enabled).map
                fun account => (account.homeDir, account.enabled)), { state with accounts := accounts }) := by
            simp [resolveUser, safe, Action.bind_run, reloadUsers, reloaded]
          have unique : ∀ other account, AccountFound env state user other account →
              accounts.manager.getUser user = some account ∧ account.enabled = true := by
            intro other account found
            have same := found.2.1
            rw [reloaded] at same
            cases same
            exact found.2.2
          cases found : (accounts.manager.getUser user).filter User.enabled with
          | none =>
              left
              refine ⟨by rw [run, found]; rfl, fun other account there => ?_⟩
              obtain ⟨listed, enabled⟩ := unique other account there
              simp [listed, enabled] at found
          | some account =>
              right
              obtain ⟨listed, enabled⟩ := Option.filter_eq_some_iff.mp found
              exact ⟨accounts, account, ⟨safe, reloaded, listed, enabled⟩, by rw [run, found]; simp [enabled]⟩

theorem AccountFound.unique {env : AuthEnv} {state : AuthState} {user : Text} {accounts other : Accounts}
    {account another : User} (left : AccountFound env state user accounts account)
    (right : AccountFound env state user other another) : other = accounts ∧ another = account := by
  have sameStore := left.2.1.symm.trans right.2.1
  cases sameStore
  have sameAccount := left.2.2.1.symm.trans right.2.2.1
  cases sameAccount
  exact ⟨rfl, rfl⟩

/-- A login is accepted when it finds an account and what follows accepts that account. -/
theorem resolved_accept_iff {env : AuthEnv} {user : Text} {state : AuthState} {accepts : User → Prop}
    {next : Option (Text × Bool) → Action AuthState Panic Auth} (unknown : ∀ state, (next none state).1 ≠ .ok .accept)
    (known : ∀ accounts account, AccountFound env state user accounts account →
      ((next (some (account.homeDir, true)) { state with accounts := accounts }).1 = .ok .accept ↔ accepts account)) :
    ((resolveUser env user >>= next) state).1 = .ok .accept ↔
      ∃ accounts account, AccountFound env state user accounts account ∧ accepts account := by
  rcases resolveUser_cases env user state with ⟨crash, nobody⟩ | ⟨missing, nobody⟩ | ⟨accounts, account, found, run⟩
  · rw [Action.bind_run_error (Prod.ext crash rfl)]
    constructor
    · intro accepted
      cases accepted
    · rintro ⟨accounts, account, found, -⟩
      exact absurd found (nobody accounts account)
  · rw [Action.bind_run_ok (Prod.ext missing rfl)]
    constructor
    · intro accepted
      exact absurd accepted (unknown _)
    · rintro ⟨accounts, account, found, -⟩
      exact absurd found (nobody accounts account)
  · rw [Action.bind_run_ok run, known accounts account found]
    constructor
    · intro accepted
      exact ⟨accounts, account, found, accepted⟩
    · rintro ⟨other, another, there, accepted⟩
      obtain ⟨-, rfl⟩ := found.unique there
      exact accepted

theorem authPassword_accept_iff {verifyPassword : Text → Text → Bool} {env : AuthEnv} {user password : Text}
    {state : AuthState} :
    (authPassword verifyPassword env user password state).1 = .ok .accept ↔
      PasswordValid verifyPassword env state user password := by
  apply resolved_accept_iff
  · intro state accepted
    cases accepted
  · intro accounts account found
    have verdict := Accounts.authenticate_found verifyPassword env.login password found.2.2.1 found.2.2.2
    rw [← verdict]
    exact checked_accept_iff rfl

theorem authPassword_accounts {verifyPassword : Text → Text → Bool} {env : AuthEnv} {user password : Text}
    {state : AuthState} {accounts : Accounts} {account : User} (found : AccountFound env state user accounts account) :
    (authPassword verifyPassword env user password state).2.accounts =
      (accounts.authenticate verifyPassword env.login user password).2 := by
  rcases resolveUser_cases env user state with ⟨-, unknown⟩ | ⟨-, unknown⟩ | ⟨other, another, there, run⟩
  · exact absurd found (unknown accounts account)
  · exact absurd found (unknown accounts account)
  · obtain ⟨rfl, rfl⟩ := found.unique there
    rw [authPassword, Action.bind_run_ok run]
    exact checked_accounts rfl

theorem authPublickey_accept_iff {PublicKey : Type} [DecidableEq PublicKey]
    {parsePublicKeyBase64 : Text → Option PublicKey} {env : AuthEnv} {user : Text} {publicKey : PublicKey}
    {state : AuthState} :
    (authPublickey parsePublicKeyBase64 env user publicKey state).1 = .ok .accept ↔
      KeyValid parsePublicKeyBase64 env state user publicKey := by
  apply resolved_accept_iff
  · intro state accepted
    cases accepted
  · intro accounts account found
    exact checked_accept_iff rfl

end SftpHandler

end Wftpd.Sftp
