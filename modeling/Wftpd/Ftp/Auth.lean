import Wftpd.Common.Config
import Wftpd.Common.Users
import Wftpd.Ftp.Storage

/-! Password and anonymous logins of the FTP front end, and the user a session gets
for a login. The two share nothing but the name.
-/

set_option autoImplicit false

namespace Wftpd.Ftp
open Wftpd.Posix Wftpd.Common

structure Credentials where
  password : Option Text
  sourceIp : IpAddr
  deriving DecidableEq

inductive AuthenticationError where
  | badPassword
  | badUser
  | ipDisallowed
  deriving DecidableEq, Repr

structure Principal where
  username : Text
  deriving DecidableEq, Repr

structure WftpdAuthenticator where
  allowAnonymous : Bool
  allowedIps : List Text
  deniedIps : List Text
  deriving DecidableEq, Repr

namespace WftpdAuthenticator

def new (config : Config) : WftpdAuthenticator :=
  ⟨config.ftp.allowAnonymous, config.security.allowedIps, config.security.deniedIps⟩

def ipAllowed (networks : Networks) (auth : WftpdAuthenticator) (ip : IpAddr) : Bool :=
  isIpAllowedFor networks auth.allowedIps auth.deniedIps ip.toText

def authenticate (networks : Networks) (verifyPassword : Text → Text → Bool) (env : LoginEnv)
    (auth : WftpdAuthenticator) (username : Text) (creds : Credentials) (accounts : Accounts) :
    Outcome (Except AuthenticationError Principal × Accounts) :=
  if !auth.ipAllowed networks creds.sourceIp then .done (.error .ipDisallowed, accounts)
  else if username = "anonymous".toList ∨ username = "ftp".toList then
    if auth.allowAnonymous then .done (.ok ⟨"anonymous".toList⟩, accounts)
    else .done (.error .badUser, accounts)
  else match creds.password with
    | none => .done (.error .badPassword, accounts)
    | some password =>
        -- reload and check are one critical section
        match accounts.reload env with
        | .crashed => .crashed
        | .done reloaded =>
            match reloaded.authenticate verifyPassword env username password with
            | (true, kept) => .done (.ok ⟨username⟩, kept)
            | (false, kept) => .done (.error .badPassword, kept)

/-- Nothing but the address is looked at when the address is not allowed. -/
theorem authenticate_disallowed {networks : Networks} {auth : WftpdAuthenticator}
    (verifyPassword : Text → Text → Bool) (env : LoginEnv) (username : Text) (creds : Credentials)
    (accounts : Accounts) (disallowed : auth.ipAllowed networks creds.sourceIp = false) :
    auth.authenticate networks verifyPassword env username creds accounts =
      .done (.error .ipDisallowed, accounts) := by
  simp [authenticate, disallowed]

/-- The store, freshly reloaded, holds an enabled account that the password proves. -/
def Proves (verifyPassword : Text → Text → Bool) (env : LoginEnv) (accounts : Accounts) (username password : Text) :
    Prop :=
  ∃ reloaded account, accounts.reload env = .done reloaded ∧ reloaded.manager.getUser username = some account ∧
    account.enabled = true ∧ verifyPassword password account.passwordHash = true

abbrev IsReserved (username : Text) : Prop := username = "anonymous".toList ∨ username = "ftp".toList

section Accepted
variable {networks : Networks} {auth : WftpdAuthenticator} {verifyPassword : Text → Text → Bool} {env : LoginEnv}
  {username : Text} {creds : Credentials} {accounts : Accounts}

/-- A password is accepted for a real user exactly when it proves his account. -/
theorem authenticate_password_iff {password : Text} {principal : Principal}
    (allowed : auth.ipAllowed networks creds.sourceIp = true) (named : ¬ IsReserved username)
    (given : creds.password = some password) :
    (∃ kept, auth.authenticate networks verifyPassword env username creds accounts = .done (.ok principal, kept)) ↔
      principal = ⟨username⟩ ∧ Proves verifyPassword env accounts username password := by
  rw [authenticate, allowed, Bool.not_true, if_neg Bool.false_ne_true, if_neg named, given]
  cases reloaded : accounts.reload env with
  | crashed =>
      constructor
      · rintro ⟨kept, accepted⟩
        cases accepted
      · rintro ⟨-, other, account, there, -⟩
        cases reloaded.symm.trans there
  | done fresh =>
      have proves : Proves verifyPassword env accounts username password ↔
          (fresh.manager.authenticate verifyPassword env.now username password).isSome = true := by
        rw [Option.isSome_iff_exists]
        constructor
        · rintro ⟨other, account, there, found, enabled, verified⟩
          cases reloaded.symm.trans there
          exact ⟨_, UserManager.authenticate_eq_some.mpr ⟨account, found, enabled, verified, rfl⟩⟩
        · rintro ⟨kept, accepted⟩
          obtain ⟨account, found, enabled, verified, -⟩ := UserManager.authenticate_eq_some.mp accepted
          exact ⟨fresh, account, reloaded, found, enabled, verified⟩
      rw [proves]
      cases accepted : fresh.manager.authenticate verifyPassword env.now username password with
      | none => simp [Accounts.authenticate, accepted]
      | some saved =>
          simp only [Accounts.authenticate, accepted]
          constructor
          · rintro ⟨_, same⟩
            cases same
            exact ⟨rfl, rfl⟩
          · rintro ⟨rfl, -⟩
            exact ⟨_, rfl⟩

theorem authenticate_accepted {principal : Principal} {kept : Accounts}
    (accepted : auth.authenticate networks verifyPassword env username creds accounts = .done (.ok principal, kept)) :
    auth.ipAllowed networks creds.sourceIp = true ∧
      (IsReserved username ∧ auth.allowAnonymous = true ∧ principal = ⟨"anonymous".toList⟩ ∨
        ¬ IsReserved username ∧ principal = ⟨username⟩ ∧
          ∃ password, creds.password = some password ∧ Proves verifyPassword env accounts username password) := by
  cases allowed : auth.ipAllowed networks creds.sourceIp with
  | false =>
      rw [authenticate_disallowed verifyPassword env username creds accounts allowed] at accepted
      cases accepted
  | true =>
      refine ⟨rfl, ?_⟩
      by_cases reserved : IsReserved username
      · left
        rw [authenticate, allowed, Bool.not_true, if_neg Bool.false_ne_true, if_pos reserved] at accepted
        cases anonymous : auth.allowAnonymous with
        | false => simp [anonymous] at accepted
        | true =>
            simp only [anonymous, if_true] at accepted
            cases accepted
            exact ⟨reserved, rfl, rfl⟩
      · right
        cases given : creds.password with
        | none =>
            rw [authenticate, allowed, Bool.not_true, if_neg Bool.false_ne_true, if_neg reserved, given] at accepted
            cases accepted
        | some password =>
            obtain ⟨same, proves⟩ := (authenticate_password_iff allowed reserved given).mp ⟨kept, accepted⟩
            exact ⟨reserved, same, password, rfl, proves⟩

end Accepted

end WftpdAuthenticator

inductive UserDetailError where
  | generic (message : Text)
  | userNotFound (username : Text)
  deriving DecidableEq, Repr

structure WftpdUserDetailProvider where
  anonymousHome : Option PathBuf
  deriving DecidableEq, Repr

namespace WftpdUserDetailProvider

def new (config : Config) : WftpdUserDetailProvider := ⟨config.ftp.anonymousHome.map components⟩

def provideUserDetail (provider : WftpdUserDetailProvider) (users : UserManager) (principal : Principal) :
    Except UserDetailError WftpdUser :=
  if principal.username = "anonymous".toList ∨ principal.username = "ftp".toList then
    match provider.anonymousHome with
    | some home => .ok (.newAnonymous home)
    | none => .error (.generic "anonymous home not configured".toList)
  else match users.getUser principal.username with
    | some user =>
        if !user.enabled then
          .error (.generic ("account '".toList ++ principal.username ++ "' is disabled".toList))
        else .ok (.new principal.username (components user.homeDir) user.permissions)
    | none => .error (.userNotFound principal.username)

end WftpdUserDetailProvider

open WftpdAuthenticator WftpdUserDetailProvider

/-- A session whose user is anonymous: allowed, and rooted where the configuration says. -/
def AnonymousSession (config : Config) (user : WftpdUser) : Prop :=
  config.ftp.allowAnonymous = true ∧
    ∃ home, config.ftp.anonymousHome = some home ∧ user = .newAnonymous (components home)

def AccountSession (users : UserManager) (username : Text) (user : WftpdUser) : Prop :=
  user.anonymous = false ∧ user.username = username ∧
    ∃ entry, users.getUser username = some entry ∧ entry.enabled = true ∧
      user.home = components entry.homeDir ∧ user.permissions = entry.permissions

theorem provideUserDetail_reserved {config : Config} {users : UserManager} {principal : Principal} {user : WftpdUser}
    (reserved : IsReserved principal.username)
    (detailed : (WftpdUserDetailProvider.new config).provideUserDetail users principal = .ok user) :
    ∃ home, config.ftp.anonymousHome = some home ∧ user = .newAnonymous (components home) := by
  rw [provideUserDetail, if_pos reserved, WftpdUserDetailProvider.new] at detailed
  cases configured : config.ftp.anonymousHome with
  | none => simp [configured] at detailed
  | some home =>
      simp only [configured, Option.map_some, Except.ok.injEq] at detailed
      exact ⟨home, rfl, detailed.symm⟩

theorem provideUserDetail_account {provider : WftpdUserDetailProvider} {users : UserManager} {principal : Principal}
    {user : WftpdUser} (named : ¬ IsReserved principal.username)
    (detailed : provider.provideUserDetail users principal = .ok user) :
    AccountSession users principal.username user := by
  rw [provideUserDetail, if_neg named] at detailed
  cases found : users.getUser principal.username with
  | none => simp [found] at detailed
  | some entry =>
      cases enabled : entry.enabled with
      | false => simp [found, enabled] at detailed
      | true =>
          simp only [found, enabled, Bool.not_true, Bool.false_eq_true, if_false, Except.ok.injEq] at detailed
          subst user
          exact ⟨rfl, rfl, entry, found, enabled, rfl, rfl⟩

/-- A login and the session it gets, with any change of the store between the two. -/
theorem login_sound (networks : Networks) (verifyPassword : Text → Text → Bool) (config : Config) (env : LoginEnv)
    (username : Text) (creds : Credentials) (accounts kept : Accounts) (principal : Principal) (later : UserManager)
    (user : WftpdUser)
    (authenticated : (WftpdAuthenticator.new config).authenticate networks verifyPassword env username creds accounts =
      .done (.ok principal, kept))
    (detailed : (WftpdUserDetailProvider.new config).provideUserDetail later principal = .ok user) :
    (WftpdAuthenticator.new config).ipAllowed networks creds.sourceIp = true ∧
      (AnonymousSession config user ∨
        AccountSession later username user ∧
          ∃ password, creds.password = some password ∧ Proves verifyPassword env accounts username password) := by
  obtain ⟨allowed, ⟨-, anonymous, rfl⟩ | ⟨named, rfl, proved⟩⟩ := authenticate_accepted authenticated
  · have reserved : IsReserved (⟨"anonymous".toList⟩ : Principal).username := .inl rfl
    exact ⟨allowed, .inl ⟨anonymous, provideUserDetail_reserved reserved detailed⟩⟩
  · exact ⟨allowed, .inr ⟨provideUserDetail_account named detailed, proved⟩⟩

section Samples

def plainNetworks : Networks := ⟨fun _ => none, fun _ => none⟩

def openConfig : Config := .letting true (some "/srv".toList) [] []

def cat : User := ⟨"cat".toList, "hash".toList, "/home/cat".toList, .default, 0, none, true, false⟩

theorem login_sound_moved :
    let moved : User := { cat with homeDir := "/srv/cat".toList, permissions := .full }
    let user : WftpdUser := .new "cat".toList (components "/srv/cat".toList) .full
    (WftpdAuthenticator.new openConfig).ipAllowed plainNetworks (.v4 ⟨#v[10, 0, 0, 1]⟩) = true ∧
      (AnonymousSession openConfig user ∨
        AccountSession ⟨AList.singleton "cat".toList moved⟩ "cat".toList user ∧
          ∃ password, some "pw".toList = some password ∧
            Proves (fun _ _ => true) ⟨1, true, true⟩ ⟨.store ⟨AList.singleton "cat".toList cat⟩, .new⟩
              "cat".toList password) :=
  login_sound plainNetworks (fun _ _ => true) openConfig ⟨1, true, true⟩ "cat".toList
    ⟨some "pw".toList, .v4 ⟨#v[10, 0, 0, 1]⟩⟩ ⟨.store ⟨AList.singleton "cat".toList cat⟩, .new⟩
    _ ⟨"cat".toList⟩ _ _ rfl rfl

end Samples

end Wftpd.Ftp
