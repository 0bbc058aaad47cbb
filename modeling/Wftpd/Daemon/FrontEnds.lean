import Wftpd.Common.UserOperations
import Wftpd.Ftp.Auth
import Wftpd.Posix.Walk
import Wftpd.Sftp.Handler

/-! Whom the two front ends let in with a password.

Creating an account asks for any name but the empty one. SFTP then turns away the names
that are not safe, FTP does not.
-/

set_option autoImplicit false

namespace Wftpd.Daemon
open Wftpd.Posix Wftpd.Common Wftpd.Library Wftpd.Ftp Wftpd.Ftp.WftpdAuthenticator Wftpd.Sftp

def BuiltStore (env : AuthEnv) (accounts : Accounts) : Prop :=
  ∀ reloaded, accounts.reload env.login = .done reloaded →
    (∃ inputs, reloaded.manager = (run storeStep .new inputs).2) ∧
      ∀ username user, reloaded.manager.getUser username = some user →
        env.fs.pathIsDir env.os (components user.homeDir) = true

theorem validateHomeDir_ok {env : AuthEnv} {homeDir : Text} (user : Text) (nonblank : trim homeDir ≠ [])
    (dir : env.fs.pathIsDir env.os (components homeDir) = true) :
    (SftpHandler.validateHomeDir env user homeDir).isOk = true := by
  rw [SftpHandler.validateHomeDir, if_neg nonblank]
  unfold FileSystem.pathIsDir at dir
  cases looked : env.fs.metadata env.os (components homeDir) with
  | error why => simp [looked] at dir
  | ok found =>
      obtain ⟨canonical, canonicalized⟩ := FileSystem.canonicalize_of_metadata looked
      simp only [looked, decide_eq_true_eq] at dir
      simp only [dir, ne_eq, not_true_eq_false, if_false, canonicalized]
      rfl

section Accepts
variable (networks : Networks) (verifyPassword : Text → Text → Bool) (config : Config) (env : AuthEnv)
  (state : AuthState) (username password : Text) (ip : IpAddr)

def FtpAccepts : Prop :=
  ∃ principal kept, (WftpdAuthenticator.new config).authenticate networks verifyPassword env.login username
    ⟨some password, ip⟩ state.accounts = .done (.ok principal, kept)

def SftpAccepts : Prop := (SftpHandler.authPassword verifyPassword env username password state).1 = .ok .accept

variable {networks verifyPassword config env state username password ip}

theorem ftpAccepts_iff (allowed : (WftpdAuthenticator.new config).ipAllowed networks ip = true)
    (named : ¬ IsReserved username) :
    FtpAccepts networks verifyPassword config env state username password ip ↔
      Proves verifyPassword env.login state.accounts username password := by
  constructor
  · rintro ⟨principal, accepted⟩
    exact ((authenticate_password_iff allowed named rfl).mp accepted).2
  · intro proves
    exact ⟨⟨username⟩, (authenticate_password_iff allowed named rfl).mpr ⟨rfl, proves⟩⟩

theorem sftpAccepts_iff (built : BuiltStore env state.accounts) :
    SftpAccepts verifyPassword env state username password ↔
      isSafeUsername username = true ∧ Proves verifyPassword env.login state.accounts username password := by
  rw [SftpAccepts, SftpHandler.authPassword_accept_iff]
  constructor
  · rintro ⟨accounts, account, ⟨safe, reloaded, found, enabled⟩, verified, -⟩
    exact ⟨safe, accounts, account, reloaded, found, enabled, verified⟩
  · rintro ⟨safe, accounts, account, reloaded, found, enabled, verified⟩
    obtain ⟨⟨inputs, run⟩, homes⟩ := built accounts reloaded
    have nonblank : trim account.homeDir ≠ [] := run_homeDir_nonblank inputs (run ▸ found)
    exact ⟨accounts, account, ⟨safe, reloaded, found, enabled⟩, verified,
      validateHomeDir_ok username nonblank (homes username account found)⟩

end Accepts

/-- The front ends agree on a name exactly when it is safe or its password proves nothing. -/
theorem front_ends_agree_iff (networks : Networks) (verifyPassword : Text → Text → Bool) (config : Config)
    (env : AuthEnv) (state : AuthState) (username password : Text) (ip : IpAddr)
    (built : BuiltStore env state.accounts) (named : ¬ IsReserved username)
    (allowed : (WftpdAuthenticator.new config).ipAllowed networks ip = true) :
    (FtpAccepts networks verifyPassword config env state username password ip ↔
        SftpAccepts verifyPassword env state username password) ↔
      (isSafeUsername username = true ∨ ¬ Proves verifyPassword env.login state.accounts username password) := by
  rw [ftpAccepts_iff allowed named, sftpAccepts_iff built]
  tauto

section Samples

def plainStore : StoreEnv := ⟨0, .permissive, .empty, .ok, fun password hash => password = hash⟩

def accountOf (username : Text) : List StoreInput :=
  [(plainStore, .addUser username "pw".toList "/".toList .default false)]

def loginEnv : AuthEnv :=
  ⟨⟨1, true, true⟩, .permissive, .empty, fun _ => none, fun _ => [], true⟩

def stateWith (username : Text) : AuthState :=
  ⟨.new "10.0.0.1".toList [.rootDir], ⟨.absent, (run storeStep .new (accountOf username)).2⟩, []⟩

def openToAll : Config := .letting false none [] []

theorem stateWith_homeDir (username : Text) {name : Text} {user : User}
    (found : (stateWith username).accounts.manager.getUser name = some user) : user.homeDir = "/".toList := by
  have ends := perform_ends plainStore (.addUser username "pw".toList "/".toList .default false) .new
  unfold Operation.Ends at ends
  split at ends
  · -- refused, and the store is empty
    have empty : (stateWith username).accounts.manager = .new := ends
    rw [empty] at found
    cases found
  · obtain ⟨⟨_, _, _, passwordHash, _, added⟩, others⟩ := ends
    by_cases about : name = username
    · subst name
      cases found.symm.trans added
      rfl
    · cases (others name about).symm.trans found

theorem stateWith_built (username : Text) : BuiltStore loginEnv (stateWith username).accounts := by
  intro reloaded ran
  cases ran
  refine ⟨⟨accountOf username, rfl⟩, ?_⟩
  intro name user found
  have homes : user.homeDir = "/".toList := stateWith_homeDir username found
  rw [homes]
  rfl

theorem front_ends_agree_safe :
    (FtpAccepts plainNetworks (fun password hash => password = hash) openToAll loginEnv (stateWith "ab".toList)
        "ab".toList "pw".toList (.v4 ⟨#v[10, 0, 0, 1]⟩) ↔
      SftpAccepts (fun password hash => password = hash) loginEnv (stateWith "ab".toList) "ab".toList "pw".toList) ↔
      (isSafeUsername "ab".toList = true ∨
        ¬ Proves (fun password hash => password = hash) loginEnv.login (stateWith "ab".toList).accounts
          "ab".toList "pw".toList) :=
  front_ends_agree_iff plainNetworks _ openToAll loginEnv (stateWith "ab".toList) "ab".toList "pw".toList _
    (stateWith_built "ab".toList) (by decide) rfl

/-- A name with a dot can be created and is let in by FTP alone. -/
theorem unsafe_name_ftp_only : ¬ ∀ (networks : Networks) (verifyPassword : Text → Text → Bool) (config : Config)
    (env : AuthEnv) (state : AuthState) (username password : Text) (ip : IpAddr),
    BuiltStore env state.accounts → ¬ IsReserved username →
    (WftpdAuthenticator.new config).ipAllowed networks ip = true →
    (FtpAccepts networks verifyPassword config env state username password ip ↔
      SftpAccepts verifyPassword env state username password) := by
  intro agree
  have both := agree plainNetworks (fun password hash => password = hash) openToAll loginEnv
    (stateWith "a.b".toList) "a.b".toList "pw".toList (.v4 ⟨#v[10, 0, 0, 1]⟩) (stateWith_built "a.b".toList)
    (by decide) rfl
  have accepted := both.mp ⟨_, _, rfl⟩
  cases accepted

end Samples

end Wftpd.Daemon
