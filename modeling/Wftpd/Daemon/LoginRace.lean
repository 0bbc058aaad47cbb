import Wftpd.Daemon.SaveUsers
import Wftpd.Ftp.Auth
import Wftpd.Library.Runs
import Wftpd.Sftp.Handler

/-! Saving the user store while users log in.

The request that saves replaces `users.json` without the lock of the manager and
takes the lock only to swap the copy in memory. An FTP login reloads and checks
the password under one lock; an SFTP login takes the lock three times.
-/

set_option autoImplicit false

namespace Wftpd.Daemon
open Wftpd.Posix Wftpd.Common Wftpd.Library Wftpd.Ftp Wftpd.Sftp

inductive FrontEnd where
  | ftp
  | sftp
  deriving DecidableEq, Repr

structure Login where
  front : FrontEnd
  username : Text
  password : Text
  deriving DecidableEq, Repr

def Login.reachesStore (login : Login) : Bool :=
  match login.front with
  | .ftp => login.username != "anonymous".toList && login.username != "ftp".toList
  | .sftp => isSafeUsername login.username

inductive Stage where
  | idle
  | reloaded
  /-- An SFTP login that has found its account enabled. -/
  | resolved
  | finished (accepted : Bool)
  deriving DecidableEq, Repr

inductive SavePhase where
  | pending
  | renamed
  | swapped
  deriving DecidableEq, Repr

structure Race where
  accounts : Accounts
  save : SavePhase
  /-- The FTP login that holds the lock from its reload to its check. -/
  holder : Option Nat
  stage : Nat → Stage

inductive RaceStep where
  | rename
  | swap
  | reload (login : Nat) (env : LoginEnv)
  | resolve (login : Nat)
  | authenticate (login : Nat) (env : LoginEnv)
  deriving DecidableEq, Repr

section Interleaving
variable (verifyPassword : Text → Text → Bool) (saved : UserManager) (logins : Nat → Login)

def Race.start (accounts : Accounts) : Race := ⟨accounts, .pending, none, fun _ => .idle⟩

def Race.enter (race : Race) (login : Nat) (stage : Stage) : Race :=
  { race with stage := Function.update race.stage login stage }

def Race.ready (race : Race) (login : Nat) : Bool :=
  match (logins login).front with
  | .ftp => race.stage login = .reloaded && race.holder = some login
  | .sftp => race.stage login = .resolved && race.holder = none

/-- One atomic section of one party; none when it has to wait, or panics. -/
def raceStep (race : Race) : RaceStep → Option Race
  | .rename =>
      -- the file is replaced without the lock
      if race.save = .pending then
        some { race with accounts := { race.accounts with disk := .store saved }, save := .renamed }
      else none
  | .swap =>
      if race.save = .renamed ∧ race.holder = none then
        some { race with accounts := { race.accounts with manager := saved }, save := .swapped }
      else none
  | .reload login env =>
      if race.stage login = .idle ∧ race.holder = none ∧ (logins login).reachesStore then
        match race.accounts.reload env with
        | .done accounts =>
            some { (race.enter login .reloaded) with
              accounts := accounts
              -- an FTP login keeps the lock until it has checked the password
              holder := if (logins login).front = .ftp then some login else none }
        | .crashed => none
      else none
  | .resolve login =>
      if race.stage login = .reloaded ∧ (logins login).front = .sftp ∧ race.holder = none then
        -- an SFTP login looks at its account before it checks the password
        match (race.accounts.manager.getUser (logins login).username).filter User.enabled with
        | some _ => some (race.enter login .resolved)
        | none => some (race.enter login (.finished false))
      else none
  | .authenticate login env =>
      if race.ready logins login then
        some { (race.enter login (.finished
            (race.accounts.authenticate verifyPassword env (logins login).username (logins login).password).1)) with
          accounts :=
            (race.accounts.authenticate verifyPassword env (logins login).username (logins login).password).2
          holder := none }
      else none

def Race.Finished (race : Race) : Prop :=
  race.save = .swapped ∧ ∀ login, race.stage login = .idle ∨ ∃ accepted, race.stage login = .finished accepted

/-- The file holds the saved store, up to last logins. -/
def HoldsSaved (file : UsersFile) : Prop :=
  ∃ manager, file = .store manager ∧ UserManager.SameAccounts manager saved

/-- An accepted login is about to write back a memory copy that is not the saved
store, over the file that already is. -/
def OverwritesSaved (race : Race) (label : RaceStep) : Prop :=
  race.save = .renamed ∧ ¬ UserManager.SameAccounts race.accounts.manager saved ∧
    ∃ login env, label = .authenticate login env ∧ env.saved = true ∧
      (race.accounts.manager.authenticate verifyPassword env.now (logins login).username
        (logins login).password).isSome = true

/-- How far the saved store has got: to the file, then to both copies. -/
def Delivered (race : Race) : Prop :=
  match race.save with
  | .pending => True
  | .renamed => HoldsSaved saved race.accounts.disk
  | .swapped => HoldsSaved saved race.accounts.disk ∧ UserManager.SameAccounts race.accounts.manager saved

variable {verifyPassword saved logins}

/-- What a step does to the phase of the save and to the two copies. -/
theorem raceStep_cases {race next : Race} {label : RaceStep}
    (taken : raceStep verifyPassword saved logins race label = some next) :
    (race.save = .pending ∧ next.save = .renamed ∧ next.accounts = { race.accounts with disk := .store saved }) ∨
    (race.save = .renamed ∧ next.save = .swapped ∧ next.accounts = { race.accounts with manager := saved }) ∨
    (next.save = race.save ∧ next.accounts = race.accounts) ∨
    (next.save = race.save ∧ ∃ env, race.accounts.reload env = .done next.accounts) ∨
    (next.save = race.save ∧ ∃ login env, label = .authenticate login env ∧ next.accounts =
      (race.accounts.authenticate verifyPassword env (logins login).username (logins login).password).2) := by
  cases label with
  | rename =>
      simp only [raceStep] at taken
      split at taken
      · next pending =>
          cases taken
          exact .inl ⟨pending, rfl, rfl⟩
      · cases taken
  | swap =>
      simp only [raceStep] at taken
      split at taken
      · next renamed =>
          cases taken
          exact .inr (.inl ⟨renamed.1, rfl, rfl⟩)
      · cases taken
  | reload login env =>
      simp only [raceStep] at taken
      split at taken
      · cases reloaded : race.accounts.reload env with
        | done accounts =>
            rw [reloaded] at taken
            cases taken
            exact .inr (.inr (.inr (.inl ⟨rfl, env, reloaded⟩)))
        | crashed =>
            rw [reloaded] at taken
            cases taken
      · cases taken
  | resolve login =>
      simp only [raceStep] at taken
      split at taken
      -- looking up an account changes neither copy, whatever it finds
      · split at taken <;>
          · cases taken
            exact .inr (.inr (.inl ⟨rfl, rfl⟩))
      · cases taken
  | authenticate login env =>
      simp only [raceStep] at taken
      split at taken
      · cases taken
        exact .inr (.inr (.inr (.inr ⟨rfl, login, env, rfl, rfl⟩)))
      · cases taken

/-- With working files, the save alone is its two steps. -/
theorem saveUsers_alone {parse : Text → Option UserManager} {env : SaveEnv} {content : Text} {daemon : DaemonState}
    (parsed : parse content = some saved) (nonblank : trim content ≠ []) (written : env.written = true)
    (intact : env.readback = .intact) (renamed : env.renamed = true) :
    ∃ final, exec (raceStep verifyPassword saved logins) (.start ⟨daemon.usersJson.decode parse, daemon.manager⟩)
        [.rename, .swap] = some final ∧ final.save = .swapped ∧
      final.accounts = ⟨(saveUsers parse env content daemon).2.usersJson.decode parse,
        (saveUsers parse env content daemon).2.manager⟩ := by
  refine ⟨⟨⟨.store saved, saved⟩, .swapped, none, fun _ => .idle⟩, rfl, rfl, ?_⟩
  rw [saveUsers_store daemon parsed written renamed, if_pos ⟨intact, nonblank⟩,
    (decode_text_store parsed).mpr nonblank]

section Alone
variable {race : Race} {login : Nat}

theorem ftp_alone {networks : Networks} {auth : WftpdAuthenticator} {ip : IpAddr} {env : LoginEnv}
    {answer : Except AuthenticationError Principal} {accounts : Accounts}
    (front : (logins login).front = .ftp) (reaches : (logins login).reachesStore = true)
    (idle : race.stage login = .idle) (free : race.holder = none) (allowed : auth.ipAllowed networks ip = true)
    (done : auth.authenticate networks verifyPassword env (logins login).username
      ⟨some (logins login).password, ip⟩ race.accounts = .done (answer, accounts)) :
    ∃ final, exec (raceStep verifyPassword saved logins) race [.reload login env, .authenticate login env] =
      some final ∧ final.accounts = accounts := by
  have named : ¬ ((logins login).username = "anonymous".toList ∨ (logins login).username = "ftp".toList) := by
    simpa [Login.reachesStore, front] using reaches
  simp only [WftpdAuthenticator.authenticate, allowed, Bool.not_true, Bool.false_eq_true, if_false, if_neg named]
    at done
  cases reloaded : race.accounts.reload env with
  | crashed =>
      rw [reloaded] at done
      cases done
  | done fresh =>
      have accountsSame : (fresh.authenticate verifyPassword env (logins login).username
          (logins login).password).2 = accounts := by
        rw [reloaded] at done
        simp only at done
        split at done <;>
          · next checked =>
              cases done
              rw [checked]
      simp [exec, raceStep, idle, free, reaches, reloaded, front, Race.ready, Race.enter, accountsSame]

theorem sftp_alone {env : AuthEnv} {state : AuthState} {accounts : Accounts} {account : User}
    (front : (logins login).front = .sftp) (idle : race.stage login = .idle) (free : race.holder = none)
    (same : state.accounts = race.accounts)
    (found : SftpHandler.AccountFound env state (logins login).username accounts account) :
    ∃ final, exec (raceStep verifyPassword saved logins) race
        [.reload login env.login, .resolve login, .authenticate login env.login] = some final ∧
      final.accounts = (SftpHandler.authPassword verifyPassword env (logins login).username
        (logins login).password state).2.accounts := by
  rw [SftpHandler.authPassword_accounts found]
  obtain ⟨safe, reloaded, listed, enabled⟩ := found
  rw [same] at reloaded
  have resolved : (accounts.manager.getUser (logins login).username).filter User.enabled = some account := by
    simp [listed, enabled]
  simp [exec, raceStep, idle, free, reloaded, front, Race.ready, Race.enter, Login.reachesStore, safe, resolved]

end Alone

theorem HoldsSaved.reload {env : LoginEnv} {accounts next : Accounts} (holds : HoldsSaved saved accounts.disk)
    (reloaded : accounts.reload env = .done next) :
    HoldsSaved saved next.disk ∧ UserManager.SameAccounts next.manager saved := by
  obtain ⟨manager, file, same⟩ := holds
  simp only [Accounts.reload, file, UserManager.reload] at reloaded
  cases reloaded
  exact ⟨⟨manager, rfl, same⟩, same⟩

/-- A login writes back what it found in memory, or leaves the file alone. -/
theorem HoldsSaved.authenticate {accounts : Accounts} (holds : HoldsSaved saved accounts.disk)
    (verifyPassword : Text → Text → Bool) (env : LoginEnv) (username password : Text)
    (fresh : env.saved = true →
      (accounts.manager.authenticate verifyPassword env.now username password).isSome = true →
      UserManager.SameAccounts accounts.manager saved) :
    HoldsSaved saved (accounts.authenticate verifyPassword env username password).2.disk ∧
      UserManager.SameAccounts (accounts.authenticate verifyPassword env username password).2.manager
        accounts.manager := by
  unfold Accounts.authenticate
  cases accepted : accounts.manager.authenticate verifyPassword env.now username password with
  | none => exact ⟨holds, UserManager.SameAccounts.refl _⟩
  | some kept =>
      have same := UserManager.authenticate_sameAccounts accepted
      refine ⟨?_, same⟩
      cases writes : env.saved with
      | false => simpa using holds
      | true =>
          exact ⟨kept, by simp, same.trans (fresh writes (by simp [accepted]))⟩

theorem raceStep_delivered (race : Race) (label : RaceStep) (next : Race) (delivered : Delivered saved race)
    (harmless : ¬ OverwritesSaved verifyPassword saved logins race label)
    (taken : raceStep verifyPassword saved logins race label = some next) : Delivered saved next := by
  rcases raceStep_cases taken with ⟨-, phase, copies⟩ | ⟨before, phase, copies⟩ | ⟨phase, copies⟩ |
    ⟨phase, env, reloaded⟩ | ⟨phase, login, env, rfl, copies⟩
  · simp only [Delivered, phase, copies]
    exact ⟨saved, rfl, UserManager.SameAccounts.refl saved⟩
  · simp only [Delivered, before] at delivered
    simp only [Delivered, phase, copies]
    exact ⟨delivered, UserManager.SameAccounts.refl saved⟩
  · simpa only [Delivered, phase, copies] using delivered
  · -- a reload after the rename brings the saved store into memory
    cases before : race.save with
    | pending => simp [Delivered, phase, before]
    | renamed =>
        simp only [Delivered, before] at delivered
        simpa only [Delivered, phase, before] using (delivered.reload reloaded).1
    | swapped =>
        simp only [Delivered, before] at delivered
        simpa only [Delivered, phase, before] using delivered.1.reload reloaded
  · cases before : race.save with
    | pending => simp [Delivered, phase, before]
    | renamed =>
        simp only [Delivered, before] at delivered
        simp only [Delivered, phase, before, copies]
        refine (delivered.authenticate _ _ _ _ fun writes accepted => ?_).1
        by_contra stale
        exact harmless ⟨before, stale, login, env, rfl, writes, accepted⟩
    | swapped =>
        simp only [Delivered, before] at delivered
        simp only [Delivered, phase, before, copies]
        have written := delivered.1.authenticate verifyPassword env (logins login).username
          (logins login).password fun _ _ => delivered.2
        exact ⟨written.1, written.2.trans delivered.2⟩

end Interleaving

/-- Once the save and all logins are over, both copies are the saved store up to
last logins, unless some login overwrote the file between rename and swap. -/
theorem raceStep_no_lost_update (verifyPassword : Text → Text → Bool) (saved : UserManager) (logins : Nat → Login)
    (accounts : Accounts) (labels : List RaceStep) (final : Race)
    (harmless : Guarded (raceStep verifyPassword saved logins)
      (fun race label => ¬ OverwritesSaved verifyPassword saved logins race label) (.start accounts) labels)
    (reached : exec (raceStep verifyPassword saved logins) (.start accounts) labels = some final)
    (finished : final.Finished) :
    HoldsSaved saved final.accounts.disk ∧ UserManager.SameAccounts final.accounts.manager saved := by
  have initial : Delivered saved (.start accounts) := trivial
  have delivered : Delivered saved final := exec_invariant raceStep_delivered initial harmless reached
  simpa only [Delivered, finished.1] using delivered

section Runs

def ann : User := ⟨"ann".toList, "hash".toList, "/home/ann".toList, .default, 0, none, true, false⟩

def annOnly : UserManager := ⟨AList.singleton "ann".toList ann⟩

def annLogin : Login := ⟨.ftp, "ann".toList, "secret".toList⟩

/-- A login between rename and swap does no harm once it has reloaded. -/
theorem raceStep_no_lost_update_reloaded :
    HoldsSaved annOnly (.store annOnly) ∧ UserManager.SameAccounts annOnly annOnly := by
  refine raceStep_no_lost_update (fun _ _ => true) annOnly (fun _ => annLogin) ⟨.absent, .new⟩
    [.rename, .reload 0 ⟨1, true, true⟩, .authenticate 0 ⟨1, true, false⟩, .swap]
    ⟨⟨.store annOnly, annOnly⟩, .swapped, none, Function.update
      (Function.update (fun _ => .idle) 0 .reloaded) 0 (.finished true)⟩ ?_ ?_ ?_
  · refine ⟨by simp [OverwritesSaved], fun next taken => ⟨by simp [OverwritesSaved], fun next taken =>
      ⟨by simp [OverwritesSaved], fun next taken => ⟨by simp [OverwritesSaved], fun _ _ => trivial⟩⟩⟩⟩
  · rfl
  · refine ⟨rfl, fun login => ?_⟩
    by_cases first : login = 0
    · exact .inr ⟨true, by simp [first]⟩
    · exact .inl (by simp [first])

/-- An FTP login reloads, the save removes the account from the file, the login
writes its copy back, and the swap comes too late: the account survives. -/
theorem lost_update : ¬ ∀ (verifyPassword : Text → Text → Bool) (saved : UserManager) (logins : Nat → Login)
    (accounts : Accounts) (labels : List RaceStep) (final : Race),
    exec (raceStep verifyPassword saved logins) (.start accounts) labels = some final → final.Finished →
      HoldsSaved saved final.accounts.disk ∧ UserManager.SameAccounts final.accounts.manager saved := by
  intro delivered
  have holds := (delivered (fun _ _ => true) .new (fun _ => annLogin) ⟨.store annOnly, annOnly⟩
    [.reload 0 ⟨1, true, true⟩, .rename, .authenticate 0 ⟨1, true, true⟩, .swap]
    ⟨⟨.store ⟨AList.singleton "ann".toList { ann with lastLogin := some 1 }⟩, .new⟩, .swapped, none,
      Function.update (Function.update (fun _ => .idle) 0 .reloaded) 0 (.finished true)⟩ rfl
    ⟨rfl, fun login => by
      by_cases first : login = 0
      · exact .inr ⟨true, by simp [first]⟩
      · exact .inl (by simp [first])⟩).1
  obtain ⟨manager, file, same⟩ := holds
  cases file
  exact absurd (same "ann".toList) (by decide)

end Runs

end Wftpd.Daemon
