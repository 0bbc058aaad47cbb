import Mathlib.Data.List.AList
import Wftpd.Posix.Path

/-! User accounts and the store that holds them, in memory and in `users.json`.

The program is a release build, in which a panic ends the process. The JSON
decoder and the password check are parameters.
-/

set_option autoImplicit false

namespace Wftpd.Common
open Wftpd.Posix

abbrev Instant := Int

structure Permissions where
  canRead : Bool
  canWrite : Bool
  canDelete : Bool
  canList : Bool
  canMkdir : Bool
  canRmdir : Bool
  canRename : Bool
  canAppend : Bool
  quotaMb : Option UInt64
  speedLimitKbps : Option UInt64
  deriving DecidableEq, Repr

def Permissions.default : Permissions :=
  ⟨false, false, false, false, false, false, false, false, none, none⟩

def Permissions.full : Permissions :=
  ⟨true, true, true, true, true, true, true, true, none, none⟩

structure User where
  username : Text
  passwordHash : Text
  homeDir : Text
  permissions : Permissions
  createdAt : Instant
  lastLogin : Option Instant
  enabled : Bool
  isAdmin : Bool
  deriving DecidableEq, Repr

def User.withoutLogin (user : User) : User := { user with lastLogin := none }

/-- `is_safe_username`. The bytes of other characters are never alphanumeric. -/
def isSafeUsername (username : Text) : Bool :=
  match username with
  | [] => false
  | first :: _ =>
      utf8Length username ≤ 64 && (first.isAlphanum || first == '_') &&
        username.all fun c => c.isAlphanum || c == '_' || c == '-'

structure UserManager where
  users : AList fun _ : Text => User
  deriving DecidableEq

inductive Outcome (α : Type) where
  | done (value : α)
  | crashed
  deriving DecidableEq, Repr

inductive RawFile where
  | absent
  | unreadable
  | text (content : Text)
  deriving DecidableEq, Repr

/-- A users file as the store decodes it. A malformed one is previewed in the
error log; `splits` says that the preview ends inside a character. -/
inductive UsersFile where
  | absent
  | unreadable
  | blank
  | malformed (splits : Bool)
  | store (manager : UserManager)
  deriving DecidableEq

/-- `&content[..content.len().min(200)]` has no such slice. -/
def previewSplits (content : Text) : Bool := !isCharBoundary content (min (utf8Length content) 200)

def RawFile.decode (parse : Text → Option UserManager) : RawFile → UsersFile
  | .absent => .absent
  | .unreadable => .unreadable
  | .text content =>
      if trim content = [] then .blank
      else match parse content with
        | some manager => .store manager
        | none => .malformed (previewSplits content)

namespace UserManager

def new : UserManager := ⟨∅⟩

def getUser (manager : UserManager) (username : Text) : Option User := manager.users.lookup username

/-- `UserManager::load`: whatever cannot be used counts as an empty store. -/
def load (logsErrors : Bool) : UsersFile → Outcome UserManager
  | .absent | .unreadable | .blank => .done new
  | .malformed splits => if logsErrors && splits then .crashed else .done new
  | .store manager => .done manager

/-- `UserManager::reload`: a missing, unreadable or blank file keeps the store. -/
def reload (logsErrors : Bool) (manager : UserManager) : UsersFile → Outcome UserManager
  | .absent | .unreadable | .blank => .done manager
  | .malformed splits => if logsErrors && splits then .crashed else .done new
  | .store replacement => .done replacement

/-- `UserManager::authenticate`: the store to keep and to save, when accepted. -/
def authenticate (verifyPassword : Text → Text → Bool) (now : Instant) (manager : UserManager)
    (username password : Text) : Option UserManager :=
  match manager.getUser username with
  | none => none
  | some user =>
      if !user.enabled then none
      else if verifyPassword password user.passwordHash then
        some ⟨manager.users.insert username { user with lastLogin := some now }⟩
      else none

def SameAccounts (first second : UserManager) : Prop :=
  ∀ username, (first.getUser username).map User.withoutLogin = (second.getUser username).map User.withoutLogin

theorem SameAccounts.refl (manager : UserManager) : SameAccounts manager manager := fun _ => rfl

theorem SameAccounts.trans {first second third : UserManager} (left : SameAccounts first second)
    (right : SameAccounts second third) : SameAccounts first third :=
  fun username => (left username).trans (right username)

theorem authenticate_eq_some {verifyPassword : Text → Text → Bool} {now : Instant}
    {manager kept : UserManager} {username password : Text} :
    manager.authenticate verifyPassword now username password = some kept ↔
      ∃ user, manager.getUser username = some user ∧ user.enabled = true ∧
        verifyPassword password user.passwordHash = true ∧
        kept = ⟨manager.users.insert username { user with lastLogin := some now }⟩ := by
  unfold authenticate
  constructor
  · intro accepted
    split at accepted
    · cases accepted
    · next user found =>
        split at accepted
        · cases accepted
        · next enabled =>
            split at accepted
            · next verified =>
                exact ⟨user, found, by simpa using enabled, verified, (Option.some.inj accepted).symm⟩
            · cases accepted
  · rintro ⟨user, found, enabled, verified, rfl⟩
    simp [found, enabled, verified]

theorem authenticate_sameAccounts {verifyPassword : Text → Text → Bool} {now : Instant}
    {manager kept : UserManager} {username password : Text}
    (accepted : manager.authenticate verifyPassword now username password = some kept) :
    SameAccounts kept manager := by
  obtain ⟨user, found, -, -, rfl⟩ := authenticate_eq_some.mp accepted
  intro other
  by_cases same : other = username
  · subst other
    rw [found]
    simp [getUser, User.withoutLogin]
  · simp [getUser, AList.lookup_insert_ne same]

end UserManager

/-- The user store as the front ends share it: `users.json` and the copy in memory. -/
structure Accounts where
  disk : UsersFile
  manager : UserManager
  deriving DecidableEq

structure LoginEnv where
  now : Instant
  logsErrors : Bool
  saved : Bool
  deriving DecidableEq, Repr

namespace Accounts

def reload (env : LoginEnv) (accounts : Accounts) : Outcome Accounts :=
  match accounts.manager.reload env.logsErrors accounts.disk with
  | .done manager => .done { accounts with manager := manager }
  | .crashed => .crashed

/-- An accepted password saves the whole store, and counts even when that fails. -/
def authenticate (verifyPassword : Text → Text → Bool) (env : LoginEnv) (username password : Text)
    (accounts : Accounts) : Bool × Accounts :=
  match accounts.manager.authenticate verifyPassword env.now username password with
  | some kept => (true, { disk := if env.saved then .store kept else accounts.disk, manager := kept })
  | none => (false, accounts)

theorem authenticate_found (verifyPassword : Text → Text → Bool) (env : LoginEnv) {username : Text}
    (password : Text) {accounts : Accounts} {account : User} (found : accounts.manager.getUser username = some account)
    (enabled : account.enabled = true) :
    (accounts.authenticate verifyPassword env username password).1 =
      verifyPassword password account.passwordHash := by
  unfold authenticate UserManager.authenticate
  cases verified : verifyPassword password account.passwordHash <;> simp [found, enabled, verified]

end Accounts

end Wftpd.Common
