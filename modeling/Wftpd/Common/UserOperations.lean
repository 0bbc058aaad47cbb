import Wftpd.Common.Users
import Wftpd.Library.Action
import Wftpd.Library.Runs
import Wftpd.Posix.FileSystem

/-! The administrative operations of the user store, and what any sequence of them
and of logins keeps.
-/

set_option autoImplicit false

namespace Wftpd.Common
open Wftpd.Posix Wftpd.Library

/-- What one operation meets outside the store. Hashing a password may fail. -/
structure StoreEnv where
  now : Instant
  os : Os
  fs : FileSystem
  hashPassword : Text → Except Text Text
  verifyPassword : Text → Text → Bool

abbrev Stored (α : Type) : Type := Action UserManager Text α

namespace UserManager
variable (env : StoreEnv)

def checkHomeDir (homeDir : Text) : Except Text Unit :=
  if trim homeDir = [] then .error "家目录不能为空".toList
  else if !env.fs.pathExists env.os (components homeDir) then .error ("家目录不存在: ".toList ++ homeDir)
  else if !env.fs.pathIsDir env.os (components homeDir) then .error ("家目录路径不是目录: ".toList ++ homeDir)
  else .ok ()

def getMut (username : Text) : Stored User :=
  Action.query fun manager =>
    match manager.getUser username with
    | some user => .ok user
    | none => .error ("用户不存在: ".toList ++ username)

def put (username : Text) (user : User) : Stored Unit :=
  Action.modify fun manager => ⟨manager.users.insert username user⟩

def addUser (username password homeDir : Text) (permissions : Permissions) (isAdmin : Bool) : Stored Unit := do
  Action.check (username ≠ []) "用户名不能为空".toList
  Action.query fun manager =>
    if (manager.getUser username).isSome then .error ("用户已存在: ".toList ++ username) else .ok ()
  Action.lift (checkHomeDir env homeDir)
  let passwordHash ← Action.lift (env.hashPassword password)
  put username {
    username := username
    passwordHash := passwordHash
    homeDir := homeDir
    permissions := permissions
    createdAt := env.now
    lastLogin := none
    enabled := true
    isAdmin := isAdmin }

def removeUser (username : Text) : Stored Unit := do
  let _ ← getMut username
  Action.modify fun manager => ⟨manager.users.erase username⟩

def updatePassword (username newPassword : Text) : Stored Unit := do
  let user ← getMut username
  let passwordHash ← Action.lift (env.hashPassword newPassword)
  put username { user with passwordHash := passwordHash }

def updateHomeDir (username homeDir : Text) : Stored Unit := do
  Action.lift (checkHomeDir env homeDir)
  let user ← getMut username
  put username { user with homeDir := homeDir }

def updatePermissions (username : Text) (permissions : Permissions) : Stored Unit := do
  let user ← getMut username
  put username { user with permissions := permissions }

def setUserEnabled (username : Text) (enabled : Bool) : Stored Unit := do
  let user ← getMut username
  put username { user with enabled := enabled }

def login (username password : Text) : Stored Bool := fun manager =>
  match manager.authenticate env.verifyPassword env.now username password with
  | some kept => (.ok true, kept)
  | none => (.ok false, manager)

end UserManager

inductive Operation where
  | addUser (username password homeDir : Text) (permissions : Permissions) (isAdmin : Bool)
  | removeUser (username : Text)
  | updatePassword (username newPassword : Text)
  | updateHomeDir (username homeDir : Text)
  | updatePermissions (username : Text) (permissions : Permissions)
  | setUserEnabled (username : Text) (enabled : Bool)
  | authenticate (username password : Text)
  deriving DecidableEq, Repr

def Operation.subject : Operation → Text
  | .addUser username _ _ _ _ | .removeUser username | .updatePassword username _ | .updateHomeDir username _
  | .updatePermissions username _ | .setUserEnabled username _ | .authenticate username _ => username

open UserManager in
/-- The operations, which answer nothing but that they succeeded, and logins, which answer. -/
def perform (env : StoreEnv) : Operation → Stored (Option Bool)
  | .addUser username password homeDir permissions isAdmin => do
      addUser env username password homeDir permissions isAdmin
      return none
  | .removeUser username => do removeUser username; return none
  | .updatePassword username newPassword => do updatePassword env username newPassword; return none
  | .updateHomeDir username homeDir => do updateHomeDir env username homeDir; return none
  | .updatePermissions username permissions => do updatePermissions username permissions; return none
  | .setUserEnabled username enabled => do setUserEnabled username enabled; return none
  | .authenticate username password => do return some (← login env username password)

abbrev StoreInput : Type := StoreEnv × Operation

def storeStep (manager : UserManager) (input : StoreInput) : Except Text (Option Bool) × UserManager :=
  perform input.1 input.2 manager

/-- What a successful operation makes of the entry of its user. -/
def Operation.Turns (env : StoreEnv) : Operation → Option User → Option User → Prop
  | .addUser username password homeDir permissions isAdmin, before, after =>
      username ≠ [] ∧ before = none ∧ UserManager.checkHomeDir env homeDir = .ok () ∧
        ∃ passwordHash, env.hashPassword password = .ok passwordHash ∧
          after = some ⟨username, passwordHash, homeDir, permissions, env.now, none, true, isAdmin⟩
  | .removeUser _, before, after => before ≠ none ∧ after = none
  | .updatePassword _ newPassword, before, after =>
      ∃ user passwordHash, before = some user ∧ env.hashPassword newPassword = .ok passwordHash ∧
        after = some { user with passwordHash := passwordHash }
  | .updateHomeDir _ homeDir, before, after =>
      UserManager.checkHomeDir env homeDir = .ok () ∧ ∃ user, before = some user ∧ after = some { user with homeDir := homeDir }
  | .updatePermissions _ permissions, before, after =>
      ∃ user, before = some user ∧ after = some { user with permissions := permissions }
  | .setUserEnabled _ enabled, before, after =>
      ∃ user, before = some user ∧ after = some { user with enabled := enabled }
  | .authenticate _ _, before, after =>
      after = before ∨ ∃ user, before = some user ∧ after = some { user with lastLogin := some env.now }

/-- How an operation may end: refused with the store as it was, or done, with its
user's entry turned and every other entry as it was. -/
def Operation.Ends {α : Type} (env : StoreEnv) (op : Operation) (manager : UserManager)
    (result : Except Text α × UserManager) : Prop :=
  match result.1 with
  | .error _ => result.2 = manager
  | .ok _ => op.Turns env (manager.getUser op.subject) (result.2.getUser op.subject) ∧
      ∀ other, other ≠ op.subject → result.2.getUser other = manager.getUser other

section Steps
variable {α β : Type} {env : StoreEnv} {manager : UserManager}

namespace UserManager

theorem getUser_insert (manager : UserManager) (username : Text) (user : User) :
    getUser ⟨manager.users.insert username user⟩ username = some user := AList.lookup_insert _

theorem getUser_insert_ne (manager : UserManager) {username other : Text} (user : User) (differs : other ≠ username) :
    getUser ⟨manager.users.insert username user⟩ other = manager.getUser other := AList.lookup_insert_ne differs

theorem getUser_erase (manager : UserManager) (username : Text) :
    getUser ⟨manager.users.erase username⟩ username = none := AList.lookup_erase _ _

theorem getUser_erase_ne (manager : UserManager) {username other : Text} (differs : other ≠ username) :
    getUser ⟨manager.users.erase username⟩ other = manager.getUser other := AList.lookup_erase_ne differs

theorem getMut_ok {username : Text} {user : User} {after : UserManager}
    (ran : getMut username manager = (.ok user, after)) : manager.getUser username = some user := by
  simp only [getMut, Action.query_run, Prod.mk.injEq] at ran
  cases found : manager.getUser username with
  | none => simp [found] at ran
  | some there => simpa [found] using ran.1

end UserManager

open UserManager

theorem ends_past {op : Operation} {first : Stored α} {next : α → Stored β} (still : Action.Still first)
    (ends : ∀ value, first manager = (.ok value, manager) → op.Ends env manager (next value manager)) :
    op.Ends env manager ((first >>= next) manager) :=
  still.followed (op.Ends env manager) (fun _ => rfl) ends

theorem ends_getMut {op : Operation} {next : User → Stored β}
    (ends : ∀ user, manager.getUser op.subject = some user → op.Ends env manager (next user manager)) :
    op.Ends env manager ((getMut op.subject >>= next) manager) :=
  ends_past (Action.still_query _) fun user ran => ends user (getMut_ok ran)

theorem ends_put {op : Operation} {user : User} (turns : op.Turns env (manager.getUser op.subject) (some user)) :
    op.Ends env manager (put op.subject user manager) := by
  refine ⟨?_, fun other differs => getUser_insert_ne manager user differs⟩
  have stored := getUser_insert manager op.subject user
  exact stored ▸ turns

theorem ends_return {op : Operation} {first : Stored α} {answer : α → β}
    (ends : op.Ends env manager (first manager)) :
    op.Ends env manager ((do return answer (← first) : Stored β) manager) := by
  apply Action.bind_cases (op.Ends env manager)
  · intro why after ran
    rwa [ran] at ends
  · intro value after ran
    rwa [ran] at ends

theorem addUser_ends (username password homeDir : Text) (permissions : Permissions) (isAdmin : Bool) :
    (Operation.addUser username password homeDir permissions isAdmin).Ends env manager
      (addUser env username password homeDir permissions isAdmin manager) := by
  apply ends_past (Action.still_check _ _)
  intro _ named
  apply ends_past (Action.still_query _)
  intro _ absent
  apply ends_past (Action.still_lift _)
  intro _ home
  apply ends_past (Action.still_lift _)
  intro passwordHash hashed
  apply ends_put
  have nonempty : username ≠ [] := by
    intro empty
    subst username
    cases named
  have free : manager.getUser username = none := by
    simp only [Action.query_run, Prod.mk.injEq] at absent
    cases found : manager.getUser username with
    | none => rfl
    | some user => simp [found] at absent
  exact ⟨nonempty, free, (Prod.mk.inj home).1, passwordHash, (Prod.mk.inj hashed).1, rfl⟩

theorem removeUser_ends (username : Text) :
    (Operation.removeUser username).Ends env manager (removeUser username manager) := by
  apply ends_getMut
  intro user found
  have present : manager.getUser username ≠ none := by
    intro absent
    cases absent.symm.trans found
  exact ⟨⟨present, getUser_erase manager username⟩, fun other differs => getUser_erase_ne manager differs⟩

theorem updatePassword_ends (username newPassword : Text) :
    (Operation.updatePassword username newPassword).Ends env manager
      (updatePassword env username newPassword manager) := by
  apply ends_getMut
  intro user found
  apply ends_past (Action.still_lift _)
  intro passwordHash hashed
  apply ends_put
  exact ⟨user, passwordHash, found, (Prod.mk.inj hashed).1, rfl⟩

theorem updateHomeDir_ends (username homeDir : Text) :
    (Operation.updateHomeDir username homeDir).Ends env manager (updateHomeDir env username homeDir manager) := by
  apply ends_past (Action.still_lift _)
  intro _ home
  apply ends_getMut
  intro user found
  apply ends_put
  exact ⟨(Prod.mk.inj home).1, user, found, rfl⟩

theorem updatePermissions_ends (username : Text) (permissions : Permissions) :
    (Operation.updatePermissions username permissions).Ends env manager
      (updatePermissions username permissions manager) := by
  apply ends_getMut
  intro user found
  apply ends_put
  exact ⟨user, found, rfl⟩

theorem setUserEnabled_ends (username : Text) (enabled : Bool) :
    (Operation.setUserEnabled username enabled).Ends env manager (setUserEnabled username enabled manager) := by
  apply ends_getMut
  intro user found
  apply ends_put
  exact ⟨user, found, rfl⟩

theorem login_ends (username password : Text) :
    (Operation.authenticate username password).Ends env manager (login env username password manager) := by
  unfold login
  cases accepted : manager.authenticate env.verifyPassword env.now username password with
  | none => exact ⟨.inl rfl, fun _ _ => rfl⟩
  | some kept =>
      obtain ⟨user, found, -, -, rfl⟩ := authenticate_eq_some.mp accepted
      refine ⟨.inr ⟨user, found, getUser_insert manager username _⟩, ?_⟩
      intro other differs
      exact getUser_insert_ne manager _ differs

theorem perform_ends (env : StoreEnv) (op : Operation) (manager : UserManager) :
    op.Ends env manager (perform env op manager) := by
  cases op with
  | addUser username password homeDir permissions isAdmin =>
      exact ends_return (addUser_ends username password homeDir permissions isAdmin)
  | removeUser username => exact ends_return (removeUser_ends username)
  | updatePassword username newPassword => exact ends_return (updatePassword_ends username newPassword)
  | updateHomeDir username homeDir => exact ends_return (updateHomeDir_ends username homeDir)
  | updatePermissions username permissions => exact ends_return (updatePermissions_ends username permissions)
  | setUserEnabled username enabled => exact ends_return (setUserEnabled_ends username enabled)
  | authenticate username password => exact ends_return (login_ends username password)

end Steps

/-- Every entry is filed under its own name, and no name is empty. -/
def KeysMatch (manager : UserManager) : Prop :=
  ∀ key user, manager.getUser key = some user → user.username = key ∧ key ≠ []

theorem UserManager.checkHomeDir_ok {env : StoreEnv} {homeDir : Text} (checked : checkHomeDir env homeDir = .ok ()) :
    trim homeDir ≠ [] := by
  intro blank
  rw [checkHomeDir, if_pos blank] at checked
  cases checked

/-- Where an entry comes from: it was made under its user's name, or it was there under
the name it has. Its home is the one it had, or was found not to be blank. -/
theorem Operation.Turns.origin {env : StoreEnv} {op : Operation} {before : Option User} {after : User}
    (turns : op.Turns env before (some after)) :
    (∃ user, before = some user ∧ after.username = user.username ∧
        (after.homeDir = user.homeDir ∨ trim after.homeDir ≠ [])) ∨
      after.username = op.subject ∧ op.subject ≠ [] ∧ trim after.homeDir ≠ [] := by
  cases op with
  | addUser username password homeDir permissions isAdmin =>
      obtain ⟨named, _, checked, passwordHash, _, added⟩ := turns
      cases added
      exact .inr ⟨rfl, named, UserManager.checkHomeDir_ok checked⟩
  | removeUser username => exact absurd turns.2 (by simp)
  | updatePassword username newPassword =>
      obtain ⟨user, passwordHash, found, _, changed⟩ := turns
      cases changed
      exact .inl ⟨user, found, rfl, .inl rfl⟩
  | updateHomeDir username homeDir =>
      obtain ⟨checked, user, found, changed⟩ := turns
      cases changed
      exact .inl ⟨user, found, rfl, .inr (UserManager.checkHomeDir_ok checked)⟩
  | updatePermissions username permissions =>
      obtain ⟨user, found, changed⟩ := turns
      cases changed
      exact .inl ⟨user, found, rfl, .inl rfl⟩
  | setUserEnabled username enabled =>
      obtain ⟨user, found, changed⟩ := turns
      cases changed
      exact .inl ⟨user, found, rfl, .inl rfl⟩
  | authenticate username password =>
      -- a login that is refused leaves the entry, an accepted one writes its last login
      rcases turns with same | ⟨user, found, changed⟩
      · exact .inl ⟨after, same.symm, rfl, .inl rfl⟩
      · cases changed
        exact .inl ⟨user, found, rfl, .inl rfl⟩

/-- What holds of an entry of the store, and of every entry an operation may turn it
into, holds of every entry of a store built by operations. -/
theorem run_entries (holds : Text → User → Prop)
    (turned : ∀ env (op : Operation) before after, (∀ user, before = some user → holds op.subject user) →
      op.Turns env before (some after) → holds op.subject after)
    (inputs : List StoreInput) (key : Text) (user : User)
    (found : (run storeStep .new inputs).2.getUser key = some user) : holds key user := by
  let invariant (manager : UserManager) := ∀ key user, manager.getUser key = some user → holds key user
  have initial : invariant .new := by
    intro key user found
    cases found
  have keeps : ∀ manager input, invariant manager → True → invariant (storeStep manager input).2 := by
    intro manager input kept _ key user found
    have ends := perform_ends input.1 input.2 manager
    unfold Operation.Ends at ends
    unfold storeStep at found
    split at ends
    · rw [ends] at found
      exact kept key user found
    · obtain ⟨turns, others⟩ := ends
      by_cases about : key = input.2.subject
      · subst key
        rw [found] at turns
        exact turned input.1 input.2 _ user (fun user there => kept _ user there) turns
      · rw [others key about] at found
        exact kept key user found
  have along : Along storeStep (fun _ _ => True) UserManager.new inputs := Along.of_forall fun _ _ => trivial
  exact run_invariant keeps initial along key user found

theorem run_keysMatch (inputs : List StoreInput) : KeysMatch (run storeStep .new inputs).2 := by
  intro key user found
  apply run_entries (fun key user => user.username = key ∧ key ≠ []) _ inputs key user found
  intro env op before after kept turns
  rcases turns.origin with ⟨user, there, same, -⟩ | ⟨added, named, -⟩
  · exact ⟨same.trans (kept user there).1, (kept user there).2⟩
  · exact ⟨added, named⟩

theorem run_homeDir_nonblank (inputs : List StoreInput) {key : Text} {user : User}
    (found : (run storeStep .new inputs).2.getUser key = some user) : trim user.homeDir ≠ [] := by
  apply run_entries (fun _ user => trim user.homeDir ≠ []) _ inputs key user found
  intro env op before after kept turns
  rcases turns.origin with ⟨user, there, -, same | nonblank⟩ | ⟨-, -, nonblank⟩
  · rw [same]
    exact kept user there
  · exact nonblank
  · exact nonblank

/-- In every reachable store the keys are the names; an operation that fails changes
nothing, and one that succeeds changes the entry of its user as it should and no other. -/
theorem run_store_integrity (inputs : List StoreInput) (input : StoreInput) :
    KeysMatch (run storeStep .new inputs).2 ∧
      input.2.Ends input.1 (run storeStep .new inputs).2 (storeStep (run storeStep .new inputs).2 input) :=
  ⟨run_keysMatch inputs, perform_ends input.1 input.2 _⟩

end Wftpd.Common
