import Wftpd.Posix.Segments
import Wftpd.Sftp.Handler

/-! Which key files a client that has not logged in makes the server read.

The name the client sends becomes a part of a path. A login by key is followed here with the key
files it opens.
-/

set_option autoImplicit false

namespace Wftpd.Sftp
open Wftpd.Posix Wftpd.Common Wftpd.Library

section SafeNames

/-- `[A-Za-z0-9_]` -/
def IsWordChar (c : Char) : Prop :=
  'A' ≤ c ∧ c ≤ 'Z' ∨ 'a' ≤ c ∧ c ≤ 'z' ∨ '0' ≤ c ∧ c ≤ '9' ∨ c = '_'

instance (c : Char) : Decidable (IsWordChar c) := by unfold IsWordChar; infer_instance

/-- `[A-Za-z0-9_][A-Za-z0-9_-]{0,63}` -/
def SafeName (name : Text) : Prop :=
  ∃ first rest, name = first :: rest ∧ IsWordChar first ∧ rest.length ≤ 63 ∧ ∀ c ∈ rest, IsWordChar c ∨ c = '-'

theorem isWordChar_iff {c : Char} : (c.isAlphanum || c == '_') = true ↔ IsWordChar c := by
  simp only [IsWordChar, Char.isAlphanum, Char.isAlpha, Char.isUpper, Char.isLower, Char.isDigit, Bool.or_eq_true,
    Bool.and_eq_true, decide_eq_true_eq, beq_iff_eq, Char.le_def, ge_iff_le, or_assoc]

theorem IsWordChar.below {c : Char} (word : IsWordChar c) : c.val ≤ 127 := by
  rcases word with upper | lower | digit | rfl
  · exact UInt32.le_trans upper.2 (by decide)
  · exact UInt32.le_trans lower.2 (by decide)
  · exact UInt32.le_trans digit.2 (by decide)
  · decide

theorem IsWordChar.plain {c : Char} (word : IsWordChar c ∨ c = '-') : c ≠ '/' ∧ c ≠ '.' := by
  constructor
  · rintro rfl
    revert word
    decide
  · rintro rfl
    revert word
    decide

theorem utf8Length_word {name : Text} (word : ∀ c ∈ name, IsWordChar c ∨ c = '-') : utf8Length name = name.length := by
  apply utf8Length_ascii
  intro c member
  rcases word c member with word | rfl
  · exact Char.utf8Size_eq_one_iff.mpr word.below
  · rfl

theorem isSafeUsername_iff {name : Text} : isSafeUsername name = true ↔ SafeName name := by
  cases name with
  | nil =>
      constructor
      · intro safe
        cases safe
      · rintro ⟨first, rest, impossible, -⟩
        cases impossible
  | cons first rest =>
      have words : ((first :: rest).all fun c => c.isAlphanum || c == '_' || c == '-') = true ↔
          ∀ c ∈ first :: rest, IsWordChar c ∨ c = '-' := by
        simp only [List.all_eq_true, ← isWordChar_iff, Bool.or_eq_true, beq_iff_eq]
      simp only [isSafeUsername, Bool.and_eq_true, decide_eq_true_eq, isWordChar_iff, words]
      constructor
      · rintro ⟨⟨short, begins⟩, all⟩
        rw [utf8Length_word all, List.length_cons] at short
        exact ⟨first, rest, rfl, begins, by omega, fun c member => all c (List.mem_cons_of_mem _ member)⟩
      · rintro ⟨_, _, same, begins, short, others⟩
        cases same
        have all : ∀ c ∈ first :: rest, IsWordChar c ∨ c = '-' := List.forall_mem_cons.mpr ⟨.inl begins, others⟩
        refine ⟨⟨?_, begins⟩, all⟩
        rw [utf8Length_word all, List.length_cons]
        omega

end SafeNames

namespace SftpHandler

section Opening
variable {PublicKey : Type} [DecidableEq PublicKey] (parsePublicKeyBase64 : Text → Option PublicKey)

structure Opening where
  auth : AuthState
  opened : List PathBuf

/-- A step that opens no key file. -/
def quiet {α : Type} (action : Action AuthState Panic α) : Action Opening Panic α :=
  action.zoom Opening.auth (fun opening auth => { opening with auth := auth }) id

def readKey (env : AuthEnv) (path : PathBuf) : Action Opening Panic (Option Text) := fun opening =>
  (.ok (env.readToString path), { opening with opened := opening.opened ++ [path] })

def holdsKey (storedKey : Option Text) (publicKey : PublicKey) : Bool :=
  match storedKey with
  | none => false
  | some storedKey =>
      match parsePublicKeyBase64 (trim storedKey) with
      | some storedPubkey => publicKey = storedPubkey
      | none => false

def checkKeyOpening (env : AuthEnv) (user : Text) (publicKey : PublicKey) : Action Opening Panic Bool := do
  let keysDir ← Action.read fun opening => opening.auth.handler.keysDir
  let storedKey ← readKey env (userPubkeyPath keysDir user)
  return holdsKey parsePublicKeyBase64 storedKey publicKey

/-- `SftpHandler::auth_publickey`, noting the key files it opens. -/
def authPublickeyOpening (env : AuthEnv) (user : Text) (publicKey : PublicKey) : Action Opening Panic Auth := do
  match ← quiet (resolveUser env user) with
  | none => quiet (reject env user "public key".toList)
  | some (homeDir, enabled) =>
      if !enabled then quiet (reject env user "public key".toList)
      else if !(← checkKeyOpening parsePublicKeyBase64 env user publicKey) then
        quiet (reject env user "public key".toList)
      else quiet (finishLogin env user homeDir ("User ".toList ++ user ++ " logged in via public key".toList))

def opens (env : AuthEnv) (state : AuthState) (user : Text) (publicKey : PublicKey) : List PathBuf :=
  (authPublickeyOpening parsePublicKeyBase64 env user publicKey ⟨state, []⟩).2.opened

variable {parsePublicKeyBase64}

theorem quiet_run {α : Type} (action : Action AuthState Panic α) (opening : Opening) :
    quiet action opening = ((action opening.auth).1, { opening with auth := (action opening.auth).2 }) := by
  rw [quiet, Action.zoom]
  cases (action opening.auth).1 <;> rfl

theorem quiet_seen {α : Type} (action : Action AuthState Panic α) : Action.Seen Opening.auth (quiet action) action :=
  Action.Seen.zoom (fun _ _ => rfl) action

theorem quiet_leaves {α : Type} (action : Action AuthState Panic α) : Action.Leaves Opening.opened (quiet action) :=
  fun _ => rfl

theorem checkKeyOpening_seen (env : AuthEnv) (user : Text) (publicKey : PublicKey) :
    Action.Seen Opening.auth (checkKeyOpening parsePublicKeyBase64 env user publicKey)
      (checkKey parsePublicKeyBase64 env user publicKey) :=
  fun _ => ⟨rfl, rfl⟩

/-- Noting files changes nothing else. -/
theorem authPublickeyOpening_seen (env : AuthEnv) (user : Text) (publicKey : PublicKey) :
    Action.Seen Opening.auth (authPublickeyOpening parsePublicKeyBase64 env user publicKey)
      (authPublickey parsePublicKeyBase64 env user publicKey) := by
  refine (quiet_seen _).bind fun found => ?_
  match found with
  | none => exact quiet_seen _
  | some (homeDir, false) => exact quiet_seen _
  | some (homeDir, true) =>
      refine (checkKeyOpening_seen env user publicKey).bind fun verdict => ?_
      cases verdict with
      | false => exact quiet_seen _
      | true => exact quiet_seen _

/-- A login by key opens nothing, or the one file of an account it found. -/
theorem authPublickeyOpening_opened (env : AuthEnv) (user : Text) (publicKey : PublicKey) (opening : Opening) :
    (authPublickeyOpening parsePublicKeyBase64 env user publicKey opening).2.opened = opening.opened ∨
    (∃ accounts account, AccountFound env opening.auth user accounts account) ∧
      (authPublickeyOpening parsePublicKeyBase64 env user publicKey opening).2.opened =
        opening.opened ++ [userPubkeyPath opening.auth.handler.keysDir user] := by
  rcases resolveUser_cases env user opening.auth with ⟨crash, -⟩ | ⟨missing, -⟩ | ⟨accounts, account, found, run⟩
  · left
    have ran : quiet (resolveUser env user) opening =
        (.error .panicked, { opening with auth := (resolveUser env user opening.auth).2 }) := by
      rw [quiet_run, crash]
    rw [authPublickeyOpening, Action.bind_run_error ran]
  · left
    have ran : quiet (resolveUser env user) opening =
        (.ok none, { opening with auth := (resolveUser env user opening.auth).2 }) := by
      rw [quiet_run, missing]
    rw [authPublickeyOpening, Action.bind_run_ok ran]
    exact quiet_leaves _ _
  · right
    have ran : quiet (resolveUser env user) opening =
        (.ok (some (account.homeDir, true)), { opening with auth := { opening.auth with accounts := accounts } }) := by
      rw [quiet_run, run]
    refine ⟨⟨accounts, account, found⟩, ?_⟩
    rw [authPublickeyOpening, Action.bind_run_ok ran]
    -- after the file is opened, nothing more is
    refine @Action.Leaves.before _ _ _ _ _ Opening.opened _ _ _ ?_
    intro verdict
    cases verdict with
    | false => exact quiet_leaves _
    | true => exact quiet_leaves _

theorem mem_opens {env : AuthEnv} {state : AuthState} {user : Text} {publicKey : PublicKey} {path : PathBuf}
    (member : path ∈ opens parsePublicKeyBase64 env state user publicKey) :
    isSafeUsername user = true ∧ path = userPubkeyPath state.handler.keysDir user := by
  rcases authPublickeyOpening_opened env user publicKey ⟨state, []⟩ with
    nothing | ⟨⟨accounts, account, found⟩, one⟩
  · rw [opens, nothing] at member
    cases member
  · rw [opens, one] at member
    exact ⟨found.1, List.mem_singleton.mp member⟩

end Opening

section KeyFile
variable {keysDir : PathBuf} {user : Text}

theorem keyFile_isName (safe : SafeName user) : IsName (user ++ ".pub".toList) := by
  obtain ⟨first, rest, rfl, begins, -, others⟩ := safe
  have plain := IsWordChar.plain (.inl begins)
  refine ⟨List.cons_ne_nil _ _, ?_, ?_, ?_⟩
  · intro dot
    exact plain.2 (List.cons.inj dot).1
  · intro dots
    exact plain.2 (List.cons.inj dots).1
  · intro separator
    rcases List.mem_append.mp separator with inName | inSuffix
    · rcases List.mem_cons.mp inName with same | member
      · exact plain.1 same.symm
      · exact (IsWordChar.plain (others _ member)).1 rfl
    · revert inSuffix
      decide

/-- The key file of a safe name is an entry of the directory of keys. -/
theorem userPubkeyPath_safe (safe : SafeName user) :
    userPubkeyPath keysDir user = keysDir ++ [.normal (user ++ ".pub".toList)] := by
  rw [userPubkeyPath, components_name (keyFile_isName safe), PathBuf.join_name]

theorem userPubkeyPath_injective {other : Text} (safe : SafeName user) (otherSafe : SafeName other)
    (same : userPubkeyPath keysDir user = userPubkeyPath keysDir other) : user = other := by
  rw [userPubkeyPath_safe safe, userPubkeyPath_safe otherSafe] at same
  have names := Component.normal.inj (List.cons.inj (List.append_cancel_left same)).1
  exact List.append_cancel_right names

end KeyFile

/-- A key file that is opened is an entry of the directory of keys, for one name only, and the name
is a safe one. -/
theorem opened_key_contained {PublicKey : Type} [DecidableEq PublicKey] (parsePublicKeyBase64 : Text → Option PublicKey)
    {env : AuthEnv} {state : AuthState} {user : Text} {publicKey : PublicKey} {path : PathBuf}
    (opened : path ∈ opens parsePublicKeyBase64 env state user publicKey) :
    (path = state.handler.keysDir ++ [.normal (user ++ ".pub".toList)] ∧ IsName (user ++ ".pub".toList)) ∧
    (∀ otherEnv otherState otherUser otherKey, otherState.handler.keysDir = state.handler.keysDir →
      path ∈ opens parsePublicKeyBase64 otherEnv otherState otherUser otherKey → otherUser = user) ∧
    isSafeUsername user = true ∧ ∀ name, isSafeUsername name = true ↔ SafeName name := by
  obtain ⟨accepted, rfl⟩ := mem_opens opened
  have safe := isSafeUsername_iff.mp accepted
  refine ⟨⟨userPubkeyPath_safe safe, keyFile_isName safe⟩, ?_, accepted, fun name => isSafeUsername_iff⟩
  intro otherEnv otherState otherUser otherKey sameDir member
  obtain ⟨otherAccepted, same⟩ := mem_opens member
  rw [sameDir] at same
  exact (userPubkeyPath_injective safe (isSafeUsername_iff.mp otherAccepted) same).symm

section Samples

def keysOf (username : Text) : AuthState :=
  ⟨.newClient none (components "/etc/wftpd/keys".toList),
    ⟨.store ⟨AList.singleton username ⟨username, "hash".toList, "/".toList, .default, 0, none, true, false⟩⟩, .new⟩, []⟩

def keylessEnv : AuthEnv := ⟨⟨1, true, true⟩, .permissive, .empty, fun _ => none, fun _ => [], true⟩

theorem opened_key_contained_bob : components "/etc/wftpd/keys/bob.pub".toList =
    components "/etc/wftpd/keys".toList ++ [.normal "bob.pub".toList] :=
  (opened_key_contained (some : Text → Option Text)
    (show components "/etc/wftpd/keys/bob.pub".toList ∈ opens some keylessEnv (keysOf "bob".toList) "bob".toList [] by
      decide +kernel)).1.1

end Samples

end SftpHandler

end Wftpd.Sftp
