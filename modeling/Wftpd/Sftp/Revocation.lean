import Wftpd.Sftp.Frame

/-! What becomes of a running session whose user is removed or disabled.

Every request that needs a right reads it from the store of its moment. A user who is
no longer there has none; one who is disabled has what his entry says.
-/

set_option autoImplicit false

namespace Wftpd.Sftp
open Wftpd.Posix Wftpd.Common Wftpd.Library

def Request.asks : Request → Option (Permissions → Bool)
  | .open _ _ pflags => some pflags.granted
  | .stat _ _ | .lstat _ _ | .opendir _ _ => some Permissions.canList
  | .setstat _ _ _ | .symlink _ _ _ => some Permissions.canWrite
  | .remove _ _ => some Permissions.canDelete
  | .mkdir _ _ => some Permissions.canMkdir
  | .rmdir _ _ => some Permissions.canRmdir
  | .rename _ _ _ => some Permissions.canRename
  | _ => none

def Revoked (session : Session) (input : Input) : Prop :=
  ∀ user, input.1.users.getUser session.username = some user → user.enabled = false

/-- A request of a disabled user for which his entry still has the right. -/
def KeepsRight (session : Session) (input : Input) : Prop :=
  ∃ right user, input.2.asks = some right ∧ input.1.users.getUser session.username = some user ∧
    user.enabled = false ∧ right user.permissions = true

/-- Answered with a refusal, and nothing changed but the audit log. -/
def Denied (digests : Digests) (session : Session) (input : Input) : Prop :=
  ∃ log, sessionStep digests session input = (.error .permissionDenied, { session with log := log })

section Refusals
variable {α : Type} {env : RequestEnv} {session : Session} {right : Permissions → Bool}

theorem requirePermission_denied {next : Unit → Handled α} (missing : right (session.permissions env) = false) :
    ∃ log, (requirePermission env right >>= next) session =
      (.error .permissionDenied, { session with log := log }) := by
  refine ⟨session.log, Action.bind_run_error ?_⟩
  simp only [requirePermission, Action.query_run, missing, Bool.false_eq_true, if_false]

theorem requireAudited_denied {next : Unit → Handled α} {operation filePath : Text}
    (missing : right (session.permissions env) = false) :
    ∃ log, (requireAudited env right operation filePath >>= next) session =
      (.error .permissionDenied, { session with log := log }) := by
  have refused : ∃ log, requireAudited env right operation filePath session =
      (.error .permissionDenied, { session with log := log }) := by
    rw [requireAudited, Action.bind_run, Action.read_run]
    simp only [missing, Bool.false_eq_true, if_false]
    exact ⟨_, rfl⟩
  obtain ⟨log, ran⟩ := refused
  exact ⟨log, Action.bind_run_error ran⟩

/-- A request whose right is missing is refused before it does anything. -/
theorem denied_of_missing (digests : Digests) {request : Request} (asks : request.asks = some right)
    (missing : right (session.permissions env) = false) : Denied digests session (env, request) := by
  cases request with
  | «open» id filename pflags =>
      cases asks
      exact requireAudited_denied missing
  | lstat id path =>
      cases asks
      exact requirePermission_denied missing
  | setstat id path attrs =>
      cases asks
      exact requirePermission_denied missing
  | opendir id path =>
      cases asks
      exact requirePermission_denied missing
  | remove id filename =>
      cases asks
      exact requireAudited_denied missing
  | mkdir id path =>
      cases asks
      exact requireAudited_denied missing
  | rmdir id path =>
      cases asks
      exact requireAudited_denied missing
  | stat id path =>
      cases asks
      exact requirePermission_denied missing
  | rename id oldpath newpath =>
      cases asks
      exact requireAudited_denied missing
  | symlink id linkpath targetpath =>
      cases asks
      exact requirePermission_denied missing
  | _ => cases asks

theorem asks_default {request : Request} (asks : request.asks = some right) : right .default = false := by
  cases request with
  | «open» id filename pflags =>
      cases asks
      simp [OpenFlags.granted, Permissions.default]
  | lstat _ _ | setstat _ _ _ | opendir _ _ | remove _ _ | mkdir _ _ | rmdir _ _ | stat _ _ | rename _ _ _
  | symlink _ _ _ =>
      cases asks
      rfl
  | _ => cases asks

/-- A revoked user lacks the right, unless his disabled entry still has it. -/
theorem permissions_revoked {request : Request} (asks : request.asks = some right)
    (revoked : Revoked session (env, request)) (lacks : ¬ KeepsRight session (env, request)) :
    right (session.permissions env) = false := by
  unfold Session.permissions RequestEnv.permissionsOf
  cases found : env.users.getUser session.username with
  -- removed: the default rights apply, and they hold none that a request asks for
  | none => exact asks_default asks
  | some user =>
      -- there, but disabled: the rights of the entry still apply
      by_contra has
      exact lacks ⟨right, user, asks, found, revoked user found, by simpa using has⟩

end Refusals

/-- In every run, from any session and with any changes of the store: whatever a revoked
user asks for is refused, as long as he is not a disabled one whose entry has the right. -/
theorem run_revoked (digests : Digests) (session : Session) (inputs : List Input)
    (lacks : Along (sessionStep digests) (fun session input => ¬ KeepsRight session input) session inputs) :
    Along (sessionStep digests)
      (fun session input => Revoked session input → input.2.asks ≠ none → Denied digests session input) session inputs := by
  apply lacks.imp
  intro session input lacks revoked gated
  obtain ⟨right, asks⟩ := Option.ne_none_iff_exists'.mp gated
  exact denied_of_missing digests asks (permissions_revoked asks revoked lacks)

section Samples

def disabledEnv (permissions : Permissions) : RequestEnv :=
  { permissiveEnv permissions with
    users := ⟨AList.singleton "ann".toList
      ⟨"ann".toList, "hash".toList, "/".toList, permissions, 0, none, false, false⟩⟩ }

def removedEnv : RequestEnv := { permissiveEnv .default with users := .new }

def mayList : Permissions := { Permissions.default with canList := true }

theorem run_revoked_twice :
    Along (sessionStep noDigests)
      (fun session input => Revoked session input → input.2.asks ≠ none → Denied noDigests session input)
      (sessionAt .empty) [(disabledEnv mayList, .remove 1 "a".toList), (removedEnv, .stat 2 "/".toList)] := by
  apply run_revoked
  refine ⟨?_, ?_, trivial⟩
  · rintro ⟨right, user, asks, found, -, has⟩
    cases asks
    cases found
    cases has
  · rintro ⟨right, user, asks, found, -⟩
    cases found

/-- A disabled user who may list is still answered. -/
theorem disabled_user_listed : ¬ ∀ (digests : Digests) (session : Session) (inputs : List Input),
    Along (sessionStep digests)
      (fun session input => Revoked session input → input.2.asks ≠ none → Denied digests session input)
      session inputs := by
  intro refused
  have revoked : Revoked (sessionAt .empty) (disabledEnv mayList, .stat 1 "/".toList) := by
    intro user found
    cases found
    rfl
  have gated : (Request.stat 1 "/".toList).asks ≠ none := by simp [Request.asks]
  obtain ⟨log, denied⟩ := (refused noDigests (sessionAt .empty) [(disabledEnv mayList, .stat 1 "/".toList)]).1 revoked gated
  have answered := congrArg Prod.fst denied
  cases answered

end Samples

end Wftpd.Sftp
