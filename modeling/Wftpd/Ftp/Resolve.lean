import Wftpd.Ftp.Storage
import Wftpd.Posix.Lexical

/-! The path check that stands before every storage call.

The loop compares whole paths to know that it is back at the root; what it holds is always
the root and the names that still stand.
-/

set_option autoImplicit false

namespace Wftpd.Ftp
open Wftpd.Posix Wftpd.Library

theorem normalizeFrom_below {root : PathBuf} (nonempty : root ≠ []) (names : List Name) (path : PathBuf) :
    normalizeFrom root (root ++ names.map .normal) path =
      match cancel names path with
      | some below => .ok (root ++ below.map .normal)
      | none => .error .fileNameNotAllowedError := by
  induction path generalizing names with
  | nil => rfl
  | cons component rest ih =>
      cases component with
      | rootDir => rfl
      | curDir => exact ih names
      | normal name =>
          rw [normalizeFrom, PathBuf.push_normal _ _ (by simp [nonempty])]
          simpa using ih (names ++ [name])
      | parentDir =>
          rw [normalizeFrom, cancel_parentDir]
          rcases List.eq_nil_or_concat names with rfl | ⟨front, last, rfl⟩
          · simp
          · -- a name still stands, so the loop is not back at the root
            have moved : root ++ (front.concat last).map Component.normal ≠ root := by simp
            rw [if_neg moved, if_neg (by simp)]
            simpa [← List.append_assoc] using ih front

theorem resolve_below {root : PathBuf} (nonempty : root ≠ []) (path : Text) :
    resolve (some root) (components path) =
      match cancel [] (body path) with
      | some below => .ok (root ++ below.map .normal)
      | none => .error .fileNameNotAllowedError := by
  have walked := normalizeFrom_below nonempty [] (((components path).stripPrefix [.rootDir]).getD (components path))
  rwa [List.map_nil, List.append_nil, cancel_stripped] at walked

def SessionRoot (root : PathBuf) : Prop :=
  ∃ env user before after, enter env user before = (.ok (), after) ∧ after.root = some root

theorem SessionRoot.names {root : PathBuf} (entered : SessionRoot root) : ∃ names, root = .ofNames names := by
  obtain ⟨env, user, before, after, ran, rooted⟩ := entered
  obtain ⟨_, made, -, rest⟩ := Action.bind_ok ran
  obtain ⟨canon, canonical, finish⟩ := Action.Still.bind_ok (Action.still_query _) rest
  cases finish
  cases rooted
  have found : made.fs.canonicalize env.os user.home = .ok root := (Prod.mk.inj canonical).1
  unfold FileSystem.canonicalize at found
  cases located : made.fs.locate env.os true user.home with
  | error why =>
      rw [located] at found
      cases found
  | ok loc =>
      simp only [located, bind, Except.bind] at found
      split at found
      · cases found
      · exact ⟨loc, (Except.ok.inj found).symm⟩

/-- A path is accepted exactly when its `..` never outnumber the names before them; it leads
to the root and the names that survive, so never above the root. -/
theorem resolve_exact {root : PathBuf} (entered : SessionRoot root) (path : Text) :
    (∀ location, resolve (some root) (components path) = .ok location ↔
      Balanced (components path) ∧ location = root ++ (survivors (components path)).map .normal) ∧
    ∀ location, resolve (some root) (components path) = .ok location → root <+: location ∧ .parentDir ∉ location := by
  obtain ⟨names, canonical⟩ := entered.names
  have exact_iff : ∀ location, resolve (some root) (components path) = .ok location ↔
      Balanced (components path) ∧ location = root ++ (survivors (components path)).map .normal := by
    intro location
    rw [resolve_below (by simp [canonical])]
    cases cancelled : cancel [] (body path) with
    | none =>
        -- the loop refuses what cancelling cannot take
        have refused : ¬ Balanced (components path) := by
          intro balanced
          have accepted := (cancel_body_iff path _).mpr ⟨balanced, rfl⟩
          rw [cancelled] at accepted
          cases accepted
        simp [refused]
    | some below =>
        obtain ⟨balanced, same⟩ := (cancel_body_iff path below).mp cancelled
        simp [balanced, same, eq_comm]
  refine ⟨exact_iff, fun location accepted => ?_⟩
  obtain ⟨-, same⟩ := (exact_iff location).mp accepted
  rw [same]
  exact ⟨List.prefix_append _ _, by simp [canonical, PathBuf.ofNames]⟩

theorem resolve_exact_disk :
    (∀ location, resolve (some [.rootDir]) (components "a/../b".toList) = .ok location ↔
      Balanced (components "a/../b".toList) ∧
        location = [.rootDir] ++ (survivors (components "a/../b".toList)).map .normal) ∧
    ∀ location, resolve (some [.rootDir]) (components "a/../b".toList) = .ok location →
      [.rootDir] <+: location ∧ .parentDir ∉ location :=
  resolve_exact ⟨permissiveCall, userWith .full, rootedAt [] .empty, rootedAt [] .empty, by rfl, rfl⟩ "a/../b".toList

end Wftpd.Ftp
