import Wftpd.Sftp.Audit
import Wftpd.Sftp.Names

/-! What SYMLINK stores, against what it has checked.

The text of the target is stored as the client sent it. The check reads an absolute one as a
request path, below home; the kernel reads it from the root.
-/

set_option autoImplicit false

namespace Wftpd.Sftp
open Wftpd.Posix Wftpd.Common Wftpd.Library

/-- A link target as the kernel reads it: from the root, or from the directory that holds
the link. -/
def reading (held : PathBuf) (target : Text) : PathBuf := held.join (components target)

/-- The path lies at or below home when its `..` are cancelled. -/
def AtOrBelow (homeDir : Text) (path : PathBuf) : Prop := survivors (components homeDir) <+: survivors path

instance (homeDir : Text) (path : PathBuf) : Decidable (AtOrBelow homeDir path) :=
  inferInstanceAs (Decidable (_ <+: _))

section Check
variable {homeDir : Text}

/-- What the loop accepts, taken from the root, cancels to names below home. -/
theorem normalize_atOrBelow (home : IsHome homeDir) {refuse : StatusCode} {tail accepted : PathBuf}
    (ran : normalize (components homeDir) refuse (.rootDir :: tail) = .ok accepted) :
    AtOrBelow homeDir (.rootDir :: tail) := by
  obtain ⟨homeNames, canonical⟩ := home.names
  cases stripped : PathBuf.stripPrefix (.rootDir :: tail) (components homeDir) with
  | none =>
      -- outside home the loop meets the root first, and refuses it
      rw [normalize, stripped] at ran
      cases ran
  | some more =>
      have shape := PathBuf.stripPrefix_eq_some.mp stripped
      rw [shape, normalize_below home.components_ne_nil] at ran
      rw [shape]
      cases cancelled : cancel [] more with
      | none =>
          rw [cancelled] at ran
          cases ran
      | some below =>
          have kept := foldl_survive_of_cancel cancelled homeNames
          rw [List.append_nil] at kept
          rw [AtOrBelow, canonical, survivors_ofNames, survivors, List.foldl_append, ← survivors, survivors_ofNames, kept]
          exact List.prefix_append _ _

theorem link_absolute (home : IsHome homeDir) {path : Text} {link : PathBuf} (led : resolve homeDir path = .ok link) :
    link.isAbsolute = true := by
  obtain ⟨same, -⟩ := resolve_shape home led
  obtain ⟨homeNames, canonical⟩ := home.names
  rw [same, canonical]
  rfl

/-- The directory the check starts from is the one above the link; the root is above itself. -/
theorem link_parent (home : IsHome homeDir) {path : Text} {link : PathBuf} (led : resolve homeDir path = .ok link) :
    link.parent.getD (components homeDir) = link.pop ∧ ∃ tail, link.pop = .rootDir :: tail := by
  obtain ⟨same, proper⟩ := resolve_shape home led
  obtain ⟨homeNames, canonical⟩ := home.names
  rw [canonical, PathBuf.ofNames, List.cons_append] at same
  have apart : .rootDir ∉ homeNames.map Component.normal ++ below homeDir path := by
    intro member
    rcases List.mem_append.mp member with named | later
    · simp at named
    · exact proper _ later
  rcases List.eq_nil_or_concat (homeNames.map Component.normal ++ below homeDir path) with root | ⟨front, last, shape⟩
  · rw [root] at same
    have none : homeNames = [] := by simpa using (List.append_eq_nil_iff.mp root).1
    rw [same, canonical, none]
    exact ⟨rfl, [], rfl⟩
  · rw [shape] at same apart
    have above : link.parent = some (.rootDir :: front) := by
      rw [same, List.concat_eq_append, ← List.cons_append]
      unfold PathBuf.parent
      rw [List.getLast?_concat, List.dropLast_concat]
      cases last with
      | rootDir => simp at apart
      | curDir | parentDir | normal name => rfl
    exact ⟨by rw [PathBuf.pop, above]; rfl, front, by rw [PathBuf.pop, above]; rfl⟩

theorem checkTarget_atOrBelow (home : IsHome homeDir) {path target : Text} {link accepted : PathBuf}
    (led : resolve homeDir path = .ok link) (relative : startsWith '/' target = false)
    (checked : checkTarget homeDir link target = .ok accepted) : AtOrBelow homeDir (reading link.pop target) := by
  obtain ⟨held, tail, absolute⟩ := link_parent home led
  have joined : link.pop.join (components target) = .rootDir :: (tail ++ body target) := by
    rw [absolute, join_relative (List.cons_ne_nil _ _) relative, List.cons_append]
  simp only [checkTarget, relative, Bool.false_eq_true, if_false, held, joined] at checked
  rw [reading, joined]
  exact normalize_atOrBelow home checked

end Check

section Request
variable {env : RequestEnv} {session : Session}

theorem symlink_ok {id : UInt32} {linkpath targetpath : Text} {reply : Reply} {after : Session}
    (linked : symlink env id linkpath targetpath session = (.ok reply, after)) :
    ∃ link, resolve session.homeDir targetpath = .ok link ∧
      (∃ accepted, checkTarget session.homeDir link linkpath = .ok accepted) ∧
      FileSystem.symlink env.os linkpath link session.fs = (.ok (), after.fs) := by
  obtain ⟨_, -, linked⟩ := gate_ok (gate_query _) linked
  obtain ⟨link, led, linked⟩ := gate_ok (gate_query _) linked
  obtain ⟨accepted, checked, linked⟩ := gate_ok (gate_query _) linked
  obtain ⟨_, -, linked⟩ := gate_ok (gate_query _) linked
  obtain ⟨_, stored, called, linked⟩ := Action.bind_ok linked
  refine ⟨link, resolvePath_ok led, ⟨accepted, (Prod.mk.inj checked).1⟩, ?_⟩
  rw [fs_after (leaves_audited id _ _ _ _) linked]
  exact (sys_ok called).1

/-- The link a SYMLINK has made holds the text as it was sent, and read from the directory it
was put in that text leads to home or below. -/
def PlantsInside (env : RequestEnv) (session after : Session) (linkpath targetpath : Text) : Prop :=
  ∃ link loc ino, resolve session.homeDir targetpath = .ok link ∧
    session.fs.locate env.os false link = .ok loc ∧ session.fs.tree.find loc = none ∧
    after.fs.tree.find loc = some (.link ino linkpath) ∧
    AtOrBelow session.homeDir (reading (.ofNames loc.dropLast) linkpath)

/-- An absolute target is itself at or below home. A relative one goes into the directory that
the link's path names, which is the one that was checked, or else fits the one it goes into. -/
def TargetFits (env : RequestEnv) (session : Session) (linkpath targetpath : Text) : Prop :=
  if startsWith '/' linkpath then AtOrBelow session.homeDir (components linkpath)
  else ∃ link loc, resolve session.homeDir targetpath = .ok link ∧ session.fs.locate env.os false link = .ok loc ∧
    (.ofNames loc.dropLast = link.pop ∨ AtOrBelow session.homeDir (reading (.ofNames loc.dropLast) linkpath))

theorem reading_absolute (held : PathBuf) {target : Text} (absolute : startsWith '/' target = true) :
    reading held target = components target := by
  rw [reading, PathBuf.join, PathBuf.push, components_absolute absolute]
  rfl

/-- A SYMLINK that succeeds plants a link to home or below exactly when its target fits. -/
theorem symlink_plantsInside_iff {id : UInt32} {linkpath targetpath : Text} {reply : Reply} {after : Session}
    (home : IsHome session.homeDir) (linked : symlink env id linkpath targetpath session = (.ok reply, after)) :
    PlantsInside env session after linkpath targetpath ↔ TargetFits env session linkpath targetpath := by
  obtain ⟨link, led, ⟨accepted, checked⟩, made⟩ := symlink_ok linked
  obtain ⟨parent, name, located, absent, same⟩ := FileSystem.symlink_ok made
  have held : (parent ++ [name]).dropLast = parent := List.dropLast_concat
  have planted : after.fs.tree.find (parent ++ [name]) = some (.link session.fs.next linkpath) := by
    have dir := FileSystem.locate_parent (link_absolute home led) located
    rw [held] at dir
    rw [same, FileSystem.touchDir_tree]
    exact Tree.find_insert_self dir absent
  -- both sides speak of this link, and of the directory it is in
  have only : PlantsInside env session after linkpath targetpath ↔
      AtOrBelow session.homeDir (reading (.ofNames parent) linkpath) := by
    constructor
    · rintro ⟨other, loc, ino, ledToo, locatedToo, -, -, inside⟩
      rw [led] at ledToo
      cases ledToo
      rw [located] at locatedToo
      cases locatedToo
      rwa [held] at inside
    · intro inside
      exact ⟨link, parent ++ [name], session.fs.next, led, located, absent, planted, by rwa [held]⟩
  rw [only, TargetFits]
  cases kind : startsWith '/' linkpath with
  | true => rw [if_pos rfl, reading_absolute _ kind]
  | false =>
      rw [if_neg Bool.false_ne_true]
      constructor
      · intro inside
        exact ⟨link, parent ++ [name], led, located, .inr (by rwa [held])⟩
      · rintro ⟨other, loc, ledToo, locatedToo, fits⟩
        rw [led] at ledToo
        cases ledToo
        rw [located] at locatedToo
        cases locatedToo
        rw [held] at fits
        rcases fits with named | inside
        · -- what the check has seen is what the kernel will
          rw [named]
          exact checkTarget_atOrBelow home led kind checked
        · exact inside

end Request

section Samples

theorem symlink_plantsInside_neighbour :
    PlantsInside (permissiveEnv linkRights) emptyHome
        (symlink (permissiveEnv linkRights) 1 "x".toList "l".toList emptyHome).2 "x".toList "l".toList ↔
      TargetFits (permissiveEnv linkRights) emptyHome "x".toList "l".toList := by
  have linked : symlink (permissiveEnv linkRights) 1 "x".toList "l".toList emptyHome =
      (.ok (.status 1 .ok), (symlink (permissiveEnv linkRights) 1 "x".toList "l".toList emptyHome).2) := rfl
  exact symlink_plantsInside_iff ⟨by decide, by decide⟩ linked

/-- The target `/etc/passwd` is checked as a path below home and stored as it is. -/
theorem symlink_plants_absolute : ¬ ∀ (env : RequestEnv) (session after : Session) (id : UInt32)
    (linkpath targetpath : Text) (reply : Reply), IsHome session.homeDir →
    symlink env id linkpath targetpath session = (.ok reply, after) →
    PlantsInside env session after linkpath targetpath := by
  intro plants
  have linked : symlink (permissiveEnv linkRights) 1 "/etc/passwd".toList "l".toList emptyHome =
      (.ok (.status 1 .ok), (symlink (permissiveEnv linkRights) 1 "/etc/passwd".toList "l".toList emptyHome).2) := rfl
  obtain ⟨-, loc, -, -, -, -, -, inside⟩ := plants _ emptyHome _ 1 _ _ _ ⟨by decide, by decide⟩ linked
  rw [reading_absolute _ (by decide)] at inside
  exact absurd inside (by decide)

end Samples

end Wftpd.Sftp
