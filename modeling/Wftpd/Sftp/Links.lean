import Wftpd.Posix.Walk
import Wftpd.Sftp.Changes

/-! Symbolic links over whole runs.

SYMLINK checks its target once, against the path the client gave for the link. What
matters to the kernel is the directory the link is in, now and after every rename.
-/

set_option autoImplicit false

namespace Wftpd.Sftp
open Wftpd.Posix Wftpd.Common Wftpd.Library

/-- The requests of such a run: relative targets, and no path with the real home prefix. -/
def LinkRequest (homeDir : Text) : Request → Prop
  | .mkdir _ path => ∀ within, ¬ CarriesHome homeDir path within
  | .symlink _ linkpath targetpath =>
      startsWith '/' linkpath = false ∧ ∀ within, ¬ CarriesHome homeDir targetpath within
  | .rename _ oldpath newpath =>
      (∀ within, ¬ CarriesHome homeDir oldpath within) ∧ ∀ within, ¬ CarriesHome homeDir newpath within
  | _ => False

/-- Every link inside home, followed by any kernel, leads inside home or to nothing. -/
def LinksInside (home : Loc) (fs : FileSystem) : Prop :=
  ∀ os below name ino target, fs.tree.find (home ++ below ++ [name]) = some (.link ino target) →
    ∀ loc, fs.walk os true FileSystem.maxSymlinks (home ++ below) [.name name] = .ok loc →
      home <+: loc ∨ fs.tree.find loc = none

/-- Whatever link goes in goes into a directory deep enough for its target: by SYMLINK into the
one the kernel finds, and by RENAME, which may move it together with a directory above it. -/
def PlacesLinks (home : Loc) (session : Session) (input : Input) : Prop :=
  match input.2 with
  | .symlink _ linkpath targetpath => ∀ link below name, (session.permissions input.1).canWrite = true →
      resolve session.homeDir targetpath = .ok link →
      (∃ checked, checkTarget session.homeDir link linkpath = .ok checked) →
      session.fs.pathExists input.1.os link = false →
      FileSystem.MakesLink input.1.os session.fs linkpath link (home ++ below) name →
      grounded below.length (targetHops linkpath) = true
  | .rename _ oldpath newpath => ∀ «from» «to» source target, (session.permissions input.1).canRename = true →
      resolve session.homeDir oldpath = .ok «from» → resolve session.homeDir newpath = .ok «to» →
      session.fs.pathExists input.1.os «to» = false →
      FileSystem.Renames input.1.os session.fs «from» «to» source target →
      ∀ rest depth ino text, session.fs.tree.find (source ++ rest) = some (.link ino text) →
        (target ++ rest).length = home.length + depth + 1 → grounded depth (targetHops text) = true
  | _ => True

structure Sheltered (home : Loc) (fs : FileSystem) : Prop where
  dir : fs.tree.isDir home = true
  settled : Settled fs.tree home

section Steps
variable {home : Loc}

theorem Sheltered.linksInside {fs : FileSystem} (sheltered : Sheltered home fs) : LinksInside home fs := by
  intro os below name ino target _ loc walked
  have steady : grounded below.length [.name name] = true := rfl
  exact .inl (FileSystem.walk_inside sheltered.settled steady walked)

theorem sheltered_of_no_links {fs : FileSystem} (dir : fs.tree.isDir home = true)
    (noLinks : ∀ rest ino target, fs.tree.find (home ++ rest) ≠ some (.link ino target)) : Sheltered home fs := by
  refine ⟨dir, ?_⟩
  intro below name ino target found
  rw [List.append_assoc] at found
  exact absurd found (noLinks _ ino target)

theorem Sheltered.create {fs : FileSystem} (sheltered : Sheltered home fs) {os : Os} {parent : Loc} {name : Name}
    {new : NewNode} (fits : ∀ below target, parent = home ++ below → new = .link target →
      startsWith '/' target = false ∧ grounded below.length (targetHops target) = true) :
    Sheltered home ((fs.create parent name new os.created).touchDir parent os.now) := by
  constructor <;> rw [FileSystem.touchDir_tree]
  · exact FileSystem.isDir_create sheltered.dir
  · exact FileSystem.settled_create sheltered.settled fits

/-- A request path resolves to names below home, and so the kernel ends up there. -/
theorem Sheltered.locate {fs : FileSystem} (sheltered : Sheltered home fs) {homeDir path : Text}
    (atHome : components homeDir = .ofNames home) (plain : ∀ within, ¬ CarriesHome homeDir path within)
    {resolved : PathBuf} (accepted : resolve homeDir path = .ok resolved) {os : Os} {follow : Bool} {loc : Loc}
    (located : fs.locate os follow resolved = .ok loc) : home <+: loc := by
  rw [resolve_below (by simp [atHome]) plain, atHome] at accepted
  split at accepted
  · next below _ =>
      cases accepted
      rw [← PathBuf.ofNames_append] at located
      exact FileSystem.locate_inside sheltered.settled sheltered.dir located
  · cases accepted

theorem sheltered_mkdir {env : RequestEnv} {session : Session} (sheltered : Sheltered home session.fs)
    (id : UInt32) (path : Text) : Sheltered home (mkdir env id path session).2.fs := by
  apply mkdir_final (Sheltered home) id sheltered path
  intro resolved _
  apply FileSystem.createDir_final (Sheltered home) resolved sheltered
  intro parent name _
  apply sheltered.create
  intro below target _ isLink
  cases isLink

theorem sheltered_symlink {env : RequestEnv} {session : Session} (sheltered : Sheltered home session.fs)
    (id : UInt32) {linkpath targetpath : Text} (relative : startsWith '/' linkpath = false)
    (placed : PlacesLinks home session (env, .symlink id linkpath targetpath)) :
    Sheltered home (symlink env id linkpath targetpath session).2.fs := by
  apply symlink_final (Sheltered home) id sheltered linkpath targetpath
  intro granted link accepted checked absent
  apply FileSystem.symlink_final (Sheltered home) linkpath link sheltered
  intro parent name makes
  apply sheltered.create
  intro below target here isLink
  cases isLink
  subst parent
  exact ⟨relative, placed link below name granted accepted checked absent makes⟩

theorem sheltered_rename {env : RequestEnv} {session : Session} (sheltered : Sheltered home session.fs)
    (atHome : components session.homeDir = .ofNames home) (id : UInt32) {oldpath newpath : Text}
    (plainOld : ∀ within, ¬ CarriesHome session.homeDir oldpath within)
    (plainNew : ∀ within, ¬ CarriesHome session.homeDir newpath within)
    (placed : PlacesLinks home session (env, .rename id oldpath newpath)) :
    Sheltered home (rename env id oldpath newpath session).2.fs := by
  apply rename_final (Sheltered home) id sheltered oldpath newpath
  intro granted «from» «to» acceptedFrom acceptedTo absent
  apply FileSystem.rename_final (Sheltered home) «from» «to» sheltered
  intro source target renames
  have inside : home <+: source := sheltered.locate atHome plainOld acceptedFrom renames.locatedSource
  have targetInside : home <+: target := sheltered.locate atHome plainNew acceptedTo renames.locatedTarget
  obtain ⟨_, notBelow, notAbove⟩ := renames.found
  -- home itself is neither moved nor replaced: it is above both ends
  have apart : ¬ source <+: home := fun above => notBelow (above.trans targetInside)
  have kept : ¬ target <+: home := fun above => notAbove (above.trans inside)
  constructor <;> rw [FileSystem.touchDir_tree, FileSystem.touchDir_tree]
  · exact FileSystem.isDir_moveEntry apart kept sheltered.dir
  · apply FileSystem.settled_moveEntry sheltered.settled inside
    · intro same
      exact apart (same ▸ List.prefix_refl source)
    · exact placed «from» «to» source target granted acceptedFrom acceptedTo absent renames

theorem sheltered_step (digests : Digests) {session : Session} {input : Input}
    (atHome : components session.homeDir = .ofNames home) (sheltered : Sheltered home session.fs)
    (request : LinkRequest session.homeDir input.2) (placed : PlacesLinks home session input) :
    Sheltered home (sessionStep digests session input).2.fs := by
  obtain ⟨env, asked⟩ := input
  cases asked with
  | mkdir id path => exact sheltered_mkdir sheltered id path
  | symlink id linkpath targetpath => exact sheltered_symlink sheltered id request.1 placed
  | rename id oldpath newpath => exact sheltered_rename sheltered atHome id request.1 request.2 placed
  | _ => exact request.elim

end Steps

/-- As long as every link is placed deep enough, no link leads out of home. -/
theorem run_linksInside (digests : Digests) (session : Session) (home : Loc)
    (atHome : components session.homeDir = .ofNames home) (dir : session.fs.tree.isDir home = true)
    (noLinks : ∀ rest ino target, session.fs.tree.find (home ++ rest) ≠ some (.link ino target))
    (inputs : List Input) (requests : ∀ input ∈ inputs, LinkRequest session.homeDir input.2)
    (placed : Along (sessionStep digests) (PlacesLinks home) session inputs) :
    LinksInside home (run (sessionStep digests) session inputs).2.fs := by
  let invariant (state : Session) := state.homeDir = session.homeDir ∧ Sheltered home state.fs
  let condition (state : Session) (input : Input) :=
    LinkRequest session.homeDir input.2 ∧ PlacesLinks home state input
  have initial : invariant session := ⟨rfl, sheltered_of_no_links dir noLinks⟩
  have keeps : ∀ state input, invariant state → condition state input →
      invariant (sessionStep digests state input).2 := by
    intro state input ⟨same, sheltered⟩ ⟨request, places⟩
    have owner := handleRequest_leaves_owner digests input.1 input.2 state
    refine ⟨(Prod.mk.inj owner).2.trans same, ?_⟩
    rw [← same] at request atHome
    exact sheltered_step digests atHome sheltered request places
  have along : Along (sessionStep digests) condition session inputs := Along.and (Along.of_forall requests) placed
  have kept : invariant (run (sessionStep digests) session inputs).2 := run_invariant keeps initial along
  exact kept.2.linksInside

section Samples

def linkRights : Permissions := { Permissions.default with canMkdir := true, canWrite := true, canRename := true }

def emptyHome : Session :=
  { sessionAt (FileSystem.empty.create [] "h".toList .dir ⟨0o755, 0, 0, 0, 0⟩) with homeDir := "/h".toList }

theorem emptyHome_no_links (rest : Loc) (ino : Nat) (target : Text) :
    emptyHome.fs.tree.find (["h".toList] ++ rest) ≠ some (.link ino target) := by
  intro found
  have member := Tree.mem_iff_find.mpr found
  have entries : emptyHome.fs.tree.entries = [(["h".toList], .dir 1), ([], .dir 0)] := rfl
  simp [entries] at member

def climbingRun : List Input :=
  [(permissiveEnv linkRights, .mkdir 1 "a".toList), (permissiveEnv linkRights, .symlink 2 "..".toList "a/l".toList),
    (permissiveEnv linkRights, .rename 3 "a/l".toList "l".toList)]

theorem plain_of_relative {homeDir path : Text} (relative : startsWith '/' (trim path) = false) (within : PathBuf) :
    ¬ CarriesHome homeDir path within := by
  rintro ⟨absolute, -⟩
  rw [relative] at absolute
  cases absolute

theorem climbingRun_requests : ∀ input ∈ climbingRun, LinkRequest emptyHome.homeDir input.2 := by
  intro input member
  simp only [climbingRun, List.mem_cons, List.not_mem_nil, or_false] at member
  rcases member with rfl | rfl | rfl
  · exact plain_of_relative (by decide)
  · exact ⟨by decide, plain_of_relative (by decide)⟩
  · exact ⟨plain_of_relative (by decide), plain_of_relative (by decide)⟩

/-- Before the rename the link is one directory below home, and goes up by one. -/
theorem run_linksInside_unmoved :
    LinksInside ["h".toList] (run (sessionStep noDigests) emptyHome (climbingRun.take 2)).2.fs := by
  apply run_linksInside noDigests emptyHome ["h".toList] rfl rfl emptyHome_no_links
  · intro input member
    exact climbingRun_requests input (List.mem_of_mem_take member)
  · refine ⟨trivial, ?_, trivial⟩
    intro link below name _ accepted _ _ makes
    cases accepted
    have place : ["h".toList, "a".toList, "l".toList] = ["h".toList] ++ below ++ [name] := Except.ok.inj makes.located
    obtain ⟨same, -⟩ := List.append_inj' (show [ "a".toList] ++ ["l".toList] = below ++ [name] from
      (List.cons.inj place).2) rfl
    subst below
    decide

/-- After the rename the link leads to the parent of home. -/
theorem link_climbs : ¬ ∀ (digests : Digests) (session : Session) (home : Loc),
    components session.homeDir = .ofNames home → session.fs.tree.isDir home = true →
    (∀ rest ino target, session.fs.tree.find (home ++ rest) ≠ some (.link ino target)) →
    ∀ inputs : List Input, (∀ input ∈ inputs, LinkRequest session.homeDir input.2) →
      LinksInside home (run (sessionStep digests) session inputs).2.fs := by
  intro stays
  have inside := stays noDigests emptyHome ["h".toList] rfl rfl emptyHome_no_links climbingRun climbingRun_requests
    .permissive [] "l".toList 3 "..".toList rfl [] rfl
  revert inside
  decide

end Samples

end Wftpd.Sftp
