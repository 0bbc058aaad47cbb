import Wftpd.Posix.Survival
import Wftpd.Posix.Walk

/-! Changes that stay inside one directory, and what they cannot do to the others.

A directory is fenced while every symbolic link in it leads down and no file in it has a
name outside. A change that stays inside keeps the fence of every directory beside it, so
fences need no more than to be there at the start.
-/

set_option autoImplicit false

namespace Wftpd.Posix

/-- A link that is read below the directory that holds it. -/
def Level (target : Text) : Prop := startsWith '/' target = false ∧ grounded 0 (targetHops target) = true

def Apart (home other : Loc) : Prop := ¬ home <+: other ∧ ¬ other <+: home

theorem Apart.outside {home other loc : Loc} (apart : Apart home other) (inside : other <+: loc) : ¬ home <+: loc := by
  intro both
  rcases List.prefix_or_prefix_of_prefix both inside with above | above
  · exact apart.1 above
  · exact apart.2 above

namespace FileSystem

section Relation

structure Fenced (home : Loc) (fs : FileSystem) : Prop where
  parent : fs.tree.isDir home.dropLast = true
  top : ∀ ino target, fs.tree.find home ≠ some (.link ino target)
  level : ∀ below ino target, fs.tree.find (home ++ below) = some (.link ino target) → Level target
  border : ∀ loc loc' node node', home <+: loc → fs.tree.find loc = some node → fs.tree.find loc' = some node' →
    node'.ino = node.ino → home <+: loc'

/-- An inode that has no name outside home, nor will get one. -/
def Owns (home : Loc) (fs : FileSystem) (ino : Nat) : Prop :=
  ino < fs.next ∧ ∀ loc node, fs.tree.find loc = some node → node.ino = ino → home <+: loc

/-- Outside home nothing has changed but times of modification, and what is inside was there or is new. -/
structure Within (home : Loc) (fs fs' : FileSystem) : Prop where
  entries : ∀ loc, ¬ home <+: loc → fs'.tree.find loc = fs.tree.find loc
  bytes : ∀ loc node, ¬ home <+: loc → fs.tree.find loc = some node → fs'.data node.ino = fs.data node.ino
  status : ∀ loc node, ¬ home <+: loc → fs.tree.find loc = some node →
    ∃ mtime, fs'.inode node.ino = { fs.inode node.ino with mtime := mtime }
  next : fs.next ≤ fs'.next
  top : ∀ ino target, fs'.tree.find home = some (.link ino target) → fs.tree.find home = some (.link ino target)
  origin : ∀ below node, fs'.tree.find (home ++ below) = some node →
    (∃ old, fs.tree.find (home ++ old) = some node) ∨
      fs.next ≤ node.ino ∧ ∀ ino target, node = .link ino target → Level target

variable {home other : Loc} {fs fs' fs'' : FileSystem}

theorem Within.refl (home : Loc) (fs : FileSystem) : Within home fs fs where
  entries _ _ := rfl
  bytes _ _ _ _ := rfl
  status _ node _ _ := ⟨(fs.inode node.ino).mtime, rfl⟩
  next := Nat.le_refl _
  top _ _ found := found
  origin below _ found := .inl ⟨below, found⟩

theorem Within.trans (first : Within home fs fs') (second : Within home fs' fs'') : Within home fs fs'' where
  entries loc outside := (second.entries loc outside).trans (first.entries loc outside)
  bytes loc node outside found := by
    have still : fs'.tree.find loc = some node := (first.entries loc outside).trans found
    exact (second.bytes loc node outside still).trans (first.bytes loc node outside found)
  status loc node outside found := by
    have still : fs'.tree.find loc = some node := (first.entries loc outside).trans found
    obtain ⟨_, before⟩ := first.status loc node outside found
    obtain ⟨mtime, after⟩ := second.status loc node outside still
    exact ⟨mtime, by rw [after, before]⟩
  next := first.next.trans second.next
  top ino target found := first.top ino target (second.top ino target found)
  origin below node found := by
    rcases second.origin below node found with ⟨old, before⟩ | ⟨fresh, level⟩
    · exact first.origin old node before
    · exact .inr ⟨first.next.trans fresh, level⟩

theorem find_lt_next {loc : Loc} {node : Node} (found : fs.tree.find loc = some node) : node.ino < fs.next :=
  fs.fresh (loc, node) (Tree.mem_iff_find.mpr found)

theorem Fenced.owns (fenced : Fenced home fs) {loc : Loc} {node : Node} (inside : home <+: loc)
    (found : fs.tree.find loc = some node) : Owns home fs node.ino :=
  ⟨find_lt_next found, fun loc' node' found' same => fenced.border loc loc' node node' inside found found' same⟩

theorem Owns.apart {ino : Nat} (owns : Owns home fs ino) {loc : Loc} {node : Node} (outside : ¬ home <+: loc)
    (found : fs.tree.find loc = some node) : node.ino ≠ ino :=
  fun same => outside (owns.2 loc node found same)

theorem Within.before (within : Within home fs fs') {loc : Loc} {node : Node} (found : fs'.tree.find loc = some node) :
    (∃ old, fs.tree.find old = some node ∧ (home <+: old ↔ home <+: loc) ∧ (home <+: loc ∨ old = loc)) ∨
      home <+: loc ∧ fs.next ≤ node.ino ∧ ∀ ino target, node = .link ino target → Level target := by
  by_cases inside : home <+: loc
  · obtain ⟨below, rfl⟩ := inside
    rcases within.origin below node found with ⟨old, before⟩ | ⟨fresh, level⟩
    · exact .inl ⟨home ++ old, before, by simp, .inl (by simp)⟩
    · exact .inr ⟨by simp, fresh, level⟩
  · exact .inl ⟨loc, (within.entries loc inside).symm.trans found, Iff.rfl, .inr rfl⟩

/-- Without links and second names everything is fenced. -/
theorem fenced_plain (parent : fs.tree.isDir home.dropLast = true)
    (physical : ∀ entry ∈ fs.tree.entries, ∀ ino target, entry.2 ≠ .link ino target)
    (single : (fs.tree.entries.map fun entry => entry.2.ino).Nodup) : Fenced home fs where
  parent := parent
  top ino target found := physical _ (Tree.mem_iff_find.mpr found) ino target rfl
  level below ino target found := absurd rfl (physical _ (Tree.mem_iff_find.mpr found) ino target)
  border loc loc' node node' inside found found' same := by
    have entry := List.inj_on_of_nodup_map single (Tree.mem_iff_find.mpr found') (Tree.mem_iff_find.mpr found) same
    rwa [(Prod.mk.inj entry).1]

/-- A change inside home keeps what another directory owns its own. -/
theorem Within.owns (within : Within home fs fs') (same : other = home ∨ Apart home other) {ino : Nat}
    (owns : Owns other fs ino) : Owns other fs' ino := by
  refine ⟨Nat.lt_of_lt_of_le owns.1 within.next, fun loc node found sameIno => ?_⟩
  rcases within.before found with ⟨old, before, iff, place⟩ | ⟨-, fresh, -⟩
  · have owned : other <+: old := owns.2 old node before sameIno
    rcases same with rfl | apart
    · exact iff.mp owned
    · rcases place with inside | rfl
      · exact absurd (iff.mpr inside) (apart.outside owned)
      · exact owned
  · rw [sameIno] at fresh
    exact absurd owns.1 (Nat.not_lt.mpr fresh)

theorem dropLast_outside (same : other = home ∨ Apart home other) : other = [] ∨ ¬ home <+: other.dropLast := by
  by_cases root : other = []
  · exact .inl root
  · right
    intro inside
    have above : other.dropLast <+: other := List.dropLast_prefix other
    rcases same with rfl | apart
    · have short := inside.length_le
      rw [List.length_dropLast] at short
      have := List.length_pos_iff.mpr root
      omega
    · exact apart.1 (inside.trans above)

/-- A change inside home leaves every fence where it was. -/
theorem Within.fenced (within : Within home fs fs') (same : other = home ∨ Apart home other)
    (fenced : Fenced other fs) : Fenced other fs' where
  parent := by
    rcases dropLast_outside same with rfl | outside
    · exact Tree.isDir_root _
    · obtain ⟨ino, found⟩ := Tree.isDir_iff.mp fenced.parent
      exact Tree.isDir_iff.mpr ⟨ino, (within.entries _ outside).trans found⟩
  top ino target found := by
    rcases same with rfl | apart
    · exact fenced.top ino target (within.top ino target found)
    · exact fenced.top ino target ((within.entries _ apart.1).symm.trans found)
  level below ino target found := by
    rcases within.before found with ⟨old, before, iff, place⟩ | ⟨-, -, level⟩
    · rcases same with rfl | apart
      · obtain ⟨rest, rfl⟩ := iff.mpr (List.prefix_append _ _)
        exact fenced.level rest ino target before
      · rcases place with inside | rfl
        · exact absurd inside (apart.outside (List.prefix_append _ _))
        · exact fenced.level below ino target before
    · exact level ino target rfl
  border loc loc' node node' inside found found' sameIno := by
    have owned : Owns other fs' node.ino := by
      rcases within.before found with ⟨old, before, iff, place⟩ | ⟨inHome, fresh, -⟩
      · have wasInside : other <+: old := by
          rcases same with rfl | apart
          · exact iff.mpr inside
          · rcases place with inHome | rfl
            · exact absurd inHome (apart.outside inside)
            · exact inside
        exact within.owns same (fenced.owns wasInside before)
      · -- a new inode has no name but those inside home
        rcases same with rfl | apart
        · refine ⟨find_lt_next found, fun loc'' node'' found'' sameIno' => ?_⟩
          rcases within.before found'' with ⟨old, before, -, -⟩ | ⟨inHome', -, -⟩
          · exact absurd (find_lt_next before) (by omega)
          · exact inHome'
        · exact absurd inHome (apart.outside inside)
    exact owned.2 loc' node' found' sameIno

theorem Within.self (within : Within home fs fs') (fenced : Fenced home fs) : Fenced home fs' :=
  within.fenced (.inl rfl) fenced

theorem prefix_dropLast {loc : Loc} (above : loc <+: home) (proper : loc ≠ home) : loc <+: home.dropLast := by
  obtain ⟨rest, rfl⟩ := above
  have nonempty : rest ≠ [] := by
    rintro rfl
    exact proper (List.append_nil loc).symm
  rw [List.dropLast_append_of_ne_nil nonempty]
  exact List.prefix_append _ _

end Relation

section Changes
variable {home : Loc} {fs fs' : FileSystem}

@[simp] theorem touchDir_next (loc : Loc) (now : Int) : (fs.touchDir loc now).next = fs.next := by
  unfold touchDir
  split <;> rfl

theorem within_touch (ino : Nat) (now : Int) : Within home fs (fs.touch ino now) where
  entries _ _ := rfl
  bytes _ _ _ _ := rfl
  status _ node _ _ := by
    by_cases same : node.ino = ino
    · exact ⟨now, by simp [touch, same]⟩
    · exact ⟨(fs.inode node.ino).mtime, by simp [touch, same]⟩
  next := Nat.le_refl _
  top _ _ found := found
  origin below _ found := .inl ⟨below, found⟩

theorem within_touchDir (loc : Loc) (now : Int) : Within home fs (fs.touchDir loc now) := by
  unfold touchDir
  cases fs.tree.find loc with
  | none => exact .refl home fs
  | some node => exact within_touch node.ino now

theorem within_create {parent : Loc} {name : Name} {new : NewNode} {created : Inode} (inside : home <+: parent ++ [name])
    (level : ∀ target, new = .link target → Level target ∧ home ≠ parent ++ [name]) :
    Within home fs (fs.create parent name new created) where
  entries loc outside := by
    apply Tree.find_insert_other
    rintro rfl
    exact outside inside
  bytes loc node _ found := Function.update_of_ne (find_lt_next found).ne _ _
  status loc node _ found := ⟨(fs.inode node.ino).mtime, Function.update_of_ne (find_lt_next found).ne _ _⟩
  next := Nat.le_succ _
  top ino target found := by
    rcases Tree.find_of_insert found with ⟨same, isNew⟩ | before
    · cases new with
      | dir => cases isNew
      | file => cases isNew
      | link text => exact absurd same (level text rfl).2
    · exact before
  origin below node found := by
    rcases Tree.find_of_insert found with ⟨-, rfl⟩ | before
    · refine .inr ⟨by simp, fun ino target same => ?_⟩
      cases new with
      | dir => cases same
      | file => cases same
      | link text =>
          cases same
          exact (level target rfl).1
    · exact .inl ⟨below, before⟩

theorem within_sweep {gone : Loc → Bool} (inside : ∀ part, gone part = true → home <+: part) :
    Within home fs (fs.sweep gone) where
  entries loc outside := by
    have spared : Tree.covered gone loc = false := by
      by_contra covers
      obtain ⟨part, isPrefix, -, isGone⟩ := Tree.covered_iff.mp (by simpa using covers)
      exact outside ((inside part isGone).trans isPrefix)
    exact (Tree.find_sweep fs.tree gone loc).trans (by simp [spared])
  bytes _ _ _ _ := rfl
  status _ node _ _ := ⟨(fs.inode node.ino).mtime, rfl⟩
  next := Nat.le_refl _
  top _ _ found := Tree.find_of_sweep found
  origin below _ found := .inl ⟨below, Tree.find_of_sweep found⟩

@[simp] theorem moveEntry_next (source target : Loc) : (fs.moveEntry source target).next = fs.next := by
  unfold moveEntry
  split <;> rfl

@[simp] theorem moveEntry_inode (source target : Loc) : (fs.moveEntry source target).inode = fs.inode := by
  unfold moveEntry
  split <;> rfl

theorem within_moveEntry {source target : Loc} (fromInside : home <+: source) (toInside : home <+: target)
    (kept : ¬ target <+: source) : Within home fs (fs.moveEntry source target) where
  entries loc outside := by
    apply Option.ext
    intro node
    constructor
    · intro found
      rcases find_of_moveEntry found with before | ⟨rest, rfl, -⟩
      · exact before
      · exact absurd (toInside.trans (List.prefix_append _ _)) outside
    · exact find_moveEntry_other (fun below => outside (fromInside.trans below))
        (fun below => outside (toInside.trans below))
  bytes _ _ _ _ := by rw [moveEntry_data]
  status _ node _ _ := ⟨(fs.inode node.ino).mtime, by rw [moveEntry_inode]⟩
  next := by rw [moveEntry_next]
  top ino target found := by
    rcases find_of_moveEntry found with before | ⟨rest, same, -⟩
    · exact before
    · exact absurd ((List.prefix_append _ rest).trans (same ▸ fromInside)) kept
  origin below node found := by
    rcases find_of_moveEntry found with before | ⟨rest, -, before⟩
    · exact .inl ⟨below, before⟩
    · obtain ⟨old, rfl⟩ := fromInside
      exact .inl ⟨old ++ rest, by rwa [← List.append_assoc]⟩

theorem within_setData {ino : Nat} (owns : Owns home fs ino) (bytes : List UInt8) :
    Within home fs (fs.setData ino bytes) where
  entries _ _ := rfl
  bytes _ _ outside found := Function.update_of_ne (owns.apart outside found) _ _
  status _ node _ _ := ⟨(fs.inode node.ino).mtime, rfl⟩
  next := Nat.le_refl _
  top _ _ found := found
  origin below _ found := .inl ⟨below, found⟩

theorem within_withMode {ino : Nat} (owns : Owns home fs ino) (mode : Nat) : Within home fs (fs.withMode ino mode) where
  entries _ _ := rfl
  bytes _ _ _ _ := rfl
  status _ node outside found :=
    ⟨(fs.inode node.ino).mtime, Function.update_of_ne (owns.apart outside found) _ _⟩
  next := Nat.le_refl _
  top _ _ found := found
  origin below _ found := .inl ⟨below, found⟩

end Changes

section Calls
variable {os : Os} {home : Loc} {fs : FileSystem} {follow : Bool}

theorem Fenced.settled (fenced : Fenced home fs) : Settled fs.tree home := by
  intro below name ino target found
  rw [List.append_assoc] at found
  obtain ⟨relative, level⟩ := fenced.level _ ino target found
  exact ⟨relative, grounded_mono (Nat.zero_le _) level⟩

/-- A path below home leads to home, which need not be a directory then, or past it. -/
theorem Fenced.reached (fenced : Fenced home fs) {names : List Name} {loc : Loc}
    (located : fs.locate os follow (.ofNames (home ++ names)) = .ok loc) :
    names = [] ∧ loc = home ∨ fs.tree.isDir home = true := by
  rcases List.eq_nil_or_concat home with rfl | ⟨front, last, shape⟩
  · exact .inr (Tree.isDir_root _)
  rw [List.concat_eq_append] at shape
  subst shape
  have above : fs.tree.isDir ([] ++ front) = true := by simpa using fenced.parent
  have walked := locate_ofNames located
  rw [List.append_assoc, List.map_append] at walked
  unfold walk maxSymlinks at walked
  have onward := walkWith_dirs above walked
  rw [List.nil_append, List.singleton_append, List.map_cons] at onward
  rcases walkWith_name_cases onward with ⟨ended, same, -⟩ | ⟨entered, -⟩ | ⟨ino, target, found, -, -⟩
  · exact .inl ⟨List.map_eq_nil_iff.mp ended, same⟩
  · exact .inr entered
  · exact absurd found (fenced.top ino target)

/-- It leads inside, also while home itself is missing. -/
theorem Fenced.located (fenced : Fenced home fs) {names : List Name} {loc : Loc}
    (located : fs.locate os follow (.ofNames (home ++ names)) = .ok loc) : home <+: loc := by
  rcases fenced.reached located with ⟨-, rfl⟩ | dir
  · exact List.prefix_rfl
  · exact locate_inside fenced.settled dir located

theorem Fenced.located_home (fenced : Fenced home fs) {loc : Loc} (located : fs.locate os follow (.ofNames home) = .ok loc) :
    loc = home := by
  have extended := located
  rw [← List.append_nil home] at extended
  rcases fenced.reached extended with ⟨-, same⟩ | dir
  · exact same
  · have walked := locate_ofNames located
    unfold walk maxSymlinks at walked
    rw [← List.append_nil (home.map Hop.name)] at walked
    have there : Except.ok ([] ++ home) = Except.ok loc := walkWith_dirs (by simpa using dir) walked
    exact (Except.ok.inj there).symm

theorem prefix_ofNames {above : PathBuf} {names : List Name} (nonempty : above ≠ []) (isPrefix : above <+: PathBuf.ofNames names) :
    ∃ locs : Loc, above = PathBuf.ofNames locs ∧ locs <+: names := by
  cases above with
  | nil => exact absurd rfl nonempty
  | cons first rest =>
      rw [PathBuf.ofNames, List.cons_prefix_cons] at isPrefix
      obtain ⟨locs, locsPrefix, same⟩ := List.prefix_map_iff.mp isPrefix.2
      exact ⟨locs, by rw [isPrefix.1, same, PathBuf.ofNames], locsPrefix⟩

/-- Whatever the kernel finds at a path, and at the paths above it, is there. -/
def IsThere (os : Os) (fs : FileSystem) (path : PathBuf) : Prop :=
  ∀ above, above ≠ [] → above <+: path → ∀ loc, fs.locate os false above = .ok loc → fs.tree.find loc ≠ none

theorem isThere_ofNames {loc : Loc} (dir : fs.tree.isDir loc = true) : IsThere os fs (.ofNames loc) := by
  intro above nonempty isPrefix place located
  obtain ⟨locs, rfl, higher⟩ := prefix_ofNames nonempty isPrefix
  have dir : fs.tree.isDir locs = true := Tree.isDir_prefix higher dir
  have walked := locate_ofNames located
  unfold walk maxSymlinks at walked
  rw [← List.append_nil (locs.map Hop.name)] at walked
  have same : Except.ok ([] ++ locs) = Except.ok place := walkWith_dirs (by simpa using dir) walked
  obtain ⟨ino, found⟩ := Tree.isDir_iff.mp dir
  rw [← Except.ok.inj same, List.nil_append, found]
  exact Option.some_ne_none _

theorem createDir_existing {loc : Loc} (dir : fs.tree.isDir loc = true) : (createDir os (.ofNames loc) fs).2 = fs := by
  apply createDir_final (fun after => after = fs) (.ofNames loc) rfl
  intro parent name makes
  have there := isThere_ofNames dir _ (PathBuf.ofNames_ne_nil loc) (List.prefix_refl _) _ makes.located
  exact absurd makes.absent there

theorem createDirAll_there {path : PathBuf} (there : IsThere os fs path) : (createDirAll os path fs).2 = fs := by
  have one : ∀ fs' above, above ≠ [] → above <+: path → fs' = fs → (createDir os above fs').2 = fs := by
    intro fs' above nonempty isPrefix same
    rw [same]
    apply createDir_final (fun after => after = fs) above rfl
    intro parent name makes
    exact absurd makes.absent (there above nonempty isPrefix _ makes.located)
  exact createDirAll_steps one rfl

section Inside
variable {path : PathBuf} (fenced : Fenced home fs)

theorem within_made {parent : Loc} {name : Name} {new : NewNode} (inside : home <+: parent ++ [name])
    (level : ∀ target, new = .link target → Level target ∧ home ≠ parent ++ [name]) :
    Within home fs ((fs.create parent name new os.created).touchDir parent os.now) :=
  (within_create inside level).trans (within_touchDir parent os.now)

theorem within_createDir (inside : ∀ loc, fs.locate os false path = .ok loc → home <+: loc) :
    Within home fs (createDir os path fs).2 := by
  apply createDir_final (Within home fs) path (.refl home fs)
  intro parent name makes
  exact within_made (inside _ makes.located) (by simp)

theorem within_symlink {target : Text} (level : Level target)
    (inside : ∀ loc, fs.locate os false path = .ok loc → home <+: loc ∧ fs.tree.isDir home = true) :
    Within home fs (FileSystem.symlink os target path fs).2 := by
  apply symlink_final (Within home fs) target path (.refl home fs)
  intro parent name makes
  obtain ⟨below, dir⟩ := inside _ makes.located
  apply within_made below
  intro text same
  cases same
  refine ⟨level, ?_⟩
  rintro rfl
  obtain ⟨ino, found⟩ := Tree.isDir_iff.mp dir
  rw [makes.absent] at found
  cases found

theorem within_removeFile (inside : ∀ loc, fs.locate os false path = .ok loc → home <+: loc) :
    Within home fs (removeFile os path fs).2 := by
  apply removeFile_final (Within home fs) path (.refl home fs)
  intro loc located _
  have below := inside loc located
  refine (within_sweep ?_).trans (within_touchDir loc.dropLast os.now)
  intro part gone
  rwa [of_decide_eq_true gone]

theorem within_removeDirAll (inside : ∀ loc, fs.locate os false path = .ok loc → home <+: loc) :
    Within home fs (removeDirAll os path fs).2 := by
  have swept : ∀ loc, home <+: loc →
      Within home fs ((fs.sweep fun part => part = loc).touchDir loc.dropLast os.now) := by
    intro loc below
    refine (within_sweep ?_).trans (within_touchDir loc.dropLast os.now)
    intro part gone
    rwa [of_decide_eq_true gone]
  apply removeDirAll_final (Within home fs) path (.refl home fs)
  · intro loc located _
    exact swept loc (inside loc located)
  · intro loc located
    apply within_sweep
    intro part gone
    simp only [Bool.and_eq_true, decide_eq_true_eq] at gone
    exact (inside loc located).trans gone.1.1
  · intro loc located
    refine (within_sweep ?_).trans (within_touchDir loc os.now)
    intro part gone
    simp only [Bool.and_eq_true, decide_eq_true_eq] at gone
    exact (inside loc located).trans gone.1
  · intro loc removes
    exact swept loc (inside loc removes.located)

theorem within_rename {src dst : PathBuf} (fromInside : ∀ loc, fs.locate os false src = .ok loc → home <+: loc)
    (toInside : ∀ loc, fs.locate os false dst = .ok loc → home <+: loc) :
    Within home fs (rename os src dst fs).2 := by
  apply rename_final (Within home fs) src dst (.refl home fs)
  intro source target renames
  have moved : Within home fs (fs.moveEntry source target) := within_moveEntry (fromInside source renames.locatedSource)
    (toInside target renames.locatedTarget) renames.found.2.2
  exact (moved.trans (within_touchDir _ _)).trans (within_touchDir _ _)

theorem within_stored {file : OpenFile} (owns : file.write = true → Owns home fs file.ino) (offset : Nat)
    (bytes : List UInt8) : Within home fs (writeAll os file offset bytes fs).2 := by
  apply writeAll_final (Within home fs) file offset bytes (.refl home fs)
  intro part writes _
  exact (within_setData (owns writes) _).trans (within_touch _ _)

include fenced

/-- The directories of a path below home: those above home are there. -/
theorem within_createDirAll {names : List Name} (below : path <+: PathBuf.ofNames (home ++ names)) :
    Within home fs (createDirAll os path fs).2 := by
  apply createDirAll_steps _ (Within.refl home fs)
  intro fs' above nonempty isPrefix within
  have fenced' := within.self fenced
  obtain ⟨locs, rfl, locsPrefix⟩ := prefix_ofNames nonempty (isPrefix.trans below)
  refine within.trans ?_
  rcases List.prefix_or_prefix_of_prefix locsPrefix (List.prefix_append home names) with above | ⟨more, rfl⟩
  · by_cases same : locs = home
    · subst locs
      apply within_createDir
      intro loc located
      rw [← List.append_nil home] at located
      exact fenced'.located located
    · -- strictly above home
      rw [createDir_existing (Tree.isDir_prefix (prefix_dropLast above same) fenced'.parent)]
      exact .refl home fs'
  · apply within_createDir
    intro loc located
    exact fenced'.located located

theorem within_setPermissions (inside : ∀ loc, fs.locate os true path = .ok loc → home <+: loc) (mode : Nat) :
    Within home fs (setPermissions os path mode fs).2 := by
  rcases setPermissions_cases os fs path mode with ⟨why, failed⟩ | ⟨loc, node, chmods⟩
  · rw [failed]
    exact .refl home fs
  · rw [chmods.setPermissions mode]
    exact within_withMode (fenced.owns (inside loc chmods.located) chmods.found) mode

theorem within_resized {loc : Loc} {ino : Nat} (inside : home <+: loc) (found : fs.tree.find loc = some (.file ino))
    (bytes : List UInt8) (now : Int) : Within home fs ((fs.setData ino bytes).touch ino now) :=
  (within_setData (fenced.owns inside found) bytes).trans (within_touch ino now)

omit fenced in
theorem openFile_failed {options : OpenOptions} {why : ErrorKind} {after : FileSystem}
    (failed : openFile os options path fs = (.error why, after)) : after = fs := by
  rcases openFile_cases os fs options path with ⟨_, same⟩ | ⟨_, kept, _⟩ | ⟨_, grants⟩
  · rw [same] at failed
    exact (Prod.mk.inj failed).2.symm
  · rw [kept] at failed
    cases failed
  · obtain ⟨_, _, granted⟩ := grants.opens
    rw [granted] at failed
    cases failed

theorem within_openFile {options : OpenOptions} (inside : ∀ loc, fs.locate os true path = .ok loc → home <+: loc) :
    Within home fs (openFile os options path fs).2 := by
  cases opened : openFile os options path fs with
  | mk result after =>
      cases result with
      | error why =>
          rw [openFile_failed opened]
          exact .refl home fs
      | ok file =>
          rcases openFile_changes opened with rfl | changes
          · exact .refl home _
          · cases changes with
            | created _ _ _ located _ _ => exact within_made (inside _ located) (by simp)
            | truncated _ _ _ located found _ _ => exact within_resized fenced (inside _ located) found [] os.now

/-- What is opened for writing below home has no name outside. -/
theorem openFile_owns {options : OpenOptions} {file : OpenFile} {after : FileSystem}
    (inside : ∀ loc, fs.locate os true path = .ok loc → home <+: loc)
    (opened : openFile os options path fs = (.ok file, after)) (writes : file.write = true) :
    Owns home after file.ino := by
  have within : Within home fs after := by
    have kept : Within home fs (openFile os options path fs).2 := within_openFile fenced inside
    rwa [opened] at kept
  have owned : ∀ loc ino, fs.locate os true path = .ok loc → fs.tree.find loc = some (.file ino) →
      Owns home after ino :=
    fun loc ino located found => within.owns (.inl rfl) (fenced.owns (inside loc located) found)
  rcases openFile_cases os fs options path with ⟨_, failed⟩ | ⟨other, kept, keeps⟩ | ⟨loc, grants⟩
  · rw [failed] at opened
    cases opened
  · rw [kept] at opened
    cases opened
    obtain ⟨-, loc, located, ⟨-, readOnly⟩ | ⟨found, -, -⟩⟩ := openFile_existing keeps kept
    · rw [openFile_mode kept] at writes
      exact absurd writes (by simpa [OpenOptions.file] using readOnly)
    · exact owned loc _ located found
  · rcases grants.place with ⟨ino, found, -, -⟩ | ⟨absent, creates, -⟩
    · rw [grants.existing found] at opened
      obtain ⟨same, -⟩ := Prod.mk.inj opened
      rw [← Except.ok.inj same]
      exact owned loc ino grants.located found
    · obtain ⟨-, parent, name, rfl, created⟩ := grants.created absent
      rw [created] at opened
      obtain ⟨same, rfl⟩ := Prod.mk.inj opened
      rw [← Except.ok.inj same]
      refine ⟨by simp [OpenOptions.file, create], fun loc node found sameIno => ?_⟩
      rw [touchDir_tree] at found
      rcases Tree.find_of_insert found with ⟨rfl, -⟩ | before
      · exact inside _ grants.located
      · exact absurd sameIno (find_lt_next before).ne

end Inside

end Calls

end FileSystem

end Wftpd.Posix
