import Wftpd.Posix.Blocks

/-! A path leads to the same place for every caller, and goes on doing so while its directory grows. -/

set_option autoImplicit false

namespace Wftpd.Posix.FileSystem

section Grown

/-- Below home everything stays where it is, and no link is new. -/
structure Grown (home : Loc) (fs fs' : FileSystem) : Prop where
  kept : ∀ below node, fs.tree.find (home ++ below) = some node → fs'.tree.find (home ++ below) = some node
  links : ∀ below ino target, fs'.tree.find (home ++ below) = some (.link ino target) →
    fs.tree.find (home ++ below) = some (.link ino target)

variable {home : Loc} {fs fs' fs'' : FileSystem}

theorem Grown.refl (home : Loc) (fs : FileSystem) : Grown home fs fs := ⟨fun _ _ => id, fun _ _ _ => id⟩

theorem Grown.trans (first : Grown home fs fs') (second : Grown home fs' fs'') : Grown home fs fs'' where
  kept below node found := second.kept below node (first.kept below node found)
  links below ino target found := first.links below ino target (second.links below ino target found)

theorem grown_of_same (same : ∀ loc, home <+: loc → fs'.tree.find loc = fs.tree.find loc) : Grown home fs fs' where
  kept below node found := by rwa [same _ (List.prefix_append _ _)]
  links below ino target found := by rwa [same _ (List.prefix_append _ _)] at found

theorem grown_of_tree (same : fs'.tree = fs.tree) : Grown home fs fs' := grown_of_same fun loc _ => by rw [same]

theorem Grown.isDir (grown : Grown home fs fs') {below : Loc} (dir : fs.tree.isDir (home ++ below) = true) :
    fs'.tree.isDir (home ++ below) = true := by
  obtain ⟨ino, found⟩ := Tree.isDir_iff.mp dir
  exact Tree.isDir_iff.mpr ⟨ino, grown.kept below _ found⟩

theorem Grown.isDir_home (grown : Grown home fs fs') (dir : fs.tree.isDir home = true) : fs'.tree.isDir home = true := by
  rw [← List.append_nil home] at dir ⊢
  exact grown.isDir dir

theorem grown_create {parent : Loc} {name : Name} {new : NewNode} {created : Inode} {now : Int}
    (free : fs.tree.find (parent ++ [name]) = none) (noLink : ∀ target, new ≠ .link target) :
    Grown home fs ((fs.create parent name new created).touchDir parent now) where
  kept below node found := by
    rw [touchDir_tree]
    have other : home ++ below ≠ parent ++ [name] := by
      intro here
      rw [here, free] at found
      cases found
    exact (Tree.find_insert_other other).trans found
  links below ino target found := by
    rw [touchDir_tree] at found
    rcases Tree.find_of_insert found with ⟨-, made⟩ | before
    · cases new with
      | link target' => exact absurd rfl (noLink target')
      | _ => cases made
    · exact before

variable {os os' : Os} {path : PathBuf}

theorem grown_createDir : Grown home fs (createDir os path fs).2 := by
  apply createDir_final (Grown home fs) path (.refl home fs)
  intro parent name makes
  exact grown_create makes.absent (by simp)

theorem grown_createDirAll : Grown home fs (createDirAll os path fs).2 :=
  createDirAll_keeps (fun _ _ _ grown => grown.trans grown_createDir) (.refl home fs)

theorem grown_openFile {options : OpenOptions} : Grown home fs (openFile os options path fs).2 := by
  apply openFile_final (Grown home fs) options path (.refl home fs)
  · intro parent name _ free
    exact grown_create free (by simp)
  · intro ino _ _
    exact grown_of_tree rfl

end Grown

section Agreement
variable {home : Loc} {fs fs' : FileSystem} {os os' : Os} {follow : Bool}

theorem walkWith_grown (settled : Settled fs.tree home) (grown : Grown home fs fs')
    {expand expand' : Loc → Text → List Hop → Except ErrorKind Loc}
    (agree : ∀ below target rest loc loc', startsWith '/' target = false →
      grounded below.length (targetHops target) = true → grounded 0 rest = true →
      expand (home ++ below) target rest = .ok loc → expand' (home ++ below) target rest = .ok loc' → loc' = loc)
    {hops : List Hop} {below loc loc' : Loc} (steady : grounded below.length hops = true)
    (first : fs.walkWith os expand follow (home ++ below) hops = .ok loc)
    (second : fs'.walkWith os' expand' follow (home ++ below) hops = .ok loc') : loc' = loc := by
  induction hops generalizing below with
  | nil =>
      cases first
      cases second
      rfl
  | cons hop rest ih =>
      cases hop with
      | dot =>
          unfold walkWith at first second
          split at first
          · cases first
          split at second
          · cases second
          exact ih steady first second
      | dotdot =>
          unfold walkWith at first second
          split at first
          · cases first
          split at second
          · cases second
          rcases List.eq_nil_or_concat below with atHome | ⟨front, last, shape⟩
          · -- a grounded walk never climbs at home
            subst below
            cases steady
          · rw [List.concat_eq_append] at shape
            subst below
            simp only [← List.append_assoc, List.dropLast_concat] at first second
            simp only [List.length_append, List.length_singleton] at steady
            exact ih steady first second
      | name name =>
          have further : grounded (below ++ [name]).length rest = true := grounded_mono (Nat.zero_le _) steady
          rcases walkWith_name_cases first with ⟨last, rfl, notDir, stays⟩ | ⟨isDir, onward⟩ |
              ⟨ino, target, found, follows, expanded⟩
          · rcases walkWith_name_cases second with ⟨-, here, -⟩ | ⟨-, onward⟩ | ⟨ino, target, found, follows, -⟩
            · exact here
            · -- what has come there since is a directory: the walk still ends there
              subst last
              cases onward
              rfl
            · rw [List.append_assoc] at found
              have old := grown.links _ ino target found
              rw [← List.append_assoc] at old
              exact absurd ⟨last, stays ino target old⟩ follows
          · rw [List.append_assoc] at isDir onward
            have isDir' := grown.isDir isDir
            rcases walkWith_name_cases second with ⟨-, rfl, notDir, -⟩ | ⟨-, onward'⟩ | ⟨ino, target, found, -⟩
            · rw [List.append_assoc, isDir'] at notDir
              cases notDir
            · rw [List.append_assoc] at onward'
              exact ih further onward onward'
            · simp [Tree.isDir, ← List.append_assoc, found] at isDir'
          · rw [List.append_assoc] at found
            have found' := grown.kept _ _ found
            rw [← List.append_assoc] at found found'
            rcases walkWith_name_cases second with ⟨last, rfl, -, stays⟩ | ⟨isDir, -⟩ |
                ⟨ino', target', there, -, expanded'⟩
            · exact absurd ⟨last, stays ino target found'⟩ follows
            · rw [Tree.isDir, found'] at isDir
              cases isDir
            · cases found'.symm.trans there
              obtain ⟨relative, climbs⟩ := settled below name ino target found
              exact agree below target rest loc loc' relative climbs steady expanded expanded'

theorem walk_grown (settled : Settled fs.tree home) (grown : Grown home fs fs') {budget : Nat} {hops : List Hop}
    {below loc loc' : Loc} (steady : grounded below.length hops = true)
    (first : fs.walk os follow budget (home ++ below) hops = .ok loc)
    (second : fs'.walk os' follow budget (home ++ below) hops = .ok loc') : loc' = loc := by
  induction budget generalizing hops below loc loc' with
  | zero =>
      apply walkWith_grown settled grown _ steady first second
      intro below target rest loc loc' _ _ _ expanded
      cases expanded
  | succ budget ih =>
      apply walkWith_grown settled grown _ steady first second
      intro below target rest loc loc' relative climbs onward expanded expanded'
      have start : linkStart (home ++ below) target = home ++ below := by simp [linkStart, relative]
      rw [start] at expanded expanded'
      exact ih (grounded_append climbs onward) expanded expanded'

/-- Whoever asks, and however the directory has grown since: a path that arrives arrives at the same place. -/
theorem locate_grown (settled : Settled fs.tree home) (grown : Grown home fs fs') (dir : fs.tree.isDir home = true)
    {names : List Name} {loc loc' : Loc} (first : fs.locate os follow (.ofNames (home ++ names)) = .ok loc)
    (second : fs'.locate os' follow (.ofNames (home ++ names)) = .ok loc') : loc' = loc := by
  have start : fs.walk os follow maxSymlinks home (names.map .name) = .ok loc := by
    have walked := locate_ofNames first
    rw [List.map_append] at walked
    exact walkWith_dirs (show fs.tree.isDir ([] ++ home) = true from dir) walked
  have start' : fs'.walk os' follow maxSymlinks home (names.map .name) = .ok loc' := by
    have walked := locate_ofNames second
    rw [List.map_append] at walked
    exact walkWith_dirs (show fs'.tree.isDir ([] ++ home) = true from grown.isDir_home dir) walked
  rw [← List.append_nil home] at start start'
  exact walk_grown settled grown (grounded_names names _) start start'

/-- The path led here once, and its directory has only grown since. -/
def Leads (home : Loc) (fs : FileSystem) (path : PathBuf) (loc : Loc) : Prop :=
  ∃ base os, Settled base.tree home ∧ base.tree.isDir home = true ∧ Grown home base fs ∧
    base.locate os true path = .ok loc

variable {path : PathBuf} {loc loc' : Loc}

theorem Leads.grown (leads : Leads home fs path loc) (grown : Grown home fs fs') : Leads home fs' path loc := by
  obtain ⟨base, os, settled, dir, before, located⟩ := leads
  exact ⟨base, os, settled, dir, before.trans grown, located⟩

theorem Leads.dir (leads : Leads home fs path loc) : fs.tree.isDir home = true := by
  obtain ⟨base, os, -, dir, before, -⟩ := leads
  exact before.isDir_home dir

theorem Leads.inside {names : List Name} (leads : Leads home fs (.ofNames (home ++ names)) loc) : home <+: loc := by
  obtain ⟨base, os, settled, dir, -, located⟩ := leads
  exact locate_inside settled dir located

theorem Leads.arrives {names : List Name} (leads : Leads home fs (.ofNames (home ++ names)) loc)
    (located : fs.locate os true (.ofNames (home ++ names)) = .ok loc') : loc' = loc := by
  obtain ⟨base, os', settled, dir, grown, before⟩ := leads
  exact locate_grown settled grown dir before located

end Agreement

end Wftpd.Posix.FileSystem
