import Mathlib
import Wftpd.Posix.Effects
import Wftpd.Posix.Usage

/-! What calls leave in place: the entries that are not below a directory, the regular
files with the bytes they had, and the directories and contents below a root.
-/

set_option autoImplicit false

namespace Wftpd.Posix.FileSystem

section Entries

/-- Everything that is not strictly below home is still where it was. -/
def OnlyBelow (home : Loc) (fs fs' : FileSystem) : Prop :=
  ∀ loc node, fs.tree.find loc = some node → home <+: loc ∧ loc ≠ home ∨ fs'.tree.find loc = some node

variable {home : Loc} {fs fs' fs'' : FileSystem}

theorem OnlyBelow.of_tree (same : fs'.tree = fs.tree) : OnlyBelow home fs fs' := by
  intro loc node found
  exact .inr (same ▸ found)

theorem OnlyBelow.refl (home : Loc) (fs : FileSystem) : OnlyBelow home fs fs := .of_tree rfl

theorem OnlyBelow.trans (first : OnlyBelow home fs fs') (second : OnlyBelow home fs' fs'') :
    OnlyBelow home fs fs'' := by
  intro loc node found
  rcases first loc node found with below | kept
  · exact .inl below
  · exact second loc node kept

theorem OnlyBelow.touchDir (below : OnlyBelow home fs fs') (loc : Loc) (now : Int) :
    OnlyBelow home fs (fs'.touchDir loc now) :=
  below.trans (.of_tree (touchDir_tree fs' loc now))

theorem OnlyBelow.isDir (below : OnlyBelow home fs fs') (dir : fs.tree.isDir home = true) :
    fs'.tree.isDir home = true := by
  obtain ⟨ino, found⟩ := Tree.isDir_iff.mp dir
  rcases below home _ found with ⟨-, differs⟩ | kept
  · exact absurd rfl differs
  · exact Tree.isDir_iff.mpr ⟨ino, kept⟩

theorem onlyBelow_create (parent : Loc) (name : Name) (new : NewNode) (created : Inode) :
    OnlyBelow home fs (fs.create parent name new created) := by
  intro loc node found
  exact .inr (Tree.find_insert_some found)

theorem onlyBelow_sweep {gone : Loc → Bool} (below : ∀ part, gone part = true → home <+: part ∧ part ≠ home) :
    OnlyBelow home fs (fs.sweep gone) := by
  intro loc node found
  have swept : (fs.sweep gone).tree.find loc = if Tree.covered gone loc then none else fs.tree.find loc :=
    Tree.find_sweep fs.tree gone loc
  by_cases covers : Tree.covered gone loc = true
  · obtain ⟨part, isPrefix, -, isGone⟩ := Tree.covered_iff.mp covers
    obtain ⟨inside, proper⟩ := below part isGone
    refine .inl ⟨inside.trans isPrefix, ?_⟩
    intro same
    subst loc
    exact proper (isPrefix.eq_of_length_le inside.length_le)
  · rw [swept, if_neg covers]
    exact .inr found

theorem onlyBelow_moveEntry {source target : Loc} (fromInside : home <+: source) (toInside : home <+: target)
    (apart : ¬ source <+: target) (kept : ¬ target <+: source) : OnlyBelow home fs (fs.moveEntry source target) := by
  -- home is at or above both ends, and none of them is above the other
  have below : ∀ {first second loc : Loc}, home <+: first → home <+: second → ¬ first <+: second → first <+: loc →
      home <+: loc ∧ loc ≠ home := by
    intro first second loc inFirst inSecond differs isPrefix
    refine ⟨inFirst.trans isPrefix, ?_⟩
    intro same
    subst loc
    exact differs (isPrefix.trans inSecond)
  intro loc node found
  by_cases moved : source <+: loc
  · exact .inl (below fromInside toInside apart moved)
  by_cases replaced : target <+: loc
  · exact .inl (below toInside fromInside kept replaced)
  · exact .inr (find_moveEntry_other moved replaced found)

variable {os : Os}

theorem onlyBelow_made (parent : Loc) (name : Name) (new : NewNode) :
    OnlyBelow home fs ((fs.create parent name new os.created).touchDir parent os.now) :=
  (onlyBelow_create parent name new os.created).touchDir parent os.now

theorem onlyBelow_createDir (path : PathBuf) : OnlyBelow home fs (createDir os path fs).2 := by
  apply createDir_final (OnlyBelow home fs) path (.refl home fs)
  intro parent name _
  exact onlyBelow_made parent name .dir

theorem onlyBelow_createDirAll (path : PathBuf) : OnlyBelow home fs (createDirAll os path fs).2 := by
  have made : ∀ fs' above, above <+: path → OnlyBelow home fs fs' → OnlyBelow home fs (createDir os above fs').2 :=
    fun fs' above _ kept => kept.trans (onlyBelow_createDir above)
  exact createDirAll_keeps made (.refl home fs)

theorem onlyBelow_symlink (target : Text) (path : PathBuf) : OnlyBelow home fs (symlink os target path fs).2 := by
  apply symlink_final (OnlyBelow home fs) target path (.refl home fs)
  intro parent name _
  exact onlyBelow_made parent name (.link target)

theorem onlyBelow_openFile (options : OpenOptions) (path : PathBuf) :
    OnlyBelow home fs (openFile os options path fs).2 := by
  apply openFile_final (OnlyBelow home fs) options path (.refl home fs)
  · intro parent name _ _
    exact onlyBelow_made parent name .file
  · intro ino _ _
    exact .of_tree rfl

theorem onlyBelow_writeAll (file : OpenFile) (offset : Nat) (bytes : List UInt8) :
    OnlyBelow home fs (writeAll os file offset bytes fs).2 := by
  apply writeAll_final (OnlyBelow home fs) file offset bytes (.refl home fs)
  intro part _ _
  exact .of_tree rfl

/-- An entry that is no directory is not home, so a directory at home stays. -/
theorem onlyBelow_unlinked (dir : fs.tree.isDir home = true) {loc : Loc} (inside : home <+: loc)
    (notDir : fs.tree.isDir loc = false) (now : Int) :
    OnlyBelow home fs ((fs.sweep fun part => part = loc).touchDir loc.dropLast now) := by
  apply (onlyBelow_sweep _).touchDir
  intro part isGone
  obtain rfl : part = loc := of_decide_eq_true isGone
  refine ⟨inside, ?_⟩
  intro same
  rw [same, dir] at notDir
  cases notDir

theorem onlyBelow_removeFile (dir : fs.tree.isDir home = true) {path : PathBuf}
    (inside : ∀ loc, fs.locate os false path = .ok loc → home <+: loc) :
    OnlyBelow home fs (removeFile os path fs).2 := by
  apply removeFile_final (OnlyBelow home fs) path (.refl home fs)
  intro loc located notDir
  exact onlyBelow_unlinked dir (inside loc located) notDir os.now

theorem onlyBelow_removeDirAll (dir : fs.tree.isDir home = true) {path : PathBuf}
    (inside : ∀ loc, fs.locate os false path = .ok loc → home <+: loc) (spared : ¬ RemovesAll os fs path home) :
    OnlyBelow home fs (removeDirAll os path fs).2 := by
  have strictly : ∀ loc, fs.locate os false path = .ok loc → ∀ part, (loc <+: part && part ≠ loc) = true →
      home <+: part ∧ part ≠ home := by
    intro loc located part isGone
    simp only [Bool.and_eq_true, decide_eq_true_eq] at isGone
    obtain ⟨below, proper⟩ := isGone
    refine ⟨(inside loc located).trans below, ?_⟩
    intro same
    subst part
    exact proper ((inside loc located).eq_of_length_le below.length_le)
  apply removeDirAll_final (OnlyBelow home fs) path (.refl home fs)
  · intro loc located notDir
    exact onlyBelow_unlinked dir (inside loc located) notDir os.now
  · intro loc located
    apply onlyBelow_sweep
    intro part isGone
    rw [Bool.and_eq_true] at isGone
    exact strictly loc located part isGone.1
  · intro loc located
    exact (onlyBelow_sweep (strictly loc located)).touchDir loc os.now
  · intro loc removes
    apply (onlyBelow_sweep _).touchDir
    intro part isGone
    obtain rfl : part = loc := of_decide_eq_true isGone
    refine ⟨inside part removes.located, ?_⟩
    intro same
    subst part
    exact spared removes

theorem onlyBelow_rename {src dst : PathBuf} (fromInside : ∀ loc, fs.locate os false src = .ok loc → home <+: loc)
    (toInside : ∀ loc, fs.locate os false dst = .ok loc → home <+: loc) :
    OnlyBelow home fs (rename os src dst fs).2 := by
  apply rename_final (OnlyBelow home fs) src dst (.refl home fs)
  intro source target renames
  obtain ⟨_, apart, kept⟩ := renames.found
  apply OnlyBelow.touchDir
  apply OnlyBelow.touchDir
  exact onlyBelow_moveEntry (fromInside source renames.locatedSource) (toInside target renames.locatedTarget) apart kept

end Entries

section Files

/-- Every regular file is still there, under some name, and its bytes were kept. -/
def FilesKept (kept : List UInt8 → List UInt8 → Prop) (fs fs' : FileSystem) : Prop :=
  ∀ loc ino, fs.tree.find loc = some (.file ino) →
    (∃ loc', fs'.tree.find loc' = some (.file ino)) ∧ kept (fs.data ino) (fs'.data ino)

variable {kept : List UInt8 → List UInt8 → Prop} {fs fs' fs'' : FileSystem}

theorem FilesKept.trans (compose : ∀ a b c, kept a b → kept b c → kept a c) (first : FilesKept kept fs fs')
    (second : FilesKept kept fs' fs'') : FilesKept kept fs fs'' := by
  intro loc ino found
  obtain ⟨⟨between, there⟩, early⟩ := first loc ino found
  obtain ⟨after, late⟩ := second between ino there
  exact ⟨after, compose _ _ _ early late⟩

theorem FilesKept.of_files (same : ∀ bytes, kept bytes bytes)
    (files : ∀ loc ino, fs.tree.find loc = some (.file ino) → ∃ loc', fs'.tree.find loc' = some (.file ino))
    (data : ∀ ino, ino < fs.next → fs'.data ino = fs.data ino) : FilesKept kept fs fs' := by
  intro loc ino found
  refine ⟨files loc ino found, ?_⟩
  rw [data ino (fs.fresh _ (Tree.mem_iff_find.mpr found))]
  exact same _

theorem FilesKept.refl (same : ∀ bytes, kept bytes bytes) (fs : FileSystem) : FilesKept kept fs fs :=
  .of_files same (fun loc _ found => ⟨loc, found⟩) fun _ _ => rfl

@[simp] theorem touchDir_data (fs : FileSystem) (loc : Loc) (now : Int) : (fs.touchDir loc now).data = fs.data := by
  unfold touchDir
  cases fs.tree.find loc <;> rfl

theorem FilesKept.touchDir (files : FilesKept kept fs fs') (loc : Loc) (now : Int) :
    FilesKept kept fs (fs'.touchDir loc now) := by
  intro place ino found
  rw [touchDir_tree, touchDir_data]
  exact files place ino found

theorem filesKept_create (same : ∀ bytes, kept bytes bytes) (parent : Loc) (name : Name) (new : NewNode)
    (created : Inode) : FilesKept kept fs (fs.create parent name new created) := by
  apply FilesKept.of_files same
  · intro loc ino found
    exact ⟨loc, Tree.find_insert_some found⟩
  · intro ino older
    exact Function.update_of_ne (Nat.ne_of_lt older) _ _

theorem filesKept_setData (same : ∀ bytes, kept bytes bytes) {ino : Nat} {bytes : List UInt8}
    (stored : kept (fs.data ino) bytes) (now : Int) : FilesKept kept fs ((fs.setData ino bytes).touch ino now) := by
  intro loc other found
  refine ⟨⟨loc, found⟩, ?_⟩
  by_cases here : other = ino
  · subst other
    have written : ((fs.setData ino bytes).touch ino now).data ino = bytes := Function.update_self _ _ _
    rwa [written]
  · have untouched : ((fs.setData ino bytes).touch ino now).data other = fs.data other :=
      Function.update_of_ne here _ _
    rw [untouched]
    exact same _

/-- A rename that finds a regular file at its target. -/
def ReplacesFile (fs : FileSystem) (target : Loc) : Prop := ∃ ino, fs.tree.find target = some (.file ino)

/-- Unless it is a regular file, what a rename replaces holds none. -/
theorem Renames.no_file {os : Os} {src dst : PathBuf} {source target : Loc}
    (renames : Renames os fs src dst source target) (spares : ¬ ReplacesFile fs target) (rest : Loc) (ino : Nat) :
    fs.tree.find (target ++ rest) ≠ some (.file ino) := by
  intro found
  by_cases here : rest = []
  · subst rest
    rw [List.append_nil] at found
    exact spares ⟨ino, found⟩
  have dir := Tree.isDir_of_below here found
  obtain ⟨dirIno, isDir⟩ := Tree.isDir_iff.mp dir
  -- only an empty directory is replaced
  have empty : fs.tree.children target = [] := by
    have verdict := renames.verdict
    obtain ⟨present, inside, above⟩ := renames.found
    have differs : source ≠ target := fun same => inside (same ▸ List.prefix_refl source)
    unfold renameVerdict at verdict
    cases there : fs.tree.find source with
    | none => exact absurd there present
    | some moved =>
        simp only [there, differs, inside, above, if_false, isDir] at verdict
        cases moved with
        | dir other =>
            simp only at verdict
            by_contra nonempty
            simp [nonempty] at verdict
        | file other => cases verdict
        | link other text => cases verdict
  obtain ⟨name, below, rfl⟩ := List.exists_cons_of_ne_nil here
  have shape : target ++ name :: below = target ++ [name] ++ below := by simp
  rw [shape] at found
  have child : ∃ node, fs.tree.find (target ++ [name]) = some node := by
    by_cases last : below = []
    · subst below
      rw [List.append_nil] at found
      exact ⟨_, found⟩
    · obtain ⟨inner, between⟩ := Tree.isDir_iff.mp (Tree.isDir_of_below last found)
      exact ⟨_, between⟩
  have listed := Tree.mem_children.mpr child
  simp [empty] at listed

theorem find_moveEntry_file {source target : Loc} (empty : ∀ rest ino, fs.tree.find (target ++ rest) ≠ some (.file ino))
    {loc : Loc} {ino : Nat} (found : fs.tree.find loc = some (.file ino)) :
    ∃ loc', (fs.moveEntry source target).tree.find loc' = some (.file ino) := by
  have kept : ¬ target <+: loc := by
    rintro ⟨rest, rfl⟩
    exact empty rest ino found
  rcases find_moveEntry source kept found with stays | goes
  · exact ⟨_, stays⟩
  · exact ⟨_, goes⟩

theorem filesKept_moveEntry (same : ∀ bytes, kept bytes bytes) {source target : Loc}
    (empty : ∀ rest ino, fs.tree.find (target ++ rest) ≠ some (.file ino)) :
    FilesKept kept fs (fs.moveEntry source target) := by
  apply FilesKept.of_files same
  · intro loc ino found
    exact find_moveEntry_file empty found
  · intro ino _
    rw [moveEntry_data]

end Files

section Census

def dirsUnder (fs : FileSystem) (root : Loc) : Nat :=
  fs.tree.entries.countP fun entry =>
    match entry.2 with
    | .dir _ => root <+: entry.1
    | _ => false

def contentAt (fs : FileSystem) (root : Loc) (entry : Loc × Node) : Option (List UInt8) :=
  match entry.2 with
  | .file ino => if root <+: entry.1 then some (fs.data ino) else none
  | _ => none

/-- The contents of the regular files at or below a root, each as often as it is there. -/
def contentsUnder (fs : FileSystem) (root : Loc) : Multiset (List UInt8) :=
  fs.tree.entries.filterMap (fs.contentAt root)

variable {fs fs' : FileSystem} {root : Loc}

theorem dirsUnder_congr (same : fs'.tree = fs.tree) : fs'.dirsUnder root = fs.dirsUnder root := by
  simp only [dirsUnder, same]

@[simp] theorem dirsUnder_touchDir (fs : FileSystem) (root loc : Loc) (now : Int) :
    (fs.touchDir loc now).dirsUnder root = fs.dirsUnder root := dirsUnder_congr (touchDir_tree fs loc now)

theorem dirsUnder_create {parent : Loc} {name : Name} {new : NewNode} {created : Inode}
    (notDir : ∀ ino other, new.node ino ≠ .dir other) :
    (fs.create parent name new created).dirsUnder root = fs.dirsUnder root := by
  unfold dirsUnder create Tree.insert
  split
  · apply List.countP_cons_of_neg
    cases shape : new.node fs.next with
    | dir ino => exact absurd shape (notDir _ ino)
    | file ino => simp
    | link ino target => simp
  · rfl

theorem dirsUnder_sweep (gone : Loc → Bool) : (fs.sweep gone).dirsUnder root ≤ fs.dirsUnder root :=
  List.filter_sublist.countP_le

/-- A move brings no directory in when those that end up inside were inside. -/
theorem dirsUnder_moveEntry {source target : Loc} (inside : ∀ rest ino,
      fs.tree.find (source ++ rest) = some (.dir ino) → root <+: target ++ rest → root <+: source ++ rest) :
    (fs.moveEntry source target).dirsUnder root ≤ fs.dirsUnder root := by
  have pruned : ∀ p : Loc × Node → Bool, (fs.tree.prune target).entries.countP p ≤ fs.tree.entries.countP p :=
    fun p => List.filter_sublist.countP_le
  unfold dirsUnder
  rcases entries_moveEntry fs source target with same | kept | moved
  · rw [same]
  · rw [kept]
    exact pruned _
  · rw [moved, List.countP_map]
    apply Nat.le_trans _ (pruned _)
    apply List.countP_mono_left
    rintro ⟨loc, node⟩ member
    cases node with
    | file ino => simp
    | link ino text => simp
    | dir ino =>
        have there : fs.tree.find loc = some (.dir ino) := Tree.mem_iff_find.mp (List.mem_filter.mp member).1
        simp only [Function.comp_apply, decide_eq_true_eq]
        rcases Tree.relocate_cases source target loc with same | ⟨rest, shape, lands⟩
        · rw [same]
          exact id
        · rw [lands, shape]
          rw [shape] at there
          exact inside rest ino there

theorem contentsUnder_congr (entries : fs'.tree.entries = fs.tree.entries) (data : fs'.data = fs.data) :
    fs'.contentsUnder root = fs.contentsUnder root := by
  unfold contentsUnder contentAt
  rw [entries, data]

@[simp] theorem contentsUnder_touchDir (fs : FileSystem) (root loc : Loc) (now : Int) :
    (fs.touchDir loc now).contentsUnder root = fs.contentsUnder root :=
  contentsUnder_congr (by rw [touchDir_tree]) (touchDir_data fs loc now)

/-- A new directory holds no content, and its number is that of no file. -/
theorem contentsUnder_createDir {parent : Loc} {name : Name} {created : Inode} :
    (fs.create parent name .dir created).contentsUnder root = fs.contentsUnder root := by
  have old : fs.tree.entries.filterMap ((fs.create parent name .dir created).contentAt root) =
      fs.tree.entries.filterMap (fs.contentAt root) := by
    apply List.filterMap_congr
    rintro ⟨loc, node⟩ member
    cases node with
    | dir ino => rfl
    | link ino text => rfl
    | file ino =>
        have older : ino ≠ fs.next := Nat.ne_of_lt (fs.fresh _ member)
        have data : (fs.create parent name .dir created).data ino = fs.data ino := Function.update_of_ne older _ _
        simp only [contentAt, data]
  unfold contentsUnder
  by_cases room : fs.tree.isDir parent = true ∧ fs.tree.find (parent ++ [name]) = none
  · have entries : (fs.create parent name .dir created).tree.entries =
        (parent ++ [name], .dir fs.next) :: fs.tree.entries := Tree.entries_insert room.1 room.2
    rw [entries, List.filterMap_cons_none rfl, old]
  · have entries : (fs.create parent name .dir created).tree.entries = fs.tree.entries := by
      simp only [create, Tree.insert, dif_neg room]
    rw [entries, old]

/-- A move that replaces no regular file inside, and takes none across the border of the
root, leaves the contents as they were. -/
theorem contentsUnder_moveEntry {source target : Loc}
    (empty : ∀ rest ino, fs.tree.find (target ++ rest) = some (.file ino) → ¬ root <+: target ++ rest)
    (border : ∀ rest ino, fs.tree.find (source ++ rest) = some (.file ino) →
      (root <+: target ++ rest ↔ root <+: source ++ rest)) :
    (fs.moveEntry source target).contentsUnder root = fs.contentsUnder root := by
  have content : (fs.moveEntry source target).contentAt root = fs.contentAt root := by
    funext entry
    simp only [contentAt, moveEntry_data]
  -- what the target's removal takes has no content inside
  have gone : ∀ entry ∈ fs.tree.entries, Tree.covered (fun part => part = target) entry.1 = true →
      fs.contentAt root entry = none := by
    rintro ⟨loc, node⟩ member covers
    cases node with
    | dir ino => rfl
    | link ino text => rfl
    | file ino =>
        obtain ⟨part, isPrefix, -, same⟩ := Tree.covered_iff.mp covers
        obtain rfl : part = target := of_decide_eq_true same
        obtain ⟨rest, rfl⟩ := isPrefix
        exact if_neg (empty rest ino (Tree.mem_iff_find.mp member))
  have pruned : (fs.tree.prune target).entries.filterMap (fs.contentAt root) =
      fs.tree.entries.filterMap (fs.contentAt root) := by
    unfold Tree.prune Tree.sweep
    rw [List.filterMap_filter]
    apply List.filterMap_congr
    intro entry member
    cases covers : Tree.covered (fun part => part = target) entry.1 with
    | false => rfl
    | true => simp [gone entry member covers]
  unfold contentsUnder
  rw [content]
  rcases entries_moveEntry fs source target with same | kept | moved
  · rw [same]
  · rw [kept, pruned]
  · rw [moved, List.filterMap_map]
    refine congrArg _ (Eq.trans ?_ pruned)
    apply List.filterMap_congr
    rintro ⟨loc, node⟩ member
    cases node with
    | dir ino => rfl
    | link ino text => rfl
    | file ino =>
        have there : fs.tree.find loc = some (.file ino) := Tree.mem_iff_find.mp (List.mem_filter.mp member).1
        simp only [Function.comp_apply, contentAt]
        rcases Tree.relocate_cases source target loc with same | ⟨rest, shape, lands⟩
        · rw [same]
        · rw [shape] at there
          rw [lands, shape]
          simp only [border rest ino there]

end Census

end Wftpd.Posix.FileSystem
