import Wftpd.Posix.Contents
import Wftpd.Posix.Usage
import Wftpd.Posix.Walk

/-! How much of a quota a directory uses: the scan over its tree.

The scan counts what it meets, and finds at least the bytes stored below the
directory where the kernel lets it look everywhere.
-/

set_option autoImplicit false

namespace Wftpd.Common
open Wftpd.Posix

/-- The scan of `dir_size` before its sum wraps at 64 bits. It follows links, and
counts nothing where it cannot look. -/
def scanSize (os : Os) (fs : FileSystem) : Nat → PathBuf → Nat
  | 0, _ => 0
  | fuel + 1, path =>
      if fs.isDirPath os path then
        match fs.scanDir os path with
        | .ok names => (names.map fun name =>
            if fs.isDirPath os (path.join [.normal name]) then scanSize os fs fuel (path.join [.normal name])
            else fs.fileSize os (path.join [.normal name])).sum
        | .error _ => 0
      else fs.fileSize os path

/-- A path follows few enough links that no scan is deeper than this. -/
def scanFuel (fs : FileSystem) : Nat := (FileSystem.maxSymlinks + 1) * (fs.tree.entries.length + 1) + 1

/-- `QuotaCache::calculate_usage_async`; sums of 64-bit lengths wrap. -/
def dirSize (os : Os) (fs : FileSystem) (path : PathBuf) : Nat :=
  scanSize os fs (scanFuel fs) path % 2 ^ 64

theorem scanSize_data (os : Os) (fs : FileSystem) {data : Nat → List UInt8}
    (lengths : ∀ ino, (data ino).length = (fs.data ino).length) (fuel : Nat) (path : PathBuf) :
    scanSize os (fs.withData data) fuel path = scanSize os fs fuel path := by
  induction fuel generalizing path with
  | zero => rfl
  | succ fuel ih =>
      simp only [scanSize, FileSystem.isDirPath_data os fs lengths, FileSystem.fileSize_data os fs lengths,
        FileSystem.scanDir_data, ih]

theorem dirSize_data (os : Os) (fs : FileSystem) {data : Nat → List UInt8}
    (lengths : ∀ ino, (data ino).length = (fs.data ino).length) (path : PathBuf) :
    dirSize os (fs.withData data) path = dirSize os fs path := by
  simp only [dirSize, scanSize_data os fs lengths]
  rfl

/-- A scan from here sees everything below: it may search and list every directory
on the way, reads each to the end, and no path that it asks for is refused. -/
structure Listable (os : Os) (fs : FileSystem) (home : Loc) : Prop where
  search : ∀ loc, loc <+: home ∨ home <+: loc → fs.tree.isDir loc = true → fs.allowed os loc .search = true
  list : ∀ loc ino, home <+: loc → fs.tree.find loc = some (.dir ino) → os.may (fs.inode ino) .read = true
  names : ∀ loc, home <+: loc → fs.tree.find loc ≠ none → ∀ name ∈ loc, '\x00' ∉ name
  through : ∀ loc, home <+: loc → fs.tree.find loc ≠ none → os.refused (.ofNames loc) = none
  whole : ∀ loc, home <+: loc → ∀ name ∈ fs.tree.children loc, os.dropped (.ofNames loc) name = false

section Scan
variable {os : Os} {fs : FileSystem} {home : Loc}

theorem Listable.locate (listable : Listable os fs home) {loc : Loc} {node : Node} (inside : home <+: loc)
    (found : fs.tree.find loc = some node) (physical : ∀ ino target, node ≠ .link ino target) :
    fs.locate os true (.ofNames loc) = .ok loc := by
  apply FileSystem.locate_entry found physical
  · apply listable.names loc inside
    simp [found]
  · apply listable.through loc inside
    simp [found]
  · intro above isPrefix _ dir
    exact listable.search above ((List.prefix_or_prefix_of_prefix isPrefix inside)) dir

theorem Listable.status (listable : Listable os fs home) {loc : Loc} {node : Node} (inside : home <+: loc)
    (found : fs.tree.find loc = some node) (physical : ∀ ino target, node ≠ .link ino target) :
    fs.status os true (.ofNames loc) = .ok (fs.nodeMetadata os node) := by
  unfold FileSystem.status
  rw [listable.locate inside found physical]
  simp only [bind, Except.bind, found]
  rfl

theorem Listable.isDirPath (listable : Listable os fs home) {loc : Loc} {ino : Nat} (inside : home <+: loc)
    (found : fs.tree.find loc = some (.dir ino)) : fs.isDirPath os (.ofNames loc) = true := by
  unfold FileSystem.isDirPath
  rw [listable.status inside found fun _ _ isLink => by cases isLink]
  rfl

theorem Listable.fileSize (listable : Listable os fs home) {loc : Loc} {ino : Nat} (inside : home <+: loc)
    (found : fs.tree.find loc = some (.file ino)) :
    fs.isDirPath os (.ofNames loc) = false ∧ fs.fileSize os (.ofNames loc) = (fs.data ino).length := by
  unfold FileSystem.isDirPath FileSystem.fileSize
  rw [listable.status inside found fun _ _ isLink => by cases isLink]
  exact ⟨rfl, rfl⟩

theorem Listable.scanDir (listable : Listable os fs home) {loc : Loc} {ino : Nat} (inside : home <+: loc)
    (found : fs.tree.find loc = some (.dir ino)) : fs.scanDir os (.ofNames loc) = .ok (fs.tree.children loc) := by
  have whole : (fs.tree.children loc).filter (fun name => !os.dropped (.ofNames loc) name) = fs.tree.children loc := by
    apply List.filter_eq_self.mpr
    intro name listed
    rw [listable.whole loc inside name listed]
    rfl
  unfold FileSystem.scanDir FileSystem.readDir
  rw [listable.locate inside found fun _ _ isLink => by cases isLink]
  simp only [bind, Except.bind, found, listable.list loc ino inside found, if_true]
  exact congrArg Except.ok whole

theorem usage_le_children {loc : Loc} {ino : Nat} (found : fs.tree.find loc = some (.dir ino)) :
    fs.usage loc ≤ ((fs.tree.children loc).map fun name => fs.usage (loc ++ [name])).sum := by
  apply FileSystem.sum_le_cover
  intro file member
  obtain ⟨rest, there⟩ := FileSystem.mem_filesUnder.mp member
  cases rest with
  | nil =>
      rw [List.append_nil, found] at there
      cases there
  | cons name rest =>
      have shape : loc ++ name :: rest = loc ++ [name] ++ rest := by simp
      rw [shape] at there
      refine ⟨name, Tree.mem_children.mpr ?_, FileSystem.mem_filesUnder.mpr ⟨rest, there⟩⟩
      by_cases last : rest = []
      · subst rest
        rw [List.append_nil] at there
        exact ⟨_, there⟩
      · obtain ⟨inner, between⟩ := Tree.isDir_iff.mp (Tree.isDir_of_below last there)
        exact ⟨_, between⟩

theorem usage_not_dir {loc : Loc} (notDir : fs.tree.isDir loc = false) :
    fs.usage loc ≤ match fs.tree.find loc with
      | some (.file ino) => (fs.data ino).length
      | _ => 0 := by
  have only : ∀ ino ∈ fs.filesUnder loc, fs.tree.find loc = some (.file ino) := by
    intro ino member
    obtain ⟨rest, there⟩ := FileSystem.mem_filesUnder.mp member
    by_cases empty : rest = []
    · simpa [empty] using there
    · have dir := Tree.isDir_of_below empty there
      rw [notDir] at dir
      cases dir
  by_cases isFile : ∃ ino, fs.tree.find loc = some (.file ino)
  · obtain ⟨ino, found⟩ := isFile
    have single : fs.filesUnder loc ⊆ {ino} := by
      intro other member
      have same := only other member
      rw [found] at same
      cases same
      exact Finset.mem_singleton_self ino
    simp only [found]
    calc fs.usage loc ≤ ∑ other ∈ {ino}, (fs.data other).length := Finset.sum_le_sum_of_subset single
      _ = (fs.data ino).length := Finset.sum_singleton _ _
  · have empty : fs.filesUnder loc = ∅ := by
      apply Finset.eq_empty_of_forall_notMem
      intro ino member
      exact isFile ⟨ino, only ino member⟩
    simp [FileSystem.usage, empty]

theorem Listable.usage_le_fileSize (listable : Listable os fs home) {loc : Loc} (inside : home <+: loc)
    (notDir : fs.tree.isDir loc = false) : fs.usage loc ≤ fs.fileSize os (.ofNames loc) := by
  have bound := usage_not_dir notDir
  cases found : fs.tree.find loc with
  | none =>
      rw [found] at bound
      exact Nat.le_trans bound (Nat.zero_le _)
  | some node =>
      cases node with
      | file ino =>
          rw [found] at bound
          rw [(listable.fileSize inside found).2]
          exact bound
      | dir ino => simp [Tree.isDir, found] at notDir
      | link ino target =>
          rw [found] at bound
          exact Nat.le_trans bound (Nat.zero_le _)

/-- The induction is on the fuel, which has to exceed the depth of the subtree. -/
theorem Listable.usage_le_scanSize (listable : Listable os fs home) {fuel : Nat} {loc : Loc} (inside : home <+: loc)
    (deep : ∀ rest node, fs.tree.find (loc ++ rest) = some node → rest.length < fuel) :
    fs.usage loc ≤ scanSize os fs fuel (.ofNames loc) := by
  induction fuel generalizing loc with
  | zero =>
      -- nothing is as deep as that, so there is nothing to count
      have empty : fs.filesUnder loc = ∅ := by
        apply Finset.eq_empty_of_forall_notMem
        intro ino member
        obtain ⟨rest, there⟩ := FileSystem.mem_filesUnder.mp member
        exact absurd (deep rest _ there) (Nat.not_lt_zero _)
      simp [FileSystem.usage, empty]
  | succ fuel ih =>
      cases dir : fs.tree.isDir loc with
      | true =>
          -- the files below a directory are those below its children, one level less deep
          obtain ⟨ino, found⟩ := Tree.isDir_iff.mp dir
          rw [scanSize, if_pos (listable.isDirPath inside found), listable.scanDir inside found]
          simp only
          apply Nat.le_trans (usage_le_children found)
          apply List.sum_le_sum
          intro name _
          have child : home <+: loc ++ [name] := inside.trans (List.prefix_append _ _)
          have path : (PathBuf.ofNames loc).join [.normal name] = .ofNames (loc ++ [name]) := by
            rw [PathBuf.ofNames_append, PathBuf.join_name]
            rfl
          rw [path]
          split
          · apply ih child
            intro rest node there
            rw [List.append_assoc] at there
            have deeper := deep ([name] ++ rest) node there
            simp only [List.length_append, List.length_singleton] at deeper
            omega
          · next notDirPath =>
              apply listable.usage_le_fileSize child
              by_contra isDir
              obtain ⟨inner, below⟩ := Tree.isDir_iff.mp (by simpa using isDir)
              exact notDirPath (listable.isDirPath child below)
      | false =>
          rw [scanSize]
          split
          · -- a link to a directory: nothing is stored at the link itself
            next isDirPath =>
              have bound := usage_not_dir dir
              cases found : fs.tree.find loc with
              | none =>
                  rw [found] at bound
                  exact Nat.le_trans bound (Nat.zero_le _)
              | some node =>
                  cases node with
                  | dir ino => simp [Tree.isDir, found] at dir
                  | file ino =>
                      rw [(listable.fileSize inside found).1] at isDirPath
                      cases isDirPath
                  | link ino target =>
                      rw [found] at bound
                      exact Nat.le_trans bound (Nat.zero_le _)
          · exact listable.usage_le_fileSize inside dir

theorem Listable.usage_le_dirSize (listable : Listable os fs home)
    (fits : scanSize os fs (scanFuel fs) (.ofNames home) < 2 ^ 64) :
    fs.usage home ≤ dirSize os fs (.ofNames home) := by
  rw [dirSize, Nat.mod_eq_of_lt fits]
  apply listable.usage_le_scanSize (List.prefix_refl home)
  intro rest node there
  have short := Tree.length_lt_entries there
  rw [List.length_append] at short
  unfold scanFuel FileSystem.maxSymlinks
  omega

theorem listable_permissive (names : ∀ entry ∈ fs.tree.entries, ∀ name ∈ entry.1, '\x00' ∉ name) :
    Listable .permissive fs home := by
  refine ⟨fun loc _ isDir => ?_, fun _ _ _ _ => rfl, fun loc _ found => ?_, fun _ _ _ => rfl, fun _ _ _ _ => rfl⟩
  · obtain ⟨ino, found⟩ := Tree.isDir_iff.mp isDir
    simp [FileSystem.allowed, found, Os.permissive]
  · obtain ⟨node, there⟩ := Option.ne_none_iff_exists'.mp found
    exact names _ (Tree.mem_iff_find.mpr there)

end Scan

end Wftpd.Common
