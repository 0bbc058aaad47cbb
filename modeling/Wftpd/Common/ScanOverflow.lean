import Wftpd.Common.Scan
import Wftpd.Common.SpeedLimiter

/-! The additions of a directory scan.

They are not checked. Where there are no links, the scan adds up the lengths of all
files by name, and no addition overflows exactly when that sum fits in 64 bits.
-/

set_option autoImplicit false

namespace Wftpd.Common
open Wftpd.Posix

section Checked

/-- Add in order; nothing where a part is missing or the sum so far leaves 64 bits. -/
def sumChecked : Nat → List (Option Nat) → Option Nat
  | size, [] => some size
  | _, none :: _ => none
  | size, some more :: rest => if size + more < 2 ^ 64 then sumChecked (size + more) rest else none

theorem sumChecked_map {α : Type} {parts : α → Option Nat} {whole : α → Nat} {items : List α} {size : Nat}
    (fits : size < 2 ^ 64)
    (each : ∀ item ∈ items, parts item = some (whole item) ∨ parts item = none ∧ 2 ^ 64 ≤ whole item) :
    sumChecked size (items.map parts) =
      if size + (items.map whole).sum < 2 ^ 64 then some (size + (items.map whole).sum) else none := by
  induction items generalizing size with
  | nil =>
      rw [List.map_nil, List.map_nil, List.sum_nil, Nat.add_zero, if_pos fits]
      rfl
  | cons item rest ih =>
      have later := fun other member => each other (List.mem_cons_of_mem item member)
      rw [List.map_cons, List.map_cons, List.sum_cons]
      rcases each item List.mem_cons_self with known | ⟨missing, large⟩
      · rw [known, sumChecked]
        split
        · next fitsToo => rw [ih fitsToo later, Nat.add_assoc]
        · rw [if_neg (by omega)]
      · rw [missing, sumChecked, if_neg (by omega)]

variable (os : Os) (fs : FileSystem)

def scanChecked : Nat → PathBuf → Option Nat
  | 0, _ => some 0
  | fuel + 1, path =>
      if fs.isDirPath os path then
        match fs.scanDir os path with
        | .ok names => sumChecked 0 (names.map fun name =>
            if fs.isDirPath os (path.join [.normal name]) then scanChecked fuel (path.join [.normal name])
            else some (fs.fileSize os (path.join [.normal name])))
        | .error _ => some 0
      else some (fs.fileSize os path)

variable {os fs}

theorem scanChecked_eq (fuel : Nat) {path : PathBuf} (isDir : fs.isDirPath os path = true) :
    scanChecked os fs fuel path =
      if scanSize os fs fuel path < 2 ^ 64 then some (scanSize os fs fuel path) else none := by
  induction fuel generalizing path with
  | zero => rfl
  | succ fuel ih =>
      rw [scanChecked, scanSize, if_pos isDir, if_pos isDir]
      cases fs.scanDir os path with
      | error why => rfl
      | ok entries =>
          simp only
          rw [sumChecked_map (by decide), Nat.zero_add]
          intro name _
          split
          · next below =>
              rw [ih below]
              split
              · exact .inl rfl
              · next large => exact .inr ⟨rfl, Nat.le_of_not_lt large⟩
          · exact .inl rfl

end Checked

section LinkFree
variable {os : Os} {fs : FileSystem} {home : Loc}

def LinkFree (tree : Tree) (home : Loc) : Prop := ∀ rest ino target, tree.find (home ++ rest) ≠ some (.link ino target)

/-- The files inside, once for each name. -/
def filesNamed (fs : FileSystem) (home : Loc) : List (List Name × Nat) :=
  fs.tree.entries.filterMap fun entry =>
    match entry.2 with
    | .file ino => if home <+: entry.1 then some (entry.1.drop home.length, ino) else none
    | _ => none

def storedBytes (fs : FileSystem) (home : Loc) : Nat :=
  ((filesNamed fs home).map fun found => (fs.data found.2).length).sum

theorem filesNamed_spec {entry : Loc × Node} {rest : List Name} {ino : Nat} :
    (match entry.2 with
      | .file ino => if home <+: entry.1 then some (entry.1.drop home.length, ino) else none
      | _ => none) = some (rest, ino) ↔ entry = (home ++ rest, .file ino) := by
  obtain ⟨loc, node⟩ := entry
  cases node with
  | dir other => simp
  | link other target => simp
  | file other =>
      simp only [Option.ite_none_right_eq_some, Option.some.injEq, Prod.mk.injEq, Node.file.injEq]
      constructor
      · rintro ⟨⟨below, rfl⟩, rfl, rfl⟩
        simp
      · rintro ⟨rfl, rfl⟩
        simp

theorem mem_filesNamed {rest : List Name} {ino : Nat} :
    (rest, ino) ∈ filesNamed fs home ↔ fs.tree.find (home ++ rest) = some (.file ino) := by
  rw [filesNamed, List.mem_filterMap, ← Tree.mem_iff_find]
  constructor
  · rintro ⟨entry, member, selected⟩
    rwa [← filesNamed_spec.mp selected]
  · intro member
    exact ⟨_, member, filesNamed_spec.mpr rfl⟩

theorem nodup_filesNamed : (filesNamed fs home).Nodup := by
  apply fs.tree.nodup.of_map.filterMap
  rintro first second ⟨rest, ino⟩ inFirst inSecond
  rw [filesNamed_spec.mp inFirst, filesNamed_spec.mp inSecond]

/-- The scan comes to every name of a file with bytes. -/
def AllReached (os : Os) (fs : FileSystem) (home : Loc) : Prop :=
  ∀ rest ino, fs.tree.find (home ++ rest) = some (.file ino) → fs.data ino ≠ [] → fs.Route os ino (.ofNames home) rest

open scoped Classical in
noncomputable def reachedBytes (os : Os) (fs : FileSystem) (home : Loc) : Nat :=
  (((filesNamed fs home).filter fun found => fs.Route os found.2 (.ofNames home) found.1).map fun found =>
    (fs.data found.2).length).sum

theorem sum_filter_map {α : Type} (chosen : α → Bool) (weight : α → Nat) (items : List α) :
    ((items.filter chosen).map weight).sum ≤ (items.map weight).sum ∧
      (((items.filter chosen).map weight).sum = (items.map weight).sum ↔
        ∀ item ∈ items, weight item ≠ 0 → chosen item = true) := by
  induction items with
  | nil => simp
  | cons item rest ih =>
      obtain ⟨less, same⟩ := ih
      rw [List.forall_mem_cons, ← same]
      cases taken : chosen item with
      | true => simpa [taken] using less
      | false =>
          simp only [List.filter_cons, taken, Bool.false_eq_true, if_false, List.map_cons, List.sum_cons, imp_false,
            Decidable.not_not]
          omega

theorem reachedBytes_le : reachedBytes os fs home ≤ storedBytes fs home := by
  unfold reachedBytes storedBytes
  exact (sum_filter_map _ _ (filesNamed fs home)).1

theorem reachedBytes_eq_iff : reachedBytes os fs home = storedBytes fs home ↔ AllReached os fs home := by
  classical
  have whole := (sum_filter_map (fun found => decide (fs.Route os found.2 (.ofNames home) found.1))
    (fun found => (fs.data found.2).length) (filesNamed fs home)).2
  rw [reachedBytes, storedBytes, whole]
  constructor
  · intro every rest ino found bytes
    exact of_decide_eq_true (every (rest, ino) (mem_filesNamed.mpr found) (by simpa using bytes))
  · rintro every ⟨rest, ino⟩ named bytes
    exact decide_eq_true (every rest ino (mem_filesNamed.mp named) (by simpa using bytes))

/-- Without links, a route is a place in the tree. -/
theorem find_of_route (plain : LinkFree fs.tree home) {below rest : Loc} {node : Node} {ino : Nat}
    (here : fs.tree.find (home ++ below) = some node) (route : fs.Route os ino (.ofNames (home ++ below)) rest) :
    fs.tree.find (home ++ below ++ rest) = some (.file ino) := by
  have physical : ∀ ino target, node ≠ .link ino target := fun ino target isLink => plain below ino target (isLink ▸ here)
  induction rest generalizing below node with
  | nil =>
      obtain ⟨loc, located, found⟩ := FileSystem.fileAt_cases route
      cases FileSystem.locate_entry_eq here physical located
      rwa [List.append_nil]
  | cons name rest ih =>
      obtain ⟨⟨names, read, listed⟩, onward⟩ := route
      obtain ⟨loc, dir, located, -, rfl⟩ := FileSystem.scanDir_cases read
      cases FileSystem.locate_entry_eq here physical located
      obtain ⟨child, found⟩ := Tree.mem_children.mp (List.mem_filter.mp listed).1
      rw [PathBuf.join_name, ← List.map_singleton, ← PathBuf.ofNames_append, List.append_assoc] at onward
      rw [List.append_assoc] at found
      have ended := ih found onward fun ino target isLink => plain (below ++ [name]) ino target (isLink ▸ found)
      simpa using ended

theorem scanSize_eq_reached (plain : LinkFree fs.tree home) (dir : fs.tree.isDir home = true) :
    scanSize os fs (scanFuel fs) (.ofNames home) = reachedBytes os fs home := by
  classical
  rw [scanSize_eq_met, reachedBytes]
  apply List.Perm.sum_eq
  apply List.Perm.map
  apply (List.perm_ext_iff_of_nodup (nodup_met _ _) (nodup_filesNamed.filter _)).mpr
  rintro ⟨rest, ino⟩
  rw [List.mem_filter, mem_filesNamed, decide_eq_true_iff]
  constructor
  · intro counted
    obtain ⟨inode, found⟩ := Tree.isDir_iff.mp dir
    have route := route_of_met counted
    have placed := @find_of_route os fs home plain [] rest (.dir inode) ino
    rw [List.append_nil] at placed
    exact ⟨placed found route, route⟩
  · rintro ⟨-, route⟩
    have short := (@FileSystem.Route.ends os fs ino (.ofNames home) [] rest (by rwa [List.map_nil, List.append_nil])).1
    exact met_of_route route (Nat.lt_of_le_of_lt short (longestRoute_lt_scanFuel fs))

theorem Listable.scanSize_eq_stored (listable : Listable os fs home) (plain : LinkFree fs.tree home)
    (dir : fs.tree.isDir home = true) : scanSize os fs (scanFuel fs) (.ofNames home) = storedBytes fs home := by
  rw [scanSize_eq_reached plain dir, reachedBytes_eq_iff]
  intro rest ino found _
  exact listable.route (List.prefix_refl home) found

/-- A directory that the scan cannot reach counts as nothing, so that what is added up decides. -/
theorem scanChecked_ne_none_iff (dir : fs.tree.isDir home = true) (fuel : Nat) :
    scanChecked os fs fuel (.ofNames home) ≠ none ↔ scanSize os fs fuel (.ofNames home) < 2 ^ 64 := by
  by_cases isDir : fs.isDirPath os (.ofNames home) = true
  · rw [scanChecked_eq fuel isDir]
    split
    · next fits => exact iff_of_true (Option.some_ne_none _) fits
    · next large => exact iff_of_false (fun some => some rfl) large
  · obtain ⟨inode, found⟩ := Tree.isDir_iff.mp dir
    have noFile : fs.fileAt os (.ofNames home) = none := by
      apply Option.eq_none_iff_forall_ne_some.mpr
      intro ino leads
      obtain ⟨loc, located, isFile⟩ := FileSystem.fileAt_cases leads
      cases FileSystem.locate_entry_eq found (fun _ _ isLink => by cases isLink) located
      rw [found] at isFile
      cases isFile
    have nothing : fs.fileSize os (.ofNames home) = 0 := by rw [FileSystem.fileSize_eq, noFile]
    cases fuel with
    | zero => simp [scanChecked, scanSize]
    | succ fuel => simp [scanChecked, scanSize, isDir, nothing]

theorem length_le_stored {ino : Nat} (inside : ino ∈ fs.filesUnder home) : (fs.data ino).length ≤ storedBytes fs home := by
  obtain ⟨rest, found⟩ := FileSystem.mem_filesUnder.mp inside
  exact List.le_sum_of_mem (List.mem_map.mpr ⟨(rest, ino), mem_filesNamed.mpr found, rfl⟩)

/-- No addition of the scan overflows; what it reports is no less than any file, and a sum that
is accepted for it would be accepted for what is stored. -/
structure NeverWraps (os : Os) (fs : FileSystem) (home : Loc) : Prop where
  checked : scanChecked os fs (scanFuel fs) (.ofNames home) ≠ none
  covers : ∀ ino ∈ fs.filesUnder home, (fs.data ino).length ≤ dirSize os fs (.ofNames home)
  honest : ∀ additional limit, min (dirSize os fs (.ofNames home) + additional) u64Max ≤ limit →
    min (storedBytes fs home + additional) u64Max ≤ limit

/-- Nothing wraps exactly when the scan comes to all that is stored and that fits in 64 bits, or when what
it comes to is the largest word. -/
theorem neverWraps_iff (dir : fs.tree.isDir home = true) (plain : LinkFree fs.tree home)
    (lengths : ∀ ino, (fs.data ino).length ≤ 2 ^ 63 - 1) :
    NeverWraps os fs home ↔
      AllReached os fs home ∧ storedBytes fs home < 2 ^ 64 ∨ reachedBytes os fs home = u64Max := by
  have scanned := @scanSize_eq_reached os fs home plain dir
  have additions := @scanChecked_ne_none_iff os fs home dir (scanFuel fs)
  have part := @reachedBytes_le os fs home
  rw [scanned] at additions
  constructor
  · intro never
    have fits := additions.mp never.checked
    have reported : dirSize os fs (.ofNames home) = reachedBytes os fs home := by
      rw [dirSize, scanned, Nat.mod_eq_of_lt fits]
    have honest := never.honest 0 (reachedBytes os fs home) (by rw [reported]; exact Nat.min_le_left _ _)
    by_cases small : storedBytes fs home < 2 ^ 64
    · refine .inl ⟨reachedBytes_eq_iff.mp ?_, small⟩
      unfold u64Max at honest
      omega
    · right
      unfold u64Max at honest ⊢
      omega
  · intro covered
    have fits : reachedBytes os fs home < 2 ^ 64 ∧ min (storedBytes fs home) u64Max ≤ reachedBytes os fs home := by
      rcases covered with ⟨every, small⟩ | largest
      · have whole := reachedBytes_eq_iff.mpr every
        omega
      · rw [largest]
        exact ⟨by decide, Nat.min_le_right _ _⟩
    have reported : dirSize os fs (.ofNames home) = reachedBytes os fs home := by
      rw [dirSize, scanned, Nat.mod_eq_of_lt fits.1]
    refine ⟨additions.mpr fits.1, fun ino inside => ?_, fun additional limit accepted => ?_⟩
    · have stored := length_le_stored inside
      have short := lengths ino
      have enough := fits.2
      rw [reported]
      unfold u64Max at enough
      omega
    · have enough := fits.2
      rw [reported] at accepted
      omega

end LinkFree

section Samples

def threeFiles (first second third : List UInt8) : FileSystem :=
  ((FileSystem.empty.addFile "a".toList first).addFile "b".toList second).addFile "c".toList third

theorem linkFree_of_entries {tree : Tree} {home : Loc}
    (entries : (tree.entries.all fun entry => match entry.2 with
      | .link _ _ => false
      | _ => true) = true) : LinkFree tree home := by
  intro rest ino target found
  have plain := List.all_eq_true.mp entries _ (Tree.mem_iff_find.mpr found)
  cases plain

theorem storedBytes_threeFiles (first second third : List UInt8) :
    storedBytes (threeFiles first second third) [] = third.length + (second.length + first.length) := by
  have tree : filesNamed (threeFiles first second third) [] = filesNamed (threeFiles [] [] []) [] := rfl
  have named : filesNamed (threeFiles [] [] []) [] = [(["c".toList], 3), (["b".toList], 2), (["a".toList], 1)] := by
    decide +kernel
  rw [storedBytes, tree, named]
  rfl

theorem length_threeFiles_le {first second third : List UInt8} {bound : Nat} (left : first.length ≤ bound)
    (middle : second.length ≤ bound) (right : third.length ≤ bound) (ino : Nat) :
    ((threeFiles first second third).data ino).length ≤ bound := by
  simp only [threeFiles, FileSystem.addFile, FileSystem.setData, FileSystem.create, Function.update_apply]
  split_ifs <;> first | assumption | exact Nat.zero_le _

theorem neverWraps_iff_small : NeverWraps .permissive (threeFiles [1] [] []) [] ↔
    AllReached .permissive (threeFiles [1] [] []) [] ∧ storedBytes (threeFiles [1] [] []) [] < 2 ^ 64 ∨
      reachedBytes .permissive (threeFiles [1] [] []) [] = u64Max :=
  neverWraps_iff (by decide +kernel) (linkFree_of_entries (by decide +kernel))
    (length_threeFiles_le (by decide) (by decide) (by decide))

theorem threeFiles_plain (first second third : List UInt8) :
    Listable .permissive (threeFiles first second third) [] ∧ LinkFree (threeFiles first second third).tree [] := by
  have tree : (threeFiles first second third).tree = (threeFiles [] [] []).tree := rfl
  constructor
  · apply listable_permissive
    rw [tree]
    decide +kernel
  · rw [tree]
    exact linkFree_of_entries (by decide +kernel)

theorem not_neverWraps_threeFiles {first second third : List UInt8} (large : 0 < first.length)
    (total : third.length + (second.length + first.length) = 2 ^ 64) :
    dirSize .permissive (threeFiles first second third) (.ofNames []) = 0 ∧
      ¬ NeverWraps .permissive (threeFiles first second third) [] := by
  obtain ⟨listable, plain⟩ := threeFiles_plain first second third
  have reported : dirSize .permissive (threeFiles first second third) (.ofNames []) = 0 := by
    rw [dirSize, listable.scanSize_eq_stored plain (Tree.isDir_root _), storedBytes_threeFiles, total, Nat.mod_self]
  refine ⟨reported, fun never => ?_⟩
  have inside : 1 ∈ (threeFiles first second third).filesUnder [] := by
    have tree : (threeFiles first second third).tree = (threeFiles [] [] []).tree := rfl
    rw [FileSystem.mem_filesUnder, tree]
    exact ⟨["a".toList], by decide +kernel⟩
  have covered := never.covers 1 inside
  rw [reported] at covered
  have length : ((threeFiles first second third).data 1).length = first.length := rfl
  omega

def largestFiles : FileSystem :=
  threeFiles (List.replicate (2 ^ 63 - 1) 0) (List.replicate (2 ^ 63 - 1) 0) (List.replicate 2 0)

theorem largestFiles_wrap : largestFiles.tree.isDir [] = true ∧ Listable .permissive largestFiles [] ∧
    LinkFree largestFiles.tree [] ∧ (∀ ino, (largestFiles.data ino).length ≤ 2 ^ 63 - 1) ∧
    dirSize .permissive largestFiles (.ofNames []) = 0 ∧ ¬ NeverWraps .permissive largestFiles [] := by
  have largest := @List.length_replicate UInt8 (2 ^ 63 - 1) 0
  have two := @List.length_replicate UInt8 2 0
  obtain ⟨listable, plain⟩ := threeFiles_plain (List.replicate (2 ^ 63 - 1) 0) (List.replicate (2 ^ 63 - 1) 0)
    (List.replicate 2 0)
  refine ⟨Tree.isDir_root _, listable, plain, ?_, ?_⟩
  · exact length_threeFiles_le (Nat.le_of_eq largest) (Nat.le_of_eq largest) (by rw [two]; decide)
  · apply not_neverWraps_threeFiles
    · rw [largest]
      decide
    · rw [largest, two]
      decide

end Samples

end Wftpd.Common
