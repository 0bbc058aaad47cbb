import Wftpd.Posix.Confined

/-! Files put together from blocks, in any order.

A block is a piece of the content meant for the place where it stands there. Blocks may
overlap and come twice; once they cover the content, the file is the content.
-/

set_option autoImplicit false

namespace Wftpd.Posix.FileSystem
open Wftpd.Library

section Overwrite
variable {old new : List UInt8} {offset index : Nat}

theorem getElem?_overwrite_inside (from_le : offset ≤ index) (lt_to : index < offset + new.length) :
    (overwrite old offset new)[index]? = new[index - offset]? := by
  have front : (old.take offset ++ List.replicate (offset - old.length) (0 : UInt8)).length = offset := by
    simp only [List.length_append, List.length_take, List.length_replicate]
    omega
  rw [overwrite, List.append_assoc, List.getElem?_append_right (by omega), front,
    List.getElem?_append_left (by omega)]

theorem getElem?_overwrite_before (lt_from : index < offset) (within : index < old.length) :
    (overwrite old offset new)[index]? = old[index]? := by
  rw [overwrite, List.append_assoc, List.append_assoc, List.getElem?_append_left]
  · exact List.getElem?_take_of_lt lt_from
  · rw [List.length_take]
    omega

theorem getElem?_overwrite_after (to_le : offset + new.length ≤ index) :
    (overwrite old offset new)[index]? = old[index]? := by
  have front : (old.take offset ++ List.replicate (offset - old.length) (0 : UInt8) ++ new).length =
      offset + new.length := by
    simp only [List.length_append, List.length_take, List.length_replicate]
    omega
  rw [overwrite, List.getElem?_append_right (by omega), front, List.getElem?_drop]
  congr 1
  omega

end Overwrite

section Blocks

def IsBlock (content : List UInt8) (offset : Nat) (block : List UInt8) : Prop := block <+: content.drop offset

variable {content block part : List UInt8} {offset : Nat}

theorem IsBlock.of_prefix (isBlock : IsBlock content offset block) (isPrefix : part <+: block) :
    IsBlock content offset part := isPrefix.trans isBlock

theorem isBlock_append {more : List UInt8} :
    IsBlock content offset (block ++ more) ↔ IsBlock content offset block ∧ IsBlock content (offset + block.length) more := by
  unfold IsBlock
  rw [← List.drop_drop]
  constructor
  · rintro ⟨rest, shape⟩
    rw [← shape]
    exact ⟨⟨more ++ rest, by simp⟩, ⟨rest, by simp⟩⟩
  · rintro ⟨⟨rest, shape⟩, later⟩
    rw [← shape, List.drop_left] at later
    rw [← shape]
    exact List.prefix_append_right_inj block |>.mpr later

theorem IsBlock.within (isBlock : IsBlock content offset block) (nonempty : block ≠ []) :
    offset + block.length ≤ content.length := by
  have short := isBlock.length_le
  have positive := List.length_pos_iff.mpr nonempty
  rw [List.length_drop] at short
  omega

theorem IsBlock.getElem? (isBlock : IsBlock content offset block) {index : Nat} (from_le : offset ≤ index)
    (lt_to : index < offset + block.length) : block[index - offset]? = content[index]? := by
  obtain ⟨rest, whole⟩ := isBlock
  have shifted : content[index]? = (content.drop offset)[index - offset]? := by
    rw [List.getElem?_drop]
    congr 1
    omega
  rw [shifted, ← whole, List.getElem?_append_left (by omega)]

/-- A file that holds the content at the places covered so far, and nothing beyond it. -/
structure Assembled (content : List UInt8) (covered : Nat → Prop) (file : List UInt8) : Prop where
  short : file.length ≤ content.length
  agrees : ∀ index, index < content.length → covered index → file[index]? = content[index]?

variable {covered : Nat → Prop} {file : List UInt8}

theorem Assembled.store (assembled : Assembled content covered file) (isBlock : IsBlock content offset block)
    (nonempty : block ≠ []) :
    Assembled content (fun index => covered index ∨ offset ≤ index ∧ index < offset + block.length)
      (overwrite file offset block) where
  short := by
    have within := isBlock.within nonempty
    have short := assembled.short
    rw [length_overwrite_eq]
    omega
  agrees index inside placed := by
    by_cases stored : offset ≤ index ∧ index < offset + block.length
    · rw [getElem?_overwrite_inside stored.1 stored.2, isBlock.getElem? stored.1 stored.2]
    · have before := assembled.agrees index inside (placed.resolve_right stored)
      by_cases earlier : index < offset
      · -- what was covered is part of the file already
        have there : index < file.length := by
          rw [List.getElem?_eq_getElem inside] at before
          exact (List.getElem?_eq_some_iff.mp before).1
        rw [getElem?_overwrite_before earlier there, before]
      · rw [getElem?_overwrite_after (by omega), before]

theorem Assembled.imp {fewer : Nat → Prop} (assembled : Assembled content covered file)
    (implies : ∀ index, fewer index → covered index) : Assembled content fewer file :=
  ⟨assembled.short, fun index inside placed => assembled.agrees index inside (implies index placed)⟩

theorem Assembled.whole (assembled : Assembled content covered file) (all : ∀ index < content.length, covered index) :
    file = content := by
  apply List.ext_getElem?
  intro index
  by_cases inside : index < content.length
  · exact assembled.agrees index inside (all index inside)
  · have short := assembled.short
    rw [List.getElem?_eq_none (by omega), List.getElem?_eq_none (by omega)]

theorem Assembled.isPrefix (assembled : Assembled content covered file) (all : ∀ index < file.length, covered index) :
    file <+: content := by
  rw [List.prefix_iff_getElem?]
  intro index inside
  rw [← assembled.agrees index (Nat.lt_of_lt_of_le inside assembled.short) (all index inside),
    List.getElem?_eq_getElem inside]

theorem assembled_of_started (started : file <+: content) : Assembled content (· < file.length) file where
  short := started.length_le
  agrees index _ inside := by
    obtain ⟨rest, rfl⟩ := started
    exact (List.getElem?_append_left inside).symm

/-- A block that leaves no gap takes a file that holds the start of the content further. -/
theorem prefix_overwrite (started : file <+: content) (isBlock : IsBlock content offset block) (nonempty : block ≠ [])
    (noGap : offset ≤ file.length) : overwrite file offset block <+: content := by
  apply ((assembled_of_started started).store isBlock nonempty).isPrefix
  intro index inside
  rw [length_overwrite_eq] at inside
  omega

end Blocks

section Kept
variable {os : Os} {fs fs' fs'' : FileSystem} {ino : Nat} {path : PathBuf}

def KeepsBytes (ino : Nat) (fs fs' : FileSystem) : Prop := ino < fs.next → ino < fs'.next ∧ fs'.data ino = fs.data ino

theorem KeepsBytes.refl (ino : Nat) (fs : FileSystem) : KeepsBytes ino fs fs := fun used => ⟨used, rfl⟩

theorem KeepsBytes.trans (first : KeepsBytes ino fs fs') (second : KeepsBytes ino fs' fs'') : KeepsBytes ino fs fs'' := by
  intro used
  obtain ⟨used', same⟩ := first used
  obtain ⟨used'', same'⟩ := second used'
  exact ⟨used'', same'.trans same⟩

theorem keepsBytes_touchDir (loc : Loc) (now : Int) : KeepsBytes ino fs (fs.touchDir loc now) :=
  fun used => ⟨by rwa [touchDir_next], by rw [touchDir_data]⟩

theorem keepsBytes_made (parent : Loc) (name : Name) (new : NewNode) (created : Inode) (now : Int) :
    KeepsBytes ino fs ((fs.create parent name new created).touchDir parent now) := by
  have made : KeepsBytes ino fs (fs.create parent name new created) :=
    fun used => ⟨Nat.lt_succ_of_lt used, Function.update_of_ne used.ne _ _⟩
  exact made.trans (keepsBytes_touchDir parent now)

theorem keepsBytes_swept (gone : Loc → Bool) (loc : Loc) (now : Int) :
    KeepsBytes ino fs ((fs.sweep gone).touchDir loc now) :=
  have swept : KeepsBytes ino fs (fs.sweep gone) := fun used => ⟨used, rfl⟩
  swept.trans (keepsBytes_touchDir loc now)

theorem keepsBytes_stored {other : Nat} (apart : other ≠ ino) (bytes : List UInt8) (now : Int) :
    KeepsBytes ino fs ((fs.setData other bytes).touch other now) :=
  fun used => ⟨used, Function.update_of_ne apart.symm _ _⟩

theorem keepsBytes_createDir : KeepsBytes ino fs (createDir os path fs).2 := by
  apply createDir_final (KeepsBytes ino fs) path (.refl ino fs)
  intro parent name _
  exact keepsBytes_made parent name .dir _ _

theorem keepsBytes_createDirAll : KeepsBytes ino fs (createDirAll os path fs).2 :=
  createDirAll_keeps (fun _ _ _ kept => kept.trans keepsBytes_createDir) (.refl ino fs)

theorem keepsBytes_symlink {target : Text} : KeepsBytes ino fs (FileSystem.symlink os target path fs).2 := by
  apply symlink_final (KeepsBytes ino fs) target path (.refl ino fs)
  intro parent name _
  exact keepsBytes_made parent name (.link target) _ _

theorem keepsBytes_removeFile : KeepsBytes ino fs (removeFile os path fs).2 := by
  apply removeFile_final (KeepsBytes ino fs) path (.refl ino fs)
  intro loc _ _
  exact keepsBytes_swept _ _ _

theorem keepsBytes_removeDirAll : KeepsBytes ino fs (removeDirAll os path fs).2 := by
  apply removeDirAll_final (KeepsBytes ino fs) path (.refl ino fs)
  · exact fun _ _ _ => keepsBytes_swept _ _ _
  · exact fun _ _ used => ⟨used, rfl⟩
  · exact fun _ _ => keepsBytes_swept _ _ _
  · exact fun _ _ => keepsBytes_swept _ _ _

theorem keepsBytes_rename {src dst : PathBuf} : KeepsBytes ino fs (rename os src dst fs).2 := by
  apply rename_final (KeepsBytes ino fs) src dst (.refl ino fs)
  intro source target _
  have moved : KeepsBytes ino fs (fs.moveEntry source target) :=
    fun used => ⟨by rwa [moveEntry_next], by rw [moveEntry_data]⟩
  exact (moved.trans (keepsBytes_touchDir _ _)).trans (keepsBytes_touchDir _ _)

/-- The file at the end of the path is not this one. -/
def Elsewhere (os : Os) (fs : FileSystem) (path : PathBuf) (ino : Nat) : Prop :=
  ∀ loc, fs.locate os true path = .ok loc → fs.tree.find loc ≠ some (.file ino)

theorem keepsBytes_openFile {options : OpenOptions} (elsewhere : options.truncate = true → Elsewhere os fs path ino) :
    KeepsBytes ino fs (openFile os options path fs).2 := by
  rcases openFile_cases os fs options path with ⟨_, failed⟩ | ⟨_, kept, _⟩ | ⟨_, grants⟩
  · rw [failed]
    exact .refl ino fs
  · rw [kept]
    exact .refl ino fs
  · obtain ⟨file, after, opened⟩ := grants.opens
    rw [opened]
    rcases openFile_changes opened with rfl | changes
    · exact .refl ino _
    · cases changes with
      | created _ _ _ _ _ _ => exact keepsBytes_made _ _ .file _ _
      | @truncated loc other _ _ truncates located found _ _ =>
          apply keepsBytes_stored
          rintro rfl
          exact elsewhere truncates loc located found

theorem keepsBytes_writeAll {file : OpenFile} (apart : file.ino ≠ ino) (offset : Nat) (bytes : List UInt8) :
    KeepsBytes ino fs (writeAll os file offset bytes fs).2 := by
  apply writeAll_final (KeepsBytes ino fs) file offset bytes (.refl ino fs)
  intro part _ _
  exact keepsBytes_stored apart _ _

/-- What is opened to be emptied is an empty file at the end of the path, in use from then on. -/
theorem openFile_emptied {options : OpenOptions} {file : OpenFile} (absolute : path.isAbsolute = true) (truncates : options.truncate = true)
    (opened : openFile os options path fs = (.ok file, fs')) :
    (∃ loc, fs.locate os true path = .ok loc ∧ fs'.tree.find loc = some (.file file.ino)) ∧
      fs'.data file.ino = [] ∧ file.ino < fs'.next ∧ file.append = false := by
  rcases openFile_kinds os fs options path with ⟨_, failed⟩ | ⟨other, kept, isDir, reads, -⟩ | ⟨loc, grants⟩
  · rw [failed] at opened
    cases opened
  · -- a directory is not opened for writing
    obtain ⟨_, valid, -⟩ := Action.Still.bind_ok (readOnly_check _ _) kept
    have valid : options.valid = true := Action.check_ok valid
    simp only [OpenOptions.writes, Bool.or_eq_false_iff] at reads
    simp [OpenOptions.valid, truncates, reads] at valid
  · have appends : options.append = false := by
      have valid := grants.valid
      simp only [OpenOptions.valid, truncates, Bool.and_eq_true] at valid
      by_contra append
      simp [append] at valid
    rcases grants.place with ⟨ino, found, -, -⟩ | ⟨absent, -⟩
    · rw [grants.existing found, if_pos truncates] at opened
      obtain ⟨same, rfl⟩ := Prod.mk.inj opened
      rw [← Except.ok.inj same]
      exact ⟨⟨loc, grants.located, found⟩, Function.update_self _ _ _, find_lt_next found, appends⟩
    · obtain ⟨-, parent, name, rfl, created⟩ := grants.created absent
      rw [created] at opened
      obtain ⟨same, rfl⟩ := Prod.mk.inj opened
      rw [← Except.ok.inj same]
      refine ⟨⟨_, grants.located, ?_⟩, ?_, ?_, appends⟩
      · have dir := locate_parent absolute grants.located
        rw [List.dropLast_concat] at dir
        rw [touchDir_tree]
        exact Tree.find_insert_self dir absent
      · rw [touchDir_data]
        exact Function.update_self _ _ _
      · rw [touchDir_next]
        exact Nat.lt_succ_self _

variable (os) in
/-- What the write of a block does to a file that holds the start of the content. -/
theorem writeAll_extends {file : OpenFile} (inPlace : file.append = false) {content bytes : List UInt8} {offset : Nat}
    (started : fs.data file.ino <+: content) (noGap : offset ≤ (fs.data file.ino).length)
    (isBlock : IsBlock content offset bytes) :
    (writeAll os file offset bytes fs).2.data file.ino <+: content ∧
      (writeAll os file offset bytes fs).2.tree = fs.tree ∧
      ∀ after, writeAll os file offset bytes fs = (.ok (), after) → offset + bytes.length ≤ (after.data file.ino).length := by
  have start : file.start fs offset = offset := by simp [OpenFile.start, inPlace]
  have stored : ∀ part : List UInt8, ((fs.setData file.ino (overwrite (fs.data file.ino) (file.start fs offset) part)).touch
      file.ino os.now).data file.ino = overwrite (fs.data file.ino) offset part := by
    intro part
    rw [start]
    exact Function.update_self _ _ _
  refine ⟨?_, ?_, ?_⟩
  · apply writeAll_parts (fun after => after.data file.ino <+: content) file offset bytes started
    intro part _ nonempty isPrefix
    rw [stored]
    exact prefix_overwrite started (isBlock.of_prefix isPrefix) nonempty noGap
  · exact writeAll_final (fun after => after.tree = fs.tree) file offset bytes rfl fun _ _ _ => rfl
  · intro after written
    rcases writeAll_ok written with ⟨rfl, rfl⟩ | ⟨-, rfl⟩
    · exact noGap
    · rw [stored, length_overwrite_eq]
      exact Nat.le_max_left _ _

theorem openFile_located {options : OpenOptions} {file : OpenFile} (opened : openFile os options path fs = (.ok file, fs')) :
    ∃ loc, fs.locate os true path = .ok loc := by
  unfold openFile at opened
  obtain ⟨_, -, opened⟩ := Action.Still.bind_ok (readOnly_check _ _) opened
  obtain ⟨_, -, opened⟩ := Action.Still.bind_ok (readOnly_attempt _ _) opened
  obtain ⟨loc, located, -⟩ := Action.Still.bind_ok (readOnly_query _) opened
  exact ⟨loc, (Prod.mk.inj located).1⟩

/-- An open finds the file that is there, and empties it when it truncates. -/
theorem openFile_found {options : OpenOptions} {file : OpenFile} {loc : Loc} (located : fs.locate os true path = .ok loc)
    (found : fs.tree.find loc = some (.file ino)) (opened : openFile os options path fs = (.ok file, fs')) :
    file = options.file ino false ∧ fs' = if options.truncate then (fs.setData ino []).touch ino os.now else fs := by
  unfold openFile at opened
  obtain ⟨_, -, opened⟩ := Action.Still.bind_ok (readOnly_check _ _) opened
  obtain ⟨_, -, opened⟩ := Action.Still.bind_ok (readOnly_attempt _ _) opened
  obtain ⟨loc', located', opened⟩ := Action.Still.bind_ok (readOnly_query _) opened
  obtain ⟨there, looked, opened⟩ := Action.Still.bind_ok (readOnly_read _) opened
  obtain rfl : loc = loc' := Except.ok.inj (located.symm.trans (Prod.mk.inj located').1)
  have same : fs.tree.find loc = there := Except.ok.inj (Prod.mk.inj looked).1
  rw [found] at same
  subst same
  obtain ⟨_, -, opened⟩ := Action.Still.bind_ok (readOnly_requireMode _ _ _ _) opened
  obtain ⟨_, -, opened⟩ := Action.Still.bind_ok (readOnly_requireMode _ _ _ _) opened
  cases truncates : options.truncate with
  | false =>
      rw [truncates] at opened
      cases opened
      exact ⟨rfl, rfl⟩
  | true =>
      rw [truncates] at opened
      cases opened
      exact ⟨rfl, rfl⟩

theorem openFile_kept {options : OpenOptions} {file : OpenFile} {loc : Loc} (keeps : options.truncate = false)
    (located : fs.locate os true path = .ok loc) (found : fs.tree.find loc = some (.file ino))
    (opened : openFile os options path fs = (.ok file, fs')) : fs' = fs ∧ file.ino = ino := by
  obtain ⟨rfl, rfl⟩ := openFile_found located found opened
  simp [keeps, OpenOptions.file]

end Kept

end Wftpd.Posix.FileSystem
