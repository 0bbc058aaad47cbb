import Mathlib
import Wftpd.Posix.Effects

/-! The bytes stored below a directory.

The usage counts every regular file at or below the directory once, by its inode,
and does not follow symbolic links.
-/

set_option autoImplicit false

namespace Wftpd.Posix.FileSystem

section Sums
variable {ι κ : Type} [DecidableEq ι]

theorem sum_le_cover (weight : ι → Nat) (cover : κ → Finset ι) (keys : List κ) (whole : Finset ι)
    (covered : ∀ item ∈ whole, ∃ key ∈ keys, item ∈ cover key) :
    ∑ item ∈ whole, weight item ≤ (keys.map fun key => ∑ item ∈ cover key, weight item).sum := by
  induction keys generalizing whole with
  | nil =>
      have empty : whole = ∅ := by
        apply Finset.eq_empty_of_forall_notMem
        intro item member
        obtain ⟨key, absent, -⟩ := covered item member
        cases absent
      simp [empty]
  | cons key rest ih =>
      rw [← Finset.sum_filter_add_sum_filter_not whole (· ∈ cover key)]
      simp only [List.map_cons, List.sum_cons]
      apply Nat.add_le_add
      · apply Finset.sum_le_sum_of_subset
        intro item member
        exact (Finset.mem_filter.mp member).2
      · apply ih
        intro item member
        obtain ⟨inWhole, elsewhere⟩ := Finset.mem_filter.mp member
        obtain ⟨other, listed, inOther⟩ := covered item inWhole
        rcases List.mem_cons.mp listed with same | listed
        · subst other
          exact absurd inOther elsewhere
        · exact ⟨other, listed, inOther⟩

end Sums

def filesUnder (fs : FileSystem) (home : Loc) : Finset Nat :=
  (fs.tree.entries.filterMap fun entry =>
    match entry.2 with
    | .file ino => if home <+: entry.1 then some ino else none
    | _ => none).toFinset

def usage (fs : FileSystem) (home : Loc) : Nat := ∑ ino ∈ fs.filesUnder home, (fs.data ino).length

theorem mem_filesUnder {fs : FileSystem} {home : Loc} {ino : Nat} :
    ino ∈ fs.filesUnder home ↔ ∃ rest, fs.tree.find (home ++ rest) = some (.file ino) := by
  simp only [filesUnder, List.mem_toFinset, List.mem_filterMap]
  constructor
  · rintro ⟨⟨loc, node⟩, member, selected⟩
    cases node with
    | dir other => cases selected
    | link other target => cases selected
    | file other =>
        simp only at selected
        split at selected
        · next inside =>
            cases selected
            obtain ⟨rest, rfl⟩ := inside
            exact ⟨rest, Tree.mem_iff_find.mp member⟩
        · cases selected
  · rintro ⟨rest, found⟩
    exact ⟨_, Tree.mem_iff_find.mpr found, by simp⟩

section Changes
variable {fs fs' : FileSystem} {home : Loc}

theorem length_le_usage {ino : Nat} (member : ino ∈ fs.filesUnder home) : (fs.data ino).length ≤ fs.usage home := by
  let weight (other : Nat) := (fs.data other).length
  have bound : weight ino ≤ ∑ other ∈ fs.filesUnder home, weight other :=
    Finset.single_le_sum (fun _ _ => Nat.zero_le _) member
  exact bound

theorem usage_congr (tree : fs'.tree = fs.tree) (data : fs'.data = fs.data) : fs'.usage home = fs.usage home := by
  simp only [usage, filesUnder, tree, data]

@[simp] theorem usage_touch (fs : FileSystem) (home : Loc) (ino : Nat) (now : Int) :
    (fs.touch ino now).usage home = fs.usage home := usage_congr rfl rfl

@[simp] theorem usage_touchDir (fs : FileSystem) (home loc : Loc) (now : Int) :
    (fs.touchDir loc now).usage home = fs.usage home := by
  apply usage_congr (touchDir_tree fs loc now)
  unfold touchDir
  cases fs.tree.find loc <;> rfl

/-- The usage does not grow where no file with bytes comes in and none gets longer. -/
theorem usage_le (old : ∀ ino ∈ fs'.filesUnder home, ino ∈ fs.filesUnder home ∨ fs'.data ino = [])
    (shorter : ∀ ino ∈ fs.filesUnder home, (fs'.data ino).length ≤ (fs.data ino).length) :
    fs'.usage home ≤ fs.usage home := by
  calc fs'.usage home
      ≤ ∑ ino ∈ fs.filesUnder home, (fs'.data ino).length := by
        apply Finset.sum_le_sum_of_ne_zero
        intro ino member nonzero
        rcases old ino member with kept | empty
        · exact kept
        · simp [empty] at nonzero
    _ ≤ fs.usage home := Finset.sum_le_sum shorter

theorem usage_create {parent : Loc} {name : Name} {new : NewNode} {created : Inode} :
    (fs.create parent name new created).usage home ≤ fs.usage home := by
  apply usage_le
  · intro ino member
    obtain ⟨rest, found⟩ := mem_filesUnder.mp member
    rcases Tree.find_of_insert found with ⟨_, made⟩ | old
    · have same : ino = fs.next := by
        have number := congrArg Node.ino made
        rwa [NewNode.ino_node] at number
      simp [create, same]
    · exact .inl (mem_filesUnder.mpr ⟨rest, old⟩)
  · intro ino member
    obtain ⟨rest, found⟩ := mem_filesUnder.mp member
    have older : ino ≠ fs.next := Nat.ne_of_lt (fs.fresh _ (Tree.mem_iff_find.mpr found))
    simp [create, older]

theorem usage_sweep (gone : Loc → Bool) : (fs.sweep gone).usage home ≤ fs.usage home := by
  apply usage_le
  · intro ino member
    obtain ⟨rest, found⟩ := mem_filesUnder.mp member
    exact .inl (mem_filesUnder.mpr ⟨rest, Tree.find_of_sweep found⟩)
  · intro ino _
    exact Nat.le_refl _

theorem moveEntry_data (source target : Loc) : (fs.moveEntry source target).data = fs.data := by
  unfold moveEntry
  cases target.getLast? <;> rfl

theorem usage_setData_le {ino : Nat} {bytes : List UInt8}
    (shorter : ino ∈ fs.filesUnder home → bytes.length ≤ (fs.data ino).length) :
    (fs.setData ino bytes).usage home ≤ fs.usage home := by
  apply usage_le
  · intro other member
    exact .inl member
  · intro other member
    by_cases here : other = ino
    · subst other
      simpa [setData] using shorter member
    · simp [setData, here]

theorem usage_setData {ino : Nat} (listed : ino ∈ fs.filesUnder home) (bytes : List UInt8) :
    (fs.setData ino bytes).usage home + (fs.data ino).length = fs.usage home + bytes.length := by
  let weight (other : Nat) := (fs.data other).length
  let weight' (other : Nat) := ((fs.setData ino bytes).data other).length
  have others : ∑ other ∈ (fs.filesUnder home).erase ino, weight' other =
      ∑ other ∈ (fs.filesUnder home).erase ino, weight other := by
    apply Finset.sum_congr rfl
    intro other member
    simp [weight, weight', setData, (Finset.mem_erase.mp member).1]
  have before := Finset.add_sum_erase (fs.filesUnder home) weight listed
  have after := Finset.add_sum_erase (fs.filesUnder home) weight' listed
  have written : weight' ino = bytes.length := by simp [weight', setData]
  have total : (fs.setData ino bytes).usage home = ∑ other ∈ fs.filesUnder home, weight' other := rfl
  have start : fs.usage home = ∑ other ∈ fs.filesUnder home, weight other := rfl
  have here : weight ino = (fs.data ino).length := rfl
  omega

theorem usage_setData_elsewhere {ino : Nat} (unlisted : ino ∉ fs.filesUnder home) (bytes : List UInt8) :
    (fs.setData ino bytes).usage home = fs.usage home := by
  apply Finset.sum_congr rfl
  intro other member
  have apart : other ≠ ino := fun same => unlisted (same ▸ member)
  simp [setData, apart]

theorem usage_setData_add {ino extra : Nat} {bytes : List UInt8}
    (grows : bytes.length ≤ (fs.data ino).length + extra) :
    (fs.setData ino bytes).usage home ≤ fs.usage home + extra := by
  calc (fs.setData ino bytes).usage home
      ≤ ∑ other ∈ fs.filesUnder home, ((fs.data other).length + if other = ino then extra else 0) := by
        apply Finset.sum_le_sum
        intro other _
        by_cases here : other = ino
        · simpa [setData, here] using grows
        · simp [setData, here]
    _ = fs.usage home + ∑ other ∈ fs.filesUnder home, (if other = ino then extra else 0) := Finset.sum_add_distrib
    _ ≤ fs.usage home + extra := by
        apply Nat.add_le_add_left
        rw [Finset.sum_ite_eq']
        split <;> omega

theorem length_overwrite_eq (old new : List UInt8) (offset : Nat) :
    (overwrite old offset new).length = max (offset + new.length) old.length := by
  simp only [overwrite, List.length_append, List.length_take, List.length_replicate, List.length_drop]
  omega

theorem length_overwrite {old new : List UInt8} {offset : Nat} (within : offset ≤ old.length) :
    (overwrite old offset new).length ≤ old.length + new.length := by
  rw [length_overwrite_eq]
  omega

theorem length_resize (old : List UInt8) (size : Nat) : (resize old size).length = size := by
  simp only [resize, List.length_append, List.length_take, List.length_replicate]
  omega

end Changes

end Wftpd.Posix.FileSystem
