import Mathlib.Data.List.Nodup
import Mathlib.Data.List.Perm.Subperm
import Wftpd.Posix.Path

/-! Directory trees by physical location.

A location is the list of names from the root down, without links or dots. The
entries of a tree are finite and unordered in meaning; every entry sits in a
directory of the same tree, so a detached entry cannot be built.
-/

set_option autoImplicit false

namespace Wftpd.Posix

abbrev Loc := List Name

inductive Node where
  | dir (ino : Nat)
  | file (ino : Nat)
  | link (ino : Nat) (target : Text)
  deriving DecidableEq, Repr

def Node.ino : Node → Nat
  | .dir ino | .file ino | .link ino _ => ino

structure Tree where
  entries : List (Loc × Node)
  nodup : (entries.map Prod.fst).Nodup
  rooted : ∃ ino, ([], .dir ino) ∈ entries
  closed : ∀ loc name node, (loc ++ [name], node) ∈ entries → ∃ ino, (loc, .dir ino) ∈ entries

namespace Tree

def find (tree : Tree) (loc : Loc) : Option Node :=
  (tree.entries.find? fun entry => entry.1 = loc).map Prod.snd

def isDir (tree : Tree) (loc : Loc) : Bool :=
  match tree.find loc with
  | some (.dir _) => true
  | _ => false

theorem mem_iff_find {tree : Tree} {loc : Loc} {node : Node} :
    (loc, node) ∈ tree.entries ↔ tree.find loc = some node := by
  constructor
  · intro member
    cases found : tree.entries.find? fun entry => entry.1 = loc with
    | none =>
        have absent := List.find?_eq_none.mp found _ member
        simp at absent
    | some entry =>
        have same : entry.1 = loc := by simpa using List.find?_some found
        have unique := List.inj_on_of_nodup_map tree.nodup (List.mem_of_find?_eq_some found) member same
        simp [find, found, unique]
  · intro found
    simp only [find, Option.map_eq_some_iff] at found
    obtain ⟨entry, selected, same⟩ := found
    have key : entry.1 = loc := by simpa using List.find?_some selected
    rw [← key, ← same]
    exact List.mem_of_find?_eq_some selected

theorem find_none_iff {tree : Tree} {loc : Loc} :
    tree.find loc = none ↔ ∀ node, (loc, node) ∉ tree.entries := by
  constructor
  · intro absent node member
    rw [mem_iff_find.mp member] at absent
    cases absent
  · intro absent
    cases found : tree.find loc with
    | none => rfl
    | some node => exact absurd (mem_iff_find.mpr found) (absent node)

theorem isDir_iff {tree : Tree} {loc : Loc} : tree.isDir loc = true ↔ ∃ ino, tree.find loc = some (.dir ino) := by
  unfold isDir
  split
  · next ino found => exact ⟨fun _ => ⟨ino, found⟩, fun _ => rfl⟩
  · next other =>
      constructor
      · intro impossible
        cases impossible
      · rintro ⟨ino, found⟩
        exact absurd found (other ino)

theorem isDir_of_child {tree : Tree} {loc : Loc} {name : Name} {node : Node}
    (found : tree.find (loc ++ [name]) = some node) : tree.isDir loc = true := by
  obtain ⟨ino, member⟩ := tree.closed loc name node (mem_iff_find.mpr found)
  exact isDir_iff.mpr ⟨ino, mem_iff_find.mp member⟩

/-- The directory above a directory; the root is above itself. -/
theorem isDir_dropLast {tree : Tree} {loc : Loc} (dir : tree.isDir loc = true) : tree.isDir loc.dropLast = true := by
  rcases List.eq_nil_or_concat loc with rfl | ⟨parent, name, rfl⟩
  · exact dir
  · rw [List.concat_eq_append] at dir ⊢
    rw [List.dropLast_concat]
    obtain ⟨ino, found⟩ := isDir_iff.mp dir
    exact isDir_of_child found

theorem isDir_root (tree : Tree) : tree.isDir [] = true := by
  obtain ⟨ino, member⟩ := tree.rooted
  exact isDir_iff.mpr ⟨ino, mem_iff_find.mp member⟩

theorem isDir_of_below {tree : Tree} {loc rest : Loc} {node : Node} (nonempty : rest ≠ [])
    (found : tree.find (loc ++ rest) = some node) : tree.isDir loc = true := by
  induction rest using List.reverseRecOn generalizing node with
  | nil => exact absurd rfl nonempty
  | append_singleton front name ih =>
      rw [← List.append_assoc] at found
      have parent := isDir_of_child found
      by_cases empty : front = []
      · simpa [empty] using parent
      · obtain ⟨ino, above⟩ := isDir_iff.mp parent
        exact ih empty above

theorem isDir_prefix {tree : Tree} {above loc : Loc} (isPrefix : above <+: loc) (dir : tree.isDir loc = true) :
    tree.isDir above = true := by
  obtain ⟨rest, rfl⟩ := isPrefix
  obtain ⟨ino, found⟩ := isDir_iff.mp dir
  by_cases same : rest = []
  · simpa [same] using dir
  · exact isDir_of_below same found

theorem find_below_none {tree : Tree} {loc : Loc} (absent : tree.find loc = none) (rest : Loc) :
    tree.find (loc ++ rest) = none := by
  by_cases empty : rest = []
  · simpa [empty] using absent
  · cases found : tree.find (loc ++ rest) with
    | none => rfl
    | some node =>
        obtain ⟨ino, there⟩ := isDir_iff.mp (isDir_of_below empty found)
        rw [absent] at there
        cases there

/-- Every location is shorter than the list of entries: all its prefixes are there. -/
theorem length_lt_entries {tree : Tree} {loc : Loc} {node : Node} (found : tree.find loc = some node) :
    loc.length < tree.entries.length := by
  have distinct : ((List.range (loc.length + 1)).map loc.take).Nodup := by
    apply List.Nodup.map_on _ List.nodup_range
    intro first inFirst second inSecond same
    have lengths := congrArg List.length same
    simp only [List.length_take, List.mem_range] at lengths inFirst inSecond
    omega
  have listed : (List.range (loc.length + 1)).map loc.take ⊆ tree.entries.map Prod.fst := by
    intro part member
    obtain ⟨count, -, rfl⟩ := List.mem_map.mp member
    by_cases whole : loc.drop count = []
    · rw [List.take_of_length_le (List.drop_eq_nil_iff.mp whole)]
      exact List.mem_map.mpr ⟨_, mem_iff_find.mpr found, rfl⟩
    · rw [← List.take_append_drop count loc] at found
      obtain ⟨ino, above⟩ := isDir_iff.mp (isDir_of_below whole found)
      exact List.mem_map.mpr ⟨_, mem_iff_find.mpr above, rfl⟩
  have counted := (List.subperm_of_subset distinct listed).length_le
  simp only [List.length_map, List.length_range] at counted
  omega

section Insert

/-- A new entry in an existing directory; the tree itself when there is no room. -/
def insert (tree : Tree) (parent : Loc) (name : Name) (node : Node) : Tree :=
  if room : tree.isDir parent = true ∧ tree.find (parent ++ [name]) = none then
    { entries := (parent ++ [name], node) :: tree.entries
      nodup := by
        refine List.nodup_cons.mpr ⟨?_, tree.nodup⟩
        intro member
        obtain ⟨⟨loc, other⟩, there, same⟩ := List.mem_map.mp member
        simp only at same
        subst loc
        exact find_none_iff.mp room.2 other there
      rooted := by
        obtain ⟨ino, member⟩ := tree.rooted
        exact ⟨ino, List.mem_cons_of_mem _ member⟩
      closed := by
        intro loc child other member
        rcases List.mem_cons.mp member with same | member
        · obtain ⟨sameParent, -⟩ := List.append_inj' (Prod.mk.inj same).1 rfl
          obtain ⟨ino, found⟩ := isDir_iff.mp room.1
          exact ⟨ino, List.mem_cons_of_mem _ (sameParent ▸ mem_iff_find.mpr found)⟩
        · obtain ⟨ino, found⟩ := tree.closed loc child other member
          exact ⟨ino, List.mem_cons_of_mem _ found⟩ }
  else tree

variable {tree : Tree} {parent : Loc} {name : Name} {node : Node}

theorem entries_insert (dir : tree.isDir parent = true) (free : tree.find (parent ++ [name]) = none) :
    (tree.insert parent name node).entries = (parent ++ [name], node) :: tree.entries := by
  rw [insert, dif_pos ⟨dir, free⟩]

theorem mem_insert {entry : Loc × Node} (member : entry ∈ (tree.insert parent name node).entries) :
    entry = (parent ++ [name], node) ∨ entry ∈ tree.entries := by
  unfold insert at member
  split at member
  · exact List.mem_cons.mp member
  · exact .inr member

theorem find_of_insert {loc : Loc} {found : Node} (there : (tree.insert parent name node).find loc = some found) :
    loc = parent ++ [name] ∧ found = node ∨ tree.find loc = some found := by
  rcases mem_insert (mem_iff_find.mpr there) with same | member
  · exact .inl (Prod.mk.inj same)
  · exact .inr (mem_iff_find.mp member)

theorem find_insert_self (dir : tree.isDir parent = true) (free : tree.find (parent ++ [name]) = none) :
    (tree.insert parent name node).find (parent ++ [name]) = some node := by
  apply mem_iff_find.mp
  rw [entries_insert dir free]
  exact List.mem_cons_self

theorem find_insert_some {loc : Loc} {found : Node} (there : tree.find loc = some found) :
    (tree.insert parent name node).find loc = some found := by
  by_cases room : tree.isDir parent = true ∧ tree.find (parent ++ [name]) = none
  · apply mem_iff_find.mp
    rw [entries_insert room.1 room.2]
    exact List.mem_cons_of_mem _ (mem_iff_find.mpr there)
  · rwa [insert, dif_neg room]

theorem find_insert_other {loc : Loc} (elsewhere : loc ≠ parent ++ [name]) :
    (tree.insert parent name node).find loc = tree.find loc := by
  apply Option.ext
  intro found
  constructor
  · intro there
    rcases find_of_insert there with ⟨same, -⟩ | before
    · exact absurd same elsewhere
    · exact before
  · exact find_insert_some

end Insert

section Sweep

/-- Some non-root prefix of the location is gone. -/
def covered (gone : Loc → Bool) (loc : Loc) : Bool :=
  loc.inits.any fun part => part ≠ [] && gone part

theorem covered_iff {gone : Loc → Bool} {loc : Loc} :
    covered gone loc = true ↔ ∃ part, part <+: loc ∧ part ≠ [] ∧ gone part = true := by
  simp [covered, List.mem_inits]

theorem covered_mono {gone : Loc → Bool} {loc : Loc} (rest : Loc) (above : covered gone loc = true) :
    covered gone (loc ++ rest) = true := by
  obtain ⟨part, isPrefix, nonempty, isGone⟩ := covered_iff.mp above
  exact covered_iff.mpr ⟨part, isPrefix.trans (List.prefix_append _ _), nonempty, isGone⟩

/-- Remove whole subtrees. The root stays. -/
def sweep (tree : Tree) (gone : Loc → Bool) : Tree where
  entries := tree.entries.filter fun entry => !covered gone entry.1
  nodup := tree.nodup.sublist (List.filter_sublist.map _)
  rooted := by
    obtain ⟨ino, member⟩ := tree.rooted
    exact ⟨ino, List.mem_filter.mpr ⟨member, by simp [covered]⟩⟩
  closed := by
    intro loc name node member
    obtain ⟨member, kept⟩ := List.mem_filter.mp member
    obtain ⟨ino, there⟩ := tree.closed loc name node member
    refine ⟨ino, List.mem_filter.mpr ⟨there, ?_⟩⟩
    by_contra covers
    have below := covered_mono [name] (by simpa using covers : covered gone loc = true)
    simp [below] at kept

theorem find_sweep (tree : Tree) (gone : Loc → Bool) (loc : Loc) :
    (tree.sweep gone).find loc = if covered gone loc then none else tree.find loc := by
  by_cases covers : covered gone loc = true
  · rw [if_pos covers, find_none_iff]
    intro node member
    have kept := (List.mem_filter.mp member).2
    simp [covers] at kept
  · rw [if_neg covers]
    cases found : tree.find loc with
    | none =>
        rw [find_none_iff]
        exact fun node member => find_none_iff.mp found node (List.mem_filter.mp member).1
    | some node =>
        exact mem_iff_find.mp (List.mem_filter.mpr ⟨mem_iff_find.mpr found, by simp [covers]⟩)

theorem find_of_sweep {tree : Tree} {gone : Loc → Bool} {loc : Loc} {node : Node}
    (found : (tree.sweep gone).find loc = some node) : tree.find loc = some node := by
  rw [find_sweep] at found
  split at found
  · cases found
  · exact found

def prune (tree : Tree) (loc : Loc) : Tree := tree.sweep fun part => part = loc

theorem covered_eq {target loc : Loc} (nonempty : target ≠ []) :
    covered (fun part => part = target) loc = true ↔ target <+: loc := by
  rw [covered_iff]
  constructor
  · rintro ⟨part, isPrefix, -, same⟩
    exact of_decide_eq_true same ▸ isPrefix
  · intro isPrefix
    exact ⟨target, isPrefix, nonempty, by simp⟩

theorem find_prune {tree : Tree} {target : Loc} (nonempty : target ≠ []) (loc : Loc) :
    (tree.prune target).find loc = if target <+: loc then none else tree.find loc := by
  rw [prune, find_sweep]
  by_cases below : target <+: loc
  · rw [if_pos below, if_pos ((covered_eq nonempty).mpr below)]
  · rw [if_neg below, if_neg fun covers => below ((covered_eq nonempty).mp covers)]

end Sweep

section Move

/-- Where an entry of the moved subtree goes. -/
def relocate (source target loc : Loc) : Loc :=
  if source <+: loc then target ++ loc.drop source.length else loc

@[simp] theorem relocate_below (source target rest : Loc) :
    relocate source target (source ++ rest) = target ++ rest := by
  simp [relocate]

theorem relocate_other {source target loc : Loc} (elsewhere : ¬ source <+: loc) :
    relocate source target loc = loc := if_neg elsewhere

/-- Where an entry of the tree is relocated to: elsewhere only from below the source. -/
theorem relocate_cases (source target loc : Loc) :
    relocate source target loc = loc ∨
      ∃ rest, loc = source ++ rest ∧ relocate source target loc = target ++ rest := by
  by_cases inside : source <+: loc
  · obtain ⟨rest, rfl⟩ := inside
    exact .inr ⟨rest, rfl, relocate_below source target rest⟩
  · exact .inl (relocate_other inside)

/-- The move is possible: the source is there and not the root, the target is
free, inside a directory, and not inside the source. -/
structure CanMove (tree : Tree) (source parent : Loc) (name : Name) : Prop where
  present : tree.find source ≠ none
  notRoot : source ≠ []
  free : tree.find (parent ++ [name]) = none
  dir : tree.isDir parent = true
  outside : ¬ source <+: parent ++ [name]

variable {tree : Tree} {source parent : Loc} {name : Name}

instance : Decidable (CanMove tree source parent name) :=
  decidable_of_iff (tree.find source ≠ none ∧ source ≠ [] ∧ tree.find (parent ++ [name]) = none ∧
      tree.isDir parent = true ∧ ¬ source <+: parent ++ [name])
    ⟨fun ⟨a, b, c, d, e⟩ => ⟨a, b, c, d, e⟩, fun ⟨a, b, c, d, e⟩ => ⟨a, b, c, d, e⟩⟩

theorem CanMove.target_not_prefix (can : CanMove tree source parent name) {loc : Loc} {node : Node}
    (member : (loc, node) ∈ tree.entries) : ¬ parent ++ [name] <+: loc := by
  rintro ⟨rest, same⟩
  have absent := find_below_none can.free rest
  rw [same, mem_iff_find.mp member] at absent
  cases absent

theorem CanMove.parent_other (can : CanMove tree source parent name) : ¬ source <+: parent :=
  fun isPrefix => can.outside (isPrefix.trans (List.prefix_append _ _))

theorem CanMove.relocate_inj (can : CanMove tree source parent name) {first second : Loc × Node}
    (left : first ∈ tree.entries) (right : second ∈ tree.entries)
    (same : relocate source (parent ++ [name]) first.1 = relocate source (parent ++ [name]) second.1) :
    first.1 = second.1 := by
  by_cases inLeft : source <+: first.1 <;> by_cases inRight : source <+: second.1
  · obtain ⟨leftRest, leftSame⟩ := inLeft
    obtain ⟨rightRest, rightSame⟩ := inRight
    rw [← leftSame, ← rightSame, relocate_below, relocate_below, List.append_cancel_left_eq] at same
    rw [← leftSame, ← rightSame, same]
  · obtain ⟨rest, leftSame⟩ := inLeft
    rw [← leftSame, relocate_below, relocate_other inRight] at same
    exact absurd ⟨rest, same⟩ (can.target_not_prefix right)
  · obtain ⟨rest, rightSame⟩ := inRight
    rw [← rightSame, relocate_below, relocate_other inLeft] at same
    exact absurd ⟨rest, same.symm⟩ (can.target_not_prefix left)
  · rwa [relocate_other inLeft, relocate_other inRight] at same

/-- Rename an entry with everything below it; the tree itself when it cannot be. -/
def move (tree : Tree) (source parent : Loc) (name : Name) : Tree :=
  if can : CanMove tree source parent name then
    { entries := tree.entries.map fun entry => (relocate source (parent ++ [name]) entry.1, entry.2)
      nodup := by
        rw [List.map_map]
        refine (List.nodup_map_iff_inj_on (List.Nodup.of_map _ tree.nodup)).mpr ?_
        intro first left second right same
        exact List.inj_on_of_nodup_map tree.nodup left right (can.relocate_inj left right same)
      rooted := by
        obtain ⟨ino, member⟩ := tree.rooted
        refine ⟨ino, List.mem_map.mpr ⟨_, member, ?_⟩⟩
        rw [relocate_other]
        simpa using can.notRoot
      closed := by
        intro loc child node member
        obtain ⟨⟨old, oldNode⟩, there, same⟩ := List.mem_map.mp member
        obtain ⟨moved, rfl⟩ := Prod.mk.inj same
        simp only at moved
        -- the parent of a moved entry is moved with it, except that of the source itself
        by_cases inside : source <+: old
        · obtain ⟨rest, rfl⟩ := inside
          rw [relocate_below] at moved
          rcases List.eq_nil_or_concat rest with empty | ⟨front, last, shape⟩
          · subst rest
            rw [List.append_nil] at moved
            obtain ⟨sameParent, -⟩ := List.append_inj' moved rfl
            obtain ⟨ino, found⟩ := isDir_iff.mp can.dir
            exact ⟨ino, List.mem_map.mpr ⟨(parent, .dir ino), mem_iff_find.mpr found,
              by rw [relocate_other can.parent_other, sameParent]⟩⟩
          · subst rest
            rw [List.concat_eq_append] at there moved
            rw [← List.append_assoc] at there moved
            obtain ⟨sameFront, -⟩ := List.append_inj' moved rfl
            obtain ⟨ino, above⟩ := tree.closed _ _ _ there
            exact ⟨ino, List.mem_map.mpr ⟨_, above, by rw [relocate_below, sameFront]⟩⟩
        · rw [relocate_other inside] at moved
          subst old
          obtain ⟨ino, above⟩ := tree.closed _ _ _ there
          refine ⟨ino, List.mem_map.mpr ⟨_, above, ?_⟩⟩
          rw [relocate_other fun isPrefix => inside (isPrefix.trans (List.prefix_append _ _))] }
  else tree

theorem entries_move (can : CanMove tree source parent name) :
    (tree.move source parent name).entries =
      tree.entries.map fun entry => (relocate source (parent ++ [name]) entry.1, entry.2) := by
  rw [move, dif_pos can]

end Move

section Children

def children (tree : Tree) (loc : Loc) : List Name :=
  tree.entries.filterMap fun entry =>
    if entry.1.dropLast = loc then entry.1.getLast? else none

theorem mem_children {tree : Tree} {loc : Loc} {name : Name} :
    name ∈ tree.children loc ↔ ∃ node, tree.find (loc ++ [name]) = some node := by
  simp only [children, List.mem_filterMap]
  constructor
  · rintro ⟨⟨key, node⟩, member, selected⟩
    split at selected
    · next parent =>
        obtain ⟨front, shape⟩ := List.getLast?_eq_some_iff.mp selected
        simp only at shape parent
        subst key
        simp only [List.dropLast_concat] at parent
        subst front
        exact ⟨node, mem_iff_find.mp member⟩
    · cases selected
  · rintro ⟨node, found⟩
    exact ⟨_, mem_iff_find.mpr found, by simp⟩

theorem nodup_children (tree : Tree) (loc : Loc) : (tree.children loc).Nodup := by
  have keys : tree.children loc = (tree.entries.map Prod.fst).filterMap fun key =>
      if key.dropLast = loc then key.getLast? else none := by
    rw [List.filterMap_map]
    rfl
  rw [keys]
  apply tree.nodup.filterMap
  intro first second name inFirst inSecond
  simp only [Option.mem_def, Option.ite_none_right_eq_some] at inFirst inSecond
  obtain ⟨front, rfl⟩ := List.getLast?_eq_some_iff.mp inFirst.2
  obtain ⟨other, rfl⟩ := List.getLast?_eq_some_iff.mp inSecond.2
  simp only [List.dropLast_concat] at inFirst inSecond
  rw [inFirst.1, inSecond.1]

end Children

end Tree

end Wftpd.Posix
