import Wftpd.Common.Quota
import Wftpd.Posix.Routes

/-! What a directory scan counts.

The scan follows links, so it counts a file once for every route that leads to it,
wherever the file is. No route is longer than the scan is deep.
-/

set_option autoImplicit false

namespace Wftpd.Common
open Wftpd.Posix

section Met
variable (os : Os) (fs : FileSystem)

/-- The files that a scan counts, each with the names by which it comes to it. -/
def met : Nat → PathBuf → List (List Name × Nat)
  | 0, _ => []
  | fuel + 1, path =>
      if fs.isDirPath os path then
        match fs.scanDir os path with
        | .ok names => names.flatMap fun name =>
            (if fs.isDirPath os (path.join [.normal name]) then met fuel (path.join [.normal name])
            else (fs.fileAt os (path.join [.normal name])).toList.map ([], ·)).map fun found =>
              (name :: found.1, found.2)
        | .error _ => []
      else (fs.fileAt os path).toList.map ([], ·)

variable {os fs}

theorem sum_fileAt (path : PathBuf) : (((fs.fileAt os path).toList.map (([] : List Name), ·)).map fun found =>
    (fs.data found.2).length).sum = fs.fileSize os path := by
  rw [FileSystem.fileSize_eq]
  cases fs.fileAt os path <;> simp

/-- The induction is on the depth of the scan. -/
theorem scanSize_eq_met (fuel : Nat) (path : PathBuf) :
    scanSize os fs fuel path = ((met os fs fuel path).map fun found => (fs.data found.2).length).sum := by
  induction fuel generalizing path with
  | zero => rfl
  | succ fuel ih =>
      rw [scanSize, met]
      cases isDir : fs.isDirPath os path with
      | false => exact (sum_fileAt path).symm
      | true =>
          cases read : fs.scanDir os path with
          | error why => rfl
          | ok entries =>
              simp only [if_true]
              rw [List.map_flatMap, List.flatMap_def, List.sum_flatten, List.map_map]
              refine congrArg List.sum (List.map_congr_left fun name _ => ?_)
              rw [Function.comp_apply, List.map_map]
              split
              · exact ih _
              · exact (sum_fileAt _).symm

theorem route_of_fileAt {path : PathBuf} {found : List Name × Nat}
    (counted : found ∈ (fs.fileAt os path).toList.map (([] : List Name), ·)) : fs.Route os found.2 path found.1 := by
  obtain ⟨ino, leads, rfl⟩ := List.mem_map.mp counted
  exact Option.mem_toList.mp leads

theorem route_of_met {fuel : Nat} {path : PathBuf} {found : List Name × Nat} (counted : found ∈ met os fs fuel path) :
    fs.Route os found.2 path found.1 := by
  induction fuel generalizing path found with
  | zero => cases counted
  | succ fuel ih =>
      rw [met] at counted
      split at counted
      · split at counted
        · next names read =>
            obtain ⟨name, listed, counted⟩ := List.mem_flatMap.mp counted
            obtain ⟨below, there, rfl⟩ := List.mem_map.mp counted
            refine ⟨⟨names, read, listed⟩, ?_⟩
            split at there
            · exact ih there
            · exact route_of_fileAt there
        · cases counted
      · exact route_of_fileAt counted

theorem met_of_route {fuel : Nat} {path : PathBuf} {names : List Name} {ino : Nat} (route : fs.Route os ino path names)
    (deep : names.length < fuel) : (names, ino) ∈ met os fs fuel path := by
  induction names generalizing fuel path with
  | nil =>
      obtain ⟨less, rfl⟩ : ∃ less, fuel = less + 1 := ⟨fuel - 1, by omega⟩
      have notDir : fs.isDirPath os path ≠ true := by
        intro isDir
        rw [FileSystem.Route, FileSystem.fileAt_eq_none_of_dir isDir] at route
        cases route
      rw [met, if_neg notDir, route]
      exact List.mem_singleton_self _
  | cons name rest ih =>
      obtain ⟨less, rfl⟩ : ∃ less, fuel = less + 1 := ⟨fuel - 1, by omega⟩
      obtain ⟨⟨names, read, listed⟩, onward⟩ := route
      rw [met, if_pos (FileSystem.isDirPath_of_scanDir read), read]
      refine List.mem_flatMap.mpr ⟨name, listed, List.mem_map.mpr ⟨(rest, ino), ?_, rfl⟩⟩
      have counted := @ih (less + 1) _ onward (by rw [List.length_cons] at deep; omega)
      rw [List.length_cons] at deep
      split
      · exact ih onward (by omega)
      · next notDir =>
          rwa [met, if_neg notDir] at counted

theorem nodup_met (fuel : Nat) (path : PathBuf) : (met os fs fuel path).Nodup := by
  have single : ∀ path, ((fs.fileAt os path).toList.map (([] : List Name), ·)).Nodup := by
    intro path
    cases fs.fileAt os path <;> simp
  induction fuel generalizing path with
  | zero => exact List.nodup_nil
  | succ fuel ih =>
      rw [met]
      split
      · split
        · next names read =>
            obtain ⟨loc, dir, -, -, rfl⟩ := FileSystem.scanDir_cases read
            apply List.nodup_flatMap.mpr
            constructor
            · intro name _
              apply List.Nodup.map
              · rintro ⟨first, ino⟩ ⟨second, other⟩ same
                simp at same
                simp [same]
              · split
                · exact ih _
                · exact single _
            · -- names apart lead apart
              apply ((fs.tree.nodup_children loc).filter _).imp
              intro first second apart found inFirst inSecond
              obtain ⟨_, -, rfl⟩ := List.mem_map.mp inFirst
              obtain ⟨_, -, same⟩ := List.mem_map.mp inSecond
              exact apart (List.cons.inj (Prod.mk.inj same).1).1.symm
        · exact List.nodup_nil
      · exact single _

theorem ncard_routes {fuel : Nat} (deep : fs.longestRoute < fuel) (path : PathBuf) (ino : Nat) :
    (fs.routes os path ino).ncard = ((met os fs fuel path).map Prod.snd).count ino := by
  have same : fs.routes os path ino =
      (((met os fs fuel path).filter (·.2 = ino)).map Prod.fst).toFinset := by
    ext names
    simp only [FileSystem.routes, Set.mem_ofPred_eq, List.coe_toFinset, List.mem_map, List.mem_filter,
      decide_eq_true_eq]
    constructor
    · intro route
      have short : names.length ≤ fs.longestRoute := by
        have ended := @FileSystem.Route.ends os fs ino path [] names (by rwa [List.map_nil, List.append_nil])
        exact ended.1
      exact ⟨(names, ino), ⟨met_of_route route (by omega), rfl⟩, rfl⟩
    · rintro ⟨found, ⟨counted, rfl⟩, rfl⟩
      exact route_of_met counted
  have distinct : (((met os fs fuel path).filter (·.2 = ino)).map Prod.fst).Nodup := by
    apply List.Nodup.map_on _ ((nodup_met fuel path).filter _)
    intro first inFirst second inSecond names
    have firstIno := (List.mem_filter.mp inFirst).2
    have secondIno := (List.mem_filter.mp inSecond).2
    simp only [decide_eq_true_eq] at firstIno secondIno
    exact Prod.ext names (firstIno.trans secondIno.symm)
  rw [same, Set.ncard_coe_finset, List.toFinset_card_of_nodup distinct, List.length_map, List.count_eq_countP,
    List.countP_map, List.countP_eq_length_filter]
  congr 2

theorem sum_map_eq_sum_count (numbers : List Nat) (weight : Nat → Nat) {bound : Nat}
    (below : ∀ number ∈ numbers, number < bound) :
    (numbers.map weight).sum = ∑ number ∈ Finset.range bound, numbers.count number * weight number := by
  rw [Finset.sum_list_map_count]
  apply Finset.sum_subset
  · intro number member
    exact Finset.mem_range.mpr (below number (List.mem_toFinset.mp member))
  · intro number _ absent
    rw [List.count_eq_zero.mpr fun member => absent (List.mem_toFinset.mpr member), zero_smul]

/-- The scan adds up, over all files, their lengths for each route. -/
theorem scanSize_eq_routes {fuel : Nat} (deep : fs.longestRoute < fuel) (path : PathBuf) :
    scanSize os fs fuel path =
      ∑ ino ∈ Finset.range fs.next, (fs.routes os path ino).ncard * (fs.data ino).length := by
  have below : ∀ ino ∈ (met os fs fuel path).map Prod.snd, ino < fs.next := by
    intro ino member
    obtain ⟨found, counted, rfl⟩ := List.mem_map.mp member
    have route := route_of_met counted
    exact (@FileSystem.Route.ends os fs found.2 path [] found.1 (by rwa [List.map_nil, List.append_nil])).2
  have total := sum_map_eq_sum_count _ (fun ino => (fs.data ino).length) below
  rw [List.map_map] at total
  rw [scanSize_eq_met]
  refine Eq.trans total (Finset.sum_congr rfl fun ino _ => ?_)
  rw [ncard_routes deep]

end Met

section Exact
variable {os : Os} {fs : FileSystem}

inductive Terminates (os : Os) (fs : FileSystem) : PathBuf → Prop
  | intro {path : PathBuf} (below : ∀ names, fs.scanDir os path = .ok names → ∀ name ∈ names,
      fs.isDirPath os (path.join [.normal name]) = true → Terminates os fs (path.join [.normal name])) :
      Terminates os fs path

theorem terminates_names (base : PathBuf) (left : Nat) (names : List Name)
    (short : fs.longestRoute < names.length + left) : Terminates os fs (base ++ names.map .normal) := by
  induction left generalizing names with
  | zero =>
      refine .intro fun listed read => ?_
      obtain ⟨loc, dir, located, -⟩ := FileSystem.scanDir_cases read
      have within := FileSystem.locate_names_length located
      omega
  | succ left ih =>
      refine .intro fun listed read name _ _ => ?_
      have further : (base ++ names.map Component.normal).join [.normal name] =
          base ++ (names ++ [name]).map Component.normal := by
        rw [PathBuf.join_name, List.append_assoc, List.map_append]
        rfl
      rw [further]
      apply ih
      rw [List.length_append, List.length_singleton]
      omega

theorem terminates (path : PathBuf) : Terminates os fs path := by
  have ended := @terminates_names os fs path (fs.longestRoute + 1) [] (by simp)
  rwa [List.map_nil, List.append_nil] at ended

theorem longestRoute_lt_scanFuel (fs : FileSystem) : fs.longestRoute < scanFuel fs := by
  unfold FileSystem.longestRoute scanFuel
  rw [Nat.mul_add]
  omega

/-- The usage is what a directory scan finds. -/
structure UsageExact (os : Os) (fs : FileSystem) (home : Loc) : Prop where
  halts : Terminates os fs (.ofNames home)
  settles : ∀ fuel, scanFuel fs ≤ fuel → scanSize os fs fuel (.ofNames home) = scanSize os fs (scanFuel fs) (.ofNames home)
  exact : dirSize os fs (.ofNames home) = fs.usage home

/-- The bytes that a scan counts beyond the usage: those of each file, for every route but one
to a file inside and for every route to a file outside. -/
noncomputable def surplus (os : Os) (fs : FileSystem) (home : Loc) : Int :=
  ∑ ino ∈ Finset.range fs.next,
    (((fs.routes os (.ofNames home) ino).ncard : Int) - if ino ∈ fs.filesUnder home then 1 else 0) *
      (fs.data ino).length

theorem usage_eq_range (home : Loc) :
    fs.usage home = ∑ ino ∈ Finset.range fs.next, (if ino ∈ fs.filesUnder home then 1 else 0) * (fs.data ino).length := by
  have within : fs.filesUnder home ⊆ Finset.range fs.next := by
    intro ino member
    obtain ⟨rest, found⟩ := FileSystem.mem_filesUnder.mp member
    exact Finset.mem_range.mpr (fs.fresh _ (Tree.mem_iff_find.mpr found))
  simp only [ite_mul, one_mul, zero_mul, Finset.sum_ite_mem]
  rw [Finset.inter_eq_right.mpr within]
  rfl

theorem scanSize_sub_usage (home : Loc) :
    (scanSize os fs (scanFuel fs) (.ofNames home) : Int) - fs.usage home = surplus os fs home := by
  rw [scanSize_eq_routes (longestRoute_lt_scanFuel fs), usage_eq_range, surplus]
  push_cast
  rw [← Finset.sum_sub_distrib]
  exact Finset.sum_congr rfl fun ino _ => by rw [Int.sub_mul]

/-- The scan stops, and it finds the usage exactly where what it counts beyond it is nothing or wraps
away. -/
theorem usageExact_iff {home : Loc} (fits : fs.usage home < 2 ^ 64) :
    UsageExact os fs home ↔ 2 ^ 64 ∣ surplus os fs home := by
  have wraps : dirSize os fs (.ofNames home) = fs.usage home ↔ 2 ^ 64 ∣ surplus os fs home := by
    rw [← scanSize_sub_usage, dirSize]
    omega
  rw [← wraps]
  constructor
  · exact UsageExact.exact
  · intro exact
    refine ⟨terminates _, fun fuel enough => ?_, exact⟩
    have deep := longestRoute_lt_scanFuel fs
    rw [scanSize_eq_routes deep, scanSize_eq_routes (by omega)]

theorem Listable.route {home loc rest : Loc} {ino : Nat} (listable : Listable os fs home) (inside : home <+: loc)
    (found : fs.tree.find (loc ++ rest) = some (.file ino)) : fs.Route os ino (.ofNames loc) rest := by
  induction rest generalizing loc with
  | nil =>
      rw [List.append_nil] at found
      have located := listable.locate inside found fun _ _ isLink => by cases isLink
      rw [FileSystem.Route, FileSystem.fileAt, FileSystem.nodeAt, located]
      simp only [found]
  | cons name rest ih =>
      have split : loc ++ name :: rest = loc ++ [name] ++ rest := by simp
      obtain ⟨dir, there⟩ := Tree.isDir_iff.mp (Tree.isDir_of_below (List.cons_ne_nil name rest) found)
      rw [split] at found
      have listed : name ∈ fs.tree.children loc := by
        rw [Tree.mem_children]
        by_contra absent
        have nothing := Tree.find_below_none (Option.eq_none_iff_forall_ne_some.mpr fun node here =>
          absent ⟨node, here⟩) rest
        rw [found] at nothing
        cases nothing
      refine ⟨⟨_, listable.scanDir inside there, listed⟩, ?_⟩
      rw [PathBuf.join_name, ← List.map_singleton, ← PathBuf.ofNames_append]
      exact ih (inside.trans (List.prefix_append _ _)) found

theorem Listable.routes_pos {home : Loc} {ino : Nat} (listable : Listable os fs home)
    (inside : ino ∈ fs.filesUnder home) : 0 < (fs.routes os (.ofNames home) ino).ncard := by
  obtain ⟨rest, found⟩ := FileSystem.mem_filesUnder.mp inside
  have route := listable.route (List.prefix_refl home) found
  have short := (@FileSystem.Route.ends os fs ino (.ofNames home) [] rest (by rwa [List.map_nil, List.append_nil])).1
  rw [ncard_routes (Nat.lt_succ_self _), List.count_pos_iff]
  exact List.mem_map.mpr ⟨(rest, ino), met_of_route route (Nat.lt_succ_of_le short), rfl⟩

/-- Nothing is counted beyond the usage where one route leads to each file with bytes inside, and
none to such a file outside. -/
theorem surplus_eq_zero_iff {home : Loc} (listable : Listable os fs home) : surplus os fs home = 0 ↔
    ∀ ino < fs.next, fs.data ino ≠ [] →
      (fs.routes os (.ofNames home) ino).ncard = if ino ∈ fs.filesUnder home then 1 else 0 := by
  have nonneg : ∀ ino ∈ Finset.range fs.next, 0 ≤
      (((fs.routes os (.ofNames home) ino).ncard : Int) - if ino ∈ fs.filesUnder home then 1 else 0) *
        (fs.data ino).length := by
    intro ino _
    apply Int.mul_nonneg _ (Int.natCast_nonneg _)
    split
    · next inside =>
        have led := listable.routes_pos inside
        omega
    · omega
  rw [surplus, Finset.sum_eq_zero_iff_of_nonneg nonneg]
  refine forall_congr' fun ino => imp_congr Finset.mem_range ?_
  rw [Int.mul_eq_zero, Int.natCast_eq_zero, List.length_eq_zero_iff, or_comm, or_iff_not_imp_left, Int.sub_eq_zero]
  refine imp_congr Iff.rfl ?_
  split <;> norm_cast

def linked : FileSystem :=
  (FileSystem.empty.addFile "f".toList [1]).create [] "l".toList (.link "f".toList) ⟨0o777, 0, 0, 0, 0⟩

theorem usageExact_iff_file : UsageExact .permissive (FileSystem.empty.addFile "f".toList [1]) [] ↔
    2 ^ 64 ∣ surplus .permissive (FileSystem.empty.addFile "f".toList [1]) [] :=
  usageExact_iff (by decide +kernel)

/-- The file is counted again for the link. -/
theorem linked_counted_twice : linked.tree.isDir [] = true ∧ Listable .permissive linked [] ∧ linked.usage [] = 1 ∧
    dirSize .permissive linked (.ofNames []) = 2 ∧ ¬ UsageExact .permissive linked [] := by
  have used : linked.usage [] = 1 := by decide +kernel
  have scanned : dirSize .permissive linked (.ofNames []) = 2 := by decide +kernel
  refine ⟨by decide +kernel, listable_permissive (by decide +kernel), used, scanned, fun same => ?_⟩
  have equal := same.exact
  rw [used, scanned] at equal
  cases equal

end Exact

end Wftpd.Common
