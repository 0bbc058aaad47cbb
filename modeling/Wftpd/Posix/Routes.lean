import Wftpd.Posix.Walk

/-! The paths that lead to a file.

A route goes through directories by names that they list. It may pass links, but
only so many, and between two of them it only descends; so every route is short.
-/

set_option autoImplicit false

namespace Wftpd.Posix

namespace FileSystem

section Length
variable {os : Os} {fs : FileSystem} {follow : Bool}

/-- Before it meets a link, a walk by names descends. -/
theorem walkWith_descends {expand : Loc → Text → List Hop → Except ErrorKind Loc} {bound : Nat}
    (expands : ∀ dir target (names : List Name) loc, expand dir target (names.map .name) = .ok loc →
      names.length ≤ bound)
    {names : List Name} {dir loc : Loc} (walked : fs.walkWith os expand follow dir (names.map .name) = .ok loc) :
    names = [] ∨ dir.length + names.length ≤ fs.tree.entries.length + bound := by
  induction names generalizing dir with
  | nil => exact .inl rfl
  | cons name rest ih =>
      right
      have within : dir.length < fs.tree.entries.length := by
        cases found : fs.tree.find dir with
        | some node => exact Tree.length_lt_entries found
        | none =>
            -- nobody may search what is not there
            simp [walkWith, allowed, found] at walked
      rw [List.length_cons]
      rcases walkWith_name_cases walked with ⟨last, -⟩ | ⟨-, onward⟩ | ⟨ino, target, -, -, expanded⟩
      · rw [List.map_eq_nil_iff.mp last]
        simp
        omega
      · rcases ih onward with rfl | deeper
        · simp
          omega
        · rw [List.length_append, List.length_singleton] at deeper
          omega
      · have short := expands dir target rest loc expanded
        omega

theorem walkWith_names_length {expand : Loc → Text → List Hop → Except ErrorKind Loc} {bound : Nat}
    (expands : ∀ dir target hops (names : List Name) loc, expand dir target (hops ++ names.map .name) = .ok loc →
      names.length ≤ bound) {hops : List Hop} {names : List Name} {dir loc : Loc}
    (walked : fs.walkWith os expand follow dir (hops ++ names.map .name) = .ok loc) :
    names.length ≤ fs.tree.entries.length + bound := by
  induction hops generalizing dir with
  | nil =>
      rcases walkWith_descends (fun dir target names loc => expands dir target [] names loc) walked with rfl | short
      · exact Nat.zero_le _
      · omega
  | cons hop rest ih =>
      cases hop with
      | name name =>
          rcases walkWith_name_cases walked with ⟨last, -⟩ | ⟨-, onward⟩ | ⟨ino, target, -, -, expanded⟩
          · simp at last
            simp [last.2]
          · exact ih onward
          · exact Nat.le_trans (expands dir target rest names loc expanded) (Nat.le_add_left _ _)
      | _ =>
          rw [List.cons_append] at walked
          unfold walkWith at walked
          split at walked
          · cases walked
          · exact ih walked

/-- The induction is on the links that may still be followed. -/
theorem walk_names_length {budget : Nat} {hops : List Hop} {names : List Name} {dir loc : Loc}
    (walked : fs.walk os follow budget dir (hops ++ names.map .name) = .ok loc) :
    names.length ≤ (budget + 1) * fs.tree.entries.length := by
  induction budget generalizing hops names dir loc with
  | zero =>
      have short := @walkWith_names_length os fs follow _ 0 (fun _ _ _ _ _ expanded => by cases expanded)
        hops names dir loc walked
      omega
  | succ budget ih =>
      have short := @walkWith_names_length os fs follow _ ((budget + 1) * fs.tree.entries.length) (by
        intro dir target rest names loc expanded
        rw [← List.append_assoc] at expanded
        exact ih expanded) hops names dir loc walked
      rw [Nat.add_mul _ 1, Nat.one_mul]
      omega

/-- The most names that a path leads on by. -/
def longestRoute (fs : FileSystem) : Nat := (maxSymlinks + 1) * fs.tree.entries.length

theorem locate_names_length {base : PathBuf} {names : List Name} {loc : Loc}
    (located : fs.locate os follow (base ++ names.map .normal) = .ok loc) : names.length ≤ fs.longestRoute := by
  have walked := locate_walked located
  have hops : (base ++ names.map Component.normal).filterMap Component.hop =
      base.filterMap Component.hop ++ names.map Hop.name := by
    have each : Component.hop ∘ Component.normal = some ∘ Hop.name := rfl
    rw [List.filterMap_append, List.filterMap_map, each, List.filterMap_eq_map]
  rw [hops] at walked
  exact walk_names_length walked

end Length

section Routes
variable (os : Os) (fs : FileSystem)

def nodeAt (path : PathBuf) : Option Node :=
  match fs.locate os true path with
  | .ok loc => fs.tree.find loc
  | .error _ => none

def fileAt (path : PathBuf) : Option Nat :=
  match fs.nodeAt os path with
  | some (.file ino) => some ino
  | _ => none

/-- From this path, the names lead through directories to this regular file. -/
def Route (ino : Nat) : PathBuf → List Name → Prop
  | path, [] => fs.fileAt os path = some ino
  | path, name :: rest => (∃ names, fs.scanDir os path = .ok names ∧ name ∈ names) ∧
      Route ino (path.join [.normal name]) rest

def routes (path : PathBuf) (ino : Nat) : Set (List Name) := {names | fs.Route os ino path names}

variable {os fs} {path : PathBuf}

theorem status_eq : fs.status os true path = match fs.nodeAt os path with
    | some node => .ok (fs.nodeMetadata os node)
    | none => match fs.locate os true path with
      | .ok _ => .error .notFound
      | .error why => .error why := by
  unfold status nodeAt
  cases fs.locate os true path with
  | error why => rfl
  | ok loc => cases found : fs.tree.find loc <;> simp [bind, Except.bind, found] <;> rfl

theorem isDirPath_iff : fs.isDirPath os path = true ↔ ∃ ino, fs.nodeAt os path = some (.dir ino) := by
  unfold isDirPath
  rw [status_eq]
  cases fs.nodeAt os path with
  | none => cases fs.locate os true path <;> simp
  | some node => cases node <;> simp [nodeMetadata]

theorem fileSize_eq : fs.fileSize os path = match fs.fileAt os path with
    | some ino => (fs.data ino).length
    | none => 0 := by
  unfold fileSize fileAt
  rw [status_eq]
  cases fs.nodeAt os path with
  | none => cases fs.locate os true path <;> rfl
  | some node => cases node <;> rfl

theorem fileAt_eq_none_of_dir (isDir : fs.isDirPath os path = true) : fs.fileAt os path = none := by
  obtain ⟨ino, found⟩ := isDirPath_iff.mp isDir
  rw [fileAt, found]

theorem fileAt_cases {ino : Nat} (leads : fs.fileAt os path = some ino) :
    ∃ loc, fs.locate os true path = .ok loc ∧ fs.tree.find loc = some (.file ino) := by
  unfold fileAt nodeAt at leads
  cases located : fs.locate os true path with
  | error why =>
      rw [located] at leads
      cases leads
  | ok loc =>
      rw [located] at leads
      simp only at leads
      split at leads
      · next found =>
          cases leads
          exact ⟨loc, rfl, found⟩
      · cases leads

theorem readDir_cases {dir : Nat} {names : List Name} (read : fs.readDir os path = .ok (dir, names)) :
    ∃ loc, fs.locate os true path = .ok loc ∧ fs.tree.find loc = some (.dir dir) ∧ names = fs.tree.children loc := by
  unfold readDir at read
  cases located : fs.locate os true path with
  | error why =>
      rw [located] at read
      cases read
  | ok loc =>
      rw [located] at read
      simp only [bind, Except.bind] at read
      split at read
      · next found =>
          split at read
          · cases read
            exact ⟨loc, rfl, found, rfl⟩
          · cases read
      · cases read
      · cases read

theorem scanDir_cases {names : List Name} (read : fs.scanDir os path = .ok names) :
    ∃ loc dir, fs.locate os true path = .ok loc ∧ fs.tree.find loc = some (.dir dir) ∧
      names = (fs.tree.children loc).filter fun name => !os.dropped path name := by
  unfold scanDir at read
  cases listed : fs.readDir os path with
  | error why =>
      rw [listed] at read
      cases read
  | ok opened =>
      obtain ⟨loc, located, found, names⟩ := readDir_cases listed
      rw [listed] at read
      cases read
      exact ⟨loc, opened.1, located, found, by rw [names]⟩

theorem isDirPath_of_scanDir {names : List Name} (read : fs.scanDir os path = .ok names) :
    fs.isDirPath os path = true := by
  obtain ⟨loc, dir, located, found, -⟩ := scanDir_cases read
  have leads : fs.nodeAt os path = some (.dir dir) := by
    rw [nodeAt, located]
    exact found
  exact isDirPath_iff.mpr ⟨dir, leads⟩

theorem Route.ends {ino : Nat} {base : PathBuf} {names rest : List Name}
    (route : fs.Route os ino (base ++ names.map .normal) rest) :
    (names ++ rest).length ≤ fs.longestRoute ∧ ino < fs.next := by
  induction rest generalizing names with
  | nil =>
      obtain ⟨loc, located, found⟩ := fileAt_cases route
      rw [List.append_nil]
      exact ⟨locate_names_length located, fs.fresh _ (Tree.mem_iff_find.mpr found)⟩
  | cons name rest ih =>
      have onward := route.2
      rw [PathBuf.join_name, List.append_assoc] at onward
      have further : names.map Component.normal ++ [.normal name] = (names ++ [name]).map .normal := by simp
      rw [further] at onward
      have ended := ih onward
      rwa [List.append_assoc] at ended

end Routes

end FileSystem

end Wftpd.Posix
