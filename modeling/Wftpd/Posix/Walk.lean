import Wftpd.Posix.Effects

/-! Where walks end.

The first part keeps walks at or below a directory. Going up is harmless as long as
one directory below the anchor is known to have been entered for each step. A link
target is judged at the depth of the directory that holds the link; what a name in
it leads to is not known, and may be the anchor itself.
-/

set_option autoImplicit false

namespace Wftpd.Posix
open Wftpd.Library

/-- From so many directories below the anchor, the hops never leave it. -/
def grounded : Nat → List Hop → Bool
  | _, [] => true
  | depth, .dot :: rest => grounded depth rest
  | 0, .dotdot :: _ => false
  | depth + 1, .dotdot :: rest => grounded depth rest
  | _, .name _ :: rest => grounded 0 rest

theorem grounded_mono {hops : List Hop} {depth deeper : Nat} (le : depth ≤ deeper)
    (steady : grounded depth hops = true) : grounded deeper hops = true := by
  induction hops generalizing depth deeper with
  | nil => rfl
  | cons hop rest ih =>
      cases hop with
      | dot => exact ih le steady
      | name name => exact steady
      | dotdot =>
          cases depth with
          | zero => cases steady
          | succ depth =>
              obtain ⟨deeper, rfl⟩ : ∃ less, deeper = less + 1 := ⟨deeper - 1, by omega⟩
              exact ih (by omega : depth ≤ deeper) steady

theorem grounded_append {first second : List Hop} {depth : Nat} (start : grounded depth first = true)
    (rest : grounded 0 second = true) : grounded depth (first ++ second) = true := by
  induction first generalizing depth with
  | nil => exact grounded_mono (Nat.zero_le depth) rest
  | cons hop first ih =>
      cases hop with
      | dot => exact ih start
      | name name => exact ih start
      | dotdot =>
          cases depth with
          | zero => cases start
          | succ depth => exact ih start

theorem grounded_names (names : List Name) (depth : Nat) : grounded depth (names.map .name) = true := by
  induction names generalizing depth with
  | nil => rfl
  | cons name rest ih => exact ih 0

/-- Every link below the anchor is relative, and climbs no higher than its depth. -/
def Settled (tree : Tree) (home : Loc) : Prop :=
  ∀ below name ino target, tree.find (home ++ below ++ [name]) = some (.link ino target) →
    startsWith '/' target = false ∧ grounded below.length (targetHops target) = true

namespace FileSystem

section Walk
variable {os : Os} {fs : FileSystem} {home : Loc} {follow : Bool}

/-- How a walk that arrives takes a name: it ends there, enters a directory, or follows a link. -/
theorem walkWith_name_cases {expand : Loc → Text → List Hop → Except ErrorKind Loc} {dir loc : Loc} {name : Name}
    {rest : List Hop} (walked : fs.walkWith os expand follow dir (.name name :: rest) = .ok loc) :
    (rest = [] ∧ loc = dir ++ [name] ∧ fs.tree.isDir loc = false ∧
        ∀ ino target, fs.tree.find loc = some (.link ino target) → follow = false) ∨
      (fs.tree.isDir (dir ++ [name]) = true ∧ fs.walkWith os expand follow (dir ++ [name]) rest = .ok loc) ∨
      ∃ ino target, fs.tree.find (dir ++ [name]) = some (.link ino target) ∧ ¬ (rest = [] ∧ follow = false) ∧
        expand dir target rest = .ok loc := by
  unfold walkWith at walked
  split at walked
  · cases walked
  simp only at walked
  split at walked
  · -- a free name, where a walk may end
    next absent =>
      split at walked
      · next last =>
          cases walked
          left
          simp [last, Tree.isDir, absent]
      · cases walked
  · next ino found =>
      right
      left
      exact ⟨Tree.isDir_iff.mpr ⟨ino, found⟩, walked⟩
  · next ino found =>
      split at walked
      · next last =>
          cases walked
          left
          simp [last, Tree.isDir, found]
      · cases walked
  · next ino target found =>
      split at walked
      · next ended =>
          cases walked
          left
          simp [ended, Tree.isDir, found]
      · next onward =>
          right
          right
          exact ⟨ino, target, found, onward, walked⟩

theorem walkWith_inside {expand : Loc → Text → List Hop → Except ErrorKind Loc} (settled : Settled fs.tree home)
    (expands : ∀ below target rest loc, startsWith '/' target = false →
      grounded below.length (targetHops target) = true → grounded 0 rest = true →
      expand (home ++ below) target rest = .ok loc → home <+: loc)
    {hops : List Hop} {below loc : Loc} (steady : grounded below.length hops = true)
    (walked : fs.walkWith os expand follow (home ++ below) hops = .ok loc) : home <+: loc := by
  induction hops generalizing below with
  | nil =>
      cases walked
      exact List.prefix_append _ _
  | cons hop rest ih =>
      cases hop with
      | dot =>
          unfold walkWith at walked
          split at walked
          · cases walked
          · exact ih steady walked
      | dotdot =>
          unfold walkWith at walked
          split at walked
          · cases walked
          rcases List.eq_nil_or_concat below with atHome | ⟨front, last, shape⟩
          · -- a grounded walk never climbs at home
            subst below
            cases steady
          · rw [List.concat_eq_append] at shape
            subst below
            simp only [← List.append_assoc, List.dropLast_concat] at walked
            simp only [List.length_append, List.length_singleton] at steady
            exact ih steady walked
      | name name =>
          have further : grounded (below ++ [name]).length rest = true := grounded_mono (Nat.zero_le _) steady
          rcases walkWith_name_cases walked with ⟨-, rfl, -⟩ | ⟨-, onward⟩ | ⟨ino, target, found, -, expanded⟩
          · rw [List.append_assoc]
            exact List.prefix_append _ _
          · rw [List.append_assoc] at onward
            exact ih further onward
          · obtain ⟨relative, climbs⟩ := settled below name ino target found
            exact expands below target rest loc relative climbs steady expanded

/-- Among settled links, a walk that starts inside ends inside. -/
theorem walk_inside (settled : Settled fs.tree home) {budget : Nat} {hops : List Hop} {below loc : Loc}
    (steady : grounded below.length hops = true)
    (walked : fs.walk os follow budget (home ++ below) hops = .ok loc) : home <+: loc := by
  induction budget generalizing hops below loc with
  | zero =>
      apply walkWith_inside settled _ steady walked
      intro below target rest loc _ _ _ expanded
      cases expanded
  | succ budget ih =>
      apply walkWith_inside settled _ steady walked
      intro below target rest loc relative climbs onward expanded
      have start : linkStart (home ++ below) target = home ++ below := by simp [linkStart, relative]
      rw [start] at expanded
      exact ih (grounded_append climbs onward) expanded

theorem walkWith_parent {expand : Loc → Text → List Hop → Except ErrorKind Loc}
    (expands : ∀ dir target rest loc, fs.tree.isDir dir = true → expand dir target rest = .ok loc →
      fs.tree.isDir loc.dropLast = true)
    {hops : List Hop} {dir loc : Loc} (start : fs.tree.isDir dir = true)
    (walked : fs.walkWith os expand follow dir hops = .ok loc) : fs.tree.isDir loc.dropLast = true := by
  induction hops generalizing dir with
  | nil =>
      cases walked
      exact Tree.isDir_dropLast start
  | cons hop rest ih =>
      cases hop with
      | dot =>
          unfold walkWith at walked
          split at walked
          · cases walked
          · exact ih start walked
      | dotdot =>
          unfold walkWith at walked
          split at walked
          · cases walked
          · exact ih (Tree.isDir_dropLast start) walked
      | name name =>
          rcases walkWith_name_cases walked with ⟨-, rfl, -⟩ | ⟨entered, onward⟩ | ⟨ino, target, -, -, expanded⟩
          · rwa [List.dropLast_concat]
          · exact ih entered onward
          · exact expands dir target rest loc start expanded

theorem walk_parent {budget : Nat} {hops : List Hop} {dir loc : Loc} (start : fs.tree.isDir dir = true)
    (walked : fs.walk os follow budget dir hops = .ok loc) : fs.tree.isDir loc.dropLast = true := by
  induction budget generalizing hops dir loc with
  | zero =>
      apply walkWith_parent _ start walked
      intro dir target rest loc _ expanded
      cases expanded
  | succ budget ih =>
      apply walkWith_parent _ start walked
      intro dir target rest loc above expanded
      have begins : fs.tree.isDir (linkStart dir target) = true := by
        unfold linkStart
        split
        · exact Tree.isDir_root fs.tree
        · exact above
      exact ih begins expanded

theorem locate_walked {path : PathBuf} {loc : Loc} (located : fs.locate os follow path = .ok loc) :
    fs.walk os follow maxSymlinks (if path.isAbsolute then [] else os.cwd) (path.filterMap Component.hop) = .ok loc := by
  unfold locate at located
  split at located
  · cases located
  · split at located
    · cases located
    · exact located

theorem locate_parent {path : PathBuf} {loc : Loc} (absolute : path.isAbsolute = true)
    (located : fs.locate os follow path = .ok loc) : fs.tree.isDir loc.dropLast = true := by
  have walked := locate_walked located
  rw [if_pos absolute] at walked
  exact walk_parent (Tree.isDir_root fs.tree) walked

theorem walkWith_dirs {expand : Loc → Text → List Hop → Except ErrorKind Loc} {names dir loc : Loc} {hops : List Hop}
    (dirs : fs.tree.isDir (dir ++ names) = true)
    (walked : fs.walkWith os expand follow dir (names.map .name ++ hops) = .ok loc) :
    fs.walkWith os expand follow (dir ++ names) hops = .ok loc := by
  induction names generalizing dir with
  | nil => simpa using walked
  | cons name rest ih =>
      have shape : dir ++ name :: rest = dir ++ [name] ++ rest := by simp
      have first : fs.tree.isDir (dir ++ [name]) = true := by
        by_cases last : rest = []
        · simpa [last] using dirs
        · obtain ⟨ino, found⟩ := Tree.isDir_iff.mp dirs
          rw [shape] at found
          exact Tree.isDir_of_below last found
      obtain ⟨ino, found⟩ := Tree.isDir_iff.mp first
      rw [List.map_cons, List.cons_append] at walked
      unfold walkWith at walked
      split at walked
      · cases walked
      simp only [found] at walked
      rw [shape] at dirs ⊢
      exact ih dirs walked

theorem hops_ofNames (names : List Name) : (PathBuf.ofNames names).filterMap Component.hop = names.map .name := by
  have normal : (names.map Component.normal).filterMap Component.hop = names.map .name := by
    induction names with
    | nil => rfl
    | cons name rest ih => simp [Component.hop, ih]
  exact normal

theorem locate_ofNames {names : List Name} {loc : Loc} (located : fs.locate os follow (.ofNames names) = .ok loc) :
    fs.walk os follow maxSymlinks [] (names.map .name) = .ok loc := by
  have walked := locate_walked located
  rwa [hops_ofNames] at walked

theorem locate_inside (settled : Settled fs.tree home) (dir : fs.tree.isDir home = true) {names : List Name}
    {loc : Loc} (located : fs.locate os follow (.ofNames (home ++ names)) = .ok loc) : home <+: loc := by
  have walked := locate_ofNames located
  rw [List.map_append] at walked
  have reached : fs.walk os follow maxSymlinks ([] ++ home) (names.map .name) = .ok loc := by
    unfold walk maxSymlinks at walked ⊢
    exact walkWith_dirs dir walked
  rw [List.nil_append, ← List.append_nil home] at reached
  have steady : grounded ([] : Loc).length (names.map .name) = true := grounded_names names 0
  exact walk_inside settled steady reached

/-- The path of an entry leads there, past directories that can be searched. -/
theorem walkWith_names {expand : Loc → Text → List Hop → Except ErrorKind Loc} {names dir : Loc} {node : Node}
    (found : fs.tree.find (dir ++ names) = some node) (physical : ∀ ino target, node ≠ .link ino target)
    (search : ∀ above, above <+: dir ++ names → above ≠ dir ++ names → fs.tree.isDir above = true →
      fs.allowed os above .search = true) :
    fs.walkWith os expand follow dir (names.map .name) = .ok (dir ++ names) := by
  induction names generalizing dir with
  | nil =>
      rw [List.append_nil]
      rfl
  | cons name rest ih =>
      have shape : dir ++ name :: rest = dir ++ [name] ++ rest := by simp
      have isDir : fs.tree.isDir dir = true := Tree.isDir_of_below (by simp) found
      have searched : fs.allowed os dir .search = true :=
        search dir (List.prefix_append _ _) (by simp) isDir
      rw [shape] at found search ⊢
      rw [List.map_cons, walkWith]
      simp only [searched, Bool.not_true, Bool.false_eq_true, if_false]
      by_cases last : rest = []
      · subst rest
        rw [List.append_nil] at found ⊢
        cases node with
        | dir ino =>
            simp only [found]
            rfl
        | file ino => simp [found]
        | link ino target => exact absurd rfl (physical ino target)
      · obtain ⟨ino, between⟩ := Tree.isDir_iff.mp (Tree.isDir_of_below last found)
        simp only [between]
        exact ih found search

theorem locate_entry {loc : Loc} {node : Node} (found : fs.tree.find loc = some node)
    (physical : ∀ ino target, node ≠ .link ino target) (plain : ∀ name ∈ loc, '\x00' ∉ name)
    (through : os.refused (.ofNames loc) = none)
    (search : ∀ above, above <+: loc → above ≠ loc → fs.tree.isDir above = true →
      fs.allowed os above .search = true) :
    fs.locate os follow (.ofNames loc) = .ok loc := by
  have clean : ((PathBuf.ofNames loc).any fun component =>
      (PathBuf.componentText component).contains '\x00') = false := by
    simp only [PathBuf.ofNames, List.any_cons, List.any_map, Bool.or_eq_false_iff, List.any_eq_false]
    exact ⟨rfl, fun name member => by simpa [PathBuf.componentText] using plain name member⟩
  have absolute : PathBuf.isAbsolute (.ofNames loc) = true := rfl
  have walked : fs.walk os follow maxSymlinks [] (loc.map .name) = .ok ([] ++ loc) :=
    walkWith_names found physical search
  rw [locate, clean, through, absolute, hops_ofNames]
  exact walked

/-- It leads nowhere else. -/
theorem locate_entry_eq {loc place : Loc} {node : Node} (found : fs.tree.find loc = some node)
    (physical : ∀ ino target, node ≠ .link ino target) (located : fs.locate os follow (.ofNames loc) = .ok place) :
    place = loc := by
  have walked := locate_ofNames located
  unfold walk maxSymlinks at walked
  rcases List.eq_nil_or_concat loc with rfl | ⟨front, last, rfl⟩
  · exact (Except.ok.inj walked).symm
  rw [List.concat_eq_append] at found walked ⊢
  have above : fs.tree.isDir ([] ++ front) = true := Tree.isDir_of_below (List.cons_ne_nil last []) found
  rw [List.map_append] at walked
  have onward := walkWith_dirs above walked
  rw [List.nil_append] at onward
  rcases walkWith_name_cases onward with ⟨-, same, -⟩ | ⟨-, same⟩ | ⟨ino, target, isLink, -, -⟩
  · exact same
  · exact (Except.ok.inj same).symm
  · rw [found] at isLink
    exact absurd (Option.some.inj isLink) (physical ino target)

/-- Following the last component makes no difference where it is no link. -/
theorem walkWith_physical {expand expand' : Loc → Text → List Hop → Except ErrorKind Loc} {hops : List Hop}
    {dir loc : Loc} (physical : ∀ ino target, fs.tree.find loc ≠ some (.link ino target))
    (agree : ∀ dir target rest, expand dir target rest = .ok loc → expand' dir target rest = .ok loc)
    (walked : fs.walkWith os expand false dir hops = .ok loc) : fs.walkWith os expand' true dir hops = .ok loc := by
  induction hops generalizing dir with
  | nil => exact walked
  | cons hop rest ih =>
      unfold walkWith at walked ⊢
      split at walked
      · cases walked
      · next searched =>
          rw [if_neg searched]
          cases hop with
          | dot => exact ih walked
          | dotdot => exact ih walked
          | name name =>
              simp only at walked ⊢
              cases found : fs.tree.find (dir ++ [name]) with
              | none =>
                  rw [found] at walked
                  exact walked
              | some node =>
                  rw [found] at walked
                  cases node with
                  | dir ino => exact ih walked
                  | file ino => exact walked
                  | link ino target =>
                      simp only at walked
                      split at walked
                      · cases walked
                        exact absurd found (physical ino target)
                      · simpa using agree dir target rest walked

theorem walk_physical {budget : Nat} {hops : List Hop} {dir loc : Loc}
    (physical : ∀ ino target, fs.tree.find loc ≠ some (.link ino target))
    (walked : fs.walk os false budget dir hops = .ok loc) : fs.walk os true budget dir hops = .ok loc := by
  induction budget generalizing dir hops with
  | zero =>
      apply walkWith_physical physical _ walked
      intro dir target rest expanded
      cases expanded
  | succ budget ih =>
      apply walkWith_physical physical _ walked
      intro dir target rest expanded
      exact ih expanded

theorem locate_physical {path : PathBuf} {loc : Loc} (physical : ∀ ino target, fs.tree.find loc ≠ some (.link ino target))
    (located : fs.locate os false path = .ok loc) : fs.locate os true path = .ok loc := by
  have walked := walk_physical physical (locate_walked located)
  unfold locate at located ⊢
  split at located
  · cases located
  · next plain =>
      rw [if_neg plain]
      split at located
      · cases located
      · exact walked

theorem pathExists_file {path : PathBuf} {loc : Loc} {ino : Nat} (located : fs.locate os false path = .ok loc)
    (found : fs.tree.find loc = some (.file ino)) (sound : os.fault .stat = none) : fs.pathExists os path = true := by
  have followed : fs.locate os true path = .ok loc := by
    apply locate_physical _ located
    intro other target isLink
    rw [found] at isLink
    cases isLink
  unfold pathExists metadata status
  rw [sound, followed]
  simp only [bind, Except.bind, found]
  rfl

theorem canonicalize_of_metadata {path : PathBuf} {found : Metadata} (looked : fs.metadata os path = .ok found) :
    ∃ canonical, fs.canonicalize os path = .ok canonical := by
  unfold metadata at looked
  split at looked
  · cases looked
  · unfold status at looked
    unfold canonicalize
    cases located : fs.locate os true path with
    | error why =>
        rw [located] at looked
        cases looked
    | ok loc =>
        rw [located] at looked
        simp only [bind, Except.bind] at looked ⊢
        cases there : fs.tree.find loc with
        | none =>
            rw [there] at looked
            cases looked
        | some node => exact ⟨.ofNames loc, rfl⟩

variable {fs' : FileSystem}

/-- Modes decide whether a walk ends, not where. -/
theorem walkWith_agree (same : fs'.tree = fs.tree) {expand expand' : Loc → Text → List Hop → Except ErrorKind Loc}
    (agree : ∀ dir target rest loc loc', expand dir target rest = .ok loc → expand' dir target rest = .ok loc' →
      loc' = loc) {hops : List Hop} {dir loc loc' : Loc} (first : fs.walkWith os expand follow dir hops = .ok loc)
    (second : fs'.walkWith os expand' follow dir hops = .ok loc') : loc' = loc := by
  induction hops generalizing dir with
  | nil =>
      cases first
      cases second
      rfl
  | cons hop rest ih =>
      cases hop with
      | name name =>
          have second := walkWith_name_cases second
          rw [same] at second
          -- both take the name in the same way, since the tree is the same
          rcases walkWith_name_cases first with ⟨last, rfl, notDir, stays⟩ | ⟨isDir, onward⟩ |
              ⟨ino, target, found, follows, expanded⟩
          · rcases second with ⟨-, here, -⟩ | ⟨isDir, -⟩ | ⟨ino, target, found, follows, -⟩
            · exact here
            · rw [notDir] at isDir
              cases isDir
            · exact absurd ⟨last, stays ino target found⟩ follows
          · rcases second with ⟨-, rfl, notDir, -⟩ | ⟨-, onward'⟩ | ⟨ino, target, found, -⟩
            · rw [isDir] at notDir
              cases notDir
            · exact ih onward onward'
            · simp [Tree.isDir, found] at isDir
          · rcases second with ⟨last, rfl, -, stays⟩ | ⟨isDir, -⟩ | ⟨ino', target', found', -, expanded'⟩
            · exact absurd ⟨last, stays ino target found⟩ follows
            · simp [Tree.isDir, found] at isDir
            · cases found.symm.trans found'
              exact agree dir target rest loc loc' expanded expanded'
      | _ =>
          unfold walkWith at first second
          split at first
          · cases first
          split at second
          · cases second
          exact ih first second

theorem walk_agree (same : fs'.tree = fs.tree) {budget : Nat} {hops : List Hop} {dir loc loc' : Loc}
    (first : fs.walk os follow budget dir hops = .ok loc) (second : fs'.walk os follow budget dir hops = .ok loc') :
    loc' = loc := by
  induction budget generalizing dir hops loc loc' with
  | zero =>
      apply walkWith_agree same _ first second
      intro dir target rest loc loc' expanded _
      cases expanded
  | succ budget ih =>
      apply walkWith_agree same _ first second
      intro dir target rest loc loc' expanded expanded'
      exact ih expanded expanded'

theorem locate_agree (same : fs'.tree = fs.tree) {path : PathBuf} {loc loc' : Loc}
    (first : fs.locate os follow path = .ok loc) (second : fs'.locate os follow path = .ok loc') : loc' = loc :=
  walk_agree same (locate_walked first) (locate_walked second)

end Walk

section Change
variable {fs : FileSystem} {home : Loc} {os : Os}

theorem settled_create (settled : Settled fs.tree home) {parent : Loc} {name : Name} {new : NewNode}
    (fits : ∀ below target, parent = home ++ below → new = .link target →
      startsWith '/' target = false ∧ grounded below.length (targetHops target) = true) :
    Settled (fs.create parent name new os.created).tree home := by
  intro below last ino target found
  rcases Tree.find_of_insert found with ⟨here, made⟩ | old
  · obtain ⟨same, -⟩ := List.append_inj' here rfl
    apply fits below target same.symm
    cases new with
    | dir => cases made
    | file => cases made
    | link text =>
        cases made
        rfl
  · exact settled below last ino target old

theorem settled_moveEntry (settled : Settled fs.tree home) {source target : Loc}
    (inside : home <+: source) (proper : source ≠ home)
    (fits : ∀ rest depth ino text, fs.tree.find (source ++ rest) = some (.link ino text) →
      (target ++ rest).length = home.length + depth + 1 → grounded depth (targetHops text) = true) :
    Settled (fs.moveEntry source target).tree home := by
  intro deep last ino text found
  rcases find_of_moveEntry found with old | ⟨rest, here, old⟩
  · exact settled deep last ino text old
  · obtain ⟨front, rfl⟩ := inside
    have nonempty : front ++ rest ≠ [] := by
      intro empty
      simp only [List.append_eq_nil_iff] at empty
      exact proper (by simp [empty.1])
    obtain ⟨lead, final, shape⟩ := List.eq_nil_or_concat (front ++ rest) |>.resolve_left nonempty
    have there : fs.tree.find (home ++ lead ++ [final]) = some (.link ino text) := by
      rw [← old, List.append_assoc, List.append_assoc, shape, List.concat_eq_append]
    refine ⟨(settled lead final ino text there).1, fits rest deep.length ino text old ?_⟩
    rw [← here]
    simp
    omega

theorem isDir_moveEntry {source target : Loc} (apart : ¬ source <+: home) (kept : ¬ target <+: home)
    (dir : fs.tree.isDir home = true) : (fs.moveEntry source target).tree.isDir home = true := by
  obtain ⟨ino, found⟩ := Tree.isDir_iff.mp dir
  exact Tree.isDir_iff.mpr ⟨ino, find_moveEntry_other apart kept found⟩

theorem isDir_create {parent : Loc} {name : Name} {new : NewNode} (dir : fs.tree.isDir home = true) :
    (fs.create parent name new os.created).tree.isDir home = true := by
  obtain ⟨ino, found⟩ := Tree.isDir_iff.mp dir
  exact Tree.isDir_iff.mpr ⟨ino, Tree.find_insert_some found⟩

end Change

end FileSystem

end Wftpd.Posix
