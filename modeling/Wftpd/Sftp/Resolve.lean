import Wftpd.Posix.Lexical

/-! The path check that stands before every SFTP operation. -/

set_option autoImplicit false

namespace Wftpd.Sftp
open Wftpd.Posix

inductive StatusCode where
  | ok
  | eof
  | noSuchFile
  | permissionDenied
  | failure
  | badMessage
  | opUnsupported
  deriving DecidableEq, Repr

/-- The loop over the components, shared by `resolve` and the target check of
SYMLINK, which refuse with different codes. -/
def normalizeFrom (home : PathBuf) (refuse : StatusCode) : PathBuf → PathBuf → Except StatusCode PathBuf
  | normalized, [] => .ok normalized
  | normalized, .normal seg :: rest => normalizeFrom home refuse (normalized.push [.normal seg]) rest
  | normalized, .curDir :: rest => normalizeFrom home refuse normalized rest
  | normalized, .parentDir :: rest =>
      if normalized = home then .error refuse else normalizeFrom home refuse normalized.pop rest
  | _, .rootDir :: _ => .error refuse

def normalize (home : PathBuf) (refuse : StatusCode) (base : PathBuf) : Except StatusCode PathBuf :=
  normalizeFrom home refuse home ((base.stripPrefix home).getD base)

def resolve (homeDir path : Text) : Except StatusCode PathBuf :=
  let home := components homeDir
  let stripped := trim path
  if startsWith '/' stripped then
    let rest := trimStartMatches '/' stripped
    -- a client may name the real absolute path: what follows the home prefix is taken as it stands
    match if rest ≠ [] then (components stripped).stripPrefix home else none with
    | some within => .ok (home.join within)
    | none => normalize home .noSuchFile (home.join (components rest))
  else normalize home .noSuchFile (home.join (components stripped))

theorem normalizeFrom_below {home : PathBuf} (nonempty : home ≠ []) (refuse : StatusCode)
    (names : List Name) (path : PathBuf) :
    normalizeFrom home refuse (home ++ names.map .normal) path =
      match cancel names path with
      | some below => .ok (home ++ below.map .normal)
      | none => .error refuse := by
  induction path generalizing names with
  | nil => rfl
  | cons component rest ih =>
      cases component with
      | rootDir => rfl
      | curDir => exact ih names
      | normal name =>
          rw [normalizeFrom, PathBuf.push_normal _ _ (by simp [nonempty])]
          simpa using ih (names ++ [name])
      | parentDir =>
          rw [normalizeFrom, cancel_parentDir]
          rcases List.eq_nil_or_concat names with same | ⟨front, last, same⟩
          · simp [same]
          · subst names
            have moved : home ++ (front.concat last).map Component.normal ≠ home := by simp
            rw [if_neg moved, if_neg (by simp)]
            simpa [← List.append_assoc] using ih front

/-- Anything appended to the home path is resolved by cancelling from home. -/
theorem normalize_below {home : PathBuf} (nonempty : home ≠ []) (refuse : StatusCode) (path : PathBuf) :
    normalize home refuse (home ++ path) =
      match cancel [] path with
      | some below => .ok (home ++ below.map .normal)
      | none => .error refuse := by
  simpa [normalize] using normalizeFrom_below nonempty refuse [] path

/-- The request names the real home directory and goes on from there. -/
def CarriesHome (homeDir path : Text) (within : PathBuf) : Prop :=
  startsWith '/' (trim path) = true ∧ trimStartMatches '/' (trim path) ≠ [] ∧
    components (trim path) = components homeDir ++ within

theorem resolve_carriesHome {homeDir path : Text} {within : PathBuf} (carries : CarriesHome homeDir path within) :
    resolve homeDir path = .ok ((components homeDir).join within) := by
  obtain ⟨absolute, nonempty, same⟩ := carries
  simp [resolve, absolute, nonempty, same]

theorem body_trimmed_absolute {path : Text} : body (trimStartMatches '/' (trim path)) = body (trim path) :=
  body_trimStartMatches (trim path)

/-- Every other request is read below home, component by component. -/
theorem resolve_below {homeDir path : Text} (nonempty : components homeDir ≠ [])
    (plain : ∀ within, ¬ CarriesHome homeDir path within) :
    resolve homeDir path =
      match cancel [] (body (trim path)) with
      | some below => .ok (components homeDir ++ below.map .normal)
      | none => .error .noSuchFile := by
  unfold resolve
  by_cases absolute : startsWith '/' (trim path) = true
  · have joined := join_relative nonempty (trimStartMatches_relative '/' (trim path))
    have none_within : (if trimStartMatches '/' (trim path) ≠ [] then
        (components (trim path)).stripPrefix (components homeDir) else none) = none := by
      split
      · next nonempty =>
          cases stripped : (components (trim path)).stripPrefix (components homeDir) with
          | none => rfl
          | some within => exact absurd ⟨absolute, nonempty, PathBuf.stripPrefix_eq_some.mp stripped⟩ (plain within)
      · rfl
    simp only [absolute, if_true, none_within, joined, body_trimmed_absolute]
    exact normalize_below nonempty .noSuchFile _
  · have relative : startsWith '/' (trim path) = false := by simpa using absolute
    simp only [relative, Bool.false_eq_true, if_false, join_relative nonempty relative]
    exact normalize_below nonempty .noSuchFile _

/-- An absolute home directory without `..`, as canonicalisation at login leaves it. -/
structure IsHome (homeDir : Text) : Prop where
  absolute : startsWith '/' homeDir = true
  canonical : .parentDir ∉ components homeDir

theorem IsHome.components_ne_nil {homeDir : Text} (home : IsHome homeDir) : components homeDir ≠ [] := by
  simp [components_absolute home.absolute]

theorem names_of_no_parent {path : PathBuf} (relative : ∀ component ∈ path, component = .parentDir ∨
    ∃ name, component = .normal name) (plain : .parentDir ∉ path) :
    ∃ names : List Name, path = names.map .normal := by
  induction path with
  | nil => exact ⟨[], rfl⟩
  | cons component rest ih =>
      obtain ⟨names, same⟩ := ih (fun other member => relative other (by simp [member]))
        (fun member => plain (by simp [member]))
      rcases relative component (by simp) with isParent | ⟨name, isName⟩
      · exact absurd (by simp [isParent]) plain
      · exact ⟨name :: names, by simp [isName, same]⟩

theorem IsHome.names {homeDir : Text} (home : IsHome homeDir) :
    ∃ names, components homeDir = PathBuf.ofNames names := by
  have shape := components_absolute home.absolute
  have plain : .parentDir ∉ body homeDir := fun member => home.canonical (by simp [shape, member])
  obtain ⟨names, same⟩ := names_of_no_parent (fun _ member => body_cases member) plain
  exact ⟨names, by rw [shape, same, PathBuf.ofNames]⟩

theorem CarriesHome.cases {homeDir path : Text} {within : PathBuf} (home : IsHome homeDir)
    (carries : CarriesHome homeDir path within) :
    ∀ component ∈ within, component = .parentDir ∨ ∃ name, component = .normal name := by
  intro component member
  obtain ⟨absolute, -, same⟩ := carries
  rw [components_absolute absolute, components_absolute home.absolute, List.cons_append,
    List.cons.injEq] at same
  have inBody : component ∈ body (trim path) := by
    rw [same.2]
    exact List.mem_append_right _ member
  exact body_cases inBody

theorem CarriesHome.join {homeDir path : Text} {within : PathBuf} (home : IsHome homeDir)
    (carries : CarriesHome homeDir path within) :
    (components homeDir).join within = components homeDir ++ within := by
  have shape := carries.cases home
  have relative : within.isAbsolute = false := by
    cases within with
    | nil => rfl
    | cons first rest => rcases shape first (by simp) with same | ⟨name, same⟩ <;> simp [PathBuf.isAbsolute, same]
  have kept : within.filter (· != .curDir) = within := by
    apply List.filter_eq_self.mpr
    intro component member
    rcases shape component member with same | ⟨name, same⟩ <;> simp [same]
  simp [PathBuf.join, PathBuf.push, relative, home.components_ne_nil, kept]

/-- Whatever the request resolves to is home followed by names only. -/
def Confined (homeDir path : Text) : Prop :=
  ∀ resolved, resolve homeDir path = .ok resolved →
    ∃ below : List Name, resolved = components homeDir ++ below.map .normal

/-- The defect: a request that names the real home and then climbs with `..`. -/
def ClimbsFromHome (homeDir path : Text) : Prop :=
  ∃ within, CarriesHome homeDir path within ∧ .parentDir ∈ within

/-- Requests stay at or below home exactly when they do not climb after the
real home prefix. -/
theorem resolve_confined_iff (homeDir path : Text) (home : IsHome homeDir) :
    Confined homeDir path ↔ ¬ ClimbsFromHome homeDir path := by
  constructor
  · rintro confined ⟨within, carries, climbs⟩
    obtain ⟨below, same⟩ := confined _ (resolve_carriesHome carries)
    rw [carries.join home, List.append_cancel_left_eq] at same
    simp [same] at climbs
  · intro steady resolved accepted
    by_cases plain : ∀ within, ¬ CarriesHome homeDir path within
    · rw [resolve_below home.components_ne_nil plain] at accepted
      split at accepted
      · next below _ => exact ⟨below, (Except.ok.inj accepted).symm⟩
      · cases accepted
    · push Not at plain
      obtain ⟨within, carries⟩ := plain
      rw [resolve_carriesHome carries, carries.join home] at accepted
      obtain ⟨below, same⟩ := names_of_no_parent (carries.cases home) fun climbs => steady ⟨within, carries, climbs⟩
      exact ⟨below, by rw [← Except.ok.inj accepted, same]⟩

theorem resolve_confined_iff_home :
    Confined ['/', 'h'] ['/', 'h', '/', 'x'] ↔ ¬ ClimbsFromHome ['/', 'h'] ['/', 'h', '/', 'x'] :=
  resolve_confined_iff _ _ ⟨by decide, by decide⟩

/-- With home `/h`, the request `/h/../x` resolves to a place outside. -/
theorem resolve_escapes : ¬ ∀ homeDir path, IsHome homeDir → Confined homeDir path := by
  intro confined
  obtain ⟨below, same⟩ := confined ['/', 'h'] ['/', 'h', '/', '.', '.', '/', 'x'] ⟨by decide, by decide⟩
    [.rootDir, .normal ['h'], .parentDir, .normal ['x']] (by decide)
  have atHome : components ['/', 'h'] = [.rootDir, .normal ['h']] := by decide
  rw [atHome] at same
  cases below <;> simp at same

end Wftpd.Sftp
