import Wftpd.Posix.Segments
import Wftpd.Sftp.Links

/-! How a client can name what it was told of: the entries of a listing, and the virtual
path that REALPATH answers with.

A request path is trimmed before it is read, and one that begins with the real home is
taken as a real path.
-/

set_option autoImplicit false

namespace Wftpd.Sftp
open Wftpd.Posix Wftpd.Common Wftpd.Library

section Requests

/-- The text of a request that names the real home is home's own names and what follows. -/
theorem CarriesHome.parsed {homeDir path : Text} {within : PathBuf} (carries : CarriesHome homeDir path within)
    {homeNames : List Name} (canonical : components homeDir = .ofNames homeNames) :
    body (trim path) = homeNames.map .normal ++ within := by
  have shape := carries.2.2
  rw [components_absolute carries.1, canonical, PathBuf.ofNames, List.cons_append, List.cons.injEq] at shape
  exact shape.2

theorem length_body (text : Text) : (body text).length ≤ text.count '/' + 1 := by
  rw [body, ← length_splitOn]
  exact List.length_filterMap_le _ _

theorem length_body_absolute {text : Text} (absolute : startsWith '/' text = true) :
    (body text).length ≤ text.count '/' := by
  cases text with
  | nil => cases absolute
  | cons first rest =>
      have same : first = '/' := by simpa [startsWith] using absolute
      subst first
      rw [body_separator, List.count_cons_self]
      exact length_body rest

end Requests

section Listed
variable {homeDir : Text} {names : List Name}

/-- The entry below home that these names lead to, as a client writes it. -/
def relativePath (names : List Name) : Text := PathBuf.toText (names.map .normal)

theorem proper_names (legal : ∀ name ∈ names, IsName name) :
    ∀ component ∈ names.map Component.normal, component.Proper := by
  intro component member
  obtain ⟨name, listed, rfl⟩ := List.mem_map.mp member
  exact legal name listed

theorem count_relativePath (nonempty : names ≠ []) (legal : ∀ name ∈ names, IsName name) :
    (relativePath names).count '/' + 1 = names.length := by
  have counted := count_toText (proper_names legal) (by simpa using nonempty)
  rwa [List.length_map] at counted

theorem relativePath_relative (nonempty : names ≠ []) (legal : ∀ name ∈ names, IsName name) :
    startsWith '/' (relativePath names) = false := by
  by_contra absolute
  have bound := length_body_absolute (Bool.eq_true_of_not_eq_false absolute)
  rw [relativePath, body_toText (proper_names legal), List.length_map, ← relativePath] at bound
  have counted := count_relativePath nonempty legal
  omega

/-- The names of a listing lead back to their entry exactly when their path neither begins
nor ends in white space. -/
theorem resolve_listed_iff (home : IsHome homeDir) (nonempty : names ≠ []) (legal : ∀ name ∈ names, IsName name) :
    resolve homeDir (relativePath names) = .ok (components homeDir ++ names.map .normal) ↔
      Tight (relativePath names) := by
  have counted := count_relativePath nonempty legal
  rw [← trim_eq_self_iff]
  by_cases plain : ∀ within, ¬ CarriesHome homeDir (relativePath names) within
  · rw [resolve_below home.components_ne_nil plain]
    constructor
    · intro accepted
      cases cancelled : cancel [] (body (trim (relativePath names))) with
      | none =>
          rw [cancelled] at accepted
          cases accepted
      | some below =>
          rw [cancelled] at accepted
          have same : below.map Component.normal = names.map .normal := by simpa using accepted
          have lengths : below.length = names.length := by simpa using congrArg List.length same
          have bound := length_body (trim (relativePath names))
          rw [count_trim] at bound
          -- as many names stand as there are segments, so nothing was trimmed off or cancelled
          have whole := cancel_full cancelled (by rw [List.length_nil]; omega)
          rw [List.map_nil, List.nil_append, same] at whole
          exact eq_toText whole.symm (by rw [count_trim, List.length_map]; omega)
    · intro tight
      rw [tight, relativePath, body_toText (proper_names legal), cancel_names]
      rfl
  · push Not at plain
    obtain ⟨within, carries⟩ := plain
    rw [resolve_carriesHome carries, carries.join home]
    -- a path that begins with a separator has too few segments, and it would have been trimmed
    apply iff_of_false
    · intro accepted
      have same : within = names.map .normal := by simpa using accepted
      have bound := length_body_absolute carries.1
      obtain ⟨homeNames, canonical⟩ := home.names
      rw [carries.parsed canonical, same, count_trim, List.length_append, List.length_map, List.length_map] at bound
      omega
    · intro tight
      have absolute := carries.1
      rw [tight, relativePath_relative nonempty legal] at absolute
      cases absolute

end Listed

theorem resolve_listed_inner :
    resolve "/h".toList (relativePath ["a b".toList, "b".toList]) =
        .ok (components "/h".toList ++ ["a b".toList, "b".toList].map .normal) ↔
      Tight (relativePath ["a b".toList, "b".toList]) :=
  resolve_listed_iff ⟨by decide, by decide⟩ (by decide) (by decide)

theorem resolve_listed_elsewhere : ¬ ∀ (homeDir : Text) (names : List Name), IsHome homeDir → names ≠ [] →
    (∀ name ∈ names, IsName name ∧ '\x00' ∉ name) →
    resolve homeDir (relativePath names) = .ok (components homeDir ++ names.map .normal) := by
  intro addressed
  have accepted := addressed "/h".toList ["a ".toList] ⟨by decide, by decide⟩ (by decide) (by decide)
  exact absurd accepted (by decide)

section Virtual
variable {homeDir path : Text}

/-- Where an accepted request leads, below home: what follows the real home where the
request names it, or else the names that survive. -/
def below (homeDir path : Text) : PathBuf :=
  let request := components (trim path)
  if startsWith '/' (trim path) ∧ trimStartMatches '/' (trim path) ≠ [] ∧ components homeDir <+: request then
    request.drop (components homeDir).length
  else (survivors request).map .normal

theorem CarriesHome.below {within : PathBuf} (carries : CarriesHome homeDir path within) :
    below homeDir path = within := by
  obtain ⟨absolute, nonempty, same⟩ := carries
  have named : components homeDir <+: components (trim path) := ⟨within, same.symm⟩
  rw [Sftp.below, if_pos ⟨absolute, nonempty, named⟩, same, List.drop_left]

theorem below_plain (plain : ∀ within, ¬ CarriesHome homeDir path within) :
    below homeDir path = (survivors (components (trim path))).map .normal := by
  rw [below, if_neg]
  rintro ⟨absolute, nonempty, within, same⟩
  exact plain within ⟨absolute, nonempty, same.symm⟩

theorem resolve_shape (home : IsHome homeDir) {resolved : PathBuf} (accepted : resolve homeDir path = .ok resolved) :
    resolved = components homeDir ++ below homeDir path ∧ ∀ component ∈ below homeDir path, component.Proper := by
  by_cases plain : ∀ within, ¬ CarriesHome homeDir path within
  · rw [resolve_below home.components_ne_nil plain] at accepted
    cases cancelled : cancel [] (body (trim path)) with
    | none =>
        rw [cancelled] at accepted
        cases accepted
    | some names =>
        rw [cancelled] at accepted
        cases accepted
        obtain ⟨-, same⟩ := (cancel_body_iff _ names).mp cancelled
        rw [below_plain plain, ← same]
        refine ⟨rfl, fun component member => ?_⟩
        obtain ⟨name, listed, rfl⟩ := List.mem_map.mp member
        rcases mem_cancel cancelled listed with absent | parsed
        · cases absent
        · exact body_proper parsed
  · push Not at plain
    obtain ⟨within, carries⟩ := plain
    rw [resolve_carriesHome carries, carries.join home] at accepted
    cases accepted
    obtain ⟨homeNames, canonical⟩ := home.names
    rw [carries.below]
    refine ⟨rfl, fun component member => ?_⟩
    have parsed : component ∈ body (trim path) := by
      rw [carries.parsed canonical]
      exact List.mem_append_right _ member
    exact body_proper parsed

/-- A location below home that its own text leads to: the text does not end in white space,
and unless home is the root it holds no `..` and does not begin as home does. -/
def ReadsBack (homeDir : Text) (rest : PathBuf) : Prop :=
  rest = [] ∨
    (∀ c, rest.toText.getLast? = some c → isWhitespace c = false) ∧
      (components homeDir = [.rootDir] ∨ .parentDir ∉ rest ∧ ¬ (components homeDir).tail <+: rest)

theorem body_append (first second : Text) : body (first ++ '/' :: second) = body first ++ body second := by
  rw [body, List.splitOn_append_cons_self, List.filterMap_append]
  rfl

theorem pushText_absolute {text relative : Text} (absolute : startsWith '/' text = true)
    (below : startsWith '/' relative = false) : startsWith '/' (PathBuf.pushText text relative) = true ∧
      components (PathBuf.pushText text relative) = components text ++ body relative := by
  obtain ⟨first, others, rfl⟩ : ∃ first others, text = first :: others := by
    cases text with
    | nil => cases absolute
    | cons first others => exact ⟨first, others, rfl⟩
  have joined : startsWith '/' (PathBuf.pushText (first :: others) relative) = true ∧
      body (PathBuf.pushText (first :: others) relative) = body (first :: others) ++ body relative := by
    unfold PathBuf.pushText
    rw [below]
    split
    · next no => cases no
    · split
      · next ends =>
          refine ⟨absolute, ?_⟩
          obtain ⟨front, same⟩ := List.getLast?_eq_some_iff.mp (ends.resolve_left (by simp))
          have empty : body [] = [] := rfl
          rw [same, List.append_assoc, List.singleton_append, body_append, body_append, empty, List.append_nil]
      · exact ⟨absolute, body_append _ _⟩
  refine ⟨joined.1, ?_⟩
  rw [components_absolute joined.1, joined.2, components_absolute absolute, List.cons_append]

/-- Its text has the components of the location that is accepted. -/
theorem components_resolvedText (home : IsHome homeDir) {resolved : PathBuf}
    (accepted : resolve homeDir path = .ok resolved) : startsWith '/' (resolvedText homeDir path resolved) = true ∧
      components (resolvedText homeDir path resolved) = resolved := by
  obtain ⟨shape, proper⟩ := resolve_shape home accepted
  have joins : ∀ tail, startsWith '/' tail = false → body tail = below homeDir path →
      startsWith '/' (PathBuf.pushText homeDir tail) = true ∧ components (PathBuf.pushText homeDir tail) = resolved := by
    intro tail relative parsed
    rw [shape, ← parsed]
    exact pushText_absolute home.absolute relative
  dsimp only [resolvedText]
  by_cases plain : ∀ within, ¬ CarriesHome homeDir path within
  · rw [if_neg fun named => by
      obtain ⟨absolute, nonempty, within, same⟩ := named
      exact plain within ⟨absolute, nonempty, same.symm⟩]
    rw [shape, List.drop_left]
    rw [← shape]
    by_cases inside : below homeDir path = []
    · rw [inside]
      exact joins [] rfl (by rw [inside]; rfl)
    · have spells := spells_toText proper inside
      exact joins _ spells.relative spells.parsed
  · push Not at plain
    obtain ⟨within, carries⟩ := plain
    obtain ⟨absolute, nonempty, same⟩ := carries
    rw [if_pos ⟨absolute, nonempty, within, same.symm⟩]
    apply joins _ (relative_textBehind _ _)
    rw [CarriesHome.below ⟨absolute, nonempty, same⟩]
    rcases textBehind_cases absolute same home.components_ne_nil with ⟨rfl, ended⟩ | ⟨-, spells⟩
    · rw [ended]
      rfl
    · exact spells.parsed

/-- What a client sees of a location: the root, or the text of what is below home. -/
theorem virtualPath_cases {home rest : PathBuf} {text : Text} (lead : home ≠ []) (absolute : startsWith '/' text = true)
    (parsed : components text = home ++ rest) : rest = [] ∧ virtualPath home (home ++ rest) text = "/".toList ∨
      ∃ within, Spells within rest ∧ rest ≠ [] ∧ virtualPath home (home ++ rest) text = '/' :: within := by
  rw [virtualPath, PathBuf.stripPrefix_append]
  rcases textBehind_cases absolute parsed lead with ⟨same, ended⟩ | ⟨inside, spells⟩
  · exact .inl ⟨same, by rw [ended]⟩
  · refine .inr ⟨_, spells, inside, ?_⟩
    cases shape : PathBuf.textBehind home.length text with
    | nil =>
        rw [shape] at spells
        exact absurd spells.parsed.symm inside
    | cons first others => rfl

theorem startsWith_virtual (text : Text) : startsWith '/' (trim ('/' :: text)) = true := by
  rw [trim_separator]
  rfl

theorem body_virtual (text : Text) : body (trim ('/' :: text)) = body (text.rdropWhile isWhitespace) := by
  rw [trim_separator, body_separator]

theorem virtual_filled {text : Text} {rest : PathBuf} (inside : rest ≠ []) (whole : body (trim ('/' :: text)) = rest) :
    trimStartMatches '/' (trim ('/' :: text)) ≠ [] := by
  intro empty
  have same := body_trimStartMatches (trim ('/' :: text))
  rw [empty, whole] at same
  exact inside same.symm

section Spelled
variable {text : Text} {rest : PathBuf} (spells : Spells text rest)
include spells

theorem resolve_virtual_plain_iff (home : IsHome homeDir) (inside : rest ≠ [])
    (plain : ∀ within, ¬ CarriesHome homeDir ('/' :: text) within) :
    resolve homeDir ('/' :: text) = .ok (components homeDir ++ rest) ↔
      body (trim ('/' :: text)) = rest ∧
        (components homeDir = [.rootDir] ∨ .parentDir ∉ rest ∧ ¬ (components homeDir).tail <+: rest) := by
  have absolute := startsWith_virtual text
  have bound := spells.length_trimmed
  rw [← body_virtual] at bound
  obtain ⟨homeNames, canonical⟩ := home.names
  rw [resolve_below home.components_ne_nil plain]
  constructor
  · intro accepted
    cases cancelled : cancel [] (body (trim ('/' :: text))) with
    | none =>
        rw [cancelled] at accepted
        cases accepted
    | some names =>
        rw [cancelled] at accepted
        have same : names.map Component.normal = rest := by simpa using accepted
        have lengths := congrArg List.length same
        rw [List.length_map] at lengths
        have whole := cancel_full cancelled (by rw [List.length_nil]; omega)
        rw [List.map_nil, List.nil_append, same] at whole
        -- were home's own names at the front, the request would have named the real home
        refine ⟨whole.symm, .inr ⟨by simp [← same], ?_⟩⟩
        rintro ⟨within, begins⟩
        apply plain within
        refine ⟨absolute, virtual_filled inside whole.symm, ?_⟩
        rw [components_absolute absolute, ← whole, ← begins, canonical]
        rfl
  · rintro ⟨whole, root | ⟨straight, -⟩⟩
    · refine absurd ⟨absolute, virtual_filled inside whole, ?_⟩ (plain rest)
      rw [components_absolute absolute, whole, root]
      rfl
    · have relative : ∀ component ∈ rest, component = .parentDir ∨ ∃ name, component = .normal name :=
        fun component member => body_cases (spells.parsed ▸ member)
      obtain ⟨names, same⟩ := names_of_no_parent relative straight
      rw [whole, same, cancel_names]
      rfl

theorem resolve_virtual_carries_iff (home : IsHome homeDir) {within : PathBuf}
    (carries : CarriesHome homeDir ('/' :: text) within) :
    resolve homeDir ('/' :: text) = .ok (components homeDir ++ rest) ↔
      body (trim ('/' :: text)) = rest ∧
        (components homeDir = [.rootDir] ∨ .parentDir ∉ rest ∧ ¬ (components homeDir).tail <+: rest) := by
  have bound := spells.length_trimmed
  rw [← body_virtual] at bound
  obtain ⟨homeNames, canonical⟩ := home.names
  have parsed := carries.parsed canonical
  rw [resolve_carriesHome carries, carries.join home, Except.ok.injEq, List.append_cancel_left_eq]
  constructor
  · -- what follows home is all there is only where home has no names
    rintro rfl
    have lengths := congrArg List.length parsed
    rw [List.length_append, List.length_map] at lengths
    have none : homeNames = [] := List.eq_nil_of_length_eq_zero (by omega)
    subst none
    exact ⟨parsed, .inl canonical⟩
  · rintro ⟨whole, root | ⟨-, apart⟩⟩
    · have none : homeNames = [] := by simpa [canonical, PathBuf.ofNames] using root
      subst none
      exact parsed.symm.trans whole
    · refine absurd ⟨within, ?_⟩ apart
      rw [canonical, PathBuf.ofNames, List.tail_cons, ← parsed, whole]

end Spelled

/-- Whatever text spells a location below home, it leads back as the location's own text does. -/
theorem resolve_virtual_iff (home : IsHome homeDir) {text : Text} {rest : PathBuf}
    (absolute : startsWith '/' text = true) (parsed : components text = components homeDir ++ rest) :
    resolve homeDir (virtualPath (components homeDir) (components homeDir ++ rest) text) =
      .ok (components homeDir ++ rest) ↔ ReadsBack homeDir rest := by
  rcases virtualPath_cases home.components_ne_nil absolute parsed with ⟨rfl, root⟩ | ⟨within, spells, inside, seen⟩
  · have plain : ∀ within, ¬ CarriesHome homeDir "/".toList within := fun within carries => carries.2.1 rfl
    rw [root, resolve_below home.components_ne_nil plain]
    exact iff_of_true (by rfl) (.inl rfl)
  · rw [seen, ReadsBack, or_iff_right inside, ← spells.body_trimmed_iff, ← body_virtual]
    by_cases plain : ∀ behind, ¬ CarriesHome homeDir ('/' :: within) behind
    · exact resolve_virtual_plain_iff spells home inside plain
    · push Not at plain
      obtain ⟨behind, carries⟩ := plain
      exact resolve_virtual_carries_iff spells home carries

end Virtual

section Realpath
variable {env : RequestEnv} {session : Session}

def RoundTrips (env : RequestEnv) (session : Session) (id : UInt32) (path : Text) (resolved : PathBuf) : Prop :=
  ∃ virtual after, realpath env id path session = (.ok (.name id [⟨virtual, none⟩]), after) ∧
    resolve session.homeDir virtual = .ok resolved

theorem realpath_run (id : UInt32) {path : Text} {resolved : PathBuf}
    (canonical : ∀ found, session.fs.canonicalize env.os session.home = .ok found → found = session.home)
    (accepted : resolve session.homeDir path = .ok resolved) :
    realpath env id path session =
      (.ok (.name id [⟨virtualPath session.home resolved (resolvedText session.homeDir path resolved), none⟩]), session) := by
  have led : resolvePath path session = (.ok resolved, session) := by rw [resolvePath, Action.query_run, accepted]
  rw [realpath, Action.bind_run_ok led]
  cases found : session.fs.canonicalize env.os session.home with
  | ok home =>
      rw [← canonical home found]
      simp [Action.bind_run, canonical home found, found]
  | error why => simp [Action.bind_run, found]

/-- With a canonical home, what REALPATH answers leads back exactly when the location's own
text does. -/
theorem realpath_roundTrips_iff {id : UInt32} {path : Text} {resolved : PathBuf} (home : IsHome session.homeDir)
    (canonical : ∀ found, session.fs.canonicalize env.os session.home = .ok found → found = session.home)
    (accepted : resolve session.homeDir path = .ok resolved) :
    RoundTrips env session id path resolved ↔ ReadsBack session.homeDir (below session.homeDir path) := by
  obtain ⟨same, -⟩ := resolve_shape home accepted
  obtain ⟨absolute, parsed⟩ := components_resolvedText home accepted
  have ran := realpath_run id canonical accepted
  rw [← resolve_virtual_iff home absolute (parsed.trans same), ← same]
  constructor
  · rintro ⟨virtual, after, answered, back⟩
    rw [ran] at answered
    cases answered
    exact back
  · intro back
    exact ⟨_, _, ran, back⟩

theorem emptyHome_canonical (found : PathBuf)
    (canonicalized : emptyHome.fs.canonicalize .permissive emptyHome.home = .ok found) : found = emptyHome.home := by
  have itself : emptyHome.fs.canonicalize .permissive emptyHome.home = .ok emptyHome.home := rfl
  rw [itself] at canonicalized
  exact (Except.ok.inj canonicalized).symm

theorem realpath_roundTrips_inner :
    RoundTrips (permissiveEnv .default) emptyHome 1 "x".toList (.ofNames ["h".toList, "x".toList]) ↔
      ReadsBack emptyHome.homeDir (below emptyHome.homeDir "x".toList) :=
  realpath_roundTrips_iff ⟨by decide, by decide⟩ emptyHome_canonical (by decide)

/-- With home `/h`, the virtual path of `/h/h/x` is `/h/x`, which is taken as the real one. -/
theorem realpath_elsewhere : ¬ ∀ (env : RequestEnv) (session : Session) (id : UInt32) (path : Text) (resolved : PathBuf),
    IsHome session.homeDir →
    (∀ found, session.fs.canonicalize env.os session.home = .ok found → found = session.home) →
    resolve session.homeDir path = .ok resolved → RoundTrips env session id path resolved := by
  intro trips
  obtain ⟨virtual, after, answered, back⟩ := trips (permissiveEnv .default) emptyHome 1 "h/x".toList
    (.ofNames ["h".toList, "h".toList, "x".toList]) ⟨by decide, by decide⟩ emptyHome_canonical (by decide)
  have told : realpath (permissiveEnv .default) 1 "h/x".toList emptyHome =
      (.ok (.name 1 [⟨"/h/x".toList, none⟩]), emptyHome) := rfl
  rw [told] at answered
  cases answered
  exact absurd back (by decide)

end Realpath

end Wftpd.Sftp
