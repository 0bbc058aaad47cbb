import Mathlib

/-! Text and the paths of `std::path` on Unix.

A text is its sequence of Unicode scalar values. A path value is the list of
its components, which is what `std::path` compares, hashes and iterates: two
path values that differ only in repeated separators or in `.` components after
the first are equal there.
-/

set_option autoImplicit false

namespace Wftpd.Posix

abbrev Text := List Char

abbrev Name := Text

/-- The White_Space property, which `str::trim` removes at both ends. -/
def isWhitespace (c : Char) : Bool :=
  let code := c.toNat
  (9 ≤ code && code ≤ 13) || code == 32 || code == 0x85 || code == 0xA0 || code == 0x1680 ||
    (0x2000 ≤ code && code ≤ 0x200A) || code == 0x2028 || code == 0x2029 || code == 0x202F ||
    code == 0x205F || code == 0x3000

def trim (text : Text) : Text :=
  (text.dropWhile isWhitespace).rdropWhile isWhitespace

def trimStartMatches (mark : Char) (text : Text) : Text :=
  text.dropWhile (· == mark)

def startsWith (mark : Char) (text : Text) : Bool :=
  text.head? == some mark

/-- The length of the UTF-8 encoding, which is what `str::len` counts. -/
def utf8Length (text : Text) : Nat :=
  (text.map Char.utf8Size).sum

@[simp] theorem utf8Length_nil : utf8Length [] = 0 := rfl

@[simp] theorem utf8Length_append (front back : Text) : utf8Length (front ++ back) = utf8Length front + utf8Length back := by
  simp [utf8Length]

@[simp] theorem utf8Length_cons (c : Char) (rest : Text) : utf8Length (c :: rest) = c.utf8Size + utf8Length rest := by
  simp [utf8Length]

theorem utf8Length_mono {front text : Text} (isPrefix : front <+: text) : utf8Length front ≤ utf8Length text := by
  obtain ⟨back, rfl⟩ := isPrefix
  simp

theorem utf8Length_ascii {text : Text} (ascii : ∀ c ∈ text, c.utf8Size = 1) : utf8Length text = text.length := by
  rw [utf8Length, List.map_congr_left ascii, List.map_const', List.sum_replicate, smul_eq_mul, Nat.mul_one]

def encodeUtf8 (text : Text) : List UInt8 := text.flatMap String.utf8EncodeChar

def decodeUtf8 (bytes : List UInt8) : Option Text :=
  (ByteArray.mk bytes.toArray).utf8Decode?.map Array.toList

theorem utf8Encode_eq (text : Text) : text.utf8Encode = ByteArray.mk (encodeUtf8 text).toArray := by
  apply ByteArray.ext
  rw [List.utf8Encode, List.data_toByteArray]
  rfl

theorem decodeUtf8_encodeUtf8 (text : Text) : decodeUtf8 (encodeUtf8 text) = some text := by
  rw [decodeUtf8, ← utf8Encode_eq, List.utf8Decode?_utf8Encode]
  rfl

theorem decodeUtf8_some_iff {bytes : List UInt8} {text : Text} :
    decodeUtf8 bytes = some text ↔ bytes = encodeUtf8 text := by
  constructor
  · intro decoded
    obtain ⟨chars, valid, same⟩ := Option.map_eq_some_iff.mp decoded
    have encoded := @ByteArray.utf8Encode_get_utf8Decode? (ByteArray.mk bytes.toArray) (by rw [valid]; rfl)
    simp only [valid, Option.get_some, same, utf8Encode_eq, ByteArray.mk.injEq] at encoded
    simpa using encoded.symm
  · rintro rfl
    exact decodeUtf8_encodeUtf8 text

/-- `str::is_char_boundary`: some prefix is encoded in exactly this many bytes. -/
def isCharBoundary (text : Text) (offset : Nat) : Bool :=
  text.inits.any (utf8Length · == offset)

inductive Component where
  | rootDir
  | curDir
  | parentDir
  | normal (name : Name)
  deriving DecidableEq, Repr

abbrev PathBuf := List Component

/-- A segment between separators; `.` and empty segments are no component. -/
def segmentComponent : Text → Option Component
  | [] => none
  | ['.'] => none
  | ['.', '.'] => some .parentDir
  | name => some (.normal name)

/-- `Path::components`: a `.` counts only at the very start of a relative path. -/
def components (text : Text) : PathBuf :=
  let lead :=
    if startsWith '/' text then [Component.rootDir]
    else if (text.splitOn '/').head? == some ['.'] then [Component.curDir]
    else []
  lead ++ (text.splitOn '/').filterMap segmentComponent

def IsName (name : Name) : Prop :=
  name ≠ [] ∧ name ≠ ['.'] ∧ name ≠ ['.', '.'] ∧ '/' ∉ name

instance (name : Name) : Decidable (IsName name) := by unfold IsName; infer_instance

namespace PathBuf

def isAbsolute (path : PathBuf) : Bool :=
  path.head? == some .rootDir

def push (path relative : PathBuf) : PathBuf :=
  if isAbsolute relative then relative
  else if path = [] then relative
  else path ++ relative.filter (· != .curDir)

def join (path relative : PathBuf) : PathBuf := push path relative

def parent (path : PathBuf) : Option PathBuf :=
  match path.getLast? with
  | none | some .rootDir => none
  | some _ => some path.dropLast

def pop (path : PathBuf) : PathBuf :=
  (parent path).getD path

def stripPrefix (path base : PathBuf) : Option PathBuf :=
  if base <+: path then some (path.drop base.length) else none

def componentText : Component → Text
  | .rootDir => []
  | .curDir => ['.']
  | .parentDir => ['.', '.']
  | .normal name => name

/-- The text of a path, one separator between components. -/
def toText (path : PathBuf) : Text :=
  if path = [.rootDir] then ['/'] else List.intercalate ['/'] (path.map componentText)

/-- An absolute path of names only: what canonicalisation produces. -/
def ofNames (names : List Name) : PathBuf :=
  .rootDir :: names.map .normal

/-- `PathBuf::push` on the text: the separator between the parts is put in where none is. -/
def pushText (text relative : Text) : Text :=
  if startsWith '/' relative then relative
  else if text.getLast? = none ∨ text.getLast? = some '/' then text ++ relative
  else text ++ '/' :: relative

/-- The segments behind so many that are components; those in front that are none go too. -/
def dropSegments : Nat → List Text → List Text
  | _, [] => []
  | count, segment :: rest =>
      if segmentComponent segment = none then dropSegments count rest
      else match count with
        | 0 => segment :: rest
        | count + 1 => dropSegments count rest

/-- What `Path::strip_prefix` leaves of the text behind its first `count` components, the lead among them.
Between the components the text stays as it is. -/
def segmentsBehind (count : Nat) (text : Text) : List Text :=
  let segments := text.splitOn '/'
  let lead := (components text).length - (segments.filterMap segmentComponent).length
  (dropSegments (count - lead) segments).rdropWhile fun segment => segmentComponent segment = none

def textBehind (count : Nat) (text : Text) : Text := List.intercalate ['/'] (segmentsBehind count text)

@[simp] theorem stripPrefix_append (base rest : PathBuf) :
    stripPrefix (base ++ rest) base = some rest := by
  simp [stripPrefix]

theorem stripPrefix_eq_some {path base rest : PathBuf} :
    stripPrefix path base = some rest ↔ path = base ++ rest := by
  constructor
  · intro stripped
    unfold stripPrefix at stripped
    split at stripped
    · next isPrefix =>
        obtain ⟨tail, same⟩ := isPrefix
        subst path
        simpa using stripped
    · cases stripped
  · intro same
    subst path
    exact stripPrefix_append base rest

@[simp] theorem pop_append_normal (path : PathBuf) (name : Name) :
    pop (path ++ [.normal name]) = path := by
  simp [pop, parent]

@[simp] theorem push_normal (path : PathBuf) (name : Name) (nonempty : path ≠ []) :
    push path [.normal name] = path ++ [.normal name] := by
  simp [push, isAbsolute, nonempty]

theorem join_name (path : PathBuf) (name : Name) : path.join [.normal name] = path ++ [.normal name] := by
  by_cases empty : path = []
  · subst path
    rfl
  · exact push_normal path name empty

@[simp] theorem ofNames_ne_nil (names : List Name) : ofNames names ≠ [] := by
  simp [ofNames]

theorem ofNames_append (first second : List Name) :
    ofNames (first ++ second) = ofNames first ++ second.map .normal := by
  simp [ofNames]

end PathBuf

/-- Past the first component only names and `..` remain. -/
theorem segmentComponent_cases {segment : Text} {component : Component}
    (parsed : segmentComponent segment = some component) :
    component = .parentDir ∨ ∃ name, component = .normal name := by
  unfold segmentComponent at parsed
  split at parsed
  · cases parsed
  · cases parsed
  · exact .inl (Option.some.inj parsed).symm
  · exact .inr ⟨_, (Option.some.inj parsed).symm⟩

/-- The components of a text after its lead. -/
def body (text : Text) : PathBuf := (text.splitOn '/').filterMap segmentComponent

theorem body_cases {text : Text} {component : Component} (member : component ∈ body text) :
    component = .parentDir ∨ ∃ name, component = .normal name := by
  obtain ⟨segment, -, parsed⟩ := List.mem_filterMap.mp member
  exact segmentComponent_cases parsed

theorem components_absolute {text : Text} (absolute : startsWith '/' text = true) :
    components text = .rootDir :: body text := by
  simp [components, absolute, body]

theorem components_relative {text : Text} (relative : startsWith '/' text = false) :
    components text = body text ∨ components text = .curDir :: body text := by
  simp only [components, relative, Bool.false_eq_true, if_false]
  split
  · exact .inr rfl
  · exact .inl rfl

theorem components_relative_filter {text : Text} (relative : startsWith '/' text = false) :
    (components text).filter (· != .curDir) = body text := by
  have kept : (body text).filter (· != .curDir) = body text := by
    apply List.filter_eq_self.mpr
    intro component member
    rcases body_cases member with same | ⟨name, same⟩ <;> simp [same]
  rcases components_relative relative with same | same
  · rw [same, kept]
  · rw [same, List.filter_cons_of_neg (by simp), kept]

theorem components_relative_not_absolute {text : Text} (relative : startsWith '/' text = false) :
    PathBuf.isAbsolute (components text) = false := by
  rcases components_relative relative with same | same
  · rw [same]
    cases shape : body text with
    | nil => rfl
    | cons first rest =>
        have member : first ∈ body text := by simp [shape]
        rcases body_cases member with isParent | ⟨name, isName⟩
        · simp [PathBuf.isAbsolute, isParent]
        · simp [PathBuf.isAbsolute, isName]
  · simp [same, PathBuf.isAbsolute]

theorem join_relative {base : PathBuf} {text : Text} (nonempty : base ≠ [])
    (relative : startsWith '/' text = false) :
    PathBuf.join base (components text) = base ++ body text := by
  simp [PathBuf.join, PathBuf.push, components_relative_not_absolute relative, nonempty,
    components_relative_filter relative]

theorem trimStartMatches_relative (mark : Char) (text : Text) :
    startsWith mark (trimStartMatches mark text) = false := by
  induction text with
  | nil => rfl
  | cons first rest ih =>
      by_cases same : first = mark
      · simpa [trimStartMatches, List.dropWhile_cons, same] using ih
      · simp [trimStartMatches, startsWith, same]

theorem body_separator (text : Text) : body ('/' :: text) = body text := by
  have split : ('/' :: text).splitOn '/' = [] :: text.splitOn '/' := by
    simp [List.splitOn_cons_eq_if_modifyHead]
  unfold body
  rw [split]
  rfl

theorem body_trimStartMatches (text : Text) : body (trimStartMatches '/' text) = body text := by
  induction text with
  | nil => rfl
  | cons first rest ih =>
      by_cases same : first = '/'
      · subst first
        rw [body_separator, ← ih]
        simp [trimStartMatches]
      · simp [trimStartMatches, same]

end Wftpd.Posix
