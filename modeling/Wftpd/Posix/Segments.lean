import Wftpd.Posix.Path

/-! A path text and the segments between its separators.

Trimming takes no separator away, so a text has as many segments after it as before. Where
each of them is a component, the components are the whole text.
-/

set_option autoImplicit false

namespace Wftpd.Posix
open PathBuf

section Splitting
variable {α β : Type}

theorem length_splitOn [BEq α] [LawfulBEq α] (mark : α) (text : List α) :
    (text.splitOn mark).length = text.count mark + 1 := by
  induction text with
  | nil => simp
  | cons first rest ih =>
      rw [List.splitOn_cons_eq_if_modifyHead, List.count_cons]
      split
      · rw [List.length_cons, ih]
      · rw [List.length_modifyHead, ih]

theorem not_mem_of_mem_splitOn [BEq α] [LawfulBEq α] {mark : α} {text segment : List α}
    (member : segment ∈ text.splitOn mark) : mark ∉ segment := by
  induction text generalizing segment with
  | nil =>
      rw [List.splitOn_nil, List.mem_singleton] at member
      subst member
      exact List.not_mem_nil
  | cons first rest ih =>
      rw [List.splitOn_cons_eq_if_modifyHead] at member
      split at member
      · rcases List.mem_cons.mp member with rfl | later
        · exact List.not_mem_nil
        · exact ih later
      · next apart =>
          obtain ⟨head, tail, shape⟩ := List.exists_cons_of_ne_nil (List.splitOn_ne_nil mark rest)
          rw [shape, List.modifyHead_cons] at member
          rcases List.mem_cons.mp member with rfl | later
          · have within : mark ∉ head := ih (by simp [shape])
            intro here
            rcases List.mem_cons.mp here with same | inHead
            · exact apart (by simp [same])
            · exact within inHead
          · exact ih (by simp [shape, later])

/-- Where a selection loses nothing, the list can be read back from what is selected. -/
theorem eq_map_of_filterMap {select : α → Option β} {back : β → α}
    (reads : ∀ item value, select item = some value → back value = item) {list : List α} {chosen : List β}
    (selected : list.filterMap select = chosen) (whole : list.length ≤ chosen.length) : list = chosen.map back := by
  induction list generalizing chosen with
  | nil =>
      cases selected
      rfl
  | cons first rest ih =>
      cases found : select first with
      | none =>
          -- one item lost would leave too few chosen
          rw [List.filterMap_cons_none found] at selected
          have bound := List.length_filterMap_le select rest
          rw [selected] at bound
          rw [List.length_cons] at whole
          omega
      | some value =>
          rw [List.filterMap_cons_some found] at selected
          subst selected
          rw [List.map_cons, reads first value found, ← ih rfl (by simpa using whole)]

theorem rdropWhile_last {p : α → Bool} {list front : List α} {last : α} (same : list.rdropWhile p = front ++ [last]) :
    p last = false := by
  have kept := List.rdropWhile_last_not p list (by rw [same]; simp)
  simpa [same] using kept

theorem count_dropWhile {p : α → Bool} [BEq α] [LawfulBEq α] {mark : α} (kept : p mark = false) (text : List α) :
    (text.dropWhile p).count mark = text.count mark := by
  induction text with
  | nil => rfl
  | cons first rest ih =>
      rw [List.dropWhile_cons]
      split
      · next dropped =>
          have apart : first ≠ mark := by
            rintro rfl
            rw [kept] at dropped
            cases dropped
          rw [ih, List.count_cons_of_ne apart]
      · rfl

end Splitting

section Trim

theorem separator_not_whitespace : isWhitespace '/' = false := by decide

theorem count_trim (text : Text) : (trim text).count '/' = text.count '/' := by
  rw [trim, List.rdropWhile, List.count_reverse, count_dropWhile separator_not_whitespace, List.count_reverse,
    count_dropWhile separator_not_whitespace]

/-- White space stands neither at the front nor at the end. -/
def Tight (text : Text) : Prop :=
  (∀ c, text.head? = some c → isWhitespace c = false) ∧ ∀ c, text.getLast? = some c → isWhitespace c = false

theorem rdropWhile_whitespace_iff (text : Text) :
    text.rdropWhile isWhitespace = text ↔ ∀ c, text.getLast? = some c → isWhitespace c = false := by
  rw [List.rdropWhile_eq_self_iff]
  rcases List.eq_nil_or_concat text with rfl | ⟨earlier, last, rfl⟩ <;> simp

theorem trim_eq_self_iff (text : Text) : trim text = text ↔ Tight text := by
  have front : text.dropWhile isWhitespace = text ↔ ∀ c, text.head? = some c → isWhitespace c = false := by
    cases text with
    | nil => simp
    | cons first rest => simp [List.dropWhile_eq_self_iff]
  rw [Tight, ← front, ← rdropWhile_whitespace_iff, trim]
  constructor
  · intro same
    -- neither half may take anything away
    have short := (List.dropWhile_suffix isWhitespace (l := text)).length_le
    have shorter := (List.rdropWhile_prefix isWhitespace (text.dropWhile isWhitespace)).length_le
    rw [same] at shorter
    have whole : text.dropWhile isWhitespace = text :=
      (List.dropWhile_suffix isWhitespace).eq_of_length (Nat.le_antisymm short shorter)
    exact ⟨whole, by rwa [whole] at same⟩
  · rintro ⟨front, back⟩
    rw [front, back]

theorem trim_separator (text : Text) : trim ('/' :: text) = '/' :: text.rdropWhile isWhitespace := by
  have front : ('/' :: text).dropWhile isWhitespace = '/' :: text := by
    rw [List.dropWhile_cons, separator_not_whitespace]
    rfl
  rw [trim, front, List.rdropWhile, List.reverse_cons, List.dropWhile_append]
  split
  · next blank =>
      rw [List.isEmpty_iff] at blank
      simp [List.rdropWhile, blank, separator_not_whitespace]
  · simp [List.rdropWhile]

end Trim

section Components

/-- What can follow the lead of a path. -/
def Component.Proper : Component → Prop
  | .parentDir => True
  | .normal name => IsName name
  | .rootDir | .curDir => False

theorem Component.Proper.cases {component : Component} (proper : component.Proper) :
    component = .parentDir ∨ ∃ name, component = .normal name := by
  cases component with
  | rootDir => cases proper
  | curDir => cases proper
  | parentDir => exact .inl rfl
  | normal name => exact .inr ⟨name, rfl⟩

theorem componentText_of_segment {segment : Text} {component : Component}
    (parsed : segmentComponent segment = some component) : componentText component = segment := by
  unfold segmentComponent at parsed
  split at parsed
  · cases parsed
  · cases parsed
  · cases parsed
    rfl
  · cases parsed
    rfl

theorem Component.Proper.parsed {component : Component} (proper : component.Proper) :
    segmentComponent (componentText component) = some component := by
  cases component with
  | rootDir => cases proper
  | curDir => cases proper
  | parentDir => rfl
  | normal name =>
      obtain ⟨nonempty, notDot, notDots, -⟩ := proper
      rw [componentText]
      unfold segmentComponent
      split
      · exact absurd rfl nonempty
      · exact absurd rfl notDot
      · exact absurd rfl notDots
      · rfl

theorem Component.Proper.plain {component : Component} (proper : component.Proper) :
    '/' ∉ componentText component := by
  cases component with
  | rootDir => cases proper
  | curDir => cases proper
  | parentDir => decide
  | normal name => exact proper.2.2.2

theorem body_proper {text : Text} {component : Component} (member : component ∈ body text) : component.Proper := by
  obtain ⟨segment, listed, parsed⟩ := List.mem_filterMap.mp member
  have plain := not_mem_of_mem_splitOn listed
  unfold segmentComponent at parsed
  split at parsed
  · cases parsed
  · cases parsed
  · cases parsed
    trivial
  · next nonempty notDot notDots =>
      cases parsed
      exact ⟨nonempty, notDot, notDots, plain⟩

variable {path : PathBuf} (proper : ∀ component ∈ path, component.Proper)
include proper

theorem toText_proper : path.toText = List.intercalate ['/'] (path.map componentText) := by
  have relative : path ≠ [.rootDir] := by
    rintro rfl
    exact proper .rootDir (by simp)
  rw [PathBuf.toText, if_neg relative]

theorem splitOn_toText (nonempty : path ≠ []) : path.toText.splitOn '/' = path.map componentText := by
  rw [toText_proper proper]
  apply List.splitOn_intercalate
  · intro segment member
    obtain ⟨component, listed, rfl⟩ := List.mem_map.mp member
    exact (proper component listed).plain
  · simpa using nonempty

theorem body_toText : body path.toText = path := by
  by_cases nonempty : path = []
  · subst nonempty
    rfl
  · rw [body, splitOn_toText proper nonempty, List.filterMap_map]
    have all : path.filterMap (segmentComponent ∘ componentText) = path.filterMap some :=
      List.filterMap_congr fun component member => (proper component member).parsed
    rw [all, List.filterMap_some]

theorem count_toText (nonempty : path ≠ []) : path.toText.count '/' + 1 = path.length := by
  rw [← length_splitOn, splitOn_toText proper nonempty, List.length_map]

omit proper

theorem splitOn_name {name : Name} (isName : IsName name) : name.splitOn '/' = [name] := by
  have proper : ∀ component ∈ [Component.normal name], component.Proper := fun component member => by
    rw [List.mem_singleton.mp member]
    exact isName
  have text : PathBuf.toText [.normal name] = name := by
    rw [toText_proper proper]
    simp [List.intercalate, componentText]
  rw [← text, splitOn_toText proper (List.cons_ne_nil _ _), text]
  rfl

theorem components_name {name : Name} (isName : IsName name) : components name = [.normal name] := by
  have parsed : segmentComponent name = some (.normal name) := @Component.Proper.parsed (.normal name) isName
  have relative : startsWith '/' name = false := by
    cases name with
    | nil => rfl
    | cons first rest =>
        have apart : first ≠ '/' := fun same => isName.2.2.2 (same ▸ List.mem_cons_self)
        simpa [startsWith] using apart
  rw [components, relative, splitOn_name isName]
  simp [parsed, isName.2.1]

/-- A text with no more segments than components is the text of these. -/
theorem eq_toText {text : Text} (parsed : body text = path) (short : text.count '/' < path.length) :
    text = path.toText := by
  have proper : ∀ component ∈ path, component.Proper := fun _ member => body_proper (parsed ▸ member)
  have whole : (text.splitOn '/').length ≤ path.length := by
    rw [length_splitOn]
    exact short
  have segments : text.splitOn '/' = path.map componentText :=
    eq_map_of_filterMap (fun _ _ found => componentText_of_segment found) parsed whole
  rw [toText_proper proper, ← segments, List.intercalate_splitOn]

end Components

section Behind

theorem filterMap_dropSegments (count : Nat) (segments : List Text) :
    (dropSegments count segments).filterMap segmentComponent = (segments.filterMap segmentComponent).drop count := by
  induction segments generalizing count with
  | nil => simp [dropSegments]
  | cons segment rest ih =>
      cases parsed : segmentComponent segment with
      | none =>
          rw [dropSegments.eq_def]
          simp only [parsed, if_true, List.filterMap_cons_none parsed]
          exact ih count
      | some component =>
          rw [dropSegments.eq_def]
          simp only [parsed, reduceCtorEq, if_false, List.filterMap_cons_some parsed]
          cases count with
          | zero => exact List.filterMap_cons_some parsed
          | succ count => exact ih count

theorem dropSegments_suffix (count : Nat) (segments : List Text) : dropSegments count segments <:+ segments := by
  induction segments generalizing count with
  | nil => exact List.suffix_rfl
  | cons segment rest ih =>
      unfold dropSegments
      split
      · exact (ih count).trans (List.suffix_cons segment rest)
      · cases count with
        | zero => exact List.suffix_rfl
        | succ count => exact (ih count).trans (List.suffix_cons segment rest)

theorem dropSegments_head (count : Nat) (segments : List Text) :
    ∀ segment, (dropSegments count segments).head? = some segment → segmentComponent segment ≠ none := by
  induction segments generalizing count with
  | nil => simp [dropSegments]
  | cons first rest ih =>
      intro segment found
      rw [dropSegments.eq_def] at found
      by_cases skipped : segmentComponent first = none
      · simp only [skipped, if_true] at found
        exact ih count segment found
      · simp only [skipped, if_false] at found
        cases count with
        | zero =>
            cases found
            exact skipped
        | succ count => exact ih count segment found

theorem filterMap_rdropWhile (segments : List Text) :
    (segments.rdropWhile fun segment => segmentComponent segment = none).filterMap segmentComponent =
      segments.filterMap segmentComponent := by
  induction segments using List.reverseRecOn with
  | nil => rfl
  | append_singleton segments last ih =>
      by_cases skipped : segmentComponent last = none
      · rw [List.rdropWhile_concat_pos _ _ _ (by simpa using skipped), ih, List.filterMap_append,
          List.filterMap_cons_none skipped, List.filterMap_nil, List.append_nil]
      · rw [List.rdropWhile_concat_neg _ _ _ (by simpa using skipped)]

theorem intercalate_concat (mark : Char) (front : List Text) (last : Text) :
    List.intercalate [mark] (front ++ [last]) = front.flatMap (· ++ [mark]) ++ last := by
  induction front with
  | nil => exact List.intercalate_singleton
  | cons first rest ih =>
      rw [List.cons_append, List.intercalate_cons_of_ne_nil (by simp), ih, List.flatMap_cons, List.append_assoc,
        List.append_assoc, List.append_assoc]

/-- The text is that of the path, with nothing before its first component or behind its last one. -/
structure Spells (text : Text) (path : PathBuf) : Prop where
  parsed : body text = path
  relative : startsWith '/' text = false
  ended : ∃ front last, (∀ segment ∈ front ++ [last], '/' ∉ segment) ∧
    text = front.flatMap (· ++ ['/']) ++ last ∧ segmentComponent last ≠ none

theorem splitOn_segments {front : List Text} {last : Text} (plain : ∀ segment ∈ front ++ [last], '/' ∉ segment) :
    (front.flatMap (· ++ ['/']) ++ last).splitOn '/' = front ++ [last] := by
  rw [← intercalate_concat]
  exact List.splitOn_intercalate '/' plain (by simp)

/-- A text begins as its first segment does, which is no separator where that is a component. -/
theorem relative_intercalate {segments : List Text} (plain : ∀ segment ∈ segments, '/' ∉ segment)
    (begins : ∀ segment, segments.head? = some segment → segmentComponent segment ≠ none) :
    startsWith '/' (List.intercalate ['/'] segments) = false := by
  cases segments with
  | nil => rfl
  | cons first rest =>
      have stays := begins first rfl
      cases first with
      | nil => exact absurd rfl stays
      | cons c others =>
          have apart : c ≠ '/' := by
            rintro rfl
            exact plain _ List.mem_cons_self List.mem_cons_self
          rw [List.intercalate_cons_cons_left]
          simpa [startsWith] using apart

theorem spells_toText {path : PathBuf} (proper : ∀ component ∈ path, component.Proper) (nonempty : path ≠ []) :
    Spells path.toText path := by
  refine ⟨body_toText proper, ?_, ?_⟩
  · rw [toText_proper proper]
    apply relative_intercalate
    · intro segment member
      obtain ⟨component, listed, rfl⟩ := List.mem_map.mp member
      exact (proper component listed).plain
    · intro segment first
      obtain ⟨component, isFirst, rfl⟩ := Option.map_eq_some_iff.mp (List.head?_map ▸ first)
      rw [(proper component (List.mem_of_head? isFirst)).parsed]
      exact Option.some_ne_none component
  obtain ⟨front, last, rfl⟩ := (List.eq_nil_or_concat path).resolve_left nonempty
  rw [List.concat_eq_append] at proper ⊢
  have isLast : last ∈ front ++ [last] := by simp
  refine ⟨front.map componentText, componentText last, ?_, ?_, ?_⟩
  · intro segment member
    rw [← List.map_singleton, ← List.map_append] at member
    obtain ⟨component, listed, rfl⟩ := List.mem_map.mp member
    exact (proper component listed).plain
  · rw [toText_proper proper, List.map_append, List.map_singleton, intercalate_concat]
  · rw [(proper last isLast).parsed]
    exact Option.some_ne_none last

theorem segmentsBehind_last (count : Nat) (text : Text) : segmentsBehind count text = [] ∨
    ∃ front last, segmentsBehind count text = front ++ [last] ∧ segmentComponent last ≠ none := by
  rcases List.eq_nil_or_concat (segmentsBehind count text) with none | ⟨front, last, same⟩
  · exact .inl none
  · rw [List.concat_eq_append] at same
    have kept := rdropWhile_last same
    exact .inr ⟨front, last, same, by simpa using kept⟩

theorem segmentsBehind_plain {count : Nat} {text segment : Text} (member : segment ∈ segmentsBehind count text) :
    '/' ∉ segment :=
  not_mem_of_mem_splitOn ((dropSegments_suffix _ _).subset ((List.rdropWhile_prefix _ _).subset member))

theorem relative_textBehind (count : Nat) (text : Text) : startsWith '/' (textBehind count text) = false := by
  apply relative_intercalate fun segment member => segmentsBehind_plain member
  intro segment first
  have begins : [segment] <+: segmentsBehind count text := List.singleton_prefix_iff_head?_eq_some.mpr first
  exact dropSegments_head _ _ segment
    (List.singleton_prefix_iff_head?_eq_some.mp (begins.trans (List.rdropWhile_prefix _ _)))

theorem filterMap_segmentsBehind {text : Text} (absolute : startsWith '/' text = true) {base rest : PathBuf}
    (parsed : components text = base ++ rest) (lead : base ≠ []) :
    (segmentsBehind base.length text).filterMap segmentComponent = rest := by
  have shape := components_absolute absolute
  obtain ⟨first, others, rfl⟩ := List.exists_cons_of_ne_nil lead
  have split : body text = others ++ rest := by
    rw [shape, List.cons_append] at parsed
    exact (List.cons.inj parsed).2
  have one : (components text).length - (body text).length = 1 := by
    rw [shape, List.length_cons]
    omega
  rw [segmentsBehind, filterMap_rdropWhile, filterMap_dropSegments, ← body, one, split, List.length_cons,
    Nat.add_sub_cancel, List.drop_left]

/-- What stands behind the first components of an absolute path spells the others. -/
theorem textBehind_cases {text : Text} (absolute : startsWith '/' text = true) {base rest : PathBuf}
    (parsed : components text = base ++ rest) (lead : base ≠ []) :
    rest = [] ∧ textBehind base.length text = [] ∨ rest ≠ [] ∧ Spells (textBehind base.length text) rest := by
  have whole := filterMap_segmentsBehind absolute parsed lead
  rcases segmentsBehind_last base.length text with none | ⟨front, last, segments, stays⟩
  · rw [none] at whole
    exact .inl ⟨whole.symm, by rw [textBehind, none]; rfl⟩
  · have plain : ∀ segment ∈ front ++ [last], '/' ∉ segment := fun segment member =>
      segmentsBehind_plain (segments ▸ member)
    have relative := relative_textBehind base.length text
    rw [textBehind, segments, intercalate_concat] at relative ⊢
    rw [segments] at whole
    refine .inr ⟨?_, ⟨?_, relative, front, last, plain, rfl, stays⟩⟩
    · rintro rfl
      exact stays (List.filterMap_eq_nil_iff.mp whole last (by simp))
    · rw [body, splitOn_segments plain, whole]

namespace Spells
variable {text : Text} {path : PathBuf} (spells : Spells text path)
include spells

/-- Trimming can only change the last component. -/
theorem trimmed : ∃ front last, path = front ++ [last] ∧ text.getLast? = (componentText last).getLast? ∧
    body (text.rdropWhile isWhitespace) =
      front ++ (segmentComponent ((componentText last).rdropWhile isWhitespace)).toList := by
  obtain ⟨front, last, plain, rfl, stays⟩ := spells.ended
  obtain ⟨component, single⟩ := Option.ne_none_iff_exists'.mp stays
  have filled : last ≠ [] := fun empty => stays (by rw [empty]; rfl)
  have parsed : ∀ tail, (∀ segment ∈ front ++ [tail], '/' ∉ segment) →
      body (front.flatMap (· ++ ['/']) ++ tail) = front.filterMap segmentComponent ++ (segmentComponent tail).toList := by
    intro tail plain
    rw [body, splitOn_segments plain, List.filterMap_append]
    cases single : segmentComponent tail with
    | none => rw [List.filterMap_cons_none single]; rfl
    | some component => rw [List.filterMap_cons_some single]; rfl
  have trims : (front.flatMap (· ++ ['/']) ++ last).rdropWhile isWhitespace =
      front.flatMap (· ++ ['/']) ++ last.rdropWhile isWhitespace := by
    rcases List.eq_nil_or_concat front with rfl | ⟨earlier, before, rfl⟩
    · rfl
    · have mark : isWhitespace '/' = false := separator_not_whitespace
      rw [List.concat_eq_append, List.flatMap_append, List.flatMap_singleton]
      simp only [List.rdropWhile, List.reverse_append, List.dropWhile_append, List.reverse_singleton]
      split
      · next blank =>
          rw [List.isEmpty_iff] at blank
          simp [blank, mark]
      · simp
  have whole := parsed last plain
  rw [spells.parsed, single] at whole
  have back := componentText_of_segment single
  refine ⟨front.filterMap segmentComponent, component, whole, ?_, ?_⟩
  · rw [back, List.getLast?_append_of_ne_nil _ filled]
  · rw [back, trims, parsed]
    intro segment member
    rcases List.mem_append.mp member with inFront | isLast
    · exact plain segment (List.mem_append_left _ inFront)
    · rw [List.mem_singleton.mp isLast]
      exact fun here => plain last (by simp) ((List.rdropWhile_prefix _ _).subset here)

theorem length_trimmed : (body (text.rdropWhile isWhitespace)).length ≤ path.length := by
  obtain ⟨front, last, rfl, -, trimmed⟩ := spells.trimmed
  rw [trimmed, List.length_append, List.length_append]
  cases segmentComponent ((componentText last).rdropWhile isWhitespace) <;> simp

/-- The components come back as long as nothing is trimmed. -/
theorem body_trimmed_iff : body (text.rdropWhile isWhitespace) = path ↔
    ∀ c, path.toText.getLast? = some c → isWhitespace c = false := by
  have proper : ∀ component ∈ path, component.Proper := fun _ member => body_proper (spells.parsed ▸ member)
  obtain ⟨front, last, rfl, -, trimmed⟩ := spells.trimmed
  obtain ⟨front', last', same, ends, -⟩ := (spells_toText proper (by simp)).trimmed
  obtain ⟨-, single⟩ := List.append_inj' same rfl
  cases single
  rw [trimmed, ends, ← rdropWhile_whitespace_iff, List.append_right_inj]
  constructor
  · intro kept
    cases parsed : segmentComponent ((componentText last).rdropWhile isWhitespace) with
    | none =>
        rw [parsed] at kept
        cases kept
    | some component =>
        rw [parsed] at kept
        cases kept
        exact (componentText_of_segment parsed).symm
  · intro whole
    rw [whole, (proper last (by simp)).parsed]
    rfl

end Spells

end Behind

end Wftpd.Posix
