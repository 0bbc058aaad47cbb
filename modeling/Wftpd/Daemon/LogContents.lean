import Wftpd.Daemon.Logs

/-! Which entries of a log the control interface returns, and in which order. -/

set_option autoImplicit false

namespace Wftpd.Daemon.Logs
open Wftpd.Posix Wftpd.Common Wftpd.Library

section Entries
variable {β : Type} {parse : Text → Option β} {content : List Line} {count : Nat}

def Line.held (parse : Text → Option β) : Line → Option β
  | .text line => parse line
  | .invalid => none

def entries (parse : Text → Option β) (content : List Line) : List β := content.filterMap (·.held parse)

/-- What stands from the first line on that is not UTF-8. -/
def behind (content : List Line) : List Line := content.drop (readable content).length

theorem readable_append_behind (content : List Line) : (readable content).map .text ++ behind content = content := by
  induction content with
  | nil => rfl
  | cons line rest ih =>
      cases line with
      | text line => simpa [readable, behind] using ih
      | invalid => rfl

theorem entries_eq (parse : Text → Option β) (content : List Line) :
    entries parse content = (readable content).filterMap parse ++ entries parse (behind content) := by
  have whole := readable_append_behind content
  have texts : ((readable content).map Line.text).filterMap (·.held parse) = (readable content).filterMap parse := by
    rw [List.filterMap_map]
    rfl
  rw [entries, ← whole, List.filterMap_append, texts, whole]
  rfl

/-- Parsing the last lines gives the last entries exactly when the lines hold enough of them. -/
theorem filterMap_rtake_iff {lines : List Text} :
    (lines.rtake count).filterMap parse = (lines.filterMap parse).rtake count ↔
      (∀ line ∈ lines.rtake count, (parse line).isSome = true) ∨ ∀ line ∈ lines.rdrop count, parse line = none := by
  have length := rtake_length lines count
  have fewer : ((lines.rtake count).filterMap parse).length ≤ (lines.rtake count).length := List.length_filterMap_le _ _
  have split : lines.filterMap parse = (lines.rdrop count).filterMap parse ++ (lines.rtake count).filterMap parse := by
    rw [← List.filterMap_append, rdrop_append_rtake]
  have early : (lines.rdrop count).filterMap parse = [] ↔ ∀ line ∈ lines.rdrop count, parse line = none :=
    List.filterMap_eq_nil_iff
  have kept : ((lines.rtake count).filterMap parse).rtake count = (lines.rtake count).filterMap parse :=
    rtake_of_length_le (by omega)
  rw [split, rtake_append, kept, List.self_eq_append_left, rtake_eq_nil_iff, ← early, ← List.filterMap_length_eq_length]
  constructor
  · rintro (full | none)
    · exact .inl (by omega)
    · exact .inr none
  · rintro (all | none)
    · by_cases short : lines.length < count
      · -- there are no lines before the last ones
        have nothing : lines.rdrop count = [] := by
          rw [List.rdrop, Nat.sub_eq_zero_of_le (Nat.le_of_lt short), List.take_zero]
        exact .inr (by rw [nothing]; rfl)
      · exact .inl (by omega)
    · exact .inr none

/-- No line that cannot be parsed is among the last ones that can be read, unless nothing before
them can be either; and behind a line that is not UTF-8 there are no entries, or none that are not
as those before it. -/
structure Unhidden (parse : Text → Option β) (content : List Line) (count : Nat) : Prop where
  parseable : (∀ line ∈ (readable content).rtake count, (parse line).isSome = true) ∨
    ∀ line ∈ (readable content).rdrop count, parse line = none
  decodable : entries parse (behind content) = [] ∨
    (entries parse content).rtake count = ((readable content).filterMap parse).rtake count

theorem last_entries_iff : ((readable content).rtake count).filterMap parse =
    (entries parse content).rtake (min count (entries parse content).length) ↔ Unhidden parse content count := by
  rw [rtake_min_length]
  have isSuffix : ((readable content).rtake count).filterMap parse <:+ (readable content).filterMap parse :=
    (rtake_suffix _ _).filterMap parse
  have fewer : (((readable content).rtake count).filterMap parse).length ≤ min count (readable content).length := by
    rw [← rtake_length]
    exact List.length_filterMap_le _ _
  constructor
  · intro last
    have length := congrArg List.length last
    rw [rtake_length, entries_eq, List.length_append] at length
    have most := isSuffix.length_le
    have keeps : Keeps count ((readable content).filterMap parse) (((readable content).rtake count).filterMap parse) :=
      ⟨isSuffix, by omega⟩
    exact ⟨filterMap_rtake_iff.mp keeps.eq_rtake, .inr (last.symm.trans keeps.eq_rtake)⟩
  · intro unhidden
    rw [filterMap_rtake_iff.mpr unhidden.parseable]
    rcases unhidden.decodable with none | same
    · rw [entries_eq, none, List.append_nil]
    · exact same.symm

end Entries

/-- Both readers return the last entries of a file exactly when no line hides one. -/
theorem read_logs_exact_iff (fromStr : Text → Option Value) (display : Value → Text) (content : List Line) (count : Nat) :
    (readProgramLog fromStr display (some content) count =
        (entries (parseProgramLine fromStr display) content).rtake
          (min count (entries (parseProgramLine fromStr display) content).length) ↔
      Unhidden (parseProgramLine fromStr display) content count) ∧
    (readFileOpLog fromStr (some content) count =
        (entries (parseFileOpLine fromStr) content).rtake
          (min count (entries (parseFileOpLine fromStr) content).length) ↔
      Unhidden (parseFileOpLine fromStr) content count) := by
  rw [readProgramLog, readFileOpLog, tailLines_eq]
  exact ⟨last_entries_iff, last_entries_iff⟩

/-- A line that is not UTF-8 hides the entry after it. -/
theorem invalid_line_hides : ¬ ∀ (fromStr : Text → Option Value) (display : Value → Text) (content : List Line) (count : Nat),
    readProgramLog fromStr display (some content) count =
        (entries (parseProgramLine fromStr display) content).rtake
          (min count (entries (parseProgramLine fromStr display) content).length) ∧
      readFileOpLog fromStr (some content) count =
        (entries (parseFileOpLine fromStr) content).rtake
          (min count (entries (parseFileOpLine fromStr) content).length) := by
  intro exact
  have both := (exact (fun _ => none) (fun _ => [])
    [.text "t INFO a: first".toList, .invalid, .text "t INFO a: second".toList] 5).1
  have shorter := congrArg List.length both
  revert shorter
  decide +kernel

end Wftpd.Daemon.Logs
