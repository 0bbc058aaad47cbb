import Wftpd.Common.Users

/-! Any content of `users.json`, as it is loaded and reloaded.

A content that does not parse is previewed in the error log, up to byte 200. That byte may
be inside a character.
-/

set_option autoImplicit false

namespace Wftpd.Common
open Wftpd.Posix

section Utf8

theorem isCharBoundary_iff {text : Text} {offset : Nat} :
    isCharBoundary text offset = true ↔ ∃ front, front <+: text ∧ utf8Length front = offset := by
  simp [isCharBoundary]

def Straddles (text : Text) (offset : Nat) : Prop :=
  ∃ front c, front ++ [c] <+: text ∧ utf8Length front < offset ∧ offset < utf8Length (front ++ [c])

theorem boundary_or_straddles {text : Text} {offset : Nat} (within : offset ≤ utf8Length text) :
    (∃ front, front <+: text ∧ utf8Length front = offset) ∨ Straddles text offset := by
  induction text generalizing offset with
  | nil => exact .inl ⟨[], List.nil_prefix, (Nat.le_zero.mp within).symm⟩
  | cons c rest ih =>
      rw [utf8Length_cons] at within
      by_cases start : offset = 0
      · exact .inl ⟨[], List.nil_prefix, start.symm⟩
      · by_cases inFirst : offset < c.utf8Size
        · exact .inr ⟨[], c, ⟨rest, rfl⟩, by simpa using Nat.pos_of_ne_zero start, by simpa using inFirst⟩
        · have later : offset - c.utf8Size ≤ utf8Length rest := by omega
          rcases ih later with ⟨front, isPrefix, length⟩ | ⟨front, d, isPrefix, before, after⟩
          · exact .inl ⟨c :: front, (List.prefix_cons_inj c).mpr isPrefix, by rw [utf8Length_cons]; omega⟩
          · refine .inr ⟨c :: front, d, (List.prefix_cons_inj c).mpr isPrefix, ?_, ?_⟩
            · rw [utf8Length_cons]
              omega
            · rw [List.cons_append, utf8Length_cons]
              omega

theorem Straddles.not_boundary {text : Text} {offset : Nat} (straddles : Straddles text offset) {front : Text}
    (isPrefix : front <+: text) : utf8Length front ≠ offset := by
  obtain ⟨earlier, c, inText, before, after⟩ := straddles
  rcases List.prefix_or_prefix_of_prefix isPrefix inText with short | long
  · -- a prefix ends before the character or has it whole
    rcases List.prefix_concat_iff.mp short with rfl | shorter
    · exact Nat.ne_of_gt after
    · exact Nat.ne_of_lt (Nat.lt_of_le_of_lt (utf8Length_mono shorter) before)
  · exact Nat.ne_of_gt (Nat.lt_of_lt_of_le after (utf8Length_mono long))

/-- The preview has no end exactly when byte 200 is inside a character. -/
theorem previewSplits_iff (content : Text) : previewSplits content = true ↔ Straddles content 200 := by
  rw [previewSplits, Bool.not_eq_true', ← Bool.not_eq_true, isCharBoundary_iff]
  constructor
  · intro unbounded
    by_cases short : utf8Length content ≤ 200
    · exact absurd ⟨content, List.prefix_rfl, (Nat.min_eq_left short).symm⟩ unbounded
    · have long : 200 ≤ utf8Length content := by omega
      rw [Nat.min_eq_right long] at unbounded
      exact (boundary_or_straddles long).resolve_left unbounded
  · rintro straddles ⟨front, isPrefix, length⟩
    have long : 200 ≤ utf8Length content := by
      obtain ⟨earlier, c, inText, -, after⟩ := straddles
      have bound := utf8Length_mono inText
      omega
    rw [Nat.min_eq_right long] at length
    exact straddles.not_boundary isPrefix length

end Utf8

section Contents
variable (parse : Text → Option UserManager)

variable {parse} in
theorem decode_malformed {content : Text} (nonblank : trim content ≠ []) (malformed : parse content = none) :
    (RawFile.text content).decode parse = .malformed (previewSplits content) := by
  simp only [RawFile.decode, nonblank, malformed, if_false]

def Survives (content : Text) (manager : UserManager) : Prop :=
  (∃ store, UserManager.load true ((RawFile.text content).decode parse) = .done store) ∧
    ∃ store, manager.reload true ((RawFile.text content).decode parse) = .done store

/-- Loading and reloading survive a content exactly when it is blank, is a store, or has
no character across byte 200. -/
theorem survives_iff (content : Text) (manager : UserManager) :
    Survives parse content manager ↔
      trim content = [] ∨ (parse content).isSome = true ∨ ¬ Straddles content 200 := by
  rw [← previewSplits_iff]
  by_cases blank : trim content = []
  · simp [Survives, RawFile.decode, blank, UserManager.load, UserManager.reload]
  · cases parsed : parse content with
    | some store => simp [Survives, RawFile.decode, blank, parsed, UserManager.load, UserManager.reload]
    | none =>
        cases splits : previewSplits content <;>
          simp [Survives, decode_malformed blank parsed, blank, splits, UserManager.load, UserManager.reload]

/-- 199 letters and then one of two bytes, which is no JSON: the daemon ends. -/
theorem load_crashes : ¬ ∀ (parse : Text → Option UserManager) (content : Text) (manager : UserManager),
    Survives parse content manager := by
  intro survives
  let content := List.replicate 199 'x' ++ ['é']
  have letters : utf8Length (List.replicate 199 'x') = 199 := by
    rw [utf8Length, List.map_replicate, List.sum_replicate]
    rfl
  have accented : utf8Length ['é'] = 2 := rfl
  have straddles : Straddles content 200 :=
    ⟨List.replicate 199 'x', 'é', List.prefix_rfl, by omega, by rw [utf8Length_append]; omega⟩
  have splits : previewSplits content = true := (previewSplits_iff content).mpr straddles
  have nonblank : trim content ≠ [] := by decide
  obtain ⟨⟨store, loaded⟩, -⟩ := survives (fun _ => none) content .new
  rw [decode_malformed nonblank rfl, splits] at loaded
  cases loaded

def AllOrNothing (logsErrors : Bool) (manager : UserManager) (file : RawFile) : Prop :=
  ∃ after, manager.reload logsErrors (file.decode parse) = .done after ∧
    (after = manager ∨ file.decode parse = .store after)

/-- A reload is all or nothing exactly when the file has no content that is not blank and does
not parse, or there was no account to lose and the process survives the preview. -/
theorem reload_allOrNothing_iff (logsErrors : Bool) (manager : UserManager) (file : RawFile) :
    AllOrNothing parse logsErrors manager file ↔
      ∀ content, file = .text content → trim content ≠ [] → parse content = none →
        manager = .new ∧ (logsErrors = true → ¬ Straddles content 200) := by
  cases file with
  | absent => simp [AllOrNothing, RawFile.decode, UserManager.reload]
  | unreadable => simp [AllOrNothing, RawFile.decode, UserManager.reload]
  | text content =>
      simp only [RawFile.text.injEq, forall_eq', ← previewSplits_iff]
      by_cases blank : trim content = []
      · simp [AllOrNothing, RawFile.decode, blank, UserManager.reload]
      · cases parsed : parse content with
        | some store => simp [AllOrNothing, RawFile.decode, blank, parsed, UserManager.reload]
        | none =>
            -- the store becomes the empty one, or the process ends
            cases logsErrors <;> cases splits : previewSplits content <;>
              simp [AllOrNothing, decode_malformed blank parsed, blank, splits, UserManager.reload, eq_comm]

/-- One account and a file that is no JSON: after the reload the account is gone. -/
theorem reload_wipes : ¬ ∀ (parse : Text → Option UserManager) (logsErrors : Bool) (manager : UserManager)
    (file : RawFile), AllOrNothing parse logsErrors manager file := by
  intro kept
  let ann : User := ⟨"ann".toList, "hash".toList, "/home/ann".toList, .default, 0, none, true, false⟩
  obtain ⟨after, reloaded, outcome⟩ :=
    kept (fun _ => none) true ⟨AList.singleton "ann".toList ann⟩ (.text "not json".toList)
  have nonblank : trim "not json".toList ≠ [] := by decide
  have whole : previewSplits "not json".toList = false := by decide
  rw [decode_malformed nonblank rfl, whole] at reloaded outcome
  cases reloaded
  rcases outcome with same | stored
  · exact absurd (congrArg (fun store => (store.getUser "ann".toList).isSome) same) (by decide)
  · cases stored

end Contents

end Wftpd.Common
