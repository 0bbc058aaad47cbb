import Mathlib.Data.List.Infix

/-! Lists joined with a separator, and split at it.

A list is split at the first place where the separator stands, and again behind it. What was
joined is what splitting gives back unless a part, with the beginning of a separator behind
it, holds a separator already.
-/

set_option autoImplicit false

namespace Wftpd.Library

variable {α : Type}

/-- No separator stands in the list or begins in it, when one follows it. -/
def Unseparated (sep part : List α) : Prop := ¬ sep <:+: part ++ sep.dropLast

section Unseparated
variable {sep : List α}

theorem not_infix_nil (nonempty : sep ≠ []) : ¬ sep <:+: [] := by
  intro inside
  exact nonempty (List.eq_nil_of_infix_nil inside)

theorem unseparated_nil (nonempty : sep ≠ []) : Unseparated sep [] := by
  intro inside
  have length := inside.length_le
  have positive := List.length_pos_iff.mpr nonempty
  simp only [List.nil_append, List.length_dropLast] at length
  omega

theorem Unseparated.tail {first : α} {part : List α} (unseparated : Unseparated sep (first :: part)) :
    Unseparated sep part :=
  fun inside => unseparated (inside.trans (List.suffix_cons first _).isInfix)

theorem Unseparated.not_infix {part : List α} (unseparated : Unseparated sep part) : ¬ sep <:+: part :=
  fun inside => unseparated (inside.trans (List.prefix_append part _).isInfix)

end Unseparated

variable [DecidableEq α]

instance (sep part : List α) : Decidable (Unseparated sep part) := by unfold Unseparated; infer_instance

def splitOnce (sep : List α) : List α → Option (List α × List α)
  | [] => none
  | first :: rest =>
      if sep <+: first :: rest then some ([], (first :: rest).drop sep.length)
      else (splitOnce sep rest).map fun parts => (first :: parts.1, parts.2)

/-- The parts of a list, of which so many elements belong to a separator still. -/
def splitFrom (sep : List α) : Nat → List α → List (List α)
  | _, [] => [[]]
  | skipped + 1, _ :: rest => splitFrom sep skipped rest
  | 0, first :: rest =>
      if sep <+: first :: rest then [] :: splitFrom sep (sep.length - 1) rest
      else match splitFrom sep 0 rest with
        | [] => [[first]]
        | part :: parts => (first :: part) :: parts

def split (sep text : List α) : List (List α) := splitFrom sep 0 text

variable {sep text : List α}

theorem splitFrom_skip (skipped : Nat) (text : List α) : splitFrom sep skipped text = split sep (text.drop skipped) := by
  induction text generalizing skipped with
  | nil => cases skipped <;> rfl
  | cons first rest ih =>
      cases skipped with
      | zero => rfl
      | succ skipped => exact ih skipped

theorem split_separator (nonempty : sep ≠ []) (rest : List α) : split sep (sep ++ rest) = [] :: split sep rest := by
  cases sep with
  | nil => exact absurd rfl nonempty
  | cons first tail =>
      have isPrefix : first :: tail <+: first :: (tail ++ rest) := List.prefix_append (first :: tail) rest
      rw [split, List.cons_append, splitFrom, if_pos isPrefix, splitFrom_skip]
      simp

/-- An element that no separator begins with goes to the first part. -/
theorem split_cons {first : α} {rest : List α} (none : ¬ sep <+: first :: rest) :
    ∃ part parts, split sep rest = part :: parts ∧ split sep (first :: rest) = (first :: part) :: parts := by
  have nonempty : split sep rest ≠ [] := by
    rw [split]
    cases rest with
    | nil => simp [splitFrom]
    | cons second rest =>
        rw [splitFrom]
        split
        · simp
        · split <;> simp
  obtain ⟨part, parts, same⟩ := List.exists_cons_of_ne_nil nonempty
  refine ⟨part, parts, same, ?_⟩
  rw [split, splitFrom, if_neg none, show splitFrom sep 0 rest = part :: parts from same]

/-- The first part ends where the first separator stands, and the others are those of what is behind. -/
theorem split_cases (nonempty : sep ≠ []) (text : List α) :
    ¬ sep <:+: text ∧ split sep text = [text] ∨
      ∃ part rest, text = part ++ (sep ++ rest) ∧ Unseparated sep part ∧ split sep text = part :: split sep rest := by
  induction text with
  | nil => exact .inl ⟨not_infix_nil nonempty, rfl⟩
  | cons first rest ih =>
      by_cases here : sep <+: first :: rest
      · obtain ⟨behind, same⟩ := here
        rw [← same]
        exact .inr ⟨[], behind, rfl, unseparated_nil nonempty, split_separator nonempty behind⟩
      · obtain ⟨head, parts, later, now⟩ := split_cons here
        rcases ih with ⟨none, whole⟩ | ⟨part, behind, rfl, unseparated, same⟩
        · rw [whole] at later
          obtain ⟨rfl, rfl⟩ := List.cons.inj later
          refine .inl ⟨fun inside => ?_, now⟩
          rcases List.infix_cons_iff.mp inside with isPrefix | inside
          · exact here isPrefix
          · exact none inside
        · rw [same] at later
          obtain ⟨rfl, rfl⟩ := List.cons.inj later
          refine .inr ⟨first :: part, behind, rfl, fun inside => ?_, now⟩
          rw [List.cons_append] at inside
          rcases List.infix_cons_iff.mp inside with isPrefix | inside
          · refine here (isPrefix.trans ?_)
            have beginning : sep.dropLast <+: sep ++ behind := (List.dropLast_prefix sep).trans (List.prefix_append sep behind)
            exact (List.prefix_append_right_inj (first :: part)).mpr beginning
          · exact unseparated inside

/-- A part and what follows its separator are given back, exactly when the separator is the first. -/
theorem split_append_iff (nonempty : sep ≠ []) {part rest : List α} {parts : List (List α)} :
    split sep (part ++ (sep ++ rest)) = part :: parts ↔ Unseparated sep part ∧ split sep rest = parts := by
  constructor
  · intro same
    rcases split_cases nonempty (part ++ (sep ++ rest)) with ⟨none, -⟩ | ⟨other, behind, text, unseparated, splits⟩
    · exact absurd ⟨part, rest, List.append_assoc ..⟩ none
    · rw [splits] at same
      cases same
      have cancelled : rest = behind := List.append_cancel_left (List.append_cancel_left text)
      exact ⟨unseparated, by rw [cancelled]⟩
  · rintro ⟨unseparated, rfl⟩
    induction part with
    | nil => exact split_separator nonempty rest
    | cons first part ih =>
        have none : ¬ sep <+: first :: (part ++ (sep ++ rest)) := by
          intro isPrefix
          have beginning : first :: part ++ sep.dropLast <+: first :: (part ++ (sep ++ rest)) :=
            (List.prefix_append_right_inj (first :: part)).mpr
              ((List.dropLast_prefix sep).trans (List.prefix_append sep rest))
          refine unseparated (List.prefix_of_prefix_length_le isPrefix beginning ?_).isInfix
          have positive := List.length_pos_iff.mpr nonempty
          simp only [List.length_append, List.length_cons, List.length_dropLast]
          omega
        obtain ⟨head, parts, later, now⟩ := split_cons none
        rw [ih unseparated.tail] at later
        cases later
        exact now

theorem split_eq_self_iff (nonempty : sep ≠ []) : split sep text = [text] ↔ ¬ sep <:+: text := by
  rcases split_cases nonempty text with ⟨none, same⟩ | ⟨part, rest, rfl, unseparated, same⟩
  · exact ⟨fun _ => none, fun _ => same⟩
  · constructor
    · intro whole inside
      rw [same] at whole
      have length := congrArg List.length (List.cons.inj whole).1
      have positive := List.length_pos_iff.mpr nonempty
      simp only [List.length_append] at length
      omega
    · intro none
      exact absurd ⟨part, rest, List.append_assoc ..⟩ none

/-- Joined parts are given back exactly when no separator but those between them is found. -/
theorem split_joined_iff (nonempty : sep ≠ []) (parts : List (List α)) (last : List α) :
    split sep (parts.flatMap (fun part => part ++ sep) ++ last) = parts ++ [last] ↔
      (∀ part ∈ parts, Unseparated sep part) ∧ ¬ sep <:+: last := by
  induction parts with
  | nil => simp [split_eq_self_iff nonempty]
  | cons part parts ih =>
      rw [List.flatMap_cons, List.append_assoc, List.append_assoc, List.cons_append, split_append_iff nonempty, ih,
        List.forall_mem_cons, and_assoc]

theorem split_parts (nonempty : sep ≠ []) {text part : List α} (member : part ∈ split sep text) :
    ¬ sep <:+: part ∧ part <:+: text := by
  obtain ⟨parts, same⟩ : ∃ parts, split sep text = parts := ⟨_, rfl⟩
  rw [same] at member
  induction parts generalizing text with
  | nil => cases member
  | cons head parts ih =>
      rcases split_cases nonempty text with ⟨none, whole⟩ | ⟨first, rest, rfl, unseparated, splits⟩
      · rw [whole] at same
        cases same
        rw [List.mem_singleton.mp member]
        exact ⟨none, List.infix_rfl⟩
      · rw [splits] at same
        obtain ⟨rfl, rfl⟩ := List.cons.inj same
        rcases List.mem_cons.mp member with rfl | later
        · exact ⟨unseparated.not_infix, (List.prefix_append _ _).isInfix⟩
        · obtain ⟨none, inside⟩ := ih later rfl
          refine ⟨none, inside.trans ⟨first ++ sep, [], ?_⟩⟩
          simp

end Wftpd.Library
