import Mathlib.Data.List.DropRight

/-! Bounded lists that keep what was put in last.

An entry is put in at the end, and the oldest one makes room for it when the list is full.
-/

set_option autoImplicit false

namespace Wftpd.Library

variable {α β : Type} {capacity : Nat}

/-- What is kept of a history: its last entries, as many as there is room for, in order. -/
structure Keeps (capacity : Nat) (history entries : List α) : Prop where
  recent : entries <:+ history
  length : entries.length = min capacity history.length

theorem rtake_length (entries : List α) (count : Nat) : (entries.rtake count).length = min count entries.length := by
  rw [List.rtake, List.length_drop]
  omega

theorem rtake_suffix (entries : List α) (count : Nat) : entries.rtake count <:+ entries :=
  List.drop_suffix _ _

theorem rtake_rtake (entries : List α) (first second : Nat) :
    (entries.rtake first).rtake second = entries.rtake (min second first) := by
  simp only [List.rtake, List.length_drop, List.drop_drop]
  congr 1
  omega

theorem rtake_of_length_le {entries : List α} {count : Nat} (short : entries.length ≤ count) :
    entries.rtake count = entries := by
  rw [List.rtake, Nat.sub_eq_zero_of_le short, List.drop_zero]

theorem rtake_min_length (entries : List α) (count : Nat) :
    entries.rtake (min count entries.length) = entries.rtake count := by
  rw [List.rtake, List.rtake]
  congr 1
  omega

theorem map_rtake (f : α → β) (entries : List α) (count : Nat) :
    (entries.rtake count).map f = (entries.map f).rtake count := by
  rw [List.rtake, List.rtake, List.map_drop, List.length_map]

theorem reverse_take (entries : List α) (count : Nat) : entries.reverse.take count = (entries.rtake count).reverse := by
  rw [List.rtake_eq_reverse_take_reverse, List.reverse_reverse]

theorem rtake_append (front back : List α) (count : Nat) :
    (front ++ back).rtake count = front.rtake (count - back.length) ++ back.rtake count := by
  simp only [List.rtake_eq_reverse_take_reverse, List.reverse_append, List.take_append, List.length_reverse]

theorem rdrop_append_rtake (entries : List α) (count : Nat) : entries.rdrop count ++ entries.rtake count = entries :=
  List.take_append_drop _ _

theorem rtake_eq_nil_iff {entries : List α} {count : Nat} : entries.rtake count = [] ↔ count = 0 ∨ entries = [] := by
  rw [← List.length_eq_zero_iff, rtake_length, ← List.length_eq_zero_iff]
  omega

theorem keeps_rtake (history : List α) : Keeps capacity history (history.rtake capacity) :=
  ⟨rtake_suffix history capacity, rtake_length history capacity⟩

theorem Keeps.eq_rtake {history entries : List α} (keeps : Keeps capacity history entries) :
    entries = history.rtake capacity := by
  obtain ⟨dropped, rfl⟩ := keeps.recent
  have length := keeps.length
  rw [List.length_append] at length
  have start : (dropped ++ entries).length - capacity = dropped.length := by
    rw [List.length_append]
    omega
  rw [List.rtake, start, List.drop_left]

def pushBounded (capacity : Nat) (entries : List α) (entry : α) : List α :=
  -- nothing is taken from an empty list, so that there is always room for one entry
  (if entries.length ≥ capacity then entries.tail else entries) ++ [entry]

theorem pushBounded_rtake (history : List α) (entry : α) :
    pushBounded capacity (history.rtake (max capacity 1)) entry = (history ++ [entry]).rtake (max capacity 1) := by
  obtain ⟨room, same⟩ : ∃ room, max capacity 1 = room + 1 := ⟨max capacity 1 - 1, by omega⟩
  rw [same, List.rtake_concat_succ, pushBounded]
  congr 1
  split
  · next full =>
      rw [rtake_length] at full
      rw [List.rtake, List.rtake, List.tail_drop]
      by_cases short : history.length ≤ room
      · -- only where there is room for one entry and none is kept
        have none : history = [] := List.length_eq_zero_iff.mp (by omega)
        simp [none]
      · congr 1
        omega
  · next vacant =>
      rw [rtake_length] at vacant
      rw [rtake_of_length_le (by omega), rtake_of_length_le (by omega)]

/-- A ring keeps the entries pushed last. -/
theorem foldl_pushBounded (pushed : List α) :
    pushed.foldl (pushBounded capacity) [] = pushed.rtake (max capacity 1) := by
  induction pushed using List.reverseRecOn with
  | nil => simp
  | append_singleton pushed entry ih => rw [List.foldl_append, ih, List.foldl_cons, List.foldl_nil, pushBounded_rtake]

theorem foldl_pushBounded_keeps (positive : 1 ≤ capacity) (pushed : List α) :
    Keeps capacity pushed (pushed.foldl (pushBounded capacity) []) := by
  rw [foldl_pushBounded, Nat.max_eq_left positive]
  exact keeps_rtake pushed

end Wftpd.Library
