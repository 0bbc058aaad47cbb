import Mathlib.Data.List.MinMax

/-! Rules for keys by their prefixes: the longest prefix of a key that has a rule decides,
or else the default.
-/

set_option autoImplicit false

namespace Wftpd.Library

structure PrefixRules (α β : Type) where
  rules : List (List α × β)
  fallback : Option β
  deriving DecidableEq

namespace PrefixRules

variable {α β : Type} [DecidableEq α]

def empty : PrefixRules α β := ⟨[], none⟩

def withDefault (table : PrefixRules α β) (value : β) : PrefixRules α β := { table with fallback := some value }

def withRule (table : PrefixRules α β) (start : List α) (value : β) : PrefixRules α β :=
  { table with rules := (start, value) :: table.rules.filter fun rule => rule.1 ≠ start }

def applying (table : PrefixRules α β) (key : List α) : List (List α × β) :=
  table.rules.filter fun rule => rule.1 <+: key

def find (table : PrefixRules α β) (key : List α) : Option β :=
  match (table.applying key).argmax fun rule => rule.1.length with
  | some rule => some rule.2
  | none => table.fallback

variable {table : PrefixRules α β} {key start : List α}

theorem applying_eq_nil : table.applying key = [] ↔ ∀ rule ∈ table.rules, ¬ rule.1 <+: key := by
  simp [applying, List.filter_eq_nil_iff]

theorem find_of_none (unruled : ∀ rule ∈ table.rules, ¬ rule.1 <+: key) : table.find key = table.fallback := by
  simp only [find, applying_eq_nil.mpr unruled, List.argmax_nil]

theorem find_of_some {rules : List (List α × β)} {first second : Option β} {rule : List α × β} (member : rule ∈ rules)
    (applies : rule.1 <+: key) : find ⟨rules, first⟩ key = find ⟨rules, second⟩ key := by
  have nonempty : applying ⟨rules, first⟩ key ≠ [] := fun none => applying_eq_nil.mp none rule member applies
  have same : applying ⟨rules, second⟩ key = applying ⟨rules, first⟩ key := rfl
  simp only [find, same]
  cases longest : (applying ⟨rules, first⟩ key).argmax fun rule => rule.1.length with
  | some rule => rfl
  | none => exact absurd (List.argmax_eq_none.mp longest) nonempty

/-- A rule for something that is no prefix of the key makes no difference to it. -/
theorem find_withRule (value : β) (elsewhere : ¬ start <+: key) : (table.withRule start value).find key = table.find key := by
  have same : (table.withRule start value).applying key = table.applying key := by
    simp only [applying, withRule]
    rw [List.filter_cons_of_neg (by simpa using elsewhere), List.filter_filter]
    apply List.filter_congr
    intro rule _
    by_cases applies : rule.1 <+: key
    · have apart : rule.1 ≠ start := fun same => elsewhere (same ▸ applies)
      simp [applies, apart]
    · simp [applies]
  simp only [find, same]
  rfl

end PrefixRules

end Wftpd.Library
