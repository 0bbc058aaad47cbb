import Mathlib.Logic.Basic

/-! Regions of a record.

A region is given by how it is copied from one record onto another. Two records agree outside
it when copying it makes them equal.
-/

set_option autoImplicit false

namespace Wftpd.Library

structure Region (α : Type) where
  copy : (source target : α) → α
  copy_self : ∀ record, copy record record = record
  copy_over : ∀ first second target, copy first (copy second target) = copy first target

namespace Region

variable {α : Type} (region : Region α)

/-- The second record is the first one with another content of the region. -/
def SameOutside (before after : α) : Prop := region.copy after before = after

instance [DecidableEq α] (before after : α) : Decidable (region.SameOutside before after) :=
  inferInstanceAs (Decidable (_ = _))

variable {region}

/-- Whatever is copied over the region, nothing tells the records apart. -/
theorem sameOutside_iff {before after : α} :
    region.SameOutside before after ↔ ∀ source, region.copy source before = region.copy source after := by
  constructor
  · intro same source
    calc region.copy source before
      _ = region.copy source (region.copy after before) := (region.copy_over source after before).symm
      _ = region.copy source after := by rw [same]
  · intro same
    exact (same after).trans (region.copy_self after)

theorem SameOutside.refl (record : α) : region.SameOutside record record := region.copy_self record

theorem SameOutside.symm {before after : α} (same : region.SameOutside before after) :
    region.SameOutside after before :=
  sameOutside_iff.mpr fun source => (sameOutside_iff.mp same source).symm

theorem SameOutside.trans {before middle after : α} (first : region.SameOutside before middle)
    (second : region.SameOutside middle after) : region.SameOutside before after :=
  sameOutside_iff.mpr fun source => (sameOutside_iff.mp first source).trans (sameOutside_iff.mp second source)

/-- A function that does not mix the region with the rest keeps the agreement. -/
theorem SameOutside.map {f : α → α}
    (commutes : ∀ source target, f (region.copy source target) = region.copy (f source) (f target))
    {before after : α} (same : region.SameOutside before after) : region.SameOutside (f before) (f after) := by
  rw [SameOutside, ← commutes, same]

end Region

end Wftpd.Library
