import Mathlib.Data.List.Basic

/-! # Interleavings of two lists

What a reader sees of two writers that share one channel is some interleaving of
what they write: each writer's elements stay in order, and nothing else is fixed.
-/

namespace Library

variable {α β : Type*}

/-- The third list merges the first two, keeping the order of each. -/
inductive Interleaving : List α → List α → List α → Prop where
  | nil : Interleaving [] [] []
  | left {item : α} {left right merged : List α} :
      Interleaving left right merged → Interleaving (item :: left) right (item :: merged)
  | right {item : α} {left right merged : List α} :
      Interleaving left right merged → Interleaving left (item :: right) (item :: merged)

namespace Interleaving

/-- A writer that writes nothing leaves the other's text as it is. -/
theorem eq_left {left merged : List α} (shared : Interleaving left [] merged) :
    merged = left := by
  generalize silent : ([] : List α) = right at shared
  induction shared with
  | nil => rfl
  | left _ ih => rw [ih silent]
  | right _ _ => cases silent

/-- Each writer may be heard alone. -/
theorem of_left (left : List α) : Interleaving left [] left := by
  induction left with
  | nil => exact .nil
  | cons item rest ih => exact .left ih

/-- The other writer may be heard alone. -/
theorem of_right (right : List α) : Interleaving [] right right := by
  induction right with
  | nil => exact .nil
  | cons item rest ih => exact .right ih

/-- What is read was written by one of the two. -/
theorem mem_iff {left right merged : List α} (shared : Interleaving left right merged)
    {item : α} : item ∈ merged ↔ item ∈ left ∨ item ∈ right := by
  induction shared with
  | nil => simp only [List.not_mem_nil, or_self]
  | left _ ih => rw [List.mem_cons, List.mem_cons, ih, or_assoc]
  | right _ ih => rw [List.mem_cons, List.mem_cons, ih, or_left_comm]

/-- A reader who takes something from some of the elements hears both writers' part of
it in their order. -/
theorem filterMap {left right merged : List α} (shared : Interleaving left right merged)
    (select : α → Option β) :
    Interleaving (left.filterMap select) (right.filterMap select) (merged.filterMap select) := by
  induction shared with
  | nil => exact .nil
  | @left item left right merged _ ih =>
      cases taken : select item with
      | none => simpa only [List.filterMap_cons, taken] using ih
      | some value => simpa only [List.filterMap_cons, taken] using .left ih
  | @right item left right merged _ ih =>
      cases taken : select item with
      | none => simpa only [List.filterMap_cons, taken] using ih
      | some value => simpa only [List.filterMap_cons, taken] using .right ih

/-- A reader who reads element by element hears both in their order. -/
theorem map {left right merged : List α} (shared : Interleaving left right merged)
    (read : α → β) : Interleaving (left.map read) (right.map read) (merged.map read) := by
  have heard := shared.filterMap (some ∘ read)
  simpa only [List.filterMap_eq_map] using heard

/-- A reader who passes over what one writer writes takes what the other's text
alone would give. -/
theorem filterMap_eq_left {left right merged : List α} (shared : Interleaving left right merged)
    {select : α → Option β} (silent : ∀ item ∈ right, select item = none) :
    merged.filterMap select = left.filterMap select := by
  have heard := shared.filterMap select
  rw [List.filterMap_eq_nil_iff.mpr silent] at heard
  exact heard.eq_left

/-- A writer goes on after everything that has been written. -/
theorem append_left {left right merged : List α} (shared : Interleaving left right merged)
    (more : List α) : Interleaving (left ++ more) right (merged ++ more) := by
  induction shared with
  | nil => exact of_left more
  | left _ ih => exact .left ih
  | right _ ih => exact .right ih

/-- The other writer goes on after everything that has been written. -/
theorem append_right {left right merged : List α} (shared : Interleaving left right merged)
    (more : List α) : Interleaving left (right ++ more) (merged ++ more) := by
  induction shared with
  | nil => exact of_right more
  | left _ ih => exact .left ih
  | right _ ih => exact .right ih

/-- One of the interleavings is one text after the other. -/
theorem append (left right : List α) : Interleaving left right (left ++ right) := by
  induction left with
  | nil => exact of_right right
  | cons item rest ih => exact .left ih

/-- Writers that write blocks, each at one go, write what the blocks hold. -/
theorem flatMap {left right merged : List α} (shared : Interleaving left right merged)
    (block : α → List β) :
    Interleaving (left.flatMap block) (right.flatMap block) (merged.flatMap block) := by
  induction shared with
  | nil => exact .nil
  | @left item left right merged _ ih =>
      simp only [List.flatMap_cons]
      induction block item with
      | nil => exact ih
      | cons _ _ later => exact .left later
  | @right item left right merged _ ih =>
      simp only [List.flatMap_cons]
      induction block item with
      | nil => exact ih
      | cons _ _ later => exact .right later

end Interleaving

end Library
