import Mathlib.Data.List.Forall2
import Mathlib.Order.MinMax

/-! # The maxima of columns

A loop over rows of equal length keeps the greatest entry seen in each column. Its
result is at least every row (`Library.le_columnMaxima`), and each of its entries is one
of a row or one that the loop started with (`Library.columnMaxima_attained`).
-/

namespace Library

variable {α : Type*} [LinearOrder α]

/-- The greatest entries of the columns of some rows and of a starting row. -/
def columnMaxima (start : List α) (rows : List (List α)) : List α :=
  rows.foldl (List.zipWith max) start

theorem columnMaxima_cons (start row : List α) (rows : List (List α)) :
    columnMaxima start (row :: rows) = columnMaxima (List.zipWith max start row) rows := rfl

/-- Both lists lie below their entrywise maximum. -/
theorem forall₂_le_zipWith_max {left right : List α} (same : left.length = right.length) :
    List.Forall₂ (· ≤ ·) left (List.zipWith max left right) ∧
      List.Forall₂ (· ≤ ·) right (List.zipWith max left right) := by
  induction left generalizing right with
  | nil =>
      cases right with
      | nil => exact ⟨.nil, .nil⟩
      | cons => cases same
  | cons first rest ih =>
      cases right with
      | nil => cases same
      | cons other others =>
          obtain ⟨lefts, rights⟩ := ih (Nat.succ.inj same)
          exact ⟨.cons (le_max_left first other) lefts, .cons (le_max_right first other) rights⟩

/-- The entrywise order is transitive. -/
theorem forall₂_le_trans {left middle right : List α} (lower : List.Forall₂ (· ≤ ·) left middle)
    (upper : List.Forall₂ (· ≤ ·) middle right) : List.Forall₂ (· ≤ ·) left right := by
  induction lower generalizing right with
  | nil => exact upper
  | cons le _ ih =>
      cases upper with
      | cons next others => exact .cons (le.trans next) (ih others)

/-- The loop never goes below what it started with. -/
theorem start_le_columnMaxima {start : List α} {rows : List (List α)}
    (same : ∀ row ∈ rows, row.length = start.length) :
    List.Forall₂ (· ≤ ·) start (columnMaxima start rows) := by
  induction rows generalizing start with
  | nil => exact List.forall₂_refl start
  | cons row rest ih =>
      have here := same row List.mem_cons_self
      have widened : (List.zipWith max start row).length = start.length := by
        rw [List.length_zipWith, here, min_self]
      rw [columnMaxima_cons]
      apply forall₂_le_trans (forall₂_le_zipWith_max here.symm).1
      apply ih
      intro other inside
      rw [widened]
      exact same other (List.mem_cons_of_mem row inside)

/-- The maxima are at least the entries of every row. -/
theorem le_columnMaxima {start : List α} {rows : List (List α)}
    (same : ∀ row ∈ rows, row.length = start.length) :
    ∀ row ∈ rows, List.Forall₂ (· ≤ ·) row (columnMaxima start rows) := by
  induction rows generalizing start with
  | nil => exact fun _ inside => absurd inside List.not_mem_nil
  | cons first rest ih =>
      have here := same first List.mem_cons_self
      have widened : ∀ row ∈ rest, row.length = (List.zipWith max start first).length := by
        intro row inside
        rw [List.length_zipWith, here, min_self]
        exact same row (List.mem_cons_of_mem first inside)
      rw [columnMaxima_cons, List.forall_mem_cons]
      exact ⟨forall₂_le_trans (forall₂_le_zipWith_max here.symm).2
        (start_le_columnMaxima widened), ih widened⟩

/-- Every maximum is an entry of some row, or of what the loop started with. -/
theorem columnMaxima_attained {start : List α} {rows : List (List α)} {column : Nat} {value : α}
    (maximum : (columnMaxima start rows)[column]? = some value) :
    start[column]? = some value ∨ ∃ row ∈ rows, row[column]? = some value := by
  induction rows generalizing start with
  | nil => exact .inl maximum
  | cons first rest ih =>
      rw [columnMaxima_cons] at maximum
      rcases ih maximum with widened | ⟨row, inside, entry⟩
      · rw [List.getElem?_zipWith] at widened
        cases left : start[column]? with
        | none =>
            rw [left] at widened
            cases widened
        | some old =>
            cases right : first[column]? with
            | none =>
                rw [left, right] at widened
                cases widened
            | some new =>
                rw [left, right] at widened
                cases widened
                rcases max_choice old new with same | same
                · rw [same]
                  exact .inl rfl
                · rw [same]
                  exact .inr ⟨first, List.mem_cons_self, right⟩
      · exact .inr ⟨row, List.mem_cons_of_mem first inside, entry⟩

end Library
