import Mathlib.Algebra.BigOperators.Group.List.Basic
import Mathlib.Algebra.GroupWithZero.Nat
import Mathlib.Data.List.Perm.Basic

/-! # Replacing one element of a list

When position `index` of a list changes from `old` to `new`, a sum over the list
and the list of selected parts change by exactly the two contributions. The
lemmas are stated as additions to both sides, so that no subtraction is needed.
-/

namespace Library

variable {α β : Type*} {items : List α} {index : Nat} {old : α}

/-- Replacing an element changes a sum by the difference of the two terms. -/
theorem sum_map_set (weight : α → Nat) (found : items[index]? = some old) (new : α) :
    ((items.set index new).map weight).sum + weight old = (items.map weight).sum + weight new := by
  induction items generalizing index with
  | nil => simp at found
  | cons first rest ih =>
      cases index with
      | zero =>
          simp only [List.getElem?_cons_zero, Option.some.injEq] at found
          subst found
          simp only [List.set_cons_zero, List.map_cons, List.sum_cons]
          omega
      | succ index =>
          simp only [List.getElem?_cons_succ] at found
          have step := ih found
          simp only [List.set_cons_succ, List.map_cons, List.sum_cons]
          omega

/-- Replacing an element changes a count by the difference of the two elements. -/
theorem countP_set (counted : α → Bool) (found : items[index]? = some old) (new : α) :
    (items.set index new).countP counted + (counted old).toNat =
      items.countP counted + (counted new).toNat := by
  induction items generalizing index with
  | nil => simp at found
  | cons first rest ih =>
      cases index with
      | zero =>
          simp only [List.getElem?_cons_zero, Option.some.injEq] at found
          subst found
          cases was : counted first <;> cases is : counted new <;>
            simp only [List.set_cons_zero, List.countP_cons, was, is, Bool.toNat_true,
              Bool.toNat_false, Bool.false_eq_true, ↓reduceIte]
      | succ index =>
          simp only [List.getElem?_cons_succ] at found
          have step := ih found
          simp only [List.set_cons_succ, List.countP_cons]
          omega

/-- Replacing an element exchanges the two selected parts, up to order. -/
theorem filterMap_set_perm (select : α → Option β) (found : items[index]? = some old) (new : α) :
    ((items.set index new).filterMap select ++ (select old).toList).Perm
      (items.filterMap select ++ (select new).toList) := by
  induction items generalizing index with
  | nil => simp at found
  | cons first rest ih =>
      have cons_eq : ∀ (head : α) (tail : List α),
          (head :: tail).filterMap select = (select head).toList ++ tail.filterMap select := by
        intro head tail
        cases chosen : select head <;> simp [chosen]
      cases index with
      | zero =>
          simp only [List.getElem?_cons_zero, Option.some.injEq] at found
          subst found
          simp only [List.set_cons_zero, cons_eq, List.append_assoc]
          calc (select new).toList ++ (rest.filterMap select ++ (select first).toList)
              |>.Perm ((rest.filterMap select ++ (select first).toList) ++ (select new).toList) :=
                List.perm_append_comm
            _ |>.Perm ((select first).toList ++ rest.filterMap select ++ (select new).toList) :=
                List.perm_append_comm.append_right _
            _ = _ := List.append_assoc ..
      | succ index =>
          simp only [List.getElem?_cons_succ] at found
          simp only [List.set_cons_succ, cons_eq, List.append_assoc]
          exact (ih found).append_left _

/-- Replacing an element whose selected part does not change keeps the selection up to order. -/
theorem filterMap_set_perm_of_eq (select : α → Option β) (found : items[index]? = some old)
    {new : α} (same : select new = select old) :
    ((items.set index new).filterMap select).Perm (items.filterMap select) := by
  have exchanged := filterMap_set_perm select found new
  rw [same] at exchanged
  exact (List.perm_append_right_iff _).mp exchanged

/-- A ledger that sets against every replacement what it selects stays the same up to order. -/
theorem filterMap_set_append_perm [DecidableEq β] (select : α → Option β)
    (found : items[index]? = some old) (new : α) {before after : List β}
    (balance : ((select new).toList ++ after).Perm ((select old).toList ++ before)) :
    ((items.set index new).filterMap select ++ after).Perm (items.filterMap select ++ before) := by
  rw [List.perm_iff_count] at balance ⊢
  have exchanged := List.perm_iff_count.mp (filterMap_set_perm select found new)
  intro item
  have left := exchanged item
  have right := balance item
  simp only [List.count_append] at left right ⊢
  omega

/-- A replacement by an element other than `item` does not bring `item` in. -/
theorem mem_of_mem_set {item new : α} (inside : item ∈ items.set index new)
    (other : item ≠ new) : item ∈ items := by
  rcases List.mem_or_eq_of_mem_set inside with before | same
  · exact before
  · exact absurd same other

/-- What is at another position than the replaced element stays. -/
theorem getElem?_set_of_ne_old {item new : α} {other : Nat} (found : items[index]? = some old)
    (there : items[other]? = some item) (differ : old ≠ item) :
    (items.set index new)[other]? = some item := by
  have apart : index ≠ other := by
    rintro rfl
    rw [found] at there
    exact differ (Option.some.inj there)
  rw [List.getElem?_set_ne apart]
  exact there

/-- Looking up every position of a list gives the list. -/
theorem filterMap_range_getElem? (items : List α) :
    (List.range items.length).filterMap (items[·]?) = items := by
  induction items with
  | nil => rfl
  | cons first rest ih =>
      rw [List.length_cons, List.range_succ_eq_map, List.filterMap_cons, List.getElem?_cons_zero,
        List.filterMap_map]
      exact congrArg (first :: ·) ih

end Library
