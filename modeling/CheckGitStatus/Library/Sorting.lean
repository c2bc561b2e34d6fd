import Mathlib.Data.List.Sort

/-! # Outcomes of an unstable sort

A library sort promises a permutation of its input in which no element comes
before a smaller one; elements with equal keys may come out in any order
(`Library.IsSortOf`). When the keys are distinct there is only one such outcome
(`Library.IsSortOf.eq_of_distinct`), the one that `Library.sortByKey` computes.
-/

namespace Library

variable {α κ : Type*} [LE κ] [LT κ] [Std.IsLinearOrder κ] [Std.LawfulOrderLT κ]
  {key : α → κ} {input output : List α}

/-- `output` is what a sort of `input` by `key` may leave behind. -/
structure IsSortOf (key : α → κ) (input output : List α) : Prop where
  perm : output.Perm input
  ordered : output.Pairwise fun left right => ¬ key right < key left

/-- Sort a list by a key. -/
def sortByKey [DecidableLE κ] (key : α → κ) (input : List α) : List α :=
  input.insertionSort fun left right => key left ≤ key right

omit [LT κ] [Std.IsLinearOrder κ] [Std.LawfulOrderLT κ] in
/-- Sorting by a key permutes the list. -/
theorem sortByKey_perm [DecidableLE κ] (key : α → κ) (input : List α) :
    (sortByKey key input).Perm input :=
  List.perm_insertionSort _ input

omit [LT κ] [Std.LawfulOrderLT κ] in
/-- Sorting by a key puts no element before one with a smaller key. -/
theorem sortByKey_pairwise [DecidableLE κ] (key : α → κ) (input : List α) :
    (sortByKey key input).Pairwise fun left right => key left ≤ key right := by
  have total : Std.Total fun left right : α => key left ≤ key right :=
    ⟨fun left right => Std.le_total⟩
  have trans : IsTrans α fun left right => key left ≤ key right :=
    ⟨fun _ _ _ first second => Std.le_trans first second⟩
  exact List.pairwise_insertionSort _ input

/-- `sortByKey` computes an outcome. -/
theorem sortByKey_isSortOf [DecidableLE κ] (key : α → κ) (input : List α) :
    IsSortOf key input (sortByKey key input) where
  perm := sortByKey_perm key input
  ordered := (sortByKey_pairwise key input).imp Std.not_lt.mpr

omit [LE κ] [Std.IsLinearOrder κ] [Std.LawfulOrderLT κ] in
/-- Outcomes do not depend on the order of the input. -/
theorem IsSortOf.of_perm {other : List α} (sorted : IsSortOf key input output)
    (same : input.Perm other) : IsSortOf key other output :=
  ⟨sorted.perm.trans same, sorted.ordered⟩

/-- Two outcomes of sorting elements with distinct keys are equal. -/
theorem IsSortOf.eq_of_distinct {first second : List α} (distinct : (input.map key).Nodup)
    (left : IsSortOf key input first) (right : IsSortOf key input second) : first = second := by
  refine List.Perm.eq_of_pairwise ?_ left.ordered right.ordered
    (left.perm.trans right.perm.symm)
  intro a b inFirst inSecond notAfter notBefore
  have sameKey : key a = key b :=
    Std.le_antisymm (Std.not_lt.mp notAfter) (Std.not_lt.mp notBefore)
  exact List.inj_on_of_nodup_map distinct (left.perm.mem_iff.mp inFirst)
    (right.perm.mem_iff.mp inSecond) sameKey

/-- With distinct keys every outcome is the computed one. -/
theorem IsSortOf.eq_sortByKey [DecidableLE κ] (distinct : (input.map key).Nodup)
    (sorted : IsSortOf key input output) : output = sortByKey key input :=
  sorted.eq_of_distinct distinct (sortByKey_isSortOf key input)

/-- With distinct keys the sorted list is strictly increasing. -/
theorem sortByKey_strict [DecidableLE κ] (distinct : (input.map key).Nodup) :
    (sortByKey key input).Pairwise fun left right => key left < key right := by
  have apart : ((sortByKey key input).map key).Nodup :=
    ((sortByKey_perm key input).map key).nodup_iff.mpr distinct
  refine (sortByKey_pairwise key input).imp₂ ?_ (List.pairwise_map.mp apart)
  intro left right le ne
  exact Std.lt_of_le_of_ne le ne

/-- When the key tells elements apart, the sorted list does not depend on the order
of the input. -/
theorem sortByKey_eq_of_perm [DecidableLE κ] (injective : Function.Injective key)
    {other : List α} (same : input.Perm other) : sortByKey key input = sortByKey key other := by
  refine List.Perm.eq_of_pairwise ?_ (sortByKey_isSortOf key input).ordered
    (sortByKey_isSortOf key other).ordered
    (((sortByKey_perm key input).trans same).trans (sortByKey_perm key other).symm)
  intro left right _ _ notAfter notBefore
  exact injective (Std.le_antisymm (Std.not_lt.mp notAfter) (Std.not_lt.mp notBefore))

omit [Std.IsLinearOrder κ] in
/-- A list whose keys increase is sorted already. -/
theorem sortByKey_of_strict [DecidableLE κ]
    (strict : input.Pairwise fun left right => key left < key right) :
    sortByKey key input = input :=
  List.Pairwise.insertionSort_eq (strict.imp Std.le_of_lt)

/-- A list whose keys increase is determined by its members. -/
theorem eq_of_strict {first second : List α}
    (left : first.Pairwise fun left right => key left < key right)
    (right : second.Pairwise fun left right => key left < key right)
    (same : ∀ item, item ∈ first ↔ item ∈ second) : first = second := by
  have asymmetric : Std.Asymm fun left right : α => key left < key right :=
    ⟨fun _ _ before after => absurd (Std.lt_trans before after) Std.lt_irrefl⟩
  exact List.Pairwise.eq_of_mem_iff left right same

end Library
