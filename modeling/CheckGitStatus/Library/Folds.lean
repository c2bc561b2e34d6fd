import Mathlib.Data.List.Basic
import Mathlib.Data.List.Nodup

/-! # Loops that keep the first or the last match

A loop that stops at a match ends with the first one (`Library.IsFirst`). A loop that
overwrites a variable at every match ends with the last match
(`Library.lastMatch`). A loop that appends an entry unless its key is already
there ends with the first entry of every key (`Library.firstEntries`).
-/

namespace Library

section FirstMatch

variable {α : Type*} {holds : α → Prop} {items : List α}

/-- The first of the elements with a property. -/
structure IsFirst (holds : α → Prop) (items : List α) (first : α) : Prop where
  matches_first : holds first
  nothing_before : ∃ front back, items = front ++ first :: back ∧ ∀ item ∈ front, ¬ holds item

/-- The first item with a property is the one that a search finds. -/
theorem isFirst_iff_find? [DecidablePred holds] {first : α} :
    IsFirst holds items first ↔ items.find? (fun item => decide (holds item)) = some first := by
  rw [List.find?_eq_some_iff_append]
  simp only [decide_eq_true_eq, Bool.not_eq_eq_eq_not, Bool.not_true, decide_eq_false_iff_not]
  exact ⟨fun ⟨found, before⟩ => ⟨found, before⟩, fun ⟨found, before⟩ => ⟨found, before⟩⟩

theorem IsFirst.mem {first : α} (isFirst : IsFirst holds items first) : first ∈ items := by
  obtain ⟨front, back, rfl, _⟩ := isFirst.nothing_before
  exact List.mem_append_right front List.mem_cons_self

/-- There is one first item. -/
theorem IsFirst.unique {first other : α} (isFirst : IsFirst holds items first)
    (otherFirst : IsFirst holds items other) : first = other := by
  classical
  rw [isFirst_iff_find?] at isFirst otherFirst
  exact Option.some.inj (isFirst.symm.trans otherFirst)

/-- If some item has the property, there is a first one. -/
theorem exists_isFirst {item : α} (inside : item ∈ items) (found : holds item) :
    ∃ first, IsFirst holds items first := by
  classical
  have some_found : (items.find? fun item => decide (holds item)).isSome = true :=
    List.find?_isSome.mpr ⟨item, inside, decide_eq_true found⟩
  obtain ⟨first, first_found⟩ := Option.isSome_iff_exists.mp some_found
  exact ⟨first, isFirst_iff_find?.mpr first_found⟩

/-- The first element with a weaker property is that with the stronger one if it has it. -/
theorem IsFirst.of_imp {stronger : α → Prop} {first : α} (isFirst : IsFirst holds items first)
    (implies : ∀ item, stronger item → holds item) (found : stronger first) :
    IsFirst stronger items first := by
  obtain ⟨front, back, split, before⟩ := isFirst.nothing_before
  exact ⟨found, front, back, split, fun item inside matched =>
    before item inside (implies item matched)⟩

/-- An item without the property is passed over. -/
theorem isFirst_cons_iff {item first : α} (passed : ¬ holds item) :
    IsFirst holds (item :: items) first ↔ IsFirst holds items first := by
  classical
  rw [isFirst_iff_find?, isFirst_iff_find?, List.find?_cons_of_neg]
  simpa only [decide_eq_true_eq] using passed

/-- The first match in a list of images is the image of the first match. -/
theorem isFirst_map_iff {β : Type*} {image : β → α} {sources : List β} {first : α} :
    IsFirst holds (sources.map image) first ↔
      ∃ source, IsFirst (fun source => holds (image source)) sources source ∧
        image source = first := by
  classical
  rw [isFirst_iff_find?, List.find?_map, Option.map_eq_some_iff]
  exact exists_congr fun source => and_congr_left fun _ => isFirst_iff_find?.symm

end FirstMatch

section LastMatch

variable {α β : Type*} (select : α → Option β)

/-- What the last element that matches is matched to. -/
def lastMatch (items : List α) : Option β :=
  (items.filterMap select).getLast?

@[simp] theorem lastMatch_nil : lastMatch select [] = none := rfl

theorem lastMatch_cons (first : α) (rest : List α) :
    lastMatch select (first :: rest) = (lastMatch select rest).or (select first) := by
  unfold lastMatch
  cases chosen : select first with
  | none => simp only [List.filterMap_cons, chosen, Option.or_none]
  | some value =>
      simp only [List.filterMap_cons, chosen]
      cases later : (rest.filterMap select).getLast? with
      | none =>
          rw [List.getLast?_eq_none_iff] at later
          simp only [later, List.getLast?_singleton, Option.none_or]
      | some last =>
          rw [List.getLast?_cons, later]
          rfl

/-- What follows the last match has no say in it. -/
theorem lastMatch_append_of_none (front : List α) {back : List α}
    (silent : ∀ item ∈ back, select item = none) :
    lastMatch select (front ++ back) = lastMatch select front := by
  rw [lastMatch, List.filterMap_append, List.filterMap_eq_nil_iff.mpr silent, List.append_nil,
    lastMatch]

/-- A value that the last match has is the match of some element. -/
theorem lastMatch_mem {items : List α} {value : β} (last : lastMatch select items = some value) :
    ∃ item ∈ items, select item = some value := by
  have inside := List.mem_of_getLast? last
  exact List.mem_filterMap.mp inside

/-- A later match overrides an earlier one. -/
theorem lastMatch_append (front back : List α) :
    lastMatch select (front ++ back) = (lastMatch select back).or (lastMatch select front) := by
  rw [lastMatch, List.filterMap_append, List.getLast?_append, lastMatch, lastMatch]

/-- Matching in two stages, the last match is that of the second among what the first takes. -/
theorem lastMatch_bind {γ : Type*} (read : β → Option γ) (items : List α) :
    lastMatch (fun item => (select item).bind read) items =
      lastMatch read (items.filterMap select) := by
  rw [lastMatch, lastMatch, List.filterMap_filterMap]

/-- What is selected may be mapped before or after the last match is taken. -/
theorem lastMatch_map_image {γ : Type*} (image : β → γ) (items : List α) :
    lastMatch (fun item => (select item).map image) items =
      (lastMatch select items).map image := by
  rw [lastMatch, lastMatch, ← List.map_filterMap, List.getLast?_map]

/-- The last match among images is the one of the selection after the map. -/
theorem lastMatch_map {γ : Type*} (image : γ → α) (items : List γ) :
    lastMatch select (items.map image) = lastMatch (fun item => select (image item)) items := by
  rw [lastMatch, List.filterMap_map, lastMatch]
  rfl

/-- The last match is followed by elements that do not match. -/
theorem lastMatch_eq_some_iff {items : List α} {value : β} :
    lastMatch select items = some value ↔
      ∃ front item back, items = front ++ item :: back ∧ select item = some value ∧
        ∀ later ∈ back, select later = none := by
  constructor
  · intro last
    induction items with
    | nil => cases last
    | cons first rest ih =>
        rw [lastMatch_cons] at last
        cases later : lastMatch select rest with
        | some other =>
            rw [later, Option.some_or, Option.some.injEq] at last
            obtain ⟨front, item, back, rfl, matched⟩ := ih (later.trans (congrArg some last))
            exact ⟨first :: front, item, back, rfl, matched⟩
        | none =>
            rw [later, Option.none_or] at last
            have silent : ∀ item ∈ rest, select item = none := by
              rw [lastMatch, List.getLast?_eq_none_iff, List.filterMap_eq_nil_iff] at later
              exact later
            exact ⟨[], first, rest, rfl, last, silent⟩
  · rintro ⟨front, item, back, rfl, matched, silent⟩
    have whole : front ++ item :: back = (front ++ [item]) ++ back := by
      rw [List.append_assoc, List.singleton_append]
    rw [whole, lastMatch_append_of_none select _ silent, lastMatch, List.filterMap_append,
      List.filterMap_cons, matched, List.filterMap_nil, List.getLast?_append,
      List.getLast?_singleton, Option.some_or]

end LastMatch

section FirstEntries

variable {κ ν : Type*} [BEq κ] [LawfulBEq κ]

/-- Append an entry unless its key has one already. -/
def insertNew (entries : List (κ × ν)) (entry : κ × ν) : List (κ × ν) :=
  if entries.any fun other => other.1 == entry.1 then entries else entries ++ [entry]

/-- The first entry of every key, in the order of their first appearance. -/
def firstEntries (listed : List (κ × ν)) : List (κ × ν) :=
  listed.foldl insertNew []

theorem any_key_iff {entries : List (κ × ν)} {key : κ} :
    (entries.any fun other => other.1 == key) = true ↔ key ∈ entries.map Prod.fst := by
  simp only [List.any_eq_true, beq_iff_eq, List.mem_map]

theorem insertNew_of_mem {entries : List (κ × ν)} {entry : κ × ν}
    (known : entry.1 ∈ entries.map Prod.fst) : insertNew entries entry = entries := by
  simp only [insertNew, any_key_iff.mpr known, ↓reduceIte]

theorem insertNew_of_not_mem {entries : List (κ × ν)} {entry : κ × ν}
    (fresh : entry.1 ∉ entries.map Prod.fst) : insertNew entries entry = entries ++ [entry] := by
  have absent := mt any_key_iff.mp fresh
  simp only [insertNew, absent, Bool.false_eq_true, ↓reduceIte]

/-- Insertion keeps the keys distinct. -/
theorem insertNew_nodup {entries : List (κ × ν)} (distinct : (entries.map Prod.fst).Nodup)
    (entry : κ × ν) : ((insertNew entries entry).map Prod.fst).Nodup := by
  by_cases known : entry.1 ∈ entries.map Prod.fst
  · rw [insertNew_of_mem known]
    exact distinct
  · rw [insertNew_of_not_mem known, List.map_append, List.map_singleton]
    exact List.nodup_append.mpr ⟨distinct, List.nodup_singleton _, by
      intro key inside other last
      rw [List.mem_singleton.mp last]
      rintro rfl
      exact known inside⟩

/-- A loop of insertions finds, for every key, the entry it started with or else
the first one inserted. -/
theorem find?_foldl_insertNew (listed entries : List (κ × ν)) (key : κ) :
    (listed.foldl insertNew entries).find? (fun entry => entry.1 == key) =
      (entries.find? fun entry => entry.1 == key).or
        (listed.find? fun entry => entry.1 == key) := by
  induction listed generalizing entries with
  | nil => simp only [List.foldl_nil, List.find?_nil, Option.or_none]
  | cons first rest ih =>
      rw [List.foldl_cons, ih]
      by_cases known : first.1 ∈ entries.map Prod.fst
      · rw [insertNew_of_mem known]
        by_cases same : first.1 = key
        · obtain ⟨entry, inside, keyed⟩ := List.mem_map.mp known
          have found : (entries.find? fun entry => entry.1 == key).isSome := by
            rw [List.find?_isSome]
            exact ⟨entry, inside, beq_iff_eq.mpr (keyed.trans same)⟩
          obtain ⟨value, here⟩ := Option.isSome_iff_exists.mp found
          simp only [here, Option.some_or]
        · simp only [List.find?_cons, beq_eq_false_iff_ne.mpr same]
      · rw [insertNew_of_not_mem known, List.find?_append, Option.or_assoc]
        congr 1
        by_cases same : first.1 = key
        · simp only [List.find?_cons, beq_iff_eq.mpr same, Option.some_or]
        · simp only [List.find?_cons, beq_eq_false_iff_ne.mpr same, List.find?_nil, Option.none_or]

theorem firstEntries_nodup (listed : List (κ × ν)) :
    ((firstEntries listed).map Prod.fst).Nodup := by
  have loop : ∀ entries : List (κ × ν), (entries.map Prod.fst).Nodup →
      ((listed.foldl insertNew entries).map Prod.fst).Nodup := by
    induction listed with
    | nil => exact fun entries distinct => distinct
    | cons first rest ih => exact fun entries distinct => ih _ (insertNew_nodup distinct first)
  exact loop [] List.nodup_nil

/-- The entry that is kept for a key is the first one listed. -/
theorem find?_firstEntries (listed : List (κ × ν)) (key : κ) :
    (firstEntries listed).find? (fun entry => entry.1 == key) =
      listed.find? fun entry => entry.1 == key := by
  rw [firstEntries, find?_foldl_insertNew, List.find?_nil, Option.none_or]

/-- With distinct keys an entry is the one found under its key. -/
theorem find?_eq_some_of_mem {entries : List (κ × ν)} (distinct : (entries.map Prod.fst).Nodup)
    {entry : κ × ν} (inside : entry ∈ entries) :
    entries.find? (fun other => other.1 == entry.1) = some entry := by
  induction entries with
  | nil => exact absurd inside List.not_mem_nil
  | cons first rest ih =>
      rw [List.map_cons, List.nodup_cons] at distinct
      rcases List.mem_cons.mp inside with rfl | later
      · simp only [List.find?_cons, BEq.rfl]
      · have other : first.1 ≠ entry.1 := fun same =>
          distinct.1 (same ▸ List.mem_map_of_mem later)
        simp only [List.find?_cons, beq_eq_false_iff_ne.mpr other]
        exact ih distinct.2 later

/-- The keys that are kept are the keys that are listed. -/
theorem mem_keys_firstEntries_iff {listed : List (κ × ν)} {key : κ} :
    key ∈ (firstEntries listed).map Prod.fst ↔ key ∈ listed.map Prod.fst := by
  rw [← any_key_iff, ← any_key_iff, ← List.isSome_find?, ← List.isSome_find?,
    find?_firstEntries]

/-- Nothing is kept only of nothing. -/
theorem firstEntries_eq_nil_iff {listed : List (κ × ν)} : firstEntries listed = [] ↔ listed = [] := by
  have keys : (firstEntries listed).map Prod.fst = [] ↔ listed.map Prod.fst = [] := by
    simp only [List.eq_nil_iff_forall_not_mem, mem_keys_firstEntries_iff]
  simpa only [List.map_eq_nil_iff] using keys

end FirstEntries

end Library
