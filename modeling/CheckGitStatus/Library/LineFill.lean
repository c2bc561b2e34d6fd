import Mathlib.Data.List.Chain
import Mathlib.Data.List.Basic

/-! # Filling lines greedily

Items are laid out on lines one after the other: the next item goes on the line that is
being filled if it fits there, and starts a new line otherwise. No item is lost
(`Library.flatten_fill`), no line is empty, an item that starts a line did not fit on
the line before (`Library.isChain_fill`), and only a line of a single item may hold one
that does not fit (`Library.singleOrFits_of_mem_fill`).
-/

namespace Library

variable {α : Type*} (fits : List α → α → Bool)

/-- The lines for some items after those on the line that is being filled. -/
def fillFrom (line : List α) : List α → List (List α)
  | [] => [line]
  | item :: rest => if fits line item then fillFrom (line ++ [item]) rest
      else line :: fillFrom [item] rest

/-- The lines of a greedy fill: an item opens a new line when it does not fit. -/
def fill : List α → List (List α)
  | [] => []
  | item :: rest => fillFrom fits [item] rest

theorem fillFrom_cons_of_fits {line : List α} {item : α} (enough : fits line item = true)
    (rest : List α) : fillFrom fits line (item :: rest) = fillFrom fits (line ++ [item]) rest := by
  rw [fillFrom, if_pos enough]

theorem fillFrom_cons_of_not_fits {line : List α} {item : α} (full : fits line item = false)
    (rest : List α) : fillFrom fits line (item :: rest) = line :: fillFrom fits [item] rest := by
  rw [fillFrom, if_neg (by rw [full]; exact Bool.false_ne_true)]

/-- A fill keeps all items in order. -/
theorem flatten_fillFrom (line items : List α) :
    (fillFrom fits line items).flatten = line ++ items := by
  induction items generalizing line with
  | nil => simp only [fillFrom, List.flatten_cons, List.flatten_nil]
  | cons item rest ih =>
      cases enough : fits line item with
      | true =>
          rw [fillFrom_cons_of_fits fits enough, ih, List.append_assoc, List.singleton_append]
      | false =>
          rw [fillFrom_cons_of_not_fits fits enough, List.flatten_cons, ih, List.singleton_append]

/-- Every item is on a line, in order. -/
theorem flatten_fill (items : List α) : (fill fits items).flatten = items := by
  cases items with
  | nil => rfl
  | cons item rest => exact flatten_fillFrom fits [item] rest

/-- The line that is being filled is the start of the first line. -/
theorem head?_fillFrom (line items : List α) :
    ∃ more, (fillFrom fits line items).head? = some (line ++ more) := by
  induction items generalizing line with
  | nil => exact ⟨[], by rw [fillFrom, List.append_nil]; rfl⟩
  | cons item rest ih =>
      cases enough : fits line item with
      | true =>
          obtain ⟨more, first⟩ := ih (line ++ [item])
          rw [List.append_assoc] at first
          rw [fillFrom_cons_of_fits fits enough]
          exact ⟨[item] ++ more, first⟩
      | false =>
          rw [fillFrom_cons_of_not_fits fits enough]
          exact ⟨[], by rw [List.append_nil]; rfl⟩

/-- No line is empty. -/
theorem ne_nil_of_mem_fillFrom {line : List α} (nonempty : line ≠ []) (items : List α) :
    ∀ filled ∈ fillFrom fits line items, filled ≠ [] := by
  induction items generalizing line with
  | nil => simpa only [fillFrom, List.forall_mem_singleton] using nonempty
  | cons item rest ih =>
      cases enough : fits line item with
      | true =>
          rw [fillFrom_cons_of_fits fits enough]
          exact ih (List.concat_ne_nil item line)
      | false =>
          rw [fillFrom_cons_of_not_fits fits enough, List.forall_mem_cons]
          exact ⟨nonempty, ih (List.cons_ne_nil item [])⟩

/-- No line is empty. -/
theorem ne_nil_of_mem_fill (items : List α) : ∀ filled ∈ fill fits items, filled ≠ [] := by
  cases items with
  | nil => exact fun _ inside => absurd inside List.not_mem_nil
  | cons item rest => exact ne_nil_of_mem_fillFrom fits (List.cons_ne_nil item []) rest

/-- The first item of a line did not fit on the line before it. -/
theorem isChain_fillFrom (line items : List α) :
    (fillFrom fits line items).IsChain fun before after =>
      ∀ item ∈ after.head?, fits before item = false := by
  induction items generalizing line with
  | nil => exact .singleton line
  | cons item rest ih =>
      cases enough : fits line item with
      | true =>
          rw [fillFrom_cons_of_fits fits enough]
          exact ih (line ++ [item])
      | false =>
          rw [fillFrom_cons_of_not_fits fits enough, List.isChain_cons]
          refine ⟨?_, ih [item]⟩
          intro next first other head
          obtain ⟨more, started⟩ := head?_fillFrom fits [item] rest
          rw [started] at first
          cases first
          cases head
          exact enough

/-- No line could have taken the first item of the next one. -/
theorem isChain_fill (items : List α) :
    (fill fits items).IsChain fun before after =>
      ∀ item ∈ after.head?, fits before item = false := by
  cases items with
  | nil => exact .nil
  | cons item rest => exact isChain_fillFrom fits [item] rest

/-- The line holds one item, or its last item fitted on it. -/
def SingleOrFits (line : List α) : Prop :=
  line.length = 1 ∨ ∃ front item, line = front ++ [item] ∧ fits front item = true

/-- Every line has a single item or items that fit. -/
theorem singleOrFits_of_mem_fillFrom {line : List α} (start : SingleOrFits fits line)
    (items : List α) : ∀ filled ∈ fillFrom fits line items, SingleOrFits fits filled := by
  induction items generalizing line with
  | nil => simpa only [fillFrom, List.forall_mem_singleton] using start
  | cons item rest ih =>
      cases enough : fits line item with
      | true =>
          rw [fillFrom_cons_of_fits fits enough]
          exact ih (.inr ⟨line, item, rfl, enough⟩)
      | false =>
          rw [fillFrom_cons_of_not_fits fits enough, List.forall_mem_cons]
          exact ⟨start, ih (.inl rfl)⟩

/-- Only a line of a single item may hold one that does not fit. -/
theorem singleOrFits_of_mem_fill (items : List α) :
    ∀ filled ∈ fill fits items, SingleOrFits fits filled := by
  cases items with
  | nil => exact fun _ inside => absurd inside List.not_mem_nil
  | cons item rest => exact singleOrFits_of_mem_fillFrom fits (.inl rfl) rest

end Library
