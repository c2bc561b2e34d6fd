import CheckGitStatus.Text.Bytes
import Mathlib.Data.List.Forall2

/-! # Reading back what was written

A command writes lines that are each ended by a line feed or each by a carriage
return and a line feed. The C++ program trims the text, splits it into lines and
drops a final carriage return from each. What it sees of a line is the line but for
white space at its end (`CheckGitStatus.getlines_trim_join`), so that the line has
the same first byte and the same words.
-/

namespace CheckGitStatus

/-! ## Words -/

/-- A word is not empty and has no white space in it. -/
structure IsWord (text : Text) : Prop where
  nonempty : text ≠ []
  solid : ∀ byte ∈ text, Cpp.isSpace byte = false

theorem isWord_iff {text : Text} :
    (!text.isEmpty && text.all fun byte => !Cpp.isSpace byte) = true ↔ IsWord text := by
  simp only [Bool.and_eq_true, Bool.not_eq_true', List.isEmpty_eq_false_iff, List.all_eq_true]
  exact ⟨fun parts => ⟨parts.1, parts.2⟩, fun word => ⟨word.nonempty, word.solid⟩⟩

instance (text : Text) : Decidable (IsWord text) :=
  decidable_of_iff _ isWord_iff

namespace Cpp

/-- A word alone is the only word. -/
theorem words_of_isWord {word : Text} (isWord : IsWord word) : words word = [word] := by
  simp only [words, List.splitOnP_eq_singleton isWord.solid, isWord.nonempty, ne_eq,
    not_false_eq_true, decide_true, List.filter_cons_of_pos, List.filter_nil]

/-- White space separates words. -/
theorem words_append_cons (front : Text) {byte : Byte} (blank : isSpace byte = true)
    (back : Text) : words (front ++ byte :: back) = words front ++ words back := by
  rw [words, List.splitOnP_append_cons front back blank, List.filter_append]
  rfl

theorem words_cons (back : Text) {byte : Byte} (blank : isSpace byte = true) :
    words (byte :: back) = words back :=
  words_append_cons [] blank back

/-- White space has no words. -/
theorem words_eq_nil_of_blank {text : Text} (blank : ∀ byte ∈ text, isSpace byte = true) :
    words text = [] := by
  induction text with
  | nil => rfl
  | cons byte rest ih =>
      rw [words_cons rest (blank byte List.mem_cons_self)]
      exact ih fun byte inside => blank byte (List.mem_cons_of_mem _ inside)

/-- White space at the end adds no word. -/
theorem words_append_blank (text : Text) {blank : Text}
    (space : ∀ byte ∈ blank, isSpace byte = true) : words (text ++ blank) = words text := by
  cases blank with
  | nil => rw [List.append_nil]
  | cons byte rest =>
      have none := words_eq_nil_of_blank fun byte inside =>
        space byte (List.mem_cons_of_mem _ inside)
      rw [words_append_cons text (space byte List.mem_cons_self), none, List.append_nil]

/-- Every piece that is extracted is a word. -/
theorem isWord_of_mem_words {text word : Text} (inside : word ∈ words text) : IsWord word := by
  obtain ⟨piece, nonempty⟩ := List.mem_filter.mp inside
  exact ⟨of_decide_eq_true nonempty, forall_of_mem_splitOnP piece⟩

/-- Words joined by single spaces are read back. -/
theorem words_intercalate {listed : List Text} (isWord : ∀ word ∈ listed, IsWord word) :
    words ((ascii " ").intercalate listed) = listed := by
  induction listed with
  | nil => rfl
  | cons first rest ih =>
      have single := words_of_isWord (isWord first List.mem_cons_self)
      cases rest with
      | nil => rw [List.intercalate_singleton, single]
      | cons next others =>
          have later := ih fun word inside => isWord word (List.mem_cons_of_mem _ inside)
          have joined : (ascii " ").intercalate (first :: next :: others) =
              first ++ 32 :: (ascii " ").intercalate (next :: others) := by
            rw [List.intercalate_cons_cons, List.append_assoc]
            rfl
          rw [joined, words_append_cons first (by decide), single, later]
          rfl

end Cpp

/-! ## Line endings -/

/-- How the lines of a text are ended. -/
inductive LineEnding where
  | lf
  | crlf
  deriving DecidableEq, Repr

namespace LineEnding

/-- What precedes the line feed. -/
def front : LineEnding → Text
  | .lf => []
  | .crlf => [carriageReturn]

/-- The text in which every line has the ending. -/
def join (ending : LineEnding) (lines : List Text) : Text :=
  lines.flatMap fun line => line ++ ending.front ++ [lineFeed]

theorem front_clean (ending : LineEnding) : lineFeed ∉ ending.front := by
  cases ending <;> decide

end LineEnding

/-- A line as it was written and the piece that is seen of it differ, without a final
carriage return of the piece, in white space at the end. -/
def SeenAs (written piece : Text) : Prop :=
  ∃ blank : Text, (∀ byte ∈ blank, Cpp.isSpace byte = true) ∧
    written = dropCarriageReturn piece ++ blank

/-- What is dropped of a line is white space at its end. -/
theorem dropCarriageReturn_append_eq (line : Text) :
    ∃ blank : Text, (∀ byte ∈ blank, Cpp.isSpace byte = true) ∧
      line = dropCarriageReturn line ++ blank := by
  unfold dropCarriageReturn
  split
  · rename_i last
    obtain ⟨front, rfl⟩ := List.getLast?_eq_some_iff.mp last
    refine ⟨[carriageReturn], List.all_eq_true.mp rfl, ?_⟩
    rw [List.dropLast_concat]
  · exact ⟨[], fun byte inside => absurd inside List.not_mem_nil, (List.append_nil line).symm⟩

theorem SeenAs.refl (line : Text) : SeenAs line line :=
  dropCarriageReturn_append_eq line

/-- A line is seen when it still has the ending in front of its line feed. -/
theorem seenAs_append_front (ending : LineEnding) (line : Text) :
    SeenAs line (line ++ ending.front) := by
  cases ending with
  | lf =>
      rw [LineEnding.front, List.append_nil]
      exact SeenAs.refl line
  | crlf =>
      refine ⟨[], fun byte inside => absurd inside List.not_mem_nil, ?_⟩
      simp only [LineEnding.front, dropCarriageReturn, List.getLast?_append,
        List.getLast?_singleton, Option.some_or, ↓reduceIte, List.dropLast_concat,
        List.append_nil]

/-- A line is seen when white space is trimmed from its end. -/
theorem seenAs_rdropWhile (line : Text) : SeenAs line (line.rdropWhile Cpp.isSpace) := by
  obtain ⟨blank, space, split⟩ := dropCarriageReturn_append_eq (line.rdropWhile Cpp.isSpace)
  refine ⟨blank ++ line.rtakeWhile Cpp.isSpace, ?_, ?_⟩
  · intro byte inside
    rcases List.mem_append.mp inside with early | late
    · exact space byte early
    · exact List.mem_rtakeWhile_imp late
  · rw [← List.append_assoc, ← split, List.rdropWhile_append_rtakeWhile]

namespace SeenAs

variable {written piece : Text}

/-- The words of a line are seen whole. -/
theorem words_eq (seen : SeenAs written piece) :
    Cpp.words (dropCarriageReturn piece) = Cpp.words written := by
  obtain ⟨blank, space, rfl⟩ := seen
  rw [Cpp.words_append_blank _ space]

/-- A first byte that is not white space is seen. -/
theorem head?_eq (seen : SeenAs written piece) {first : Byte}
    (head : written.head? = some first) (visible : Cpp.isSpace first = false) :
    (dropCarriageReturn piece).head? = some first := by
  obtain ⟨blank, space, rfl⟩ := seen
  cases kept : dropCarriageReturn piece with
  | nil =>
      rw [kept, List.nil_append] at head
      have hidden := space first (List.mem_of_mem_head? head)
      rw [visible] at hidden
      cases hidden
  | cons byte rest =>
      rw [kept, List.cons_append, List.head?_cons] at head
      rw [List.head?_cons]
      exact head

/-- A line that does not end with white space is seen whole. -/
theorem eq_of_visible {front : Text} {last : Byte} (seen : SeenAs (front ++ [last]) piece)
    (visible : Cpp.isSpace last = false) : dropCarriageReturn piece = front ++ [last] := by
  obtain ⟨blank, space, split⟩ := seen
  rcases List.eq_nil_or_concat blank with rfl | ⟨before, final, rfl⟩
  · rw [split, List.append_nil]
  · rw [List.concat_eq_append, ← List.append_assoc] at split
    have same := (List.append_inj' split rfl).2
    have hidden := space final (by rw [List.concat_eq_append]; exact List.mem_concat_self)
    rw [← List.head_eq_of_cons_eq same, visible] at hidden
    cases hidden

end SeenAs

/-! ## Trimmed texts -/

/-- Trimming a text that ends with a line in which something is visible trims the end
of that line. -/
theorem rdropWhile_append_of_ne_nil (front : Text) {line : Text}
    (visible : line.rdropWhile Cpp.isSpace ≠ []) :
    (front ++ line).rdropWhile Cpp.isSpace = front ++ line.rdropWhile Cpp.isSpace := by
  have kept : (line.reverse.dropWhile Cpp.isSpace).isEmpty = false := by
    rw [List.isEmpty_eq_false_iff]
    intro none
    apply visible
    rw [List.rdropWhile, none, List.reverse_nil]
  simp only [List.rdropWhile, List.reverse_append, List.dropWhile_append, kept,
    Bool.false_eq_true, ↓reduceIte, List.reverse_reverse]

/-- White space at the end makes no difference to what is cut off there. -/
theorem rdropWhile_append_blank (line : Text) {blank : Text}
    (space : ∀ byte ∈ blank, Cpp.isSpace byte = true) :
    (line ++ blank).rdropWhile Cpp.isSpace = line.rdropWhile Cpp.isSpace := by
  have dropped : ∀ byte ∈ blank.reverse, Cpp.isSpace byte = true := by
    intro byte inside
    exact space byte (List.mem_reverse.mp inside)
  rw [List.rdropWhile, List.reverse_append, List.dropWhile_append_of_pos dropped, List.rdropWhile]

/-- The line starts with something visible and has no line feed in it. -/
structure IsLine (line : Text) : Prop where
  visible : ∃ first, line.head? = some first ∧ Cpp.isSpace first = false
  clean : lineFeed ∉ line

theorem IsLine.rdropWhile_ne_nil {line : Text} (isLine : IsLine line) :
    line.rdropWhile Cpp.isSpace ≠ [] := by
  obtain ⟨first, head, visible⟩ := isLine.visible
  intro blank
  have hidden := List.rdropWhile_eq_nil_iff.mp blank first (List.mem_of_mem_head? head)
  rw [visible] at hidden
  cases hidden

/-- A text whose first byte is visible is only trimmed at its end. -/
theorem trim_eq_rdropWhile {text : Text} {first : Byte} (head : text.head? = some first)
    (visible : Cpp.isSpace first = false) : Cpp.trim text = text.rdropWhile Cpp.isSpace := by
  obtain ⟨rest, rfl⟩ := List.head?_eq_some_iff.mp head
  rw [Cpp.trim, List.dropWhile_cons_of_neg (by rw [visible]; exact Bool.false_ne_true)]

/-- Trimming the text of some lines leaves the text of all but the last, and what is
trimmed of the last. -/
theorem trim_join_concat (ending : LineEnding) {front : List Text} {last : Text}
    (lines : ∀ line ∈ front ++ [last], IsLine line) :
    Cpp.trim (ending.join (front ++ [last])) =
      ending.join front ++ last.rdropWhile Cpp.isSpace := by
  have isLast : IsLine last := lines last List.mem_concat_self
  have head : ∃ first, (ending.join (front ++ [last])).head? = some first ∧
      Cpp.isSpace first = false := by
    cases front with
    | nil =>
        obtain ⟨first, head, visible⟩ := isLast.visible
        obtain ⟨rest, rfl⟩ := List.head?_eq_some_iff.mp head
        exact ⟨first, rfl, visible⟩
    | cons line others =>
        obtain ⟨first, head, visible⟩ := (lines line List.mem_cons_self).visible
        obtain ⟨rest, rfl⟩ := List.head?_eq_some_iff.mp head
        exact ⟨first, rfl, visible⟩
  have space : ∀ byte ∈ ending.front ++ [lineFeed], Cpp.isSpace byte = true := by
    apply List.all_eq_true.mp
    cases ending <;> rfl
  obtain ⟨first, head, visible⟩ := head
  have whole : ending.join (front ++ [last]) =
      ending.join front ++ (last ++ (ending.front ++ [lineFeed])) := by
    simp only [LineEnding.join, List.flatMap_append, List.flatMap_singleton, List.append_assoc]
  have trimmed := rdropWhile_append_blank last space
  rw [trim_eq_rdropWhile head visible, whole, ← trimmed]
  apply rdropWhile_append_of_ne_nil
  rw [trimmed]
  exact isLast.rdropWhile_ne_nil

/-- The pieces of a text that ends with a line that has no line feed. -/
theorem getlines_join_append (ending : LineEnding) {lines : List Text} {last : Text}
    (clean : ∀ line ∈ lines, lineFeed ∉ line) (unbroken : lineFeed ∉ last)
    (nonempty : last ≠ []) :
    Cpp.getlines (ending.join lines ++ last) =
      (lines.map fun line => line ++ ending.front) ++ [last] := by
  have split : (ending.join lines ++ last).splitOn lineFeed =
      (lines.map fun line => line ++ ending.front) ++ [last] := by
    induction lines with
    | nil => exact List.splitOn_eq_singleton unbroken
    | cons line rest ih =>
        have here : lineFeed ∉ line ++ ending.front := by
          rw [List.mem_append, not_or]
          exact ⟨clean line List.mem_cons_self, ending.front_clean⟩
        have later := ih fun line inside => clean line (List.mem_cons_of_mem _ inside)
        have whole : ending.join (line :: rest) ++ last =
            (line ++ ending.front) ++ lineFeed :: (ending.join rest ++ last) := by
          simp only [LineEnding.join, List.flatMap_cons, List.append_assoc, List.cons_append,
            List.nil_append]
        rw [whole, List.splitOn_append_cons_self_of_not_mem here, later]
        rfl
  have kept : ¬ ((lines.map fun line => line ++ ending.front) ++ [last]).getLast? = some [] := by
    rw [List.getLast?_concat]
    exact fun empty => nonempty (Option.some.inj empty)
  simp only [Cpp.getlines, split, kept, ↓reduceIte]

/-- **Lines come through trimming and splitting.** What the program sees of a text of
lines is a piece for every line, which differs from it in white space at the end. -/
theorem getlines_trim_join (ending : LineEnding) {lines : List Text}
    (isLine : ∀ line ∈ lines, IsLine line) :
    List.Forall₂ SeenAs lines (Cpp.getlines (Cpp.trim (ending.join lines))) := by
  rcases List.eq_nil_or_concat lines with rfl | ⟨front, last, rfl⟩
  · exact .nil
  rw [List.concat_eq_append] at isLine ⊢
  have isLast : IsLine last := isLine last List.mem_concat_self
  have clean : ∀ line ∈ front, lineFeed ∉ line := fun line inside =>
    (isLine line (List.mem_append_left _ inside)).clean
  have unbroken : lineFeed ∉ last.rdropWhile Cpp.isSpace := fun inside =>
    isLast.clean ((List.rdropWhile_prefix Cpp.isSpace last).subset inside)
  rw [trim_join_concat ending isLine,
    getlines_join_append ending clean unbroken isLast.rdropWhile_ne_nil]
  have early : List.Forall₂ SeenAs front (front.map fun line => line ++ ending.front) := by
    rw [List.forall₂_map_right_iff, List.forall₂_same]
    exact fun line _ => seenAs_append_front ending line
  exact List.rel_append early (.cons (seenAs_rdropWhile last) .nil)

/-- A reader to whom a line and what is seen of it are the same reads the lines. -/
theorem map_getlines_trim_join {α : Type*} {read : Text → α} (ending : LineEnding)
    {lines : List Text} (isLine : ∀ line ∈ lines, IsLine line)
    (reads : ∀ line ∈ lines, ∀ piece, SeenAs line piece → read piece = read line) :
    (Cpp.getlines (Cpp.trim (ending.join lines))).map read = lines.map read := by
  have seen := getlines_trim_join ending isLine
  generalize Cpp.getlines (Cpp.trim (ending.join lines)) = pieces at seen
  clear isLine
  induction seen with
  | nil => rfl
  | cons first _ ih =>
      rw [List.map_cons, List.map_cons, reads _ List.mem_cons_self _ first,
        ih fun line inside => reads line (List.mem_cons_of_mem _ inside)]

end CheckGitStatus
