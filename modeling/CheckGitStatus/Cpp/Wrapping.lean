import CheckGitStatus.Cpp.Report
import CheckGitStatus.Library.LineFill
import CheckGitStatus.Text.Lines

/-! # Wrapped messages

`write_wrapped` puts the words of a message on indented lines. It takes the next word
for the first one of its line when the line has no width beyond the indentation, but a
word of continuation bytes has no width either. Such a word at the start of a line is
glued to the next one, or is not written at all. The words are kept exactly when no
line of their greedy layout starts with one (`CheckGitStatus.Cpp.writeWrapped_isWrapped_iff`).
-/

namespace CheckGitStatus.Cpp

open Library

/-- Words on an indented line. -/
def lineText (indent : Nat) (line : List Text) : Text :=
  List.replicate indent 32 ++ (ascii " ").intercalate line

/-- The text of several lines, each with its indent and its line feed. -/
def linesText (indent : Nat) (lines : List (List Text)) : Text :=
  lines.flatMap fun line => lineText indent line ++ ascii "\n"

/-- A line with one more word is not too wide. -/
def fitsLine (indent maxWidth : Nat) (line : List Text) (word : Text) : Bool :=
  utf8Width (lineText indent (line ++ [word])) ≤ maxWidth

/-- The output is the words of the message on lines: a line that is too wide holds a
single word, and the first word of a line is too wide for the line before it. -/
structure IsWrapped (message : Text) (indent maxWidth : Nat) (output : Text)
    (lines : List (List Text)) : Prop where
  written : output = linesText indent lines
  nonempty : ∀ line ∈ lines, line ≠ []
  kept : lines.flatten = words message
  silent : output = [] → words message = []
  wide : ∀ line ∈ lines, maxWidth < utf8Width (lineText indent line) → line.length = 1
  full : lines.IsChain fun before after =>
    ∀ word ∈ after.head?, maxWidth < utf8Width (lineText indent (before ++ [word]))

/-- The lines of a message when every line takes as many words as fit, and one at least. -/
def greedyLines (message : Text) (indent maxWidth : Nat) : List (List Text) :=
  fill (fitsLine indent maxWidth) (words message)

/-- The first word of the line has a width. -/
def StartsWide (line : List Text) : Prop :=
  ∀ word ∈ line.head?, 0 < utf8Width word

/-! ## The width of a line -/

/-- What the loop takes for a line with words on it. -/
def HasWidth (line : List Text) : Prop :=
  0 < utf8Width ((ascii " ").intercalate line)

instance (line : List Text) : Decidable (HasWidth line) :=
  inferInstanceAs (Decidable (_ < _))

/-- The width of a line is the indent and the width of its words with single spaces. -/
theorem utf8Width_lineText (indent : Nat) (line : List Text) :
    utf8Width (lineText indent line) = indent + utf8Width ((ascii " ").intercalate line) := by
  rw [lineText, utf8Width_append, utf8Width_spaces]

theorem lineText_nil (indent : Nat) : lineText indent [] = List.replicate indent 32 :=
  List.append_nil _

theorem lineText_concat (indent : Nat) {line : List Text} (nonempty : line ≠ []) (word : Text) :
    lineText indent (line ++ [word]) = lineText indent line ++ ascii " " ++ word := by
  have joined : (ascii " ").intercalate (line ++ [word]) =
      (ascii " ").intercalate line ++ ascii " " ++ word := by
    induction line with
    | nil => exact absurd rfl nonempty
    | cons first rest ih =>
        cases rest with
        | nil =>
            rw [List.singleton_append, List.intercalate_cons_cons, List.intercalate_singleton,
              List.intercalate_singleton]
        | cons next others =>
            rw [List.cons_append, List.intercalate_cons_of_ne_nil (List.concat_ne_nil _ _),
              ih (List.cons_ne_nil _ _), List.intercalate_cons_cons]
            simp only [List.append_assoc]
  rw [lineText, joined, lineText]
  simp only [List.append_assoc]

theorem HasWidth.ne_nil {line : List Text} (wide : HasWidth line) : line ≠ [] := by
  rintro rfl
  exact absurd wide (Nat.lt_irrefl 0)

/-- A word alone has a width exactly if it is visible. -/
theorem hasWidth_singleton {word : Text} : HasWidth [word] ↔ 0 < utf8Width word := by
  rw [HasWidth, List.intercalate_singleton]

/-- A line has a width if its first word has one or is not the only one. -/
theorem hasWidth_cons_cons (first next : Text) (rest : List Text) :
    HasWidth (first :: next :: rest) := by
  rw [HasWidth, List.intercalate_cons_cons, utf8Width_append, utf8Width_append]
  have separator : utf8Width (ascii " ") = 1 := rfl
  omega

/-- A line that starts with a visible word has a width. -/
theorem StartsWide.hasWidth {line : List Text} (nonempty : line ≠ []) (wide : StartsWide line) :
    HasWidth line := by
  match line with
  | [] => exact absurd rfl nonempty
  | [word] => exact hasWidth_singleton.mpr (wide word rfl)
  | first :: next :: rest => exact hasWidth_cons_cons first next rest

/-- A line without a width has one word at most, and the next word is glued to it. -/
theorem lineText_append_of_not_hasWidth (indent : Nat) {line : List Text}
    (narrow : ¬ HasWidth line) (word : Text) :
    lineText indent line ++ word = lineText indent [line.flatten ++ word] := by
  match line with
  | [] => rw [lineText_nil, List.flatten_nil, List.nil_append, lineText,
      List.intercalate_singleton]
  | [first] =>
      rw [lineText, lineText, List.intercalate_singleton, List.intercalate_singleton,
        List.flatten_singleton, List.append_assoc]
  | first :: next :: rest => exact absurd (hasWidth_cons_cons first next rest) narrow

/-! ## The loop -/

/-- The words on the lines that are written, after some words on the line that is being
filled. A word is glued to a line without a width, and such a line is not written. -/
def layFrom (indent maxWidth : Nat) (line : List Text) : List Text → List (List Text)
  | [] => if HasWidth line then [line] else []
  | word :: rest =>
      if ¬ HasWidth line then layFrom indent maxWidth [line.flatten ++ word] rest
      else if fitsLine indent maxWidth line word then
        layFrom indent maxWidth (line ++ [word]) rest
      else line :: layFrom indent maxWidth [word] rest

/-- The state of the loop when some words are on the line that is being filled. -/
def wrappingOf (indent : Nat) (written : Text) (line : List Text) : Report.Wrapping where
  written := written
  line := lineText indent line
  lineWidth := utf8Width (lineText indent line)

/-- After a line without a width a word follows without a space. -/
theorem wrapWord_of_not_hasWidth {indent maxWidth : Nat} {line : List Text}
    (narrow : ¬ HasWidth line) (written word : Text) :
    Report.wrapWord utf8Width indent maxWidth (wrappingOf indent written line) word =
      wrappingOf indent written [line.flatten ++ word] := by
  have empty : ¬ indent < utf8Width (lineText indent line) := by
    rw [utf8Width_lineText]
    unfold HasWidth at narrow
    omega
  have glued := lineText_append_of_not_hasWidth indent narrow word
  simp only [Report.wrapWord, wrappingOf, empty, false_and, ↓reduceIte, Nat.lt_irrefl,
    List.append_nil, Nat.add_zero, ← glued, utf8Width_append]

/-- After a line with a width a word follows a space, or opens a new line. -/
theorem wrapWord_of_hasWidth {indent maxWidth : Nat} {line : List Text} (wide : HasWidth line)
    (written word : Text) :
    Report.wrapWord utf8Width indent maxWidth (wrappingOf indent written line) word =
      if fitsLine indent maxWidth line word then wrappingOf indent written (line ++ [word])
      else wrappingOf indent (written ++ (lineText indent line ++ ascii "\n")) [word] := by
  have filled : indent < utf8Width (lineText indent line) := by
    rw [utf8Width_lineText]
    unfold HasWidth at wide
    omega
  have separator : utf8Width (ascii " ") = 1 := rfl
  have next := lineText_concat indent wide.ne_nil word
  have single : lineText indent [word] = List.replicate indent 32 ++ word := by
    rw [lineText, List.intercalate_singleton]
  have enough : fitsLine indent maxWidth line word = true ↔
      ¬ maxWidth < utf8Width (lineText indent line) + 1 + utf8Width word := by
    rw [fitsLine, decide_eq_true_eq, next, utf8Width_append, utf8Width_append, separator, not_lt]
  by_cases fits : maxWidth < utf8Width (lineText indent line) + 1 + utf8Width word
  · simp only [Report.wrapWord, wrappingOf, filled, enough, fits, and_self, ↓reduceIte, single,
      utf8Width_append, utf8Width_spaces, not_true_eq_false, List.append_assoc]
  · simp only [Report.wrapWord, wrappingOf, filled, enough, fits, and_false, ↓reduceIte, next,
      utf8Width_append, separator, not_false_eq_true, Nat.zero_lt_one]

/-- What the program writes once the loop is over. -/
def flush (indent : Nat) (final : Report.Wrapping) : Text :=
  if indent < final.lineWidth then final.written ++ final.line ++ ascii "\n" else final.written

/-- The loop writes the lines that it lays out. -/
theorem flush_foldl_wrapWord (indent maxWidth : Nat) (line listed : List Text) (written : Text) :
    flush indent (listed.foldl (Report.wrapWord utf8Width indent maxWidth)
        (wrappingOf indent written line)) =
      written ++ linesText indent (layFrom indent maxWidth line listed) := by
  induction listed generalizing line written with
  | nil =>
      have filled : indent < (wrappingOf indent written line).lineWidth ↔ HasWidth line := by
        have width : (wrappingOf indent written line).lineWidth =
            indent + utf8Width ((ascii " ").intercalate line) := utf8Width_lineText indent line
        rw [width, HasWidth]
        omega
      rw [List.foldl_nil, flush, layFrom]
      by_cases wide : HasWidth line
      · rw [if_pos wide, if_pos (filled.mpr wide), linesText, List.flatMap_singleton]
        exact List.append_assoc _ _ _
      · rw [if_neg wide, if_neg (mt filled.mp wide), linesText, List.flatMap_nil,
          List.append_nil]
        rfl
  | cons word rest ih =>
      rw [List.foldl_cons, layFrom]
      by_cases wide : HasWidth line
      · rw [wrapWord_of_hasWidth wide, if_neg (not_not.mpr wide)]
        split
        · exact ih (line ++ [word]) written
        · rw [ih [word], linesText, linesText, List.flatMap_cons, List.append_assoc]
      · rw [wrapWord_of_not_hasWidth wide, if_pos wide]
        exact ih [line.flatten ++ word] written

/-- `write_wrapped` writes the lines that its loop lays. -/
theorem writeWrapped_eq (message : Text) (indent maxWidth : Nat) :
    writeWrapped message indent maxWidth =
      linesText indent (layFrom indent maxWidth [] (words message)) := by
  have start : ({ line := List.replicate indent 32, lineWidth := indent } : Report.Wrapping) =
      wrappingOf indent [] [] := by
    rw [wrappingOf, lineText_nil, utf8Width_spaces]
  have run := flush_foldl_wrapWord indent maxWidth [] (words message) []
  rw [List.nil_append] at run
  rw [writeWrapped, Report.writeWrapped, start]
  exact run

/-! ## The words that are written -/

theorem words_spaces_append (count : Nat) (text : Text) :
    words (List.replicate count 32 ++ text) = words text := by
  induction count with
  | zero => rfl
  | succ count ih =>
      rw [List.replicate_succ, List.cons_append, words_cons _ (by decide), ih]

/-- The words of some lines are read back. -/
theorem words_linesText (indent : Nat) {lines : List (List Text)}
    (isWord : ∀ line ∈ lines, ∀ word ∈ line, IsWord word) :
    words (linesText indent lines) = lines.flatten := by
  induction lines with
  | nil => rfl
  | cons line rest ih =>
      have first := words_intercalate (isWord line List.mem_cons_self)
      have later := ih fun line inside => isWord line (List.mem_cons_of_mem _ inside)
      have whole : linesText indent (line :: rest) = List.replicate indent 32 ++
          ((ascii " ").intercalate line ++ 10 :: linesText indent rest) := by
        simp only [linesText, lineText, List.flatMap_cons, List.append_assoc]
        rfl
      rw [whole, words_spaces_append, words_append_cons _ (by decide), first, later,
        List.flatten_cons]

theorem IsWord.append {left right : Text} (isLeft : ∀ byte ∈ left, isSpace byte = false)
    (isRight : IsWord right) : IsWord (left ++ right) := by
  refine ⟨List.append_ne_nil_of_right_ne_nil left isRight.nonempty, ?_⟩
  intro byte inside
  rcases List.mem_append.mp inside with early | late
  · exact isLeft byte early
  · exact isRight.solid byte late

/-- Words that are glued are words. -/
theorem isWord_of_mem_layFrom (indent maxWidth : Nat) {line listed : List Text}
    (lineWords : ∀ word ∈ line, IsWord word) (listedWords : ∀ word ∈ listed, IsWord word) :
    ∀ filled ∈ layFrom indent maxWidth line listed, ∀ word ∈ filled, IsWord word := by
  induction listed generalizing line with
  | nil =>
      rw [layFrom]
      split
      · exact List.forall_mem_singleton.mpr lineWords
      · exact fun _ inside => absurd inside List.not_mem_nil
  | cons word rest ih =>
      have isWord := listedWords word List.mem_cons_self
      have restWords : ∀ word ∈ rest, IsWord word := fun word inside =>
        listedWords word (List.mem_cons_of_mem _ inside)
      rw [layFrom]
      split
      · apply ih _ restWords
        rw [List.forall_mem_singleton]
        refine IsWord.append (fun byte inside => ?_) isWord
        obtain ⟨first, listed, part⟩ := List.mem_flatten.mp inside
        exact (lineWords first listed).solid byte part
      split
      · apply ih _ restWords
        exact List.forall_mem_append.mpr ⟨lineWords, List.forall_mem_singleton.mpr isWord⟩
      · rw [List.forall_mem_cons]
        exact ⟨lineWords, ih (List.forall_mem_singleton.mpr isWord) restWords⟩

/-- No word is written twice. -/
theorem length_layFrom_le (indent maxWidth : Nat) (line listed : List Text) :
    (layFrom indent maxWidth line listed).flatten.length ≤ line.length + listed.length := by
  induction listed generalizing line with
  | nil =>
      rw [layFrom]
      split
      · rw [List.flatten_singleton, List.length_nil, Nat.add_zero]
      · exact Nat.zero_le _
  | cons word rest ih =>
      rw [layFrom, List.length_cons]
      split
      · have later := ih [line.flatten ++ word]
        rw [List.length_singleton] at later
        omega
      split
      · have later := ih (line ++ [word])
        rw [List.length_append, List.length_singleton] at later
        omega
      · have later := ih [word]
        rw [List.length_singleton] at later
        rw [List.flatten_cons, List.length_append]
        omega

/-- A word without a width at the start of a line is lost as a word. -/
theorem length_layFrom_lt (indent maxWidth : Nat) {line : List Text} (nonempty : line ≠ [])
    (narrow : ¬ HasWidth line) (listed : List Text) :
    (layFrom indent maxWidth line listed).flatten.length < line.length + listed.length := by
  have positive := List.length_pos_iff.mpr nonempty
  cases listed with
  | nil =>
      rw [layFrom, if_neg narrow]
      exact positive
  | cons word rest =>
      have later := length_layFrom_le indent maxWidth [line.flatten ++ word] rest
      rw [List.length_singleton] at later
      rw [layFrom, if_pos narrow, List.length_cons]
      omega

/-! ## The greedy layout -/

theorem StartsWide.append {line : List Text} (nonempty : line ≠ []) (wide : StartsWide line)
    (more : List Text) : StartsWide (line ++ more) := by
  cases line with
  | nil => exact absurd rfl nonempty
  | cons first rest => exact wide

/-- When every line starts with a width, the one that is being filled does. -/
theorem startsWide_of_fillFrom {fits : List Text → Text → Bool} {line listed : List Text}
    (wide : ∀ filled ∈ fillFrom fits line listed, StartsWide filled) : StartsWide line := by
  obtain ⟨more, first⟩ := head?_fillFrom fits line listed
  have started := wide _ (List.mem_of_mem_head? first)
  cases line with
  | nil => exact fun _ head => absurd head (Option.not_mem_none _)
  | cons word rest => exact started

/-- The loop lays out the greedy lines when all of them start with a width. -/
theorem layFrom_eq_fillFrom (indent maxWidth : Nat) {line : List Text} (nonempty : line ≠ [])
    {listed : List Text}
    (wide : ∀ filled ∈ fillFrom (fitsLine indent maxWidth) line listed, StartsWide filled) :
    layFrom indent maxWidth line listed = fillFrom (fitsLine indent maxWidth) line listed := by
  induction listed generalizing line with
  | nil => rw [layFrom, if_pos ((startsWide_of_fillFrom wide).hasWidth nonempty), fillFrom]
  | cons word rest ih =>
      have hasWidth := (startsWide_of_fillFrom wide).hasWidth nonempty
      rw [layFrom, if_neg (not_not.mpr hasWidth)]
      cases enough : fitsLine indent maxWidth line word with
      | true =>
          rw [fillFrom_cons_of_fits _ enough] at wide ⊢
          rw [if_pos rfl]
          exact ih (List.concat_ne_nil _ _) wide
      | false =>
          rw [fillFrom_cons_of_not_fits _ enough] at wide ⊢
          rw [if_neg Bool.false_ne_true,
            ih (List.cons_ne_nil _ _) (List.forall_mem_cons.mp wide).2]

/-- The loop loses a word when some line of the greedy layout starts without a width. -/
theorem length_layFrom_lt_of_fillFrom (indent maxWidth : Nat) {line : List Text}
    (nonempty : line ≠ []) (started : StartsWide line ∨ line.length = 1) {listed : List Text}
    (narrow : ¬ ∀ filled ∈ fillFrom (fitsLine indent maxWidth) line listed, StartsWide filled) :
    (layFrom indent maxWidth line listed).flatten.length < line.length + listed.length := by
  induction listed generalizing line with
  | nil =>
      rcases started with wide | single
      · rw [fillFrom, List.forall_mem_singleton] at narrow
        exact absurd wide narrow
      · apply length_layFrom_lt indent maxWidth nonempty
        obtain ⟨word, rfl⟩ := List.length_eq_one_iff.mp single
        rw [fillFrom, List.forall_mem_singleton] at narrow
        rw [hasWidth_singleton]
        exact fun positive => narrow fun other head => by cases head; exact positive
  | cons word rest ih =>
      by_cases hasWidth : HasWidth line
      · rw [layFrom, if_neg (not_not.mpr hasWidth), List.length_cons]
        have wide : StartsWide line := by
          rcases started with wide | single
          · exact wide
          · obtain ⟨first, rfl⟩ := List.length_eq_one_iff.mp single
            intro other head
            cases head
            exact hasWidth_singleton.mp hasWidth
        cases enough : fitsLine indent maxWidth line word with
        | true =>
            rw [fillFrom_cons_of_fits _ enough] at narrow
            have later := ih (List.concat_ne_nil _ _) (.inl (wide.append nonempty [word])) narrow
            rw [List.length_append, List.length_singleton] at later
            rw [if_pos rfl]
            omega
        | false =>
            rw [fillFrom_cons_of_not_fits _ enough, List.forall_mem_cons, not_and] at narrow
            have later := ih (List.cons_ne_nil word []) (.inr rfl) (narrow wide)
            rw [List.length_singleton] at later
            rw [if_neg Bool.false_ne_true, List.flatten_cons, List.length_append]
            omega
      · exact length_layFrom_lt indent maxWidth nonempty hasWidth (word :: rest)

theorem layFrom_nil_cons (indent maxWidth : Nat) (word : Text) (rest : List Text) :
    layFrom indent maxWidth [] (word :: rest) = layFrom indent maxWidth [word] rest := by
  rw [layFrom, if_pos fun wide : HasWidth [] => wide.ne_nil rfl]
  rfl

/-- Where every greedy line starts with a visible word, the loop lays the greedy lines. -/
theorem layFrom_eq_greedyLines {message : Text} {indent maxWidth : Nat}
    (wide : ∀ line ∈ greedyLines message indent maxWidth, StartsWide line) :
    layFrom indent maxWidth [] (words message) = greedyLines message indent maxWidth := by
  rw [greedyLines] at wide ⊢
  cases listed : words message with
  | nil => rfl
  | cons word rest =>
      rw [listed, fill] at wide
      rw [layFrom_nil_cons, fill]
      exact layFrom_eq_fillFrom indent maxWidth (List.cons_ne_nil _ _) wide

/-- Otherwise words run together. -/
theorem length_layFrom_lt_of_greedyLines {message : Text} {indent maxWidth : Nat}
    (narrow : ¬ ∀ line ∈ greedyLines message indent maxWidth, StartsWide line) :
    (layFrom indent maxWidth [] (words message)).flatten.length < (words message).length := by
  rw [greedyLines] at narrow
  cases listed : words message with
  | nil =>
      rw [listed, fill] at narrow
      exact absurd (fun _ inside => absurd inside List.not_mem_nil) narrow
  | cons word rest =>
      rw [listed, fill] at narrow
      rw [layFrom_nil_cons, List.length_cons, Nat.add_comm]
      exact length_layFrom_lt_of_fillFrom indent maxWidth (List.cons_ne_nil _ _) (.inr rfl) narrow

/-! ## The messages that keep their words -/

/-- Wrapped output has the words of the message. -/
theorem IsWrapped.words_eq {message : Text} {indent maxWidth : Nat} {output : Text}
    {lines : List (List Text)} (wrapped : IsWrapped message indent maxWidth output lines) :
    words output = words message := by
  have isWord : ∀ line ∈ lines, ∀ word ∈ line, IsWord word := by
    intro line inside word part
    apply isWord_of_mem_words
    rw [← wrapped.kept]
    exact List.mem_flatten.mpr ⟨line, inside, part⟩
  rw [wrapped.written, words_linesText indent isWord, wrapped.kept]

/-- The greedy layout is a wrapping of the message. -/
theorem greedyLines_isWrapped (message : Text) (indent maxWidth : Nat) :
    IsWrapped message indent maxWidth (linesText indent (greedyLines message indent maxWidth))
      (greedyLines message indent maxWidth) := by
  have kept : (greedyLines message indent maxWidth).flatten = words message := flatten_fill _ _
  have isWord : ∀ line ∈ greedyLines message indent maxWidth, ∀ word ∈ line, IsWord word := by
    intro line inside word part
    apply isWord_of_mem_words
    rw [← kept]
    exact List.mem_flatten.mpr ⟨line, inside, part⟩
  refine ⟨rfl, ne_nil_of_mem_fill _ _, kept, ?_, ?_, ?_⟩
  · intro empty
    rw [← kept, ← words_linesText indent isWord, empty]
    rfl
  · intro line inside overfull
    rcases singleOrFits_of_mem_fill _ _ line inside with single | ⟨front, item, rfl, fits⟩
    · exact single
    · exact absurd overfull (not_lt.mpr (of_decide_eq_true fits))
  · refine (isChain_fill _ _).imp fun before after apart word head => ?_
    exact not_le.mp (of_decide_eq_false (apart word head))

/-- **When wrapping keeps every word.** The output is the words of the message on lines
that are filled as far as they go exactly when no line of the greedy layout starts with
a word of continuation bytes only. -/
theorem writeWrapped_isWrapped_iff (message : Text) (indent maxWidth : Nat) :
    (∃ lines, IsWrapped message indent maxWidth (writeWrapped message indent maxWidth) lines) ↔
      ∀ line ∈ greedyLines message indent maxWidth, StartsWide line := by
  rw [writeWrapped_eq]
  constructor
  · rintro ⟨lines, wrapped⟩
    by_contra narrow
    have fewer := length_layFrom_lt_of_greedyLines narrow
    have isWord := isWord_of_mem_layFrom indent maxWidth
      (fun _ inside => absurd inside List.not_mem_nil)
      (fun word (inside : word ∈ words message) => isWord_of_mem_words inside)
    rw [← words_linesText indent isWord, wrapped.words_eq] at fewer
    exact Nat.lt_irrefl _ fewer
  · intro wide
    rw [layFrom_eq_greedyLines wide]
    exact ⟨_, greedyLines_isWrapped message indent maxWidth⟩

/-- A continuation byte and a letter. -/
def strayMessage : Text :=
  [0x80, 32, 97]

/-- The stray byte is glued to the letter. -/
theorem strayMessage_not_wrapped :
    ¬ ∃ lines, IsWrapped strayMessage 4 100 (writeWrapped strayMessage 4 100) lines := by
  rintro ⟨lines, wrapped⟩
  exact absurd wrapped.words_eq (by decide)

end CheckGitStatus.Cpp
