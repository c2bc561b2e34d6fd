import CheckGitStatus.Text.Utf8

/-! # Text that both programs read alike

Both programs trim a text in UTF-8 whose white space is that of ASCII to the same text
(`CheckGitStatus.IsPlainText.trimSpace_eq`) and make the same single line of it
(`CheckGitStatus.IsPlainText.singleLine_eq`). Such texts are closed under what the
programs do with them.
-/

namespace CheckGitStatus

/-- Valid UTF-8 without white space outside ASCII. -/
structure IsPlainText (text : Text) : Prop where
  valid : IsUtf8 text
  spaces : OnlyAsciiSpace text

/-- The Go program takes the character for white space only if the C++ program does. -/
def SeenAlike (character : Char) : Prop :=
  Go.isSpace character.toNat = true → character.toNat < 0x80

/-- A text is the encoding of one list of characters. -/
theorem encode_injective : Function.Injective encode := by
  have empty : ∀ {character rest}, encode (character :: rest) ≠ [] := by
    intro character rest none
    rw [encode_cons, List.append_eq_nil_iff] at none
    exact String.utf8EncodeChar_ne_nil none.1
  intro left
  induction left with
  | nil =>
      intro right same
      cases right with
      | nil => rfl
      | cons character rest => exact absurd same.symm empty
  | cons character rest ih =>
      intro right same
      cases right with
      | nil => exact absurd same empty
      | cons other others =>
          rw [encode_cons, encode_cons] at same
          have decoded := Go.decodeRune_encodeChar character (encode rest)
          rw [same, Go.decodeRune_encodeChar] at decoded
          obtain rfl := Char.toNat_inj.mp (congrArg Prod.fst decoded)
          rw [ih (List.append_cancel_left same)]

/-- A plain text is the encoding of characters that both programs see alike. -/
theorem isPlainText_iff {text : Text} :
    IsPlainText text ↔
      ∃ characters, text = encode characters ∧ ∀ character ∈ characters, SeenAlike character := by
  constructor
  · rintro ⟨⟨characters, rfl⟩, spaces⟩
    refine ⟨characters, rfl, fun character inside space => ?_⟩
    obtain ⟨front, back, rfl⟩ := List.append_of_mem inside
    exact spaces front character back rfl space
  · rintro ⟨characters, rfl, alike⟩
    refine ⟨⟨characters, rfl⟩, fun front character back whole space => ?_⟩
    refine alike character ?_ space
    rw [encode_injective whole]
    exact List.mem_append_right _ List.mem_cons_self

/-- An ASCII byte is a character of its own wherever it stands. -/
theorem encode_eq_append_cons {characters : List Char} {front back : Text} {byte : Byte}
    (plain : byte < 0x80) (whole : encode characters = front ++ byte :: back) :
    ∃ left character right, characters = left ++ character :: right ∧ front = encode left ∧
      back = encode right := by
  induction characters generalizing front with
  | nil => exact absurd whole.symm (List.append_ne_nil_of_right_ne_nil _ (List.cons_ne_nil _ _))
  | cons character rest ih =>
      rw [encode_cons] at whole
      -- the byte is not one of a longer character
      have later : ∀ middle, front = String.utf8EncodeChar character ++ middle →
          encode rest = middle ++ byte :: back → ∃ left other right,
            character :: rest = left ++ other :: right ∧ front = encode left ∧
              back = encode right := by
        rintro middle rfl split
        obtain ⟨left, other, right, rfl, rfl, same⟩ := ih split
        exact ⟨character :: left, other, right, rfl, (encode_cons character left).symm, same⟩
      rcases List.append_eq_append_iff.mp whole with ⟨middle, split, tail⟩ | ⟨middle, split, tail⟩
      · exact later middle split tail
      · cases middle with
        | nil =>
            rw [List.append_nil] at split
            refine later [] ?_ tail.symm
            rw [split, List.append_nil]
        | cons first middle =>
            rw [List.cons_append, List.cons.injEq] at tail
            obtain ⟨rfl, tail⟩ := tail
            rcases encodeChar_cases character with ⟨_, bytes⟩ | ⟨_, lead, others, bytes, led, high⟩
            · have single := congrArg List.length (bytes.symm.trans split)
              rw [List.length_singleton, List.length_append, List.length_cons] at single
              obtain rfl := List.eq_nil_of_length_eq_zero (show front.length = 0 by omega)
              obtain rfl := List.eq_nil_of_length_eq_zero (show middle.length = 0 by omega)
              exact ⟨[], character, rest, rfl, rfl, tail⟩
            · have inside : byte ∈ lead :: others := by
                rw [← bytes, split]
                exact List.mem_append_right _ List.mem_cons_self
              rcases List.mem_cons.mp inside with rfl | later
              · exact absurd (UInt8.lt_of_le_of_lt led plain) (by decide)
              · have bounds := high byte later
                rw [Bool.and_eq_true, decide_eq_true_eq] at bounds
                exact absurd (UInt8.lt_of_le_of_lt bounds.1 plain) (by decide)

/-- Cutting at an ASCII byte leaves characters whole. -/
theorem IsUtf8.of_append_cons {front back : Text} {byte : Byte} (plain : byte < 0x80)
    (valid : IsUtf8 (front ++ byte :: back)) : IsUtf8 front ∧ IsUtf8 back := by
  obtain ⟨characters, whole⟩ := valid
  obtain ⟨left, _, right, -, rfl, rfl⟩ := encode_eq_append_cons plain whole.symm
  exact ⟨⟨left, rfl⟩, ⟨right, rfl⟩⟩

theorem IsAscii.isPlainText {text : Text} (plain : IsAscii text) : IsPlainText text :=
  ⟨plain.isUtf8, plain.onlyAsciiSpace⟩

namespace IsPlainText

variable {text : Text} (plain : IsPlainText text)
include plain

theorem append {other : Text} (plainOther : IsPlainText other) : IsPlainText (text ++ other) := by
  obtain ⟨left, rfl, leftAlike⟩ := isPlainText_iff.mp plain
  obtain ⟨right, rfl, rightAlike⟩ := isPlainText_iff.mp plainOther
  refine isPlainText_iff.mpr ⟨left ++ right, List.flatMap_append.symm, fun character inside => ?_⟩
  rcases List.mem_append.mp inside with first | second
  · exact leftAlike character first
  · exact rightAlike character second

/-- Cutting a plain text at an ASCII byte leaves plain parts. -/
theorem of_append_cons {front back : Text} {byte : Byte} (split : text = front ++ byte :: back)
    (low : byte < 0x80) : IsPlainText front ∧ IsPlainText back := by
  obtain ⟨characters, rfl, alike⟩ := isPlainText_iff.mp plain
  obtain ⟨left, character, right, rfl, rfl, rfl⟩ := encode_eq_append_cons low split
  exact ⟨isPlainText_iff.mpr ⟨left, rfl, fun other inside =>
      alike other (List.mem_append_left _ inside)⟩,
    isPlainText_iff.mpr ⟨right, rfl, fun other inside =>
      alike other (List.mem_append_right _ (List.mem_cons_of_mem _ inside))⟩⟩

/-- So does splitting at one. -/
theorem of_mem_splitOn {byte : Byte} (low : byte < 0x80) {piece : Text}
    (inside : piece ∈ text.splitOn byte) : IsPlainText piece := by
  have pieces : ∀ pieces : List Text, IsPlainText ([byte].intercalate pieces) →
      ∀ piece ∈ pieces, IsPlainText piece := by
    intro pieces
    induction pieces with
    | nil => exact fun _ _ inside => absurd inside List.not_mem_nil
    | cons first rest ih =>
        intro joined
        rw [List.forall_mem_cons]
        cases rest with
        | nil =>
            rw [List.intercalate_singleton] at joined
            exact ⟨joined, fun _ inside => absurd inside List.not_mem_nil⟩
        | cons next others =>
            rw [List.intercalate_cons_cons, List.append_assoc] at joined
            obtain ⟨before, after⟩ := joined.of_append_cons rfl low
            exact ⟨before, ih after⟩
  refine pieces _ ?_ piece inside
  rwa [List.intercalate_splitOn]

/-- Trimming cuts at ASCII bytes. -/
theorem trim : IsPlainText (Cpp.trim text) := by
  have low : ∀ {byte}, Cpp.isSpace byte = true → byte < 0x80 := by
    intro byte space
    by_contra high
    rw [Go.isSpace_of_not_ascii (UInt8.not_lt.mp high)] at space
    cases space
  have front : IsPlainText (text.dropWhile Cpp.isSpace) := by
    induction text with
    | nil => exact plain
    | cons byte rest ih =>
        cases space : Cpp.isSpace byte with
        | true =>
            rw [List.dropWhile_cons_of_pos space]
            exact ih (plain.of_append_cons (List.nil_append _).symm (low space)).2
        | false =>
            rw [List.dropWhile_cons_of_neg (by rw [space]; exact Bool.false_ne_true)]
            exact plain
  rw [Cpp.trim]
  generalize text.dropWhile Cpp.isSpace = kept at front
  induction kept using List.reverseRecOn with
  | nil => exact front
  | append_singleton kept byte ih =>
      cases space : Cpp.isSpace byte with
      | true =>
          rw [List.rdropWhile_concat_pos _ _ _ space]
          exact ih (front.of_append_cons rfl (low space)).1
      | false =>
          rw [List.rdropWhile_concat_neg _ _ _ (by rw [space]; exact Bool.false_ne_true)]
          exact front

/-- The words of a plain text are plain. -/
theorem of_mem_words {word : Text} (inside : word ∈ Cpp.words text) : IsPlainText word := by
  obtain ⟨characters, rfl, alike⟩ := isPlainText_iff.mp plain
  obtain ⟨piece, _⟩ := List.mem_filter.mp inside
  rw [splitOnP_encode] at piece
  obtain ⟨part, cut, rfl⟩ := List.mem_map.mp piece
  refine isPlainText_iff.mpr ⟨part, rfl, fun character within => alike character ?_⟩
  have kept := List.mem_flatten_of_mem cut within
  rw [flatten_splitOnP] at kept
  exact (List.mem_filter.mp kept).1

theorem singleLine : IsPlainText (Cpp.singleLine text) := by
  have words : ∀ word ∈ Cpp.words text, IsPlainText word := fun _ => plain.of_mem_words
  have blank : IsPlainText (ascii " ") := IsAscii.isPlainText (by decide)
  unfold Cpp.singleLine
  generalize Cpp.words text = listed at words
  induction listed with
  | nil => exact IsAscii.isPlainText (by decide)
  | cons first rest ih =>
      rw [List.forall_mem_cons] at words
      cases rest with
      | nil =>
          rw [List.intercalate_singleton]
          exact words.1
      | cons next others =>
          rw [List.intercalate_cons_cons]
          exact (words.1.append blank).append (ih words.2)

/-- Both programs see the same white space in a plain text. -/
theorem markSpaces_eq :
    Go.markSpaces text = text.map fun byte => (byte, Cpp.isSpace byte) :=
  Go.markSpaces_of_onlyAsciiSpace plain.valid plain.spaces

/-- Both programs trim the text alike. -/
theorem trimSpace_eq : Go.trimSpace text = Cpp.trim text := by
  have marks : (Prod.snd ∘ fun byte : Byte => (byte, Cpp.isSpace byte)) = Cpp.isSpace := rfl
  have bytes : (Prod.fst ∘ fun byte : Byte => (byte, Cpp.isSpace byte)) = id := rfl
  rw [Go.trimSpace, plain.markSpaces_eq, List.dropWhile_map, marks, List.rdropWhile, Cpp.trim,
    List.rdropWhile, ← List.map_reverse, List.dropWhile_map, marks, ← List.map_reverse,
    List.map_map, bytes, List.map_id]

/-- Both programs make the same line of the text. -/
theorem singleLine_eq : Go.singleLine text = Cpp.singleLine text := by
  rw [Go.singleLine, Go.fields_of_markSpaces plain.markSpaces_eq, Cpp.singleLine]

end IsPlainText

end CheckGitStatus
