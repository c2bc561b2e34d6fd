import CheckGitStatus.Text.GoStrings

/-! # Text in UTF-8

The encoding of some characters. The Go program decodes it one character at a time
(`CheckGitStatus.Go.decodeRune_encodeChar`), while the C++ program only looks at bytes.
Both find the same white space in a text that has none outside ASCII
(`CheckGitStatus.Go.markSpaces_of_onlyAsciiSpace`).
-/

namespace CheckGitStatus

/-- The UTF-8 encoding of some characters. -/
def encode (characters : List Char) : Text :=
  characters.flatMap String.utf8EncodeChar

/-- Valid UTF-8. -/
def IsUtf8 (text : Text) : Prop :=
  ∃ characters, text = encode characters

/-- Every white-space character of the text is an ASCII character. -/
def OnlyAsciiSpace (text : Text) : Prop :=
  ∀ front character back, text = encode (front ++ character :: back) →
    Go.isSpace character.toNat = true → character.toNat < 0x80

theorem encode_cons (character : Char) (rest : List Char) :
    encode (character :: rest) = String.utf8EncodeChar character ++ encode rest :=
  List.flatMap_cons

/-! ## Bytes given as numbers -/

theorem toNat_ofNat_of_lt {value : Nat} (small : value < 256) :
    (UInt8.ofNat value).toNat = value := by
  rw [UInt8.toNat_ofNat', Nat.mod_eq_of_lt small]

/-- A number between the bounds is a byte between the bounds. -/
theorem isWithin_ofNat {value : Nat} {low high : Byte} (above : low.toNat ≤ value)
    (below : value ≤ high.toNat) :
    (decide (low ≤ UInt8.ofNat value) && decide (UInt8.ofNat value ≤ high)) = true := by
  have toNat := toNat_ofNat_of_lt (below.trans_lt high.toNat_lt)
  rw [Bool.and_eq_true, decide_eq_true_eq, decide_eq_true_eq, UInt8.le_iff_toNat_le,
    UInt8.le_iff_toNat_le, toNat]
  exact ⟨above, below⟩

/-- The six bits that a continuation byte carries. -/
theorem isContinuation_ofNat (value : Nat) :
    (decide ((0x80 : Byte) ≤ UInt8.ofNat (value % 64 + 0x80)) &&
      decide (UInt8.ofNat (value % 64 + 0x80) ≤ (0xBF : Byte))) = true := by
  have small := Nat.mod_lt value (show 0 < 64 by decide)
  apply isWithin_ofNat
  · exact Nat.le_add_left 0x80 _
  · exact Nat.add_le_add_right (Nat.le_of_lt_succ small) 0x80

/-- An ASCII character is one byte. Any other character is a byte that leads others. -/
theorem encodeChar_cases (character : Char) :
    (character.toNat < 0x80 ∧
        String.utf8EncodeChar character = [UInt8.ofNat character.toNat]) ∨
      (0x80 ≤ character.toNat ∧ ∃ lead tail, String.utf8EncodeChar character = lead :: tail ∧
        (0xC0 : Byte) ≤ lead ∧
        ∀ byte ∈ tail, (decide ((0x80 : Byte) ≤ byte) && decide (byte ≤ (0xBF : Byte))) = true) := by
  have code : character.toNat = character.val.toNat := rfl
  have leads : ∀ {value : Nat}, 0xC0 ≤ value → value < 256 → (0xC0 : Byte) ≤ UInt8.ofNat value := by
    intro value large small
    rw [UInt8.le_iff_toNat_le, toNat_ofNat_of_lt small]
    exact large
  unfold String.utf8EncodeChar
  rw [code]
  generalize character.val.toNat = value
  dsimp only
  split_ifs with one two three
  · exact .inl ⟨Nat.lt_succ_of_le one, rfl⟩
  · refine .inr ⟨Nat.not_le.mp one, _, _, rfl, leads (by omega) (by omega), ?_⟩
    simp only [List.forall_mem_cons, isContinuation_ofNat, List.not_mem_nil, false_implies,
      implies_true, and_self]
  · refine .inr ⟨Nat.not_le.mp one, _, _, rfl, leads (by omega) (by omega), ?_⟩
    simp only [List.forall_mem_cons, isContinuation_ofNat, List.not_mem_nil, false_implies,
      implies_true, and_self]
  · refine .inr ⟨Nat.not_le.mp one, _, _, rfl, leads (by omega) (by omega), ?_⟩
    simp only [List.forall_mem_cons, isContinuation_ofNat, List.not_mem_nil, false_implies,
      implies_true, and_self]

/-! ## Decoding -/

namespace Go

theorem leadByte_two : ∀ value < 30, leadByte (UInt8.ofNat (value + 0xC2)) =
    some (0x80, 0xBF, 1, value + 2) := by
  decide

theorem leadByte_three : ∀ value < 16, leadByte (UInt8.ofNat (value + 0xE0)) =
    some (if value = 0 then 0xA0 else 0x80, if value = 13 then 0x9F else 0xBF, 2, value) := by
  decide

theorem leadByte_four : ∀ value < 5, leadByte (UInt8.ofNat (value + 0xF0)) =
    some (if value = 0 then 0x90 else 0x80, if value = 4 then 0x8F else 0xBF, 3, value) := by
  decide

/-- A byte that leads others is not ASCII. -/
theorem not_ascii_of_leadByte {lead : Byte} {parts : Byte × Byte × Nat × Nat}
    (leads : leadByte lead = some parts) : ¬ lead < 0x80 := by
  intro small
  have low : lead.toNat < 0x80 := UInt8.lt_iff_toNat_lt.mp small
  have none : ∀ value < 0x80, leadByte (UInt8.ofNat value) = none := by decide
  have absent := none lead.toNat low
  rw [UInt8.ofNat_toNat, leads] at absent
  cases absent

/-- A byte that leads others is decoded with them when they are continuation bytes and the
first of them is in range. -/
theorem decodeRune_of_leadByte {lead low high second : Byte} {bits : Nat} {others : Text}
    (leads : leadByte lead = some (low, high, others.length + 1, bits))
    (first : (decide (low ≤ second) && decide (second ≤ high)) = true)
    (all : ∀ byte ∈ second :: others,
      (decide ((0x80 : Byte) ≤ byte) && decide (byte ≤ (0xBF : Byte))) = true) (rest : Text) :
    decodeRune (lead :: second :: others ++ rest) =
      ((second :: others).foldl (fun value byte => 64 * value + (byte.toNat - 0x80)) bits,
        others.length + 2) := by
  have taken : (second :: others ++ rest).take (others.length + 1) = second :: others :=
    List.take_left' (List.length_cons)
  rw [List.cons_append]
  simp only [decodeRune, not_ascii_of_leadByte leads, ↓reduceIte, leads, taken, List.length_cons,
    BEq.rfl, List.head?_cons, Option.any_some, first, List.all_eq_true.mpr all, Bool.and_self]

theorem decodeRune_two {value : Nat} (low : 0x7F < value) (high : value ≤ 0x7FF) (rest : Text) :
    decodeRune ([UInt8.ofNat (value / 64 % 0x20 + 0xC0), UInt8.ofNat (value % 0x40 + 0x80)] ++
      rest) = (value, 2) := by
  have leads := leadByte_two (value / 64 - 2) (by omega)
  have lead : value / 64 - 2 + 0xC2 = value / 64 % 0x20 + 0xC0 := by omega
  rw [lead] at leads
  rw [decodeRune_of_leadByte leads (isContinuation_ofNat value)
    (List.forall_mem_singleton.mpr (isContinuation_ofNat value)), List.foldl_cons,
    List.foldl_nil, toNat_ofNat_of_lt (by omega)]
  refine Prod.ext ?_ rfl
  dsimp only
  omega

theorem decodeRune_three {value : Nat} (low : 0x7FF < value) (high : value ≤ 0xFFFF)
    (scalar : value < 0xD800 ∨ 0xDFFF < value) (rest : Text) :
    decodeRune ([UInt8.ofNat (value / 4096 % 0x10 + 0xE0),
      UInt8.ofNat (value / 64 % 0x40 + 0x80), UInt8.ofNat (value % 0x40 + 0x80)] ++ rest) =
      (value, 3) := by
  have leads := leadByte_three (value / 4096) (by omega)
  have lead : value / 4096 + 0xE0 = value / 4096 % 0x10 + 0xE0 := by omega
  rw [lead] at leads
  -- what follows 0xE0 is not too small, and what follows 0xED is no surrogate
  rw [decodeRune_of_leadByte leads, List.foldl_cons, List.foldl_cons, List.foldl_nil,
    toNat_ofNat_of_lt (by omega), toNat_ofNat_of_lt (by omega)]
  · refine Prod.ext ?_ rfl
    dsimp only
    omega
  · apply isWithin_ofNat
    · split_ifs
      · change 0xA0 ≤ _
        omega
      · exact Nat.le_add_left 0x80 _
    · split_ifs
      · change _ ≤ 0x9F
        omega
      · change _ ≤ 0xBF
        omega
  · simp only [List.forall_mem_cons, isContinuation_ofNat, List.not_mem_nil, false_implies,
      implies_true, and_self]

theorem decodeRune_four {value : Nat} (low : 0xFFFF < value) (high : value < 0x110000)
    (rest : Text) :
    decodeRune ([UInt8.ofNat (value / 262144 % 0x08 + 0xF0),
      UInt8.ofNat (value / 4096 % 0x40 + 0x80), UInt8.ofNat (value / 64 % 0x40 + 0x80),
      UInt8.ofNat (value % 0x40 + 0x80)] ++ rest) = (value, 4) := by
  have leads := leadByte_four (value / 262144) (by omega)
  have lead : value / 262144 + 0xF0 = value / 262144 % 0x08 + 0xF0 := by omega
  rw [lead] at leads
  -- what follows 0xF0 is not too small, and what follows 0xF4 is not too large
  rw [decodeRune_of_leadByte leads, List.foldl_cons, List.foldl_cons, List.foldl_cons,
    List.foldl_nil, toNat_ofNat_of_lt (by omega), toNat_ofNat_of_lt (by omega),
    toNat_ofNat_of_lt (by omega)]
  · refine Prod.ext ?_ rfl
    dsimp only
    omega
  · apply isWithin_ofNat
    · split_ifs
      · change 0x90 ≤ _
        omega
      · exact Nat.le_add_left 0x80 _
    · split_ifs
      · change _ ≤ 0x8F
        omega
      · change _ ≤ 0xBF
        omega
  · simp only [List.forall_mem_cons, isContinuation_ofNat, List.not_mem_nil, false_implies,
      implies_true, and_self]

/-- The first rune of an encoded character is that character. -/
theorem decodeRune_encodeChar (character : Char) (rest : Text) :
    decodeRune (String.utf8EncodeChar character ++ rest) =
      (character.toNat, (String.utf8EncodeChar character).length) := by
  have code : character.toNat = character.val.toNat := rfl
  have valid : character.val.toNat < 0xD800 ∨
      0xDFFF < character.val.toNat ∧ character.val.toNat < 0x110000 := character.valid
  unfold String.utf8EncodeChar
  rw [code]
  generalize character.val.toNat = value at valid ⊢
  dsimp only
  split_ifs with one two three
  · have small : UInt8.ofNat value < 0x80 := by
      rw [UInt8.lt_iff_toNat_lt, toNat_ofNat_of_lt (by omega)]
      exact Nat.lt_succ_of_le one
    rw [List.singleton_append, decodeRune, if_pos small, toNat_ofNat_of_lt (by omega)]
    rfl
  · exact decodeRune_two (Nat.not_le.mp one) two rest
  · exact decodeRune_three (Nat.not_le.mp two) three (valid.imp_right And.left) rest
  · exact decodeRune_four (Nat.not_le.mp three) (by omega) rest

/-! ## Runes -/

/-- The pending bytes of a character have its mark. -/
theorem markSpacesFrom_length (space : Bool) (front rest : Text) :
    markSpacesFrom front.length space (front ++ rest) =
      front.map (fun byte => (byte, space)) ++ markSpaces rest := by
  induction front with
  | nil =>
      -- what is marked before a rune starts does not matter
      cases rest <;> rfl
  | cons byte front ih =>
      rw [List.length_cons, List.cons_append, markSpacesFrom, ih, List.map_cons, List.cons_append]

/-- A character is marked as a whole. -/
theorem markSpaces_encode_cons (character : Char) (rest : List Char) :
    markSpaces (encode (character :: rest)) =
      (String.utf8EncodeChar character).map (fun byte => (byte, isSpace character.toNat)) ++
        markSpaces (encode rest) := by
  have decoded := decodeRune_encodeChar character (encode rest)
  rw [encode_cons]
  cases bytes : String.utf8EncodeChar character with
  | nil => exact absurd bytes String.utf8EncodeChar_ne_nil
  | cons lead tail =>
      rw [bytes, List.cons_append] at decoded
      rw [markSpaces, List.cons_append, markSpacesFrom, decoded]
      change (lead, _) :: markSpacesFrom tail.length _ _ = _
      rw [markSpacesFrom_length, List.map_cons, List.cons_append]

/-- Every byte of an encoding is marked as its character. -/
theorem markSpaces_encode (characters : List Char) :
    markSpaces (encode characters) = characters.flatMap fun character =>
      (String.utf8EncodeChar character).map fun byte => (byte, isSpace character.toNat) := by
  induction characters with
  | nil => rfl
  | cons character rest ih => rw [markSpaces_encode_cons, ih, List.flatMap_cons]

/-- The pending bytes of a character are not counted. -/
theorem runeCountFrom_length (front rest : Text) :
    runeCountFrom front.length (front ++ rest) = runeCount rest := by
  induction front with
  | nil => rfl
  | cons byte front ih => rw [List.length_cons, List.cons_append, runeCountFrom, ih]

/-- The runes are the characters. -/
theorem runeCount_encode (characters : List Char) :
    runeCount (encode characters) = characters.length := by
  induction characters with
  | nil => rfl
  | cons character rest ih =>
      have decoded := decodeRune_encodeChar character (encode rest)
      rw [encode_cons]
      cases bytes : String.utf8EncodeChar character with
      | nil => exact absurd bytes String.utf8EncodeChar_ne_nil
      | cons lead tail =>
          rw [bytes, List.cons_append] at decoded
          rw [runeCount, List.cons_append, runeCountFrom, decoded, List.length_cons,
            Nat.add_sub_cancel, runeCountFrom_length, ih, List.length_cons, Nat.add_comm]

/-! ## White space -/

/-- Both programs see the white space of ASCII, and only the Go program sees any other. -/
theorem isSpace_byte {character : Char} {byte : Byte}
    (inside : byte ∈ String.utf8EncodeChar character) :
    Cpp.isSpace byte = (isSpace character.toNat && decide (character.toNat < 0x80)) := by
  rcases encodeChar_cases character with ⟨plain, bytes⟩ | ⟨large, lead, tail, bytes, led, rest⟩
  · rw [bytes, List.mem_singleton] at inside
    have code : byte.toNat = character.toNat := by
      rw [inside, toNat_ofNat_of_lt (by omega)]
    have small : byte < 0x80 := by
      rw [UInt8.lt_iff_toNat_lt, code]
      exact plain
    rw [decide_eq_true plain, Bool.and_true, ← code, isSpace_of_ascii small]
  · have high : 0x80 ≤ byte := by
      rw [bytes] at inside
      rcases List.mem_cons.mp inside with rfl | later
      · exact UInt8.le_trans (by decide) led
      · have bounds := rest byte later
        rw [Bool.and_eq_true, decide_eq_true_eq] at bounds
        exact bounds.1
    rw [isSpace_of_not_ascii high, decide_eq_false (Nat.not_lt.mpr large), Bool.and_false]

/-- Without other white space than that of ASCII both programs mark the same bytes. -/
theorem markSpaces_of_onlyAsciiSpace {text : Text} (valid : IsUtf8 text)
    (plain : OnlyAsciiSpace text) :
    markSpaces text = text.map fun byte => (byte, Cpp.isSpace byte) := by
  obtain ⟨characters, rfl⟩ := valid
  rw [markSpaces_encode, encode, List.map_flatMap]
  refine List.flatMap_congr fun character inside => List.map_congr_left fun byte part => ?_
  obtain ⟨front, back, whole⟩ := List.append_of_mem inside
  rw [isSpace_byte part]
  cases space : isSpace character.toNat with
  | false => rfl
  | true =>
      have small := plain front character back (by rw [whole]) space
      rw [decide_eq_true small]
      rfl

end Go

/-! ## ASCII -/

/-- No byte is outside ASCII. -/
def IsAscii (text : Text) : Prop :=
  ∀ byte ∈ text, byte < 0x80

instance (text : Text) : Decidable (IsAscii text) :=
  decidable_of_iff (text.all fun byte => decide (byte < 0x80)) <| by
    simp only [IsAscii, List.all_eq_true, decide_eq_true_eq]

theorem IsAscii.append {left right : Text} (plainLeft : IsAscii left) (plainRight : IsAscii right) :
    IsAscii (left ++ right) := by
  intro byte inside
  rcases List.mem_append.mp inside with first | second
  · exact plainLeft byte first
  · exact plainRight byte second

/-- The character of an ASCII byte is encoded as that byte. -/
theorem encodeChar_ofNat {byte : Byte} (plain : byte < 0x80) :
    String.utf8EncodeChar (Char.ofNat byte.toNat) = [byte] := by
  have small : byte.toNat < 0x80 := UInt8.lt_iff_toNat_lt.mp plain
  have valid : byte.toNat.isValidChar := .inl (by omega)
  have code : (Char.ofNat byte.toNat).toNat = byte.toNat := by
    rw [Char.ofNat, dif_pos valid]
    rfl
  rcases encodeChar_cases (Char.ofNat byte.toNat) with ⟨_, bytes⟩ | ⟨large, _⟩
  · rw [bytes, code, UInt8.ofNat_toNat]
  · omega

theorem IsAscii.isUtf8 {text : Text} (plain : IsAscii text) : IsUtf8 text := by
  induction text with
  | nil => exact ⟨[], rfl⟩
  | cons byte rest ih =>
      obtain ⟨first, others⟩ := List.forall_mem_cons.mp plain
      obtain ⟨characters, encoded⟩ := ih others
      refine ⟨Char.ofNat byte.toNat :: characters, ?_⟩
      rw [encode_cons, encodeChar_ofNat first, ← encoded, List.singleton_append]

theorem IsAscii.onlyAsciiSpace {text : Text} (plain : IsAscii text) : OnlyAsciiSpace text := by
  intro front character back whole _
  rcases encodeChar_cases character with ⟨small, _⟩ | ⟨_, lead, tail, bytes, led, _⟩
  · exact small
  · have inside : lead ∈ text := by
      rw [whole, encode, List.flatMap_append, List.flatMap_cons, bytes]
      exact List.mem_append_right _ List.mem_cons_self
    exact absurd (UInt8.lt_of_le_of_lt led (plain lead inside)) (by decide)

/-! ## Splitting at white space -/

/-- What precedes any separator stands in front of the first piece. -/
theorem splitOnP_append_of_forall {α : Type*} {separates : α → Bool} {front : List α}
    (kept : ∀ item ∈ front, separates item = false) (rest : List α) :
    (front ++ rest).splitOnP separates =
      (rest.splitOnP separates).modifyHead fun piece => front ++ piece := by
  induction front with
  | nil =>
      rw [List.nil_append]
      cases rest.splitOnP separates <;> rfl
  | cons item front ih =>
      rw [List.forall_mem_cons] at kept
      rw [List.cons_append, List.splitOnP_cons_eq_if_modifyHead, kept.1,
        if_neg Bool.false_ne_true, ih kept.2, List.modifyHead_modifyHead]
      rfl

/-- Splitting at ASCII white space leaves characters whole. -/
theorem splitOnP_encode (characters : List Char) :
    (encode characters).splitOnP Cpp.isSpace =
      (characters.splitOnP fun character =>
        Go.isSpace character.toNat && decide (character.toNat < 0x80)).map encode := by
  induction characters with
  | nil => rfl
  | cons character rest ih =>
      rw [encode_cons, List.splitOnP_cons_eq_if_modifyHead]
      have bytes := fun byte => @Go.isSpace_byte character byte
      cases space : Go.isSpace character.toNat && decide (character.toNat < 0x80) with
      | true =>
          rw [space] at bytes
          rw [Bool.and_eq_true, decide_eq_true_eq] at space
          rcases encodeChar_cases character with ⟨_, single⟩ | ⟨large, _⟩
          · rw [single, List.forall_mem_singleton] at bytes
            rw [single, List.singleton_append, List.splitOnP_cons_eq_if_modifyHead, bytes,
              if_pos rfl, if_pos rfl, ih, List.map_cons]
            rfl
          · exact absurd space.2 (Nat.not_lt.mpr large)
      | false =>
          rw [space] at bytes
          rw [splitOnP_append_of_forall bytes, ih, if_neg Bool.false_ne_true]
          cases rest.splitOnP fun character =>
            Go.isSpace character.toNat && decide (character.toNat < 0x80) with
          | nil => rfl
          | cons piece pieces =>
              rw [List.map_cons, List.modifyHead_cons, List.modifyHead_cons, List.map_cons,
                encode_cons]

/-- The words of a text in UTF-8 are in UTF-8. -/
theorem isUtf8_of_mem_words {text word : Text} (valid : IsUtf8 text)
    (inside : word ∈ Cpp.words text) : IsUtf8 word := by
  obtain ⟨characters, rfl⟩ := valid
  obtain ⟨piece, _⟩ := List.mem_filter.mp inside
  rw [splitOnP_encode] at piece
  obtain ⟨part, _, rfl⟩ := List.mem_map.mp piece
  exact ⟨part, rfl⟩

end CheckGitStatus
