import CheckGitStatus.Text.Bytes

/-! # The string functions of the Go standard library

The Go program splits text with `strings.Split`, `strings.Fields` and
`strings.TrimSpace` and reads numbers with `strconv.Atoi`. `Fields` and
`TrimSpace` work on the runes of the text and take every Unicode white-space
character for a separator, not only the ASCII ones.
-/

namespace CheckGitStatus.Go

/-- `utf8.RuneError`, which an invalid byte decodes to. -/
def runeError : Nat := 0xFFFD

/-- The values the first continuation byte may take after a lead byte, the number
of continuation bytes, and the bits that the lead byte contributes. -/
def leadByte (lead : Byte) : Option (Byte × Byte × Nat × Nat) :=
  if 0xC2 ≤ lead && lead ≤ 0xDF then some (0x80, 0xBF, 1, lead.toNat - 0xC0)
  else if lead == 0xE0 then some (0xA0, 0xBF, 2, lead.toNat - 0xE0)
  else if lead == 0xED then some (0x80, 0x9F, 2, lead.toNat - 0xE0)
  else if 0xE1 ≤ lead && lead ≤ 0xEF then some (0x80, 0xBF, 2, lead.toNat - 0xE0)
  else if lead == 0xF0 then some (0x90, 0xBF, 3, lead.toNat - 0xF0)
  else if 0xF1 ≤ lead && lead ≤ 0xF3 then some (0x80, 0xBF, 3, lead.toNat - 0xF0)
  else if lead == 0xF4 then some (0x80, 0x8F, 3, lead.toNat - 0xF0)
  else none

/-- `utf8.DecodeRuneInString`: the rune at the start of a text and the number of
bytes it takes. Invalid encodings take one byte. -/
def decodeRune : Text → Nat × Nat
  | [] => (runeError, 0)
  | lead :: rest =>
      if lead < 0x80 then (lead.toNat, 1)
      else match leadByte lead with
        | none => (runeError, 1)
        | some (low, high, count, bits) =>
            let continuation := rest.take count
            let valid := continuation.length == count &&
              continuation.head?.any (fun byte => low ≤ byte && byte ≤ high) &&
              continuation.all fun byte => 0x80 ≤ byte && byte ≤ 0xBF
            if valid then
              (continuation.foldl (fun value byte => 64 * value + (byte.toNat - 0x80)) bits,
                count + 1)
            else (runeError, 1)

/-- `unicode.IsSpace`. -/
def isSpace (rune : Nat) : Bool :=
  rune == 32 || (9 ≤ rune && rune ≤ 13) || rune == 0x85 || rune == 0xA0 || rune == 0x1680 ||
    (0x2000 ≤ rune && rune ≤ 0x200A) || rune == 0x2028 || rune == 0x2029 || rune == 0x202F ||
    rune == 0x205F || rune == 0x3000

/-- Every byte of a text with whether it belongs to a white-space rune. `pending`
bytes still belong to the rune before, which is white space as `space` says. -/
def markSpacesFrom (pending : Nat) (space : Bool) : Text → List (Byte × Bool)
  | [] => []
  | byte :: rest =>
      match pending with
      | pending + 1 => (byte, space) :: markSpacesFrom pending space rest
      | 0 =>
          let (rune, width) := decodeRune (byte :: rest)
          (byte, isSpace rune) :: markSpacesFrom (width - 1) (isSpace rune) rest

/-- Every byte of a text with whether it belongs to a white-space character. -/
def markSpaces (text : Text) : List (Byte × Bool) :=
  markSpacesFrom 0 false text

/-- `strings.Fields`. -/
def fields (text : Text) : List Text :=
  (((markSpaces text).splitOnP Prod.snd).filter fun field => field ≠ []).map
    fun field => field.map Prod.fst

/-- `strings.TrimSpace`. -/
def trimSpace (text : Text) : Text :=
  (((markSpaces text).dropWhile Prod.snd).rdropWhile Prod.snd).map Prod.fst

/-- `strings.Split` at line feeds. -/
def splitLines (text : Text) : List Text :=
  text.splitOn lineFeed

/-- `strings.TrimPrefix` of a single byte. -/
def trimPrefix (byte : Byte) (text : Text) : Text :=
  if text.head? = some byte then text.tail else text

/-- `strings.Cut`: the text before and after the first separator. -/
def cut (separator : Text) : Text → Option (Text × Text)
  | [] => if separator = [] then some ([], []) else none
  | byte :: rest =>
      if separator.isPrefixOf (byte :: rest) then
        some ([], (byte :: rest).drop separator.length)
      else (cut separator rest).map fun (before, after) => (byte :: before, after)

/-- The runes that start in a text of which `pending` bytes belong to the rune before. -/
def runeCountFrom (pending : Nat) : Text → Nat
  | [] => 0
  | byte :: rest =>
      match pending with
      | pending + 1 => runeCountFrom pending rest
      | 0 => 1 + runeCountFrom ((decodeRune (byte :: rest)).2 - 1) rest

/-- `utf8.RuneCountInString`. -/
def runeCount (text : Text) : Nat :=
  runeCountFrom 0 text

/-- `strconv.Atoi` on a platform with 64-bit `int`. -/
def atoi (text : Text) : Option Int :=
  let negative := text.head? == some 45
  let body := if text.head? = some 45 ∨ text.head? = some 43 then text.tail else text
  let value : Int := if negative then -(digitsValue body) else digitsValue body
  if body = [] ∨ ¬ body.all isDigit then none
  else if value < -9223372036854775808 ∨ 9223372036854775807 < value then none
  else some value

/-- `singleLine`: the fields of a text joined by single spaces. -/
def singleLine (value : Text) : Text :=
  (ascii " ").intercalate (fields value)

/-! ## White space at the ends of a text -/

/-- Marking keeps the bytes. -/
theorem markSpacesFrom_map_fst (pending : Nat) (space : Bool) (text : Text) :
    (markSpacesFrom pending space text).map Prod.fst = text := by
  induction text generalizing pending space with
  | nil => rfl
  | cons byte rest ih =>
      cases pending with
      | zero => simp only [markSpacesFrom, List.map_cons, ih]
      | succ pending => simp only [markSpacesFrom, List.map_cons, ih]

theorem markSpaces_map_fst (text : Text) : (markSpaces text).map Prod.fst = text :=
  markSpacesFrom_map_fst 0 false text

/-- A rune takes no more bytes than there are. -/
theorem decodeRune_width_le (lead : Byte) (rest : Text) :
    (decodeRune (lead :: rest)).2 - 1 ≤ rest.length := by
  by_cases ascii : lead < 0x80
  · simp only [decodeRune, ascii, ↓reduceIte]
    exact Nat.zero_le _
  simp only [decodeRune, ascii, ↓reduceIte]
  cases leadByte lead with
  | none => exact Nat.zero_le _
  | some parts =>
      obtain ⟨low, high, count, bits⟩ := parts
      dsimp only
      split_ifs with valid
      · simp only [Bool.and_eq_true, beq_iff_eq, List.length_take] at valid
        have length := valid.1.1
        dsimp only
        omega
      · exact Nat.zero_le _

/-- An ASCII byte is no continuation byte, so that what a rune decodes to does not
depend on the text from the next ASCII byte on. -/
theorem decodeRune_append_ascii {plain : Byte} (isPlain : plain < 0x80) (lead : Byte)
    (front rest : Text) :
    decodeRune (lead :: (front ++ plain :: rest)) = decodeRune (lead :: front) := by
  by_cases ascii : lead < 0x80
  · simp only [decodeRune, ascii, ↓reduceIte]
  simp only [decodeRune, ascii, ↓reduceIte]
  cases leadByte lead with
  | none => rfl
  | some parts =>
      obtain ⟨low, high, count, bits⟩ := parts
      dsimp only
      by_cases enough : count ≤ front.length
      · rw [List.take_append_of_le_length enough]
      have short : (front.take count).length ≠ count := by
        rw [List.length_take]
        omega
      have broken : ((front ++ plain :: rest).take count).all
          (fun byte => 0x80 ≤ byte && byte ≤ 0xBF) = false := by
        rw [List.all_eq_false]
        refine ⟨plain, ?_, ?_⟩
        · obtain ⟨missing, rfl⟩ : ∃ missing, count = front.length + (missing + 1) :=
            ⟨count - front.length - 1, by omega⟩
          rw [List.take_length_add_append, List.take_succ_cons]
          exact List.mem_append_right _ List.mem_cons_self
        · have low : ¬ 0x80 ≤ plain := UInt8.not_le.mpr isPlain
          simp only [low, decide_false, Bool.false_and, Bool.false_eq_true, not_false_eq_true]
      simp only [beq_eq_false_iff_ne.mpr short, broken, Bool.and_false, Bool.false_and,
        Bool.false_eq_true, ↓reduceIte]

/-- The marking starts anew at an ASCII byte once the pending bytes are over. -/
theorem markSpacesFrom_append {plain : Byte} (isPlain : plain < 0x80) (rest : Text) (front : Text)
    (pending : Nat) (space : Bool) (inside : pending ≤ front.length) :
    markSpacesFrom pending space (front ++ plain :: rest) =
      markSpacesFrom pending space front ++ markSpaces (plain :: rest) := by
  induction front generalizing pending space with
  | nil =>
      rw [List.length_nil, Nat.le_zero] at inside
      subst inside
      rfl
  | cons byte front ih =>
      cases pending with
      | zero =>
          simp only [List.cons_append, markSpacesFrom, decodeRune_append_ascii isPlain]
          rw [ih _ _ (decodeRune_width_le byte front)]
      | succ pending =>
          simp only [List.cons_append, markSpacesFrom]
          rw [ih _ _ (Nat.le_of_succ_le_succ inside)]

/-- An ASCII byte starts a rune. -/
theorem markSpaces_append {plain : Byte} (isPlain : plain < 0x80) (front rest : Text) :
    markSpaces (front ++ plain :: rest) = markSpaces front ++ markSpaces (plain :: rest) :=
  markSpacesFrom_append isPlain rest front 0 false (Nat.zero_le _)

/-! ## ASCII text -/

/-- Splitting commutes with a map. -/
theorem splitOnP_map {α β : Type*} (image : α → β) (separates : β → Bool) (items : List α) :
    (items.map image).splitOnP separates =
      (items.splitOnP fun item => separates (image item)).map (List.map image) := by
  induction items with
  | nil => rfl
  | cons item rest ih =>
      rw [List.map_cons, List.splitOnP_cons_eq_if_modifyHead, List.splitOnP_cons_eq_if_modifyHead,
        ih]
      split
      · rfl
      · cases rest.splitOnP fun item => separates (image item) <;> rfl

/-- The two notions of white space agree on ASCII bytes. -/
theorem isSpace_of_ascii {byte : Byte} (plain : byte < 0x80) :
    isSpace byte.toNat = Cpp.isSpace byte := by
  have small : byte.toNat < 128 := UInt8.lt_iff_toNat_lt.mp plain
  have runes : ∀ rune < 128, isSpace rune =
      (rune == 32 || (decide (9 ≤ rune) && decide (rune ≤ 13))) := by decide
  have blank : (byte == 32) = (byte.toNat == 32) := by
    rw [Bool.eq_iff_iff, beq_iff_eq, beq_iff_eq, ← UInt8.toNat_inj]
    rfl
  rw [runes _ small, Cpp.isSpace, blank]
  rfl

/-- In ASCII the marks are the white space of the C++ program. -/
theorem markSpaces_of_ascii {text : Text} (plain : ∀ byte ∈ text, byte < 0x80) :
    markSpaces text = text.map fun byte => (byte, Cpp.isSpace byte) := by
  have marked : ∀ space, markSpacesFrom 0 space text =
      text.map fun byte => (byte, Cpp.isSpace byte) := by
    induction text with
    | nil => exact fun _ => rfl
    | cons byte rest ih =>
        intro space
        have here := plain byte List.mem_cons_self
        have later := ih fun other inside => plain other (List.mem_cons_of_mem _ inside)
        simp only [markSpacesFrom, decodeRune, here, ↓reduceIte, Nat.sub_self, later,
          isSpace_of_ascii here, List.map_cons]
  exact marked false

/-- `strings.Fields` splits as the C++ program does where both see the same white space. -/
theorem fields_of_markSpaces {text : Text}
    (marked : markSpaces text = text.map fun byte => (byte, Cpp.isSpace byte)) :
    fields text = Cpp.words text := by
  have unmarked : (List.map Prod.fst ∘ List.map fun byte : Byte => (byte, Cpp.isSpace byte)) =
      id := by
    funext piece
    rw [Function.comp_apply, List.map_map]
    exact List.map_id piece
  rw [fields, marked, splitOnP_map, List.filter_map, List.map_map, unmarked,
    List.map_id, Cpp.words]
  simp only [Function.comp_def, ne_eq, List.map_eq_nil_iff]

/-- In ASCII the fields are the words of the C++ program. -/
theorem fields_of_ascii {text : Text} (plain : ∀ byte ∈ text, byte < 0x80) :
    fields text = Cpp.words text :=
  fields_of_markSpaces (markSpaces_of_ascii plain)

/-! ## White space outside ASCII -/

/-- Bytes outside ASCII are no white space to the C++ program. -/
theorem isSpace_of_not_ascii {byte : Byte} (high : 0x80 ≤ byte) : Cpp.isSpace byte = false := by
  rw [← Bool.not_eq_true]
  intro space
  have large : 0x80 ≤ byte.toNat := UInt8.le_iff_toNat_le.mp high
  simp only [Cpp.isSpace, Bool.or_eq_true, beq_iff_eq, Bool.and_eq_true, decide_eq_true_eq] at space
  rcases space with rfl | ⟨_, low⟩
  · exact absurd large (by decide)
  · have small : byte.toNat ≤ 13 := UInt8.le_iff_toNat_le.mp low
    omega

/-- At no byte of the text outside ASCII a white-space character is decoded. -/
def NoWideSpace (text : Text) : Prop :=
  ∀ back ∈ text.tails, isSpace (decodeRune back).1 = true → ∀ byte ∈ back.head?, byte < 0x80

instance (text : Text) : Decidable (NoWideSpace text) :=
  inferInstanceAs (Decidable (∀ back ∈ text.tails, _))

/-- A rune that takes more than one byte goes on with bytes outside ASCII. -/
theorem decodeRune_continuation (lead : Byte) (rest : Text) :
    ∀ byte ∈ rest.take ((decodeRune (lead :: rest)).2 - 1), (0x80 : Byte) ≤ byte := by
  by_cases ascii : lead < 0x80
  · simp only [decodeRune, ascii, ↓reduceIte, Nat.sub_self, List.take_zero]
    exact fun byte inside => absurd inside List.not_mem_nil
  simp only [decodeRune, ascii, ↓reduceIte]
  cases leadByte lead with
  | none => exact fun byte inside => absurd inside List.not_mem_nil
  | some parts =>
      obtain ⟨low, high, count, bits⟩ := parts
      dsimp only
      split_ifs with valid
      · rw [Nat.add_sub_cancel]
        simp only [Bool.and_eq_true] at valid
        intro byte inside
        have bounds := List.all_eq_true.mp valid.2 byte inside
        rw [Bool.and_eq_true, decide_eq_true_eq] at bounds
        exact bounds.1
      · exact fun byte inside => absurd inside List.not_mem_nil

/-- An ASCII byte at the start of a text is marked as what it is. -/
theorem markSpaces_cons {byte : Byte} (plain : byte < 0x80) (rest : Text) :
    markSpaces (byte :: rest) = (byte, Cpp.isSpace byte) :: markSpaces rest := by
  have fresh : ∀ space, markSpacesFrom 0 space rest = markSpaces rest := by
    intro space
    cases rest <;> rfl
  simp only [markSpaces, markSpacesFrom, decodeRune, plain, ↓reduceIte, Nat.sub_self,
    isSpace_of_ascii plain]
  rw [fresh, markSpaces]

/-- So is an ASCII byte anywhere. -/
theorem mark_of_ascii {text : Text} {byte : Byte} {space : Bool}
    (inside : (byte, space) ∈ markSpaces text) (plain : byte < 0x80) :
    space = Cpp.isSpace byte := by
  have marked : ∀ pending before, (∀ byte ∈ text.take pending, (0x80 : Byte) ≤ byte) →
      (byte, space) ∈ markSpacesFrom pending before text → space = Cpp.isSpace byte := by
    clear inside
    induction text with
    | nil => exact fun _ _ _ inside => absurd inside List.not_mem_nil
    | cons first rest ih =>
        intro pending before high inside
        cases pending with
        | succ pending =>
            rw [List.take_succ_cons, List.forall_mem_cons] at high
            rcases List.mem_cons.mp inside with here | later
            · cases here
              exact absurd plain (UInt8.not_lt.mpr high.1)
            · exact ih pending before high.2 later
        | zero =>
            simp only [markSpacesFrom] at inside
            rcases List.mem_cons.mp inside with here | later
            · cases here
              simp only [decodeRune, plain, ↓reduceIte, isSpace_of_ascii plain]
            · exact ih _ _ (decodeRune_continuation first rest) later
  exact marked 0 false (fun byte inside => absurd inside List.not_mem_nil) inside

/-- Without white space outside ASCII both programs mark the same bytes. -/
theorem markSpaces_of_noWideSpace {text : Text} (plain : NoWideSpace text) :
    markSpaces text = text.map fun byte => (byte, Cpp.isSpace byte) := by
  have marked : ∀ pending space, (0 < pending → space = false) →
      (∀ byte ∈ text.take pending, (0x80 : Byte) ≤ byte) →
      markSpacesFrom pending space text = text.map fun byte => (byte, Cpp.isSpace byte) := by
    induction text with
    | nil => exact fun _ _ _ _ => rfl
    | cons byte rest ih =>
        intro pending space visible high
        have later : NoWideSpace rest := fun back inside =>
          plain back (List.mem_cons_of_mem (byte :: rest) inside)
        cases pending with
        | succ pending =>
            rw [List.take_succ_cons, List.forall_mem_cons] at high
            obtain rfl := visible (Nat.succ_pos pending)
            rw [markSpacesFrom, ih later pending false (fun _ => rfl) high.2, List.map_cons,
              isSpace_of_not_ascii high.1]
        | zero =>
            have mark : isSpace (decodeRune (byte :: rest)).1 = Cpp.isSpace byte ∧
                (0 < (decodeRune (byte :: rest)).2 - 1 →
                  isSpace (decodeRune (byte :: rest)).1 = false) := by
              by_cases ascii : byte < 0x80
              · simp only [decodeRune, ascii, ↓reduceIte, isSpace_of_ascii ascii, Nat.sub_self,
                  Nat.lt_irrefl, false_implies, and_self]
              · have none : isSpace (decodeRune (byte :: rest)).1 = false := by
                  rw [← Bool.not_eq_true]
                  intro space
                  exact ascii (plain (byte :: rest) List.mem_cons_self space byte rfl)
                exact ⟨none.trans (isSpace_of_not_ascii (UInt8.not_lt.mp ascii)).symm,
                  fun _ => none⟩
            simp only [markSpacesFrom, List.map_cons]
            rw [ih later _ _ mark.2 (decodeRune_continuation byte rest), mark.1]
  refine marked 0 false (fun none => absurd none (Nat.lt_irrefl 0)) ?_
  exact fun byte inside => absurd inside List.not_mem_nil

/-- Without white space outside ASCII both programs see the same words. -/
theorem fields_of_noWideSpace {text : Text} (plain : NoWideSpace text) :
    fields text = Cpp.words text :=
  fields_of_markSpaces (markSpaces_of_noWideSpace plain)

end CheckGitStatus.Go
