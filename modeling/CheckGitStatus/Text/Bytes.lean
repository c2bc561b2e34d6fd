import Mathlib.Data.List.DropRight

/-! # Byte texts and the string functions of the C++ standard library

Both programs handle text as arbitrary bytes. A `std::string` is modelled as the
list of its bytes, and the stream and algorithm calls that the C++ program makes
on strings are given here under their documented meaning: `std::getline`,
extraction of words with `>>` (the classic locale), `std::isspace`,
`std::from_chars` and `std::to_string`.
-/

namespace CheckGitStatus

/-- A `char` or a Go `byte`. -/
abbrev Byte := UInt8

/-- A `std::string` or a Go `string`: any sequence of bytes. -/
abbrev Text := List Byte

/-- The bytes of a literal, which the sources write in ASCII. -/
def ascii (literal : String) : Text :=
  literal.toList.map fun character => character.toNat.toUInt8

/-- The byte that ends a line. -/
def lineFeed : Byte := 10

/-- The byte that may stand in front of a line feed. -/
def carriageReturn : Byte := 13

/-- A space or a tab. -/
def isBlank (byte : Byte) : Bool :=
  byte == 32 || byte == 9

/-- `isdigit` in the classic locale. -/
def isDigit (byte : Byte) : Bool :=
  48 ≤ byte && byte ≤ 57

/-- The number a string of decimal digits denotes. -/
def digitsValue (digits : Text) : Nat :=
  digits.foldl (fun value digit => 10 * value + (digit.toNat - 48)) 0

/-- `std::to_string` of an integer that is not negative. -/
def decimal (value : Nat) : Text :=
  (Nat.toDigits 10 value).map fun character => character.toNat.toUInt8

/-- `std::to_string` of a signed integer. -/
def stdToString (value : Int) : Text :=
  if value < 0 then ascii "-" ++ decimal value.natAbs else decimal value.natAbs

/-- Digits with zeros in front up to a width. -/
def zeroPadded (width : Nat) (digits : Text) : Text :=
  List.replicate (width - digits.length) 48 ++ digits

/-- A line without its final carriage return, if it has one. -/
def dropCarriageReturn (line : Text) : Text :=
  if line.getLast? = some carriageReturn then line.dropLast else line

/-- What precedes a suffix, for a text that ends with it. -/
def stripSuffix (suffix text : Text) : Option Text :=
  if suffix.isSuffixOf text then some (text.take (text.length - suffix.length)) else none

namespace Cpp

/-- `std::isspace` in the classic locale. -/
def isSpace (byte : Byte) : Bool :=
  byte == 32 || (9 ≤ byte && byte ≤ 13)

/-- The lines that successive calls of `std::getline` produce: the text after the
last line feed is a line only if it is not empty. -/
def getlines (text : Text) : List Text :=
  let pieces := text.splitOn lineFeed
  if pieces.getLast? = some [] then pieces.dropLast else pieces

/-- The words that successive `>>` extract from a stream. -/
def words (value : Text) : List Text :=
  (value.splitOnP isSpace).filter fun word => word ≠ []

/-- `trim`: white space is cut off both ends. -/
def trim (value : Text) : Text :=
  (value.dropWhile isSpace).rdropWhile isSpace

/-- The words of a text joined by single spaces. -/
def singleLine (value : Text) : Text :=
  (ascii " ").intercalate (words value)

/-- `std::from_chars` for `int`: the value and the text after it, or nothing when
no number starts the text or it does not fit. -/
def fromChars (text : Text) : Option (Int × Text) :=
  let negative := text.head? == some 45
  let body := if negative then text.tail else text
  let digits := body.takeWhile isDigit
  let value : Int := if negative then -(digitsValue digits) else digitsValue digits
  if digits = [] then none
  else if value < -2147483648 ∨ 2147483647 < value then none
  else some (value, body.dropWhile isDigit)

/-- `std::from_chars` for `unsigned long`, which takes no sign. -/
def fromCharsUnsigned (text : Text) : Option (Nat × Text) :=
  let digits := text.takeWhile isDigit
  if digits = [] then none
  else if 18446744073709551615 < digitsValue digits then none
  else some (digitsValue digits, text.dropWhile isDigit)

end Cpp

/-! ## White space at the ends of a text -/

/-- When the last two elements are kept and dropped, dropping at both ends drops no more at
the end than the very last. -/
theorem dropBothEnds {α : Type*} {drops : α → Bool} (items : List α) {last final : α}
    (kept : drops last = false) (dropped : drops final = true) :
    ((items ++ [last, final]).dropWhile drops).rdropWhile drops ++ [final] =
      (items ++ [last, final]).dropWhile drops := by
  have keeps : ¬ drops last = true := by rw [kept]; exact Bool.false_ne_true
  have ending : ∃ front, (items ++ [last, final]).dropWhile drops = (front ++ [last]) ++ [final] := by
    rw [List.dropWhile_append]
    split
    · exact ⟨[], List.dropWhile_cons_of_neg keeps⟩
    · exact ⟨items.dropWhile drops, by rw [List.append_assoc]; rfl⟩
  obtain ⟨front, ending⟩ := ending
  rw [ending, List.rdropWhile_concat_pos _ _ _ dropped, List.rdropWhile_concat_neg _ _ _ keeps]

/-! ## Splitting into a name and the rest -/

/-- A name without blanks ends at a tab. -/
theorem dropWhile_name {name : Text} (clean : ∀ byte ∈ name, isBlank byte = false)
    (rest : Text) :
    (name ++ 9 :: rest).dropWhile (fun byte => !isBlank byte) = 9 :: rest := by
  rw [List.dropWhile_append_of_pos]
  · rfl
  · intro byte inside
    rw [clean byte inside]
    rfl

/-- The name of a remote ends at the tab. -/
theorem takeWhile_name {name : Text} (clean : ∀ byte ∈ name, isBlank byte = false)
    (rest : Text) :
    (name ++ 9 :: rest).takeWhile (fun byte => !isBlank byte) = name := by
  rw [List.takeWhile_append_of_pos]
  · exact List.append_nil name
  · intro byte inside
    rw [clean byte inside]
    rfl

/-! ## Splitting into lines -/

/-- A suffix that is there is what `stripSuffix` removes. -/
theorem stripSuffix_append (text suffix : Text) :
    stripSuffix suffix (text ++ suffix) = some text := by
  have ends : suffix.isSuffixOf (text ++ suffix) = true :=
    List.isSuffixOf_iff_suffix.mpr (List.suffix_append text suffix)
  simp only [stripSuffix, ends, ↓reduceIte, List.length_append, Nat.add_sub_cancel,
    List.take_left']

/-- A text with another ending keeps it. -/
theorem stripSuffix_eq_none {suffix text : Text} (other : ¬ suffix <:+ text) :
    stripSuffix suffix text = none := by
  have ends : suffix.isSuffixOf text = false := by
    rw [← Bool.not_eq_true, List.isSuffixOf_iff_suffix]
    exact other
  simp only [stripSuffix, ends, Bool.false_eq_true, ↓reduceIte]

/-- Texts that differ at some byte before a common ending do not end alike. -/
theorem not_suffix_of_ne {text suffix : Text} {left right : Byte} (differ : left ≠ right)
    (ending : Text) : ¬ (suffix ++ left :: ending) <:+ (text ++ right :: ending) := by
  rintro ⟨before, same⟩
  rw [← List.append_assoc] at same
  have ends : left :: ending = right :: ending := List.append_inj_right' same rfl
  exact differ (List.cons.inj ends).1

/-- A line that ends in another byte is kept whole. -/
theorem dropCarriageReturn_concat {line : Text} {last : Byte} (other : last ≠ carriageReturn) :
    dropCarriageReturn (line ++ [last]) = line ++ [last] := by
  simp only [dropCarriageReturn, List.getLast?_append, List.getLast?_singleton, Option.some_or,
    Option.some.injEq, other, ↓reduceIte]

/-- What a function finds in the lines does not depend on the empty piece after a
final line feed, if it finds nothing in an empty line. -/
theorem filterMap_getlines {α : Type*} (found : Text → Option α) (blank : found [] = none)
    (text : Text) : (Cpp.getlines text).filterMap found =
      (text.splitOn lineFeed).filterMap found := by
  simp only [Cpp.getlines]
  split
  · rename_i last
    obtain ⟨front, split⟩ := List.getLast?_eq_some_iff.mp last
    rw [split, List.dropLast_concat, List.filterMap_append]
    simp only [List.filterMap_cons, blank, List.filterMap_nil, List.append_nil]
  · rfl

/-- Every line that `std::getline` yields is a piece between line feeds. -/
theorem mem_splitOn_of_mem_getlines {text line : Text} (inside : line ∈ Cpp.getlines text) :
    line ∈ text.splitOn lineFeed := by
  simp only [Cpp.getlines] at inside
  split at inside
  · exact List.dropLast_subset _ inside
  · exact inside

/-- `std::getline` misses no piece that is not empty. -/
theorem mem_getlines_of_mem_splitOn {text line : Text} (inside : line ∈ text.splitOn lineFeed)
    (nonempty : line ≠ []) : line ∈ Cpp.getlines text := by
  simp only [Cpp.getlines]
  split
  · rename_i last
    obtain ⟨front, split⟩ := List.getLast?_eq_some_iff.mp last
    rw [split] at inside ⊢
    rw [List.dropLast_concat]
    rcases List.mem_append.mp inside with before | empty
    · exact before
    · exact absurd (List.mem_singleton.mp empty) nonempty
  · exact inside

/-- No piece of a text that is split holds a byte that it is split at. -/
theorem forall_of_mem_splitOnP {splits : Byte → Bool} {text piece : Text}
    (inside : piece ∈ text.splitOnP splits) : ∀ byte ∈ piece, splits byte = false := by
  induction text generalizing piece with
  | nil =>
      rw [List.splitOnP_nil, List.mem_singleton] at inside
      rw [inside]
      exact fun byte inside => absurd inside List.not_mem_nil
  | cons first rest ih =>
      rw [List.splitOnP_cons_eq_if_modifyHead] at inside
      split at inside
      · rcases List.mem_cons.mp inside with rfl | later
        · exact fun byte inside => absurd inside List.not_mem_nil
        · exact ih later
      · rename_i kept
        cases pieces : rest.splitOnP splits with
        | nil => exact absurd pieces (List.splitOnP_ne_nil splits rest)
        | cons next others =>
            rw [pieces] at inside ih
            rcases List.mem_cons.mp inside with rfl | later
            · rw [List.forall_mem_cons]
              exact ⟨Bool.not_eq_true _ |>.mp kept, ih List.mem_cons_self⟩
            · exact ih (List.mem_cons_of_mem next later)

/-- The pieces hold everything but the separators. -/
theorem flatten_splitOnP {α : Type*} (splits : α → Bool) (items : List α) :
    (items.splitOnP splits).flatten = items.filter fun item => !splits item := by
  induction items with
  | nil => rfl
  | cons item rest ih =>
      rw [List.splitOnP_cons_eq_if_modifyHead]
      cases split : splits item with
      | true =>
          rw [if_pos rfl, List.flatten_cons, List.nil_append, ih, List.filter_cons_of_neg]
          rw [split]
          exact Bool.false_ne_true
      | false =>
          rw [if_neg Bool.false_ne_true, List.filter_cons_of_pos (by rw [split]; rfl), ← ih]
          cases pieces : rest.splitOnP splits with
          | nil => exact absurd pieces (List.splitOnP_ne_nil splits rest)
          | cons piece others => rfl

/-- No piece holds the separator. -/
theorem not_mem_of_mem_splitOn {separator : Byte} {text piece : Text}
    (inside : piece ∈ text.splitOn separator) : separator ∉ piece := by
  intro held
  have kept := forall_of_mem_splitOnP inside separator held
  rw [BEq.rfl] at kept
  cases kept

/-- Joining pieces adds no byte but those of the separator. -/
theorem not_mem_intercalate {separator : Text} {byte : Byte} (apart : byte ∉ separator)
    {pieces : List Text} (clean : ∀ piece ∈ pieces, byte ∉ piece) :
    byte ∉ separator.intercalate pieces := by
  induction pieces with
  | nil => exact List.not_mem_nil
  | cons first rest ih =>
      rw [List.forall_mem_cons] at clean
      cases rest with
      | nil =>
          rw [List.intercalate_singleton]
          exact clean.1
      | cons next others =>
          rw [List.intercalate_cons_cons, List.mem_append, List.mem_append, not_or, not_or]
          exact ⟨⟨clean.1, apart⟩, ih clean.2⟩

/-- The lines of a text in which every line is ended by a line feed. -/
theorem splitOn_joinLines (lines : List Text) (clean : ∀ line ∈ lines, lineFeed ∉ line) :
    (lines.flatMap fun line => line ++ [lineFeed]).splitOn lineFeed = lines ++ [[]] := by
  induction lines with
  | nil => rfl
  | cons line rest ih =>
      have here := clean line List.mem_cons_self
      have later := ih fun line inside => clean line (List.mem_cons_of_mem _ inside)
      simp only [List.flatMap_cons, List.append_assoc, List.cons_append, List.nil_append]
      rw [List.splitOn_append_cons_self_of_not_mem here, later]

end CheckGitStatus
