import CheckGitStatus.Text.Bytes
import Mathlib.Algebra.GroupWithZero.Nat

/-! # Decimal numbers

A number is a non-empty string of digits. `std::to_string` writes a number for every
value, and the digits denote that value (`CheckGitStatus.digitsValue_decimal`), so that
`std::from_chars` reads it back (`CheckGitStatus.Cpp.fromChars_of_isNumber`).
-/

namespace CheckGitStatus

/-- A non-empty string of decimal digits. -/
def isNumber (text : Text) : Bool :=
  text ≠ [] && text.all isDigit

/-- A number starts with a digit and nothing follows it. -/
theorem isNumber_parts {text : Text} (number : isNumber text) :
    text ≠ [] ∧ text.head? ≠ some 45 ∧ text.head? ≠ some 43 ∧
      text.takeWhile isDigit = text ∧ text.dropWhile isDigit = [] ∧ text.all isDigit := by
  simp only [isNumber, Bool.and_eq_true, decide_eq_true_eq] at number
  obtain ⟨nonempty, digits⟩ := number
  have every := List.all_eq_true.mp digits
  cases text with
  | nil => exact absurd rfl nonempty
  | cons first rest =>
      have digit := every first List.mem_cons_self
      refine ⟨nonempty, ?_, ?_, List.takeWhile_eq_self_iff.mpr every,
        List.dropWhile_eq_nil_iff.mpr every, digits⟩
      · rintro head
        rw [Option.some.inj head] at digit
        exact absurd digit (by decide)
      · rintro head
        rw [Option.some.inj head] at digit
        exact absurd digit (by decide)

/-! ## The value of digits -/

theorem digitsValue_concat (front : Text) (last : Byte) :
    digitsValue (front ++ [last]) = 10 * digitsValue front + (last.toNat - 48) := by
  rw [digitsValue, List.foldl_concat, ← digitsValue]

theorem digitsValue_append (front back : Text) :
    digitsValue (front ++ back) = digitsValue front * 10 ^ back.length + digitsValue back := by
  induction back using List.reverseRecOn with
  | nil => simp only [List.append_nil, List.length_nil, Nat.pow_zero, Nat.mul_one, digitsValue,
      List.foldl_nil, Nat.add_zero]
  | append_singleton back last ih =>
      rw [← List.append_assoc, digitsValue_concat, ih, digitsValue_concat, List.length_append,
        List.length_singleton, Nat.pow_succ, Nat.mul_add, Nat.mul_comm 10 (digitsValue front * _),
        Nat.mul_assoc, Nat.add_assoc]

/-- Zeros in front do not count. -/
theorem digitsValue_zeroPadded (width : Nat) (digits : Text) :
    digitsValue (zeroPadded width digits) = digitsValue digits := by
  have zeros : ∀ count, digitsValue (List.replicate count 48) = 0 := by
    intro count
    induction count with
    | zero => rfl
    | succ count ih =>
        rw [List.replicate_succ', digitsValue_concat, ih]
        rfl
  rw [zeroPadded, digitsValue_append, zeros, Nat.zero_mul, Nat.zero_add]

theorem length_zeroPadded {width : Nat} {digits : Text} (short : digits.length ≤ width) :
    (zeroPadded width digits).length = width := by
  rw [zeroPadded, List.length_append, List.length_replicate]
  omega

/-- Zeros at the end are a power of ten. -/
theorem digitsValue_rdropWhile_zero (digits : Text) :
    digitsValue (digits.rdropWhile fun digit => digit == 48) *
        10 ^ (digits.length - (digits.rdropWhile fun digit => digit == 48).length) =
      digitsValue digits := by
  induction digits using List.reverseRecOn with
  | nil => rfl
  | append_singleton front last ih =>
      by_cases zero : (last == 48) = true
      · have shorter := (List.rdropWhile_prefix (fun digit : Byte => digit == 48) (l := front)).length_le
        have apart : (front ++ [last]).length -
            (front.rdropWhile fun digit => digit == 48).length =
              front.length - (front.rdropWhile fun digit => digit == 48).length + 1 := by
          rw [List.length_append, List.length_singleton]
          omega
        rw [List.rdropWhile_concat_pos (fun digit : Byte => digit == 48) front last zero, apart, Nat.pow_succ, ← Nat.mul_assoc, ih,
          digitsValue_concat, beq_iff_eq.mp zero]
        have noValue : (48 : Byte).toNat - 48 = 0 := rfl
        rw [noValue, Nat.add_zero, Nat.mul_comm]
      · rw [List.rdropWhile_concat_neg (fun digit : Byte => digit == 48) front last zero, Nat.sub_self, Nat.pow_zero, Nat.mul_one]

/-! ## The digits of a value -/

/-- The digit for a value below ten. -/
theorem digitChar_toUInt8 {value : Nat} (small : value < 10) :
    (Nat.digitChar value).toNat.toUInt8.toNat = 48 + value ∧
      isDigit (Nat.digitChar value).toNat.toUInt8 = true := by
  have everyDigit : ∀ value < 10, (Nat.digitChar value).toNat.toUInt8.toNat = 48 + value ∧
      isDigit (Nat.digitChar value).toNat.toUInt8 = true := by
    decide
  exact everyDigit value small

theorem decimal_of_lt {value : Nat} (small : value < 10) :
    decimal value = [(Nat.digitChar value).toNat.toUInt8] := by
  rw [decimal, Nat.toDigits_of_lt_base small, List.map_cons, List.map_nil]

theorem decimal_of_le {value : Nat} (large : 10 ≤ value) :
    decimal value = decimal (value / 10) ++ [(Nat.digitChar (value % 10)).toNat.toUInt8] := by
  rw [decimal, Nat.toDigits_of_base_le (by decide) large, List.map_append, List.map_cons,
    List.map_nil, ← decimal]

/-- A decimal is a number without leading zeros or signs. -/
theorem isNumber_decimal (value : Nat) : isNumber (decimal value) = true := by
  induction value using Nat.strongRecOn with
  | ind value ih =>
      rcases Nat.lt_or_ge value 10 with small | large
      · rw [decimal_of_lt small, isNumber, List.all_cons, (digitChar_toUInt8 small).2]
        rfl
      · have front := ih (value / 10) (by omega)
        have last := (digitChar_toUInt8 (Nat.mod_lt value (by decide))).2
        rw [isNumber, Bool.and_eq_true] at front
        rw [decimal_of_le large, isNumber, List.all_append, front.2, List.all_cons, last]
        simp only [ne_eq, List.append_eq_nil_iff, List.cons_ne_self, and_false,
          not_false_eq_true, decide_true, List.all_nil, Bool.and_self]

/-- The digits that are written denote the value. -/
theorem digitsValue_decimal (value : Nat) : digitsValue (decimal value) = value := by
  induction value using Nat.strongRecOn with
  | ind value ih =>
      rcases Nat.lt_or_ge value 10 with small | large
      · rw [decimal_of_lt small, digitsValue, List.foldl_cons, List.foldl_nil,
          (digitChar_toUInt8 small).1]
        omega
      · rw [decimal_of_le large, digitsValue_concat, ih (value / 10) (by omega),
          (digitChar_toUInt8 (Nat.mod_lt value (by decide))).1]
        omega

/-- A number with no zero in front, unless it is zero. -/
structure IsPlainNumber (text : Text) : Prop where
  number : isNumber text = true
  plain : text.head? = some 48 → text = [48]

/-- A positive number does not start with a zero. -/
theorem head?_decimal_ne_zero {value : Nat} (positive : 0 < value) :
    (decimal value).head? ≠ some 48 := by
  induction value using Nat.strongRecOn with
  | ind value ih =>
      rcases Nat.lt_or_ge value 10 with small | large
      · rw [decimal_of_lt small]
        intro zero
        have digit := (digitChar_toUInt8 small).1
        rw [Option.some.inj zero] at digit
        change 48 = 48 + value at digit
        omega
      · have front := (isNumber_parts (isNumber_decimal (value / 10))).1
        rw [decimal_of_le large, List.head?_append_of_ne_nil _ front]
        exact ih (value / 10) (by omega) (by omega)

/-- `std::to_string` writes no zeros in front. -/
theorem isPlainNumber_decimal (value : Nat) : IsPlainNumber (decimal value) := by
  refine ⟨isNumber_decimal value, fun zero => ?_⟩
  rcases Nat.eq_zero_or_pos value with rfl | positive
  · rfl
  · exact absurd zero (head?_decimal_ne_zero positive)

theorem length_decimal_le {value width : Nat} (positive : 0 < width) (small : value < 10 ^ width) :
    (decimal value).length ≤ width := by
  rw [decimal, List.length_map]
  exact (Nat.length_toDigits_le_iff (by decide) positive).mpr small

namespace Cpp

/-- `std::from_chars` reads a whole number that fits into an `int`. -/
theorem fromChars_of_isNumber {text : Text} (number : isNumber text)
    (fits : digitsValue text ≤ 2147483647) :
    fromChars text = some ((digitsValue text : Int), []) := by
  obtain ⟨nonempty, unsigned, -, taken, rest, -⟩ := isNumber_parts number
  have sign : (text.head? == some 45) = false := beq_eq_false_iff_ne.mpr unsigned
  have bounded : ¬ ((digitsValue text : Int) < -2147483648 ∨
      2147483647 < (digitsValue text : Int)) := by omega
  simp only [fromChars, sign, Bool.false_eq_true, ↓reduceIte, taken, nonempty, bounded, rest]

end Cpp

end CheckGitStatus
