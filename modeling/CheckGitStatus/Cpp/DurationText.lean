import CheckGitStatus.Cpp.Duration
import CheckGitStatus.Text.Decimal

/-! # Reading a duration back

The text that `format_duration` prints for a duration of at least a millisecond has one
of four forms (`CheckGitStatus.Cpp.IsDurationText`), and every such text is read back as
the milliseconds that it denotes. The milliseconds that are printed are the nearest to the
duration (`CheckGitStatus.Cpp.formatDuration_exact`), so that two such durations have one
text only if they are rounded alike.
-/

namespace CheckGitStatus.Cpp

/-- The nearest number of milliseconds, halves rounded up. -/
def roundedMilliseconds (duration : Int) : Nat :=
  ((duration + 500000).tdiv nanosecondsPerMillisecond).toNat

/-! ## The reader -/

/-- The number at the start of a text and the text after it. -/
def splitNumber (text : Text) : Nat × Text :=
  (digitsValue (text.takeWhile isDigit), text.dropWhile isDigit)

/-- The milliseconds in `<s>s` or `<s>.<f>s`. -/
def readSeconds (text : Text) : Option Nat :=
  let (seconds, rest) := splitNumber text
  if rest = ascii "s" then some (1000 * seconds)
  else if rest.head? = some 46 then
    let digits := rest.tail.takeWhile isDigit
    if rest.tail.dropWhile isDigit = ascii "s" then
      some (1000 * seconds + digitsValue digits * 10 ^ (3 - digits.length))
    else none
  else none

/-- The milliseconds in `<m>m` and seconds. -/
def readMinutes (text : Text) : Option Nat :=
  let (minutes, rest) := splitNumber text
  if rest.head? = some 109 then (readSeconds rest.tail).map fun left => 60000 * minutes + left
  else none

/-- The milliseconds in the text of a duration. -/
def readDuration (text : Text) : Option Nat :=
  let (value, rest) := splitNumber text
  if rest = ascii "ms" then some value
  else if rest.head? = some 104 then
    (readMinutes rest.tail).map fun left => 3600000 * value + left
  else if rest.head? = some 109 then readMinutes text
  else readSeconds text

/-! ## The forms of a text -/

/-- The digits of a fraction of a second: one to three, the last one not zero. -/
structure IsFraction (digits : Text) : Prop where
  nonempty : digits ≠ []
  short : digits.length ≤ 3
  all : ∀ digit ∈ digits, isDigit digit = true
  last : digits.getLast? ≠ some 48

/-- `<s>s` or `<s>.<f>s`, and the milliseconds that it denotes. -/
inductive IsSecondsText : Text → Nat → Prop
  | whole {seconds : Text} : IsPlainNumber seconds →
      IsSecondsText (seconds ++ ascii "s") (1000 * digitsValue seconds)
  | decimals {seconds fraction : Text} : IsPlainNumber seconds → IsFraction fraction →
      IsSecondsText (seconds ++ ascii "." ++ fraction ++ ascii "s")
        (1000 * digitsValue seconds + digitsValue fraction * 10 ^ (3 - fraction.length))

/-- `<k>ms`, seconds, `<m>m` and seconds, or `<h>h<m>m` and seconds, and the milliseconds
that they denote. No part is as large as the next unit, and only the hours, minutes and
seconds after a larger unit may be zero. -/
inductive IsDurationText : Text → Nat → Prop
  | milliseconds {count : Text} : IsPlainNumber count → 1 ≤ digitsValue count →
      digitsValue count < 1000 → IsDurationText (count ++ ascii "ms") (digitsValue count)
  | seconds {text : Text} {milliseconds : Nat} : IsSecondsText text milliseconds →
      1000 ≤ milliseconds → milliseconds < 60000 → IsDurationText text milliseconds
  | minutes {minutes text : Text} {milliseconds : Nat} : IsPlainNumber minutes →
      1 ≤ digitsValue minutes → digitsValue minutes < 60 →
      IsSecondsText text milliseconds → milliseconds < 60000 →
      IsDurationText (minutes ++ ascii "m" ++ text) (60000 * digitsValue minutes + milliseconds)
  | hours {hours minutes text : Text} {milliseconds : Nat} : IsPlainNumber hours →
      1 ≤ digitsValue hours → IsPlainNumber minutes → digitsValue minutes < 60 →
      IsSecondsText text milliseconds → milliseconds < 60000 →
      IsDurationText (hours ++ ascii "h" ++ (minutes ++ ascii "m" ++ text))
        (3600000 * digitsValue hours + (60000 * digitsValue minutes + milliseconds))

/-! ## Reading back -/

/-- A number ends before the first byte that is no digit. -/
theorem splitNumber_append {digits : Text} (number : isNumber digits = true) {next : Byte}
    (other : isDigit next = false) (rest : Text) :
    splitNumber (digits ++ next :: rest) = (digitsValue digits, next :: rest) := by
  obtain ⟨-, -, -, -, -, all⟩ := isNumber_parts number
  have every := List.all_eq_true.mp all
  have noDigit : ¬ isDigit next = true := by rw [other]; exact Bool.false_ne_true
  rw [splitNumber, List.takeWhile_append_of_pos every, List.dropWhile_append_of_pos every,
    List.takeWhile_cons_of_neg noDigit, List.dropWhile_cons_of_neg noDigit, List.append_nil]

namespace IsSecondsText

variable {text : Text} {milliseconds : Nat}

/-- After the seconds stands their unit or a point, and neither `h` nor `m`. -/
theorem shape (isSeconds : IsSecondsText text milliseconds) :
    ∃ seconds next rest, text = seconds ++ next :: rest ∧ isNumber seconds = true ∧
      isDigit next = false ∧ next ≠ 104 ∧ next ≠ 109 := by
  cases isSeconds with
  | @whole seconds plain =>
      exact ⟨seconds, 115, [], rfl, plain.number, by decide, by decide, by decide⟩
  | @decimals seconds fraction plain _ =>
      refine ⟨seconds, 46, fraction ++ ascii "s", ?_, plain.number, by decide, by decide, by decide⟩
      rw [List.append_assoc, List.append_assoc]
      rfl

theorem read (isSeconds : IsSecondsText text milliseconds) : readSeconds text = some milliseconds := by
  cases isSeconds with
  | @whole seconds plain =>
      have unit : ascii "s" = 115 :: [] := by decide
      rw [readSeconds, unit, splitNumber_append plain.number (by decide)]
      simp only [← unit, ↓reduceIte]
  | @decimals seconds fraction plain isFraction =>
      have shape : seconds ++ ascii "." ++ fraction ++ ascii "s" =
          seconds ++ 46 :: (fraction ++ ascii "s") := by
        rw [List.append_assoc, List.append_assoc]
        rfl
      have taken : (fraction ++ ascii "s").takeWhile isDigit = fraction := by
        rw [List.takeWhile_append_of_pos isFraction.all]
        exact List.append_nil fraction
      have left : (fraction ++ ascii "s").dropWhile isDigit = ascii "s" := by
        rw [List.dropWhile_append_of_pos isFraction.all]
        rfl
      have notWhole : (46 : Byte) :: (fraction ++ ascii "s") ≠ ascii "s" := by
        intro same
        have first := (List.cons.inj same).1
        exact absurd first (by decide)
      rw [shape, readSeconds, splitNumber_append plain.number (by decide)]
      simp only [notWhole, ↓reduceIte, List.head?_cons, List.tail_cons, taken, left]

end IsSecondsText

theorem readMinutes_append {minutes text : Text} {milliseconds : Nat}
    (number : isNumber minutes = true) (isSeconds : IsSecondsText text milliseconds) :
    readMinutes (minutes ++ 109 :: text) = some (60000 * digitsValue minutes + milliseconds) := by
  rw [readMinutes, splitNumber_append number (by decide)]
  simp only [List.head?_cons, ↓reduceIte, List.tail_cons, isSeconds.read, Option.map_some]

/-- Seconds have a digit before their unit. -/
theorem IsSecondsText.ne_unit {text : Text} {milliseconds : Nat}
    (isSeconds : IsSecondsText text milliseconds) : text ≠ ascii "s" := by
  intro same
  obtain ⟨seconds, next, rest, shape, number, -⟩ := isSeconds.shape
  have length := congrArg List.length (shape.symm.trans same)
  have written := List.length_pos_iff.mpr (isNumber_parts number).1
  rw [List.length_append, List.length_cons] at length
  change _ = 1 at length
  omega

/-- Every text of a duration is read as what it denotes. -/
theorem IsDurationText.read {text : Text} {milliseconds : Nat}
    (isDuration : IsDurationText text milliseconds) : readDuration text = some milliseconds := by
  cases isDuration with
  | milliseconds plain _ _ =>
      have unit : ascii "ms" = 109 :: ascii "s" := by decide
      rw [readDuration, unit, splitNumber_append plain.number (by decide)]
      simp only [↓reduceIte]
  | seconds isSeconds _ _ =>
      obtain ⟨seconds, next, rest, shape, number, noDigit, noHour, noMinute⟩ := isSeconds.shape
      have read := isSeconds.read
      have notMilliseconds : next :: rest ≠ ascii "ms" := by
        intro same
        exact noMinute (List.cons.inj same).1
      rw [shape] at read ⊢
      rw [readDuration, splitNumber_append number noDigit, read]
      simp only [notMilliseconds, List.head?_cons, Option.some.injEq, noHour, noMinute, ↓reduceIte]
  | @minutes minutes text left plain _ _ isSeconds _ =>
      have unit : minutes ++ ascii "m" ++ text = minutes ++ 109 :: text := by
        rw [List.append_assoc]
        rfl
      have notMilliseconds : (109 : Byte) :: text ≠ ascii "ms" :=
        fun same => isSeconds.ne_unit (List.cons.inj same).2
      rw [unit, readDuration, splitNumber_append plain.number (by decide)]
      simp only [notMilliseconds, ↓reduceIte, List.head?_cons, Option.some.injEq,
        readMinutes_append plain.number isSeconds]
      rw [if_neg (by decide)]
  | @hours hours minutes text left plain _ plainMinutes _ isSeconds _ =>
      have unit : hours ++ ascii "h" ++ (minutes ++ ascii "m" ++ text) =
          hours ++ 104 :: (minutes ++ 109 :: text) := by
        simp only [List.append_assoc]
        rfl
      have notMilliseconds : ∀ rest, (104 : Byte) :: rest ≠ ascii "ms" := by
        intro rest same
        exact absurd (List.cons.inj same).1 (by decide)
      rw [unit, readDuration, splitNumber_append plain.number (by decide)]
      simp only [notMilliseconds, ↓reduceIte, List.head?_cons, List.tail_cons,
        readMinutes_append plainMinutes.number isSeconds, Option.map_some]

example : readDuration (ascii "1h0m2.05s") = some 3602050 := by decide

/-! ## What is printed -/

/-- A padded decimal has digits only. -/
theorem zeroPadded_all_isDigit (width value : Nat) :
    ∀ digit ∈ zeroPadded width (decimal value), isDigit digit = true := by
  intro digit inside
  rcases List.mem_append.mp inside with zero | written
  · rw [List.eq_of_mem_replicate zero]
    decide
  · obtain ⟨-, -, -, -, -, all⟩ := isNumber_parts (isNumber_decimal value)
    exact List.all_eq_true.mp all digit written

/-- Three digits without zeros at the end denote their thousandths. -/
theorem fraction_value {fraction : Nat} (small : fraction < 1000) :
    digitsValue ((zeroPadded 3 (decimal fraction)).rdropWhile fun digit => digit == 48) *
        10 ^ (3 - ((zeroPadded 3 (decimal fraction)).rdropWhile fun digit => digit == 48).length) =
      fraction := by
  have short : (decimal fraction).length ≤ 3 := length_decimal_le (by decide) small
  have whole := digitsValue_rdropWhile_zero (zeroPadded 3 (decimal fraction))
  rw [length_zeroPadded short, digitsValue_zeroPadded, digitsValue_decimal] at whole
  exact whole

/-- What is left of the milliseconds without zeros at the end is a fraction. -/
theorem isFraction_rdropWhile {fraction : Nat} (small : fraction < 1000) (positive : 0 < fraction) :
    IsFraction ((zeroPadded 3 (decimal fraction)).rdropWhile fun digit => digit == 48) := by
  have part := List.rdropWhile_prefix (fun digit : Byte => digit == 48)
    (l := zeroPadded 3 (decimal fraction))
  have written : (decimal fraction).length ≤ 3 := length_decimal_le (by decide) small
  have whole := length_zeroPadded written
  have nonempty : (zeroPadded 3 (decimal fraction)).rdropWhile (fun digit => digit == 48) ≠ [] := by
    intro empty
    have value := fraction_value small
    rw [empty] at value
    change 0 * _ = fraction at value
    omega
  refine ⟨nonempty, part.length_le.trans_eq whole, ?_, ?_⟩
  · exact fun digit inside => zeroPadded_all_isDigit 3 fraction digit (part.subset inside)
  · intro zero
    rw [List.getLast?_eq_some_getLast nonempty, Option.some.injEq] at zero
    exact List.rdropWhile_last_not _ _ nonempty (beq_iff_eq.mpr zero)

theorem secondsComponent_isSecondsText (milliseconds : Nat) :
    IsSecondsText (secondsComponent milliseconds) milliseconds := by
  have seconds := isPlainNumber_decimal (milliseconds / 1000)
  by_cases whole : milliseconds % 1000 = 0
  · have isSeconds := IsSecondsText.whole seconds
    rw [digitsValue_decimal] at isSeconds
    have total : 1000 * (milliseconds / 1000) = milliseconds := by omega
    rw [total] at isSeconds
    simp only [secondsComponent, whole, ne_eq, not_true_eq_false, ↓reduceIte]
    exact isSeconds
  · have small := Nat.mod_lt milliseconds (show 0 < 1000 by decide)
    have isSeconds := IsSecondsText.decimals seconds
      (isFraction_rdropWhile small (Nat.pos_of_ne_zero whole))
    rw [digitsValue_decimal, fraction_value small, Nat.div_add_mod] at isSeconds
    simp only [secondsComponent, whole, ne_eq, not_false_eq_true, ↓reduceIte]
    exact isSeconds

/-- The text of a number of milliseconds. -/
def millisecondsText (milliseconds : Nat) : Text :=
  if milliseconds < 1000 then decimal milliseconds ++ ascii "ms"
  else if milliseconds < 60000 then secondsComponent milliseconds
  else
    (if 0 < milliseconds / 3600000 then decimal (milliseconds / 3600000) ++ ascii "h" else []) ++
      decimal (milliseconds % 3600000 / 60000) ++ ascii "m" ++
      secondsComponent (milliseconds % 3600000 % 60000)

/-- From a millisecond on only the rounded duration is printed. -/
theorem formatDuration_eq {duration : Int} (visible : nanosecondsPerMillisecond ≤ duration) :
    formatDuration duration = millisecondsText (roundedMilliseconds duration) := by
  have positive : ¬ duration ≤ 0 := by
    unfold nanosecondsPerMillisecond at visible
    omega
  have large : ¬ duration < nanosecondsPerMillisecond := by omega
  rw [formatDuration, if_neg positive, if_neg large]
  rfl

theorem millisecondsText_isDurationText {milliseconds : Nat} (positive : 1 ≤ milliseconds) :
    IsDurationText (millisecondsText milliseconds) milliseconds := by
  unfold millisecondsText
  split_ifs with milli second hours
  · have isDuration := IsDurationText.milliseconds (isPlainNumber_decimal milliseconds)
    rw [digitsValue_decimal] at isDuration
    exact isDuration positive milli
  · exact .seconds (secondsComponent_isSecondsText milliseconds) (Nat.not_lt.mp milli) second
  · have isDuration := IsDurationText.hours (isPlainNumber_decimal (milliseconds / 3600000))
      (by rw [digitsValue_decimal]; exact hours)
      (isPlainNumber_decimal (milliseconds % 3600000 / 60000))
      (by rw [digitsValue_decimal]; omega)
      (secondsComponent_isSecondsText (milliseconds % 3600000 % 60000))
      (Nat.mod_lt _ (by decide))
    have total : 3600000 * (milliseconds / 3600000) +
        (60000 * (milliseconds % 3600000 / 60000) + milliseconds % 3600000 % 60000) =
          milliseconds := by omega
    rw [digitsValue_decimal, digitsValue_decimal, total] at isDuration
    simpa only [List.append_assoc] using isDuration
  · have isDuration := IsDurationText.minutes
      (isPlainNumber_decimal (milliseconds % 3600000 / 60000))
      (by rw [digitsValue_decimal]; omega) (by rw [digitsValue_decimal]; omega)
      (secondsComponent_isSecondsText (milliseconds % 3600000 % 60000))
      (Nat.mod_lt _ (by decide))
    have total : 60000 * (milliseconds % 3600000 / 60000) + milliseconds % 3600000 % 60000 =
        milliseconds := by omega
    rw [digitsValue_decimal, total] at isDuration
    exact isDuration

theorem formatDuration_isDurationText {duration : Int}
    (visible : nanosecondsPerMillisecond ≤ duration) :
    IsDurationText (formatDuration duration) (roundedMilliseconds duration) := by
  have positive : 1 ≤ roundedMilliseconds duration := by
    unfold roundedMilliseconds
    unfold nanosecondsPerMillisecond at visible ⊢
    rw [Int.tdiv_eq_ediv_of_nonneg (by omega)]
    omega
  rw [formatDuration_eq visible]
  exact millisecondsText_isDurationText positive

example : formatDuration 62345000000 = ascii "1m2.345s" := by decide

/-- Reading back what is printed gives the milliseconds. -/
theorem readDuration_formatDuration {duration : Int} (visible : nanosecondsPerMillisecond ≤ duration) :
    readDuration (formatDuration duration) = some (roundedMilliseconds duration) :=
  (formatDuration_isDurationText visible).read

/-! ## Rounding -/

/-- A duration of a millisecond at least that is rounded without an overflow. -/
structure IsRounded (duration : Int) : Prop where
  visible : nanosecondsPerMillisecond ≤ duration
  fits : duration + 500000 ≤ 9223372036854775807

/-- How far a duration is from a number of milliseconds. -/
def distance (duration milliseconds : Int) : Nat :=
  (duration - milliseconds * nanosecondsPerMillisecond).natAbs

/-- No number of milliseconds is nearer, and a larger one is not as near. -/
structure IsNearest (milliseconds : Nat) (duration : Int) : Prop where
  nearest : ∀ other : Int, distance duration milliseconds ≤ distance duration other
  halves_up : ∀ other : Int, distance duration other = distance duration milliseconds →
    other ≤ milliseconds

/-- The rounded number of milliseconds is the nearest. -/
theorem roundedMilliseconds_isNearest {duration : Int} (isRounded : IsRounded duration) :
    IsNearest (roundedMilliseconds duration) duration := by
  have visible := isRounded.visible
  unfold nanosecondsPerMillisecond at visible
  have rounded : (roundedMilliseconds duration : Int) = (duration + 500000) / 1000000 := by
    rw [roundedMilliseconds, nanosecondsPerMillisecond, Int.tdiv_eq_ediv_of_nonneg (by omega)]
    omega
  constructor
  · intro other
    rw [rounded, distance, distance, nanosecondsPerMillisecond]
    omega
  · intro other same
    rw [rounded, distance, distance, nanosecondsPerMillisecond] at same
    rw [rounded]
    omega

/-- **Durations are printed exactly.** The text of a duration has one of the forms, it is
read back as the nearest number of milliseconds, and another duration has the same text
exactly if it is rounded to the same milliseconds. -/
theorem formatDuration_exact {duration : Int} (isRounded : IsRounded duration) :
    IsDurationText (formatDuration duration) (roundedMilliseconds duration) ∧
      readDuration (formatDuration duration) = some (roundedMilliseconds duration) ∧
      IsNearest (roundedMilliseconds duration) duration ∧
      ∀ other, IsRounded other → (formatDuration duration = formatDuration other ↔
        roundedMilliseconds duration = roundedMilliseconds other) := by
  have read := readDuration_formatDuration isRounded.visible
  refine ⟨formatDuration_isDurationText isRounded.visible, read,
    roundedMilliseconds_isNearest isRounded, fun other otherRounded => ?_⟩
  have otherRead := readDuration_formatDuration otherRounded.visible
  constructor
  · intro same
    rw [same, otherRead, Option.some.injEq] at read
    exact read.symm
  · intro same
    rw [formatDuration_eq isRounded.visible, formatDuration_eq otherRounded.visible, same]

/-- A duration that is rounded up to an hour. -/
theorem formatDuration_hour : readDuration (formatDuration 3599999500000) = some 3600000 := by
  have isRounded : IsRounded 3599999500000 := ⟨by decide, by decide⟩
  obtain ⟨-, read, -, -⟩ := formatDuration_exact isRounded
  exact read

end CheckGitStatus.Cpp
