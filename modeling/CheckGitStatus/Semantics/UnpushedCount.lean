import CheckGitStatus.Cpp.Porcelain
import CheckGitStatus.Go.Porcelain
import CheckGitStatus.Report
import CheckGitStatus.Text.Decimal
import CheckGitStatus.Text.Lines

/-! # The evidence for an upstream without unpushed commits

A status with upstream state `ok` and count zero is shown as `OK`. The count should
come from a header `# branch.ab +<n> -<m>`, but both programs start from zero and
take any upstream header for an `ok` state. They report the count of a branch
exactly when the output has a well-formed header and nothing that follows it changes
the count or hides that it is out of date (`CheckGitStatus.ok_has_count_iff`). git
leaves the header out when the upstream branch is gone.
-/

namespace CheckGitStatus

open Library

/-! ## Well-formed headers -/

/-- The count `n` in the fields of a header `# branch.ab +<n> -<m>`, if it is at
most `limit`. -/
def writtenCount (limit : Nat) (fields : List Text) : Option Nat :=
  match fields with
  | [hash, key, ahead, behind] =>
      if hash = ascii "#" ∧ key = ascii "branch.ab" ∧
          ahead.head? = some 43 ∧ isNumber ahead.tail ∧
          behind.head? = some 45 ∧ isNumber behind.tail ∧ digitsValue ahead.tail ≤ limit then
        some (digitsValue ahead.tail)
      else none
  | _ => none

/-- The count in a well-formed header line, in which single spaces separate the fields. -/
def countHeader (limit : Nat) (line : Text) : Option Nat :=
  writtenCount limit ((dropCarriageReturn line).splitOn 32)

/-- The fields of a header for two numbers. -/
def countFields (ahead behind : Text) : List Text :=
  [ascii "#", ascii "branch.ab", 43 :: ahead, 45 :: behind]

/-- A digit is visible and plain. -/
theorem isDigit_solid {byte : Byte} (digit : isDigit byte = true) :
    Cpp.isSpace byte = false ∧ byte < 0x80 := by
  simp only [isDigit, Bool.and_eq_true, decide_eq_true_eq, UInt8.le_iff_toNat_le] at digit
  obtain ⟨low, high⟩ := digit
  change 48 ≤ byte.toNat at low
  change byte.toNat ≤ 57 at high
  constructor
  · have notBlank : (byte == 32) = false := by
      rw [beq_eq_false_iff_ne]
      rintro rfl
      exact absurd low (by decide)
    have notLow : ¬ byte ≤ 13 := by
      rw [UInt8.le_iff_toNat_le]
      change ¬ byte.toNat ≤ 13
      omega
    simp only [Cpp.isSpace, notBlank, notLow, decide_false, Bool.and_false, Bool.or_self]
  · rw [UInt8.lt_iff_toNat_lt]
    change byte.toNat < 128
    omega

/-- The fields are words in ASCII. -/
theorem countFields_solid {ahead behind : Text} (number : isNumber ahead = true)
    (otherNumber : isNumber behind = true) : ∀ field ∈ countFields ahead behind,
      IsWord field ∧ ∀ byte ∈ field, byte < 0x80 := by
  have signed : ∀ {sign : Byte} {digits : Text}, Cpp.isSpace sign = false → sign < 0x80 →
      isNumber digits = true →
      IsWord (sign :: digits) ∧ ∀ byte ∈ sign :: digits, byte < 0x80 := by
    intro sign digits visible plain number
    have every := List.all_eq_true.mp (isNumber_parts number).2.2.2.2.2
    refine ⟨⟨List.cons_ne_nil _ _, ?_⟩, ?_⟩
    · exact List.forall_mem_cons.mpr
        ⟨visible, fun byte inside => (isDigit_solid (every byte inside)).1⟩
    · exact List.forall_mem_cons.mpr
        ⟨plain, fun byte inside => (isDigit_solid (every byte inside)).2⟩
  have plain : ∀ text : Text, (text.all fun byte => decide (byte < 0x80)) = true →
      ∀ byte ∈ text, byte < 0x80 :=
    fun text every byte inside => of_decide_eq_true (List.all_eq_true.mp every byte inside)
  intro field inside
  simp only [countFields, List.mem_cons, List.not_mem_nil, or_false] at inside
  rcases inside with rfl | rfl | rfl | rfl
  · exact ⟨by decide, plain _ (by decide)⟩
  · exact ⟨by decide, plain _ (by decide)⟩
  · exact signed (by decide) (by decide) number
  · exact signed (by decide) (by decide) otherNumber

/-- Both programs split the text of a header into its fields. -/
theorem split_countFields {ahead behind : Text} (number : isNumber ahead = true)
    (otherNumber : isNumber behind = true) :
    Cpp.words ([32].intercalate (countFields ahead behind)) = countFields ahead behind ∧
      Go.fields ([32].intercalate (countFields ahead behind)) = countFields ahead behind ∧
      ([32].intercalate (countFields ahead behind)).splitOn 32 = countFields ahead behind := by
  have solid := countFields_solid number otherNumber
  have words : Cpp.words ([32].intercalate (countFields ahead behind)) =
      countFields ahead behind :=
    Cpp.words_intercalate fun field inside => (solid field inside).1
  refine ⟨words, ?_, ?_⟩
  · rw [Go.fields_of_ascii, words]
    intro byte inside
    have pieces : ∀ fields : List Text, (∀ field ∈ fields, ∀ byte ∈ field, byte < 0x80) →
        ∀ byte ∈ [(32 : Byte)].intercalate fields, byte < 0x80 := by
      intro fields plain byte inside
      by_contra high
      have apart : byte ∉ [(32 : Byte)] := by
        rw [List.mem_singleton]
        rintro rfl
        exact high (by decide)
      exact not_mem_intercalate apart
        (fun field listed held => high (plain field listed byte held)) inside
    exact pieces _ (fun field listed => (solid field listed).2) byte inside
  · refine List.splitOn_intercalate 32 (fun field inside held => ?_) (List.cons_ne_nil _ _)
    have visible := (solid field inside).1.solid 32 held
    cases visible

/-- **A well-formed header line.** It is the text `# branch.ab +<n> -<m>` for two numbers,
of which the first is within the limit. -/
theorem countHeader_eq_some_iff {limit : Nat} {line : Text} {count : Nat} :
    countHeader limit line = some count ↔ ∃ ahead behind : Text,
      dropCarriageReturn line = [32].intercalate (countFields ahead behind) ∧
      isNumber ahead = true ∧ isNumber behind = true ∧ digitsValue ahead = count ∧
      count ≤ limit := by
  rw [countHeader]
  constructor
  · intro header
    unfold writtenCount at header
    split at header
    · rename_i hash key ahead behind split
      split at header
      · rename_i formed
        obtain ⟨rfl, rfl, plus, number, minus, otherNumber, fits⟩ := formed
        cases header
        obtain ⟨digits, rfl⟩ := List.head?_eq_some_iff.mp plus
        obtain ⟨otherDigits, rfl⟩ := List.head?_eq_some_iff.mp minus
        refine ⟨digits, otherDigits, ?_, number, otherNumber, rfl, fits⟩
        rw [countFields, ← split, List.intercalate_splitOn]
      · cases header
    · cases header
  · rintro ⟨ahead, behind, text, number, otherNumber, rfl, fits⟩
    rw [text, (split_countFields number otherNumber).2.2, countFields, writtenCount]
    exact if_pos ⟨rfl, rfl, rfl, number, rfl, otherNumber, fits⟩

/-- For a program that splits it into its fields, a well-formed header is a
header of a count. -/
theorem headerValue_of_countHeader {split : Text → List Text} {limit : Nat} {line : Text}
    {count : Nat} (splits : ∀ {ahead behind : Text}, isNumber ahead = true →
      isNumber behind = true →
      split ([32].intercalate (countFields ahead behind)) = countFields ahead behind)
    (header : countHeader limit line = some count) :
    ∃ digits, headerValue split (ascii "branch.ab") line = some (43 :: digits) ∧
      isNumber digits = true ∧ digitsValue digits = count ∧ count ≤ limit := by
  obtain ⟨ahead, behind, text, number, otherNumber, value, fits⟩ :=
    countHeader_eq_some_iff.mp header
  refine ⟨ahead, ?_, number, value, fits⟩
  rw [headerValue, text, splits number otherNumber]
  rfl

namespace Cpp

/-- The program reads a plus sign and a number. -/
theorem aheadCount_of_isNumber {digits : Text} (number : isNumber digits = true)
    (fits : digitsValue digits ≤ 2147483647) :
    aheadCount (43 :: digits) = some (digitsValue digits : Int) := by
  simp only [aheadCount, List.head?_cons, List.tail_cons, ↓reduceIte,
    fromChars_of_isNumber number fits]

/-- The program reads every well-formed count header. -/
theorem aheadCount_of_countHeader {line : Text} {count : Nat}
    (header : countHeader 2147483647 line = some count) :
    ∃ field, headerValue words (ascii "branch.ab") line = some field ∧
      aheadCount field = some (count : Int) := by
  obtain ⟨digits, value, number, rfl, fits⟩ := headerValue_of_countHeader
    (fun number otherNumber => (split_countFields number otherNumber).1) header
  exact ⟨43 :: digits, value, aheadCount_of_isNumber number fits⟩

end Cpp

namespace Go

/-- `strconv.Atoi` reads a number that fits into 64 bits. -/
theorem atoi_of_isNumber {text : Text} (number : isNumber text)
    (fits : digitsValue text ≤ 9223372036854775807) :
    atoi text = some (digitsValue text : Int) := by
  obtain ⟨nonempty, minus, plus, -, -, digits⟩ := isNumber_parts number
  have sign : (text.head? == some 45) = false := beq_eq_false_iff_ne.mpr minus
  have bounded : ¬ ((digitsValue text : Int) < -9223372036854775808 ∨
      9223372036854775807 < (digitsValue text : Int)) := by omega
  simp only [atoi, sign, minus, plus, or_self, Bool.false_eq_true, ↓reduceIte, nonempty, digits,
    not_true_eq_false, bounded]

/-- The program reads a plus sign and a number. -/
theorem aheadCount_of_isNumber {digits : Text} (number : isNumber digits = true)
    (fits : digitsValue digits ≤ 9223372036854775807) :
    aheadCount (43 :: digits) = some (digitsValue digits : Int) := by
  have natural : ¬ (digitsValue digits : Int) < 0 := by omega
  simp only [aheadCount, trimPrefix, List.head?_cons, List.tail_cons, ↓reduceIte,
    atoi_of_isNumber number fits, natural]

/-- The program reads every well-formed count header. -/
theorem aheadCount_of_countHeader {line : Text} {count : Nat}
    (header : countHeader 9223372036854775807 line = some count) :
    ∃ field, headerValue fields (ascii "branch.ab") line = some field ∧
      aheadCount field = some (count : Int) := by
  obtain ⟨digits, value, number, rfl, fits⟩ := headerValue_of_countHeader
    (fun number otherNumber => (split_countFields number otherNumber).2.1) header
  exact ⟨43 :: digits, value, aheadCount_of_isNumber number fits⟩

end Go

/-! ## What the claim asks of a status -/

section Evidence

variable (split : Text → List Text) (limit : Nat) (lines : List Text)

/-- The lines are about a branch with an upstream: the last header that names the head does
not call it detached, and there is a header that names an upstream. -/
def TracksUpstream : Prop :=
  lastMatch (headerValue split (ascii "branch.head")) lines ≠ some (ascii "(detached)") ∧
    ∃ line ∈ lines, headerValue split (ascii "branch.upstream") line ≠ none

/-- The last header of a count is there and well formed, and the count fits. -/
def EndsWithCount : Prop :=
  ∃ count : Nat, lastMatch (fun line => (headerValue split (ascii "branch.ab") line).map
    fun _ => countHeader limit line) lines = some (some count)

/-- Unpushed work is reported on evidence: an `ok` state without an error has the count of
the last well-formed header, and a branch with an upstream whose count is absent,
malformed or too large is neither shown as `OK` nor dropped as up to date. -/
structure CountReported (status : RepositoryStatus) : Prop where
  counted : status.upstreamState = .ok → status.upstreamError = none →
    ∃ count : Nat, lastMatch (countHeader limit) lines = some count ∧
      status.ahead = (count : Int)
  shown : TracksUpstream split lines → ¬ EndsWithCount split limit lines →
    (Report.unpushedCell status).text ≠ ascii "OK" ∧ status.needsAttention = true

/-- The lines are not about a branch with an upstream, or there is a well-formed header, and
of the headers of a count that follow the last such there are none, or its count is
positive and the last of them that can be read has the same. -/
def CountEvidence (readCount : Text → Option Int) : Prop :=
  ¬ TracksUpstream split lines ∨
    ∃ (front : List Text) (header : Text) (later : List Text) (count : Nat),
      lines = front ++ header :: later ∧ countHeader limit header = some count ∧
      (∀ line ∈ later, countHeader limit line = none) ∧
      (later.filterMap (headerValue split (ascii "branch.ab")) = [] ∨
        0 < count ∧ ∀ last ∈ lastMatch readCount
          (later.filterMap (headerValue split (ascii "branch.ab"))), last = (count : Int))

end Evidence

/-- A cell of a status in an `ok` state says `OK` unless there is something to push. -/
theorem unpushedCell_text_ne_ok_iff {status : RepositoryStatus}
    (state : status.upstreamState = .ok) (calm : status.upstreamError = none) :
    (Report.unpushedCell status).text ≠ ascii "OK" ↔ 0 < status.ahead := by
  have noError : ¬ (status.upstreamError.isSome = true ∨ status.upstreamState = .error) := by
    rw [state, calm]
    exact fun either => either.elim nofun nofun
  have noDetached : ¬ status.upstreamState = .detached := by rw [state]; exact nofun
  have noMissing : ¬ status.upstreamState = .missing := by rw [state]; exact nofun
  simp only [Report.unpushedCell, noError, noDetached, noMissing, ↓reduceIte]
  by_cases one : status.ahead = 1
  · rw [if_pos one, one]
    exact iff_of_true (by decide) (by decide)
  rw [if_neg one]
  by_cases more : 1 < status.ahead
  · rw [if_pos more]
    refine iff_of_true (fun same => ?_) (by omega)
    have lengths := congrArg List.length same
    rw [List.length_append] at lengths
    have long : (ascii " commits ahead").length = 14 := by decide
    have short : (ascii "OK").length = 2 := by decide
    omega
  · rw [if_neg more]
    exact iff_of_false (fun other => other rfl) (by omega)

section Reported

variable {split : Text → List Text} {readCount : Text → Option Int} {kind : Text → StatusLine}
  {limit : Nat} {lines : List Text} {status : RepositoryStatus}

/-- The count that stays, seen from a header that can be read: what follows it
overrides its count. -/
theorem lastCount_of_header (reads : ReadsHeaders split readCount kind)
    {front : List Text} {header : Text} {later : List Text} {field : Text} {count : Int}
    (value : headerValue split (ascii "branch.ab") header = some field)
    (read : readCount field = some count) :
    StatusLine.lastCount ((front ++ header :: later).map kind) =
      (lastMatch readCount
        (later.filterMap (headerValue split (ascii "branch.ab")))).getD count := by
  rw [reads.lastCount_eq, List.filterMap_append, List.filterMap_cons, value, lastMatch_append,
    lastMatch_cons, read]
  cases lastMatch readCount (later.filterMap (headerValue split (ascii "branch.ab"))) <;> rfl

/-- The count of a header stays if no header of a count follows it or the last one that can
be read says the same. -/
theorem lastCount_eq_of_agree (reads : ReadsHeaders split readCount kind)
    {front : List Text} {header : Text} {later : List Text} {field : Text} {count : Int}
    (value : headerValue split (ascii "branch.ab") header = some field)
    (read : readCount field = some count)
    (agree : later.filterMap (headerValue split (ascii "branch.ab")) = [] ∨
      ∀ last ∈ lastMatch readCount
        (later.filterMap (headerValue split (ascii "branch.ab"))), last = count) :
    StatusLine.lastCount ((front ++ header :: later).map kind) = count := by
  rw [lastCount_of_header reads value read]
  rcases agree with alone | same
  · rw [alone]
    rfl
  · cases found : lastMatch readCount
        (later.filterMap (headerValue split (ascii "branch.ab"))) with
    | none => rfl
    | some other => exact same other found

/-- When headers of a count follow the last well-formed one, the lines do not end with a
count; otherwise they do. -/
theorem endsWithCount_iff {front : List Text} {header : Text} {later : List Text} {field : Text}
    {count : Nat} (value : headerValue split (ascii "branch.ab") header = some field)
    (formed : countHeader limit header = some count)
    (last : ∀ line ∈ later, countHeader limit line = none) :
    EndsWithCount split limit (front ++ header :: later) ↔
      later.filterMap (headerValue split (ascii "branch.ab")) = [] := by
  have overridden : lastMatch (fun line => (headerValue split (ascii "branch.ab") line).map
      fun _ => countHeader limit line) later =
        (lastMatch (headerValue split (ascii "branch.ab")) later).map fun _ => none := by
    rw [← lastMatch_map_image, lastMatch, lastMatch]
    congr 1
    refine List.filterMap_congr fun line inside => ?_
    rw [last line inside]
  rw [EndsWithCount, lastMatch_append, lastMatch_cons, overridden, value, Option.map_some, formed]
  constructor
  · rintro ⟨other, found⟩
    rw [← List.getLast?_eq_none_iff]
    change lastMatch (headerValue split (ascii "branch.ab")) later = none
    cases lastHeader : lastMatch (headerValue split (ascii "branch.ab")) later with
    | none => rfl
    | some value =>
        rw [lastHeader] at found
        cases found
  · intro none
    refine ⟨count, ?_⟩
    rw [lastMatch, none]
    rfl

/-- **A status that is read off its lines reports a count on evidence exactly when the
lines give it.** -/
theorem countReported_iff (reads : ReadsHeaders split readCount kind)
    (formed : ∀ {line count}, countHeader limit line = some count →
      ∃ field, headerValue split (ascii "branch.ab") line = some field ∧
        readCount field = some (count : Int))
    (state : status.upstreamState = StatusLine.upstreamState (lines.map kind))
    (calm : status.upstreamError = none)
    (ahead : status.ahead = StatusLine.lastCount (lines.map kind)) :
    CountReported split limit lines status ↔ CountEvidence split limit lines readCount := by
  have ok_iff : status.upstreamState = .ok ↔ TracksUpstream split lines := by
    rw [state, StatusLine.upstreamState_eq_ok_iff, ← Bool.not_eq_true, reads.detached_iff,
      reads.upstream_mem_iff, TracksUpstream]
  by_cases tracks : TracksUpstream split lines
  · have shown : (Report.unpushedCell status).text ≠ ascii "OK" ↔ 0 < status.ahead :=
      unpushedCell_text_ne_ok_iff (ok_iff.mpr tracks) calm
    constructor
    · rintro ⟨counted, notOk⟩
      obtain ⟨count, written, same⟩ := counted (ok_iff.mpr tracks) calm
      obtain ⟨front, header, later, rfl, isHeader, last⟩ :=
        (lastMatch_eq_some_iff _).mp written
      obtain ⟨field, value, read⟩ := formed isHeader
      refine .inr ⟨front, header, later, count, rfl, isHeader, last, ?_⟩
      by_cases alone : later.filterMap (headerValue split (ascii "branch.ab")) = []
      · exact .inl alone
      · have notEnd : ¬ EndsWithCount split limit (front ++ header :: later) :=
          fun ends => alone ((endsWithCount_iff value isHeader last).mp ends)
        have positive := shown.mp (notOk tracks notEnd).1
        rw [same] at positive
        refine .inr ⟨by omega, fun other found => ?_⟩
        rw [ahead, lastCount_of_header reads value read, found] at same
        exact same
    · rintro (untracked | ⟨front, header, later, count, rfl, isHeader, last, rest⟩)
      · exact absurd tracks untracked
      obtain ⟨field, value, read⟩ := formed isHeader
      have same : status.ahead = (count : Int) := by
        rw [ahead]
        exact lastCount_eq_of_agree reads value read (rest.imp_right And.right)
      refine ⟨fun _ _ => ⟨count, ?_, same⟩, fun _ notEnd => ?_⟩
      · exact (lastMatch_eq_some_iff _).mpr ⟨front, header, later, rfl, isHeader, last⟩
      · rcases rest with alone | ⟨positive, -⟩
        · exact absurd ((endsWithCount_iff value isHeader last).mpr alone) notEnd
        · have ahead : 0 < status.ahead := by rw [same]; omega
          refine ⟨shown.mpr ahead, ?_⟩
          simp only [RepositoryStatus.needsAttention, ahead, decide_true, Bool.or_true,
            Bool.true_or]
  · refine iff_of_true ⟨fun ok => absurd (ok_iff.mp ok) tracks, fun held => absurd held tracks⟩ ?_
    exact .inl tracks

end Reported

/-! ## The result -/

/-- The lines that say something are those of the text split at line feeds. -/
theorem Cpp.statusLines_eq (output : Text) :
    StatusLine.upstreamState (Cpp.statusLines output) =
        StatusLine.upstreamState ((output.splitOn lineFeed).map Cpp.statusLine) ∧
      StatusLine.lastCount (Cpp.statusLines output) =
        StatusLine.lastCount ((output.splitOn lineFeed).map Cpp.statusLine) := by
  have matched : ∀ {α : Type} (select : StatusLine → Option α), select .blank = none →
      lastMatch select (Cpp.statusLines output) =
        lastMatch select ((output.splitOn lineFeed).map Cpp.statusLine) := by
    intro α select blank
    simp only [lastMatch, Cpp.statusLines, List.filterMap_map]
    rw [filterMap_getlines _ blank]
  have tracked : .upstream ∈ Cpp.statusLines output ↔
      .upstream ∈ (output.splitOn lineFeed).map Cpp.statusLine := by
    simp only [Cpp.statusLines, List.mem_map]
    constructor
    · rintro ⟨line, inside, upstream⟩
      exact ⟨line, mem_splitOn_of_mem_getlines inside, upstream⟩
    · rintro ⟨line, inside, upstream⟩
      refine ⟨line, mem_getlines_of_mem_splitOn inside ?_, upstream⟩
      rintro rfl
      cases upstream
  have head := matched StatusLine.head? rfl
  have ahead := matched StatusLine.ahead? rfl
  constructor
  · rw [StatusLine.upstreamState_eq_iff, StatusLine.detached, StatusLine.detached, head]
    exact ⟨rfl, fun _ => tracked⟩
  · rw [StatusLine.lastCount, StatusLine.lastCount, ahead]

/-- **When unpushed work is reported on evidence.** After a successful status command the
C++ program reports it exactly when the lines of the output give evidence of the count;
the Go program also does when it cannot read some count, which it reports as an error. -/
theorem ok_has_count_iff {cppRunner : Cpp.GitRunner} {timeout : Int} {path : Path}
    {readings : Cpp.Readings} {goRunner : Go.GitRunner} {output : Text} (quote : Text → Text)
    (cppResult : Cpp.runBeforeDeadline cppRunner path Cpp.statusArguments
      (readings.started + timeout * Cpp.nanosecondsPerMillisecond) timeout readings.status =
        { output, exitCode := 0 })
    (goResult : goRunner path Go.statusArguments = .ok output) :
    (CountReported Cpp.words 2147483647 (output.splitOn lineFeed)
        (Cpp.check cppRunner timeout path readings) ↔
      CountEvidence Cpp.words 2147483647 (output.splitOn lineFeed) Cpp.aheadCount) ∧
    (CountReported Go.fields 9223372036854775807 (output.splitOn lineFeed)
        (Go.check quote goRunner path) ↔
      (∃ value ∈ (output.splitOn lineFeed).filterMap
        (headerValue Go.fields (ascii "branch.ab")), Go.aheadCount value = none) ∨
      CountEvidence Go.fields 9223372036854775807 (output.splitOn lineFeed) Go.aheadCount) := by
  constructor
  · obtain ⟨before, -, calm, checked⟩ := Cpp.check_eq_of_status_result cppResult
    obtain ⟨state, ahead⟩ := Cpp.statusLines_eq output
    rw [checked, Cpp.readStatus_eq]
    exact countReported_iff Cpp.readsHeaders Cpp.aheadCount_of_countHeader state calm ahead
  · have calm : (Go.checkRemote goRunner path { path }).upstreamError = none :=
      Go.checkRemote_upstreamError goRunner path { path }
    rw [Go.check]
    by_cases readable : (Go.statusLines output).all StatusLine.readable = true
    · have every := Go.statusLines_readable_iff.mp readable
      rw [Go.checkStatus_of_readable goResult readable, or_iff_right]
      · exact countReported_iff Go.readsHeaders Go.aheadCount_of_countHeader rfl calm rfl
      · rintro ⟨value, inside, unreadable⟩
        exact every value inside unreadable
    · obtain ⟨scan, error, checked⟩ := Go.checkStatus_of_unreadable quote
        (Go.checkRemote goRunner path { path }) goResult readable
      have missed : ∃ value ∈ (output.splitOn lineFeed).filterMap
          (headerValue Go.fields (ascii "branch.ab")), Go.aheadCount value = none := by
        by_contra! every
        exact readable (Go.statusLines_readable_iff.mpr every)
      rw [checked]
      refine iff_of_true ⟨fun state => ?_, fun _ _ => ⟨?_, ?_⟩⟩ (.inl missed)
      · cases state
      · have failed : (Report.unpushedCell
            { Go.checkRemote goRunner path { path } with
              dirty := scan.dirty, ahead := scan.ahead, upstreamState := .error,
              upstreamError := some error }).text = ascii "Error" :=
          congrArg Report.TableCell.text (if_pos (.inl rfl))
        rw [failed]
        decide
      · simp only [RepositoryStatus.needsAttention, Option.isSome_some, Bool.or_true]

/-- The listing of a branch with two unpushed commits. -/
def twoAheadListing : Text :=
  ascii "# branch.head main\n# branch.upstream origin/main\n# branch.ab +2 -0"

/-- The count of its header is reported. -/
theorem twoAhead_count_reported :
    CountReported Cpp.words 2147483647 (twoAheadListing.splitOn lineFeed)
      (Cpp.check (Cpp.scriptedRunner [] twoAheadListing) 15000 (ascii "repo")
        Cpp.stillReadings) ∧
    CountReported Go.fields 9223372036854775807 (twoAheadListing.splitOn lineFeed)
      (Go.check id (Go.scriptedRunner [] twoAheadListing) (ascii "repo")) := by
  have cppResult : Cpp.runBeforeDeadline (Cpp.scriptedRunner [] twoAheadListing) (ascii "repo")
      Cpp.statusArguments
      (Cpp.stillReadings.started + 15000 * Cpp.nanosecondsPerMillisecond) 15000
      Cpp.stillReadings.status = { output := twoAheadListing, exitCode := 0 } := by decide
  have goResult : Go.scriptedRunner [] twoAheadListing (ascii "repo") Go.statusArguments =
      .ok twoAheadListing := by decide
  have evidence : ∃ (front : List Text) (header : Text) (later : List Text) (count : Nat),
      twoAheadListing.splitOn lineFeed = front ++ header :: later ∧
      countHeader 2147483647 header = some count ∧
      countHeader 9223372036854775807 header = some count ∧ later = [] :=
    ⟨[ascii "# branch.head main", ascii "# branch.upstream origin/main"],
      ascii "# branch.ab +2 -0", [], 2, by decide, by decide, by decide, rfl⟩
  obtain ⟨front, header, later, count, split, small, large, rfl⟩ := evidence
  obtain ⟨cpp, go⟩ := ok_has_count_iff id cppResult goResult
  refine ⟨cpp.mpr (.inr ⟨front, header, [], count, split, small, ?_, .inl rfl⟩),
    go.mpr (.inr (.inr ⟨front, header, [], count, split, large, ?_, .inl rfl⟩))⟩
  · exact fun line absent => absurd absent List.not_mem_nil
  · exact fun line absent => absurd absent List.not_mem_nil

/-- The listing of a branch whose upstream branch is gone. -/
def goneUpstreamListing : Text :=
  ascii "# branch.head main\n# branch.upstream origin/main"

/-- An upstream that is gone has no count header and is reported as `ok`. -/
theorem goneUpstream_ok_without_count :
    ¬ CountReported Cpp.words 2147483647 (goneUpstreamListing.splitOn lineFeed)
      (Cpp.check (Cpp.scriptedRunner [] goneUpstreamListing) 15000 (ascii "repo")
        Cpp.stillReadings) ∧
    ¬ CountReported Go.fields 9223372036854775807 (goneUpstreamListing.splitOn lineFeed)
      (Go.check id (Go.scriptedRunner [] goneUpstreamListing) (ascii "repo")) := by
  refine ⟨fun reported => ?_, fun reported => ?_⟩
  · obtain ⟨count, written, _⟩ := reported.counted (by decide) (by decide)
    exact absurd (Option.isSome_of_eq_some written) (by decide)
  · obtain ⟨count, written, _⟩ := reported.counted (by decide) (by decide)
    exact absurd (Option.isSome_of_eq_some written) (by decide)

end CheckGitStatus
