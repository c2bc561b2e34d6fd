import CheckGitStatus.Cpp.DurationText
import CheckGitStatus.Go.Duration
import CheckGitStatus.Semantics.CheckWarnings

/-! # Where the two programs write the same

The Go program leaves the text of a duration to its library, which prints nanoseconds with
fractions of several units; the C++ program computes with rounded milliseconds. Both come
to the same text (`CheckGitStatus.formatDuration_parity`). They measure the cells of the
table differently, which makes no difference for valid UTF-8, and so the whole report of a
scan differs only where a message has white space outside of ASCII
(`CheckGitStatus.Report.reportChecks_parity_iff`).
-/

namespace CheckGitStatus

/-! ## Durations -/

/-- The decimals of a fraction, without zeros at the end. -/
def decimals (width value : Nat) : Text :=
  (zeroPadded width (decimal value)).rdropWhile fun digit => digit == 48

/-- A zero at the end of a fraction is dropped. -/
theorem decimals_mul_ten (width : Nat) {value : Nat} (positive : 0 < value) :
    decimals (width + 1) (10 * value) = decimals width value := by
  have shifted : decimal (10 * value) = decimal value ++ [48] := by
    have quotient : 10 * value / 10 = value := by omega
    have rest : 10 * value % 10 = 0 := by omega
    rw [decimal_of_le (by omega), quotient, rest]
    rfl
  have padded : zeroPadded (width + 1) (decimal (10 * value)) =
      zeroPadded width (decimal value) ++ [48] := by
    rw [zeroPadded, zeroPadded, shifted, List.length_append, List.length_singleton,
      List.append_assoc, Nat.add_sub_add_right]
  rw [decimals, padded]
  exact List.rdropWhile_concat_pos (fun digit : Byte => digit == 48) _ _ rfl

/-- A smaller unit adds zeros at the end only. -/
theorem decimals_mul_pow (width places : Nat) {value : Nat} (positive : 0 < value) :
    decimals (width + places) (10 ^ places * value) = decimals width value := by
  induction places with
  | zero => rw [Nat.pow_zero, Nat.one_mul, Nat.add_zero]
  | succ places ih =>
      have scaled : 10 ^ (places + 1) * value = 10 * (10 ^ places * value) := by
        rw [Nat.pow_succ, Nat.mul_comm (10 ^ places) 10, Nat.mul_assoc]
      have large : 0 < 10 ^ places * value := Nat.mul_pos (Nat.pow_pos (by decide)) positive
      rw [scaled, ← Nat.add_assoc, decimals_mul_ten _ large, ih]

namespace Go

/-- `fmtFrac` prints the decimals that are left, if any. -/
theorem fraction_eq (value precision : Nat) :
    fraction value precision =
      if decimals precision (value % 10 ^ precision) = [] then []
      else ascii "." ++ decimals precision (value % 10 ^ precision) := rfl

/-- A whole number of milliseconds has no fraction of a millisecond. -/
theorem fraction_milliseconds (milliseconds : Nat) :
    fraction (milliseconds * 10 ^ 6) 6 = [] := by
  rw [fraction_eq, Nat.mul_mod_left]
  rfl

/-- The fraction of a second shows the milliseconds. -/
theorem fraction_seconds (milliseconds : Nat) :
    fraction (milliseconds * 10 ^ 6) 9 =
      if milliseconds % 1000 = 0 then [] else ascii "." ++ decimals 3 (milliseconds % 1000) := by
  have rest : milliseconds * 10 ^ 6 % 10 ^ 9 = 10 ^ 6 * (milliseconds % 1000) := by omega
  rw [fraction_eq, rest]
  by_cases whole : milliseconds % 1000 = 0
  · rw [whole]
    rfl
  · have positive : 0 < milliseconds % 1000 := Nat.pos_of_ne_zero whole
    have shown := decimals_mul_pow 3 6 positive
    have written : decimals 3 (milliseconds % 1000) ≠ [] :=
      (Cpp.isFraction_rdropWhile (Nat.mod_lt _ (by decide)) positive).nonempty
    rw [shown, if_neg whole, if_neg written]

/-- The seconds of the C++ program have the same decimals. -/
theorem secondsComponent_eq (milliseconds : Nat) :
    Cpp.secondsComponent milliseconds =
      decimal (milliseconds / 1000) ++
        (if milliseconds % 1000 = 0 then [] else ascii "." ++ decimals 3 (milliseconds % 1000)) ++
        ascii "s" := by
  by_cases whole : milliseconds % 1000 = 0
  · simp only [Cpp.secondsComponent, whole, ne_eq, not_true_eq_false, ↓reduceIte, List.append_nil]
  · simp only [Cpp.secondsComponent, whole, ne_eq, not_false_eq_true, ↓reduceIte, decimals,
      List.append_assoc]

/-- A duration of whole milliseconds is printed as by the C++ program. -/
theorem durationText_milliseconds (milliseconds : Nat) :
    durationText (milliseconds * 10 ^ 6) = Cpp.millisecondsText milliseconds := by
  have seconds : milliseconds * 10 ^ 6 / 10 ^ 9 = milliseconds / 1000 := by omega
  have second : milliseconds * 10 ^ 6 < 1000000000 ↔ milliseconds < 1000 := by omega
  have minute : 0 < milliseconds / 1000 / 60 ↔ ¬ milliseconds < 60000 := by omega
  have hour : milliseconds / 1000 / 60 / 60 = milliseconds / 3600000 := by omega
  simp only [durationText, Cpp.millisecondsText, second, seconds, minute, hour,
    fraction_milliseconds, fraction_seconds, secondsComponent_eq]
  by_cases milli : milliseconds < 1000
  · have whole : milliseconds * 10 ^ 6 / 10 ^ 6 = milliseconds := by omega
    simp only [milli, ↓reduceIte, whole, List.append_nil]
  by_cases brief : milliseconds < 60000
  · have noHour : ¬ 0 < milliseconds / 3600000 := by omega
    have all : milliseconds / 1000 % 60 = milliseconds / 1000 := by omega
    simp only [milli, brief, noHour, all, not_true_eq_false, ↓reduceIte, List.nil_append]
  · have minutes : milliseconds / 1000 / 60 % 60 = milliseconds % 3600000 / 60000 := by omega
    have left : milliseconds / 1000 % 60 = milliseconds % 3600000 % 60000 / 1000 := by omega
    have rest : milliseconds % 3600000 % 60000 % 1000 = milliseconds % 1000 := by omega
    simp only [milli, brief, not_false_eq_true, ↓reduceIte, minutes, left, rest, List.append_assoc]

/-- Rounding is to the nearest millisecond, halves up, while the result fits. -/
theorem roundDuration_eq {duration : Int} (positive : 0 ≤ duration)
    (fits : duration + 500000 ≤ maxDuration) :
    (roundDuration duration nanosecondsPerMillisecond).toNat =
      Cpp.roundedMilliseconds duration * 10 ^ 6 := by
  have rest := Int.tmod_eq_emod_of_nonneg (b := 1000000) positive
  have quotient := Int.tdiv_eq_ediv_of_nonneg (b := 1000000) (show 0 ≤ duration + 500000 by omega)
  simp only [roundDuration, Cpp.roundedMilliseconds, nanosecondsPerMillisecond,
    Cpp.nanosecondsPerMillisecond, rest, quotient]
  split_ifs <;> omega

end Go

/-- **Both programs print the same durations.** -/
theorem formatDuration_parity {duration : Int} (fits : duration + 500000 ≤ Go.maxDuration) :
    Go.formatDuration duration = Cpp.formatDuration duration := by
  by_cases none : duration ≤ 0
  · rw [Go.formatDuration, Cpp.formatDuration, if_pos none, if_pos none]
  by_cases small : duration < Go.nanosecondsPerMillisecond
  · have small' : duration < Cpp.nanosecondsPerMillisecond := small
    rw [Go.formatDuration, Cpp.formatDuration, if_neg none, if_neg none, if_pos small,
      if_pos small']
  · have visible : Cpp.nanosecondsPerMillisecond ≤ duration := Int.not_lt.mp small
    rw [Cpp.formatDuration_eq visible, ← Go.durationText_milliseconds,
      ← Go.roundDuration_eq (by omega) fits, Go.formatDuration, if_neg none, if_neg small]

theorem formatDuration_parity_hour :
    Go.formatDuration 3599999500000 = Cpp.formatDuration 3599999500000 :=
  formatDuration_parity (by decide)

example : Go.formatDuration 3600999500000 = ascii "1h0m1s" := by decide

/-! ## The table -/

namespace Report

section Measures

variable {left right : Text → Nat}

/-- Columns are as wide as their texts are measured. -/
theorem columnWidths_congr {rows : List (List TableCell)}
    (same : ∀ row ∈ rows, ∀ cell ∈ row, left cell.text = right cell.text) :
    columnWidths left rows = columnWidths right rows := by
  rw [columnWidths, columnWidths]
  refine List.foldl_ext _ _ _ fun widths row inside => ?_
  rw [List.map_congr_left (same row inside)]

/-- Rows are drawn as their texts are measured. -/
theorem renderCells_congr {cells : List TableCell}
    (same : ∀ cell ∈ cells, left cell.text = right cell.text) (color : Bool)
    (widths : List Nat) : renderCells left color widths cells =
      renderCells right color widths cells := by
  induction cells generalizing widths with
  | nil => cases widths <;> rfl
  | cons cell rest ih =>
      obtain ⟨first, others⟩ := List.forall_mem_cons.mp same
      cases rest with
      | nil => cases widths <;> rfl
      | cons next cells =>
          cases widths with
          | nil => rfl
          | cons columnWidth widths => rw [renderCells, renderCells, first, ih others]

/-- Two measures that agree on the cells lay out the same table. -/
theorem renderTable_congr {statuses : List RepositoryStatus}
    (header : ∀ cell ∈ headerRow, left cell.text = right cell.text)
    (same : ∀ status ∈ statuses, ∀ cell ∈ statusRow status, left cell.text = right cell.text)
    (color : Bool) : renderTable left statuses color = renderTable right statuses color := by
  have rows : ∀ row ∈ headerRow :: statuses.map statusRow, ∀ cell ∈ row,
      left cell.text = right cell.text := by
    rw [List.forall_mem_cons, List.forall_mem_map]
    exact ⟨header, same⟩
  simp only [renderTable, columnWidths_congr rows, renderCells_congr header]
  congr 1
  rw [List.flatMap_map, List.flatMap_map]
  exact List.flatMap_congr fun status inside => by rw [renderCells_congr (same status inside)]

end Measures

/-- A number is printed in ASCII. -/
theorem isAscii_stdToString (value : Int) : IsAscii (stdToString value) := by
  have digits : ∀ number : Nat, IsAscii (decimal number) := by
    intro number byte inside
    obtain ⟨-, -, -, -, -, all⟩ := isNumber_parts (isNumber_decimal number)
    have digit := List.all_eq_true.mp all byte inside
    rw [isDigit, Bool.and_eq_true, decide_eq_true_eq, decide_eq_true_eq] at digit
    exact UInt8.lt_of_le_of_lt digit.2 (by decide)
  unfold stdToString
  split
  · exact IsAscii.append (by decide) (digits _)
  · exact digits _

/-- The path and the URL are the only texts in a row that come from outside. -/
theorem isUtf8_of_mem_statusRow {status : RepositoryStatus} (path : IsUtf8 (pathText status.path))
    (url : IsUtf8 status.remoteUrl) : ∀ cell ∈ statusRow status, IsUtf8 cell.text := by
  have constant : ∀ {text : Text}, IsAscii text → IsUtf8 text := IsAscii.isUtf8
  rw [statusRow]
  simp only [List.forall_mem_cons, List.not_mem_nil, false_imp_iff, implies_true, and_true]
  refine ⟨path, ?_, ?_, ?_⟩
  · unfold remoteCell
    split_ifs
    · exact constant (by decide)
    · exact constant (by decide)
    · exact constant (by decide)
    · exact url
  · unfold worktreeCell
    split_ifs <;> exact constant (by decide)
  · unfold unpushedCell
    split_ifs
    · exact constant (by decide)
    · exact constant (by decide)
    · exact constant (by decide)
    · exact constant (by decide)
    · exact ((isAscii_stdToString status.ahead).append (by decide)).isUtf8
    · exact constant (by decide)

/-- The durations of a run can be rounded without an overflow. -/
structure Instants.Fit (instants : Instants) : Prop where
  discovery : instants.discoveryOver - instants.discoveryStarted + 500000 ≤ Go.maxDuration
  checks : instants.checksOver - instants.checksStarted + 500000 ≤ Go.maxDuration
  total : instants.finished - instants.runStarted + 500000 ≤ Go.maxDuration

/-- The line of the three durations is the same. -/
theorem timing_parity {instants : Instants} (fit : instants.Fit) {checks : Int}
    (fits : checks + 500000 ≤ Go.maxDuration) :
    timing Go.writers instants checks = timing Cpp.writers instants checks := by
  change writeTimingReport Go.formatDuration _ _ _ = writeTimingReport Cpp.formatDuration _ _ _
  rw [writeTimingReport, writeTimingReport, formatDuration_parity fit.discovery,
    formatDuration_parity fits, formatDuration_parity fit.total]

end Report

/-- The texts of a status that come from outside are valid UTF-8. -/
structure RepositoryStatus.TextsUtf8 (status : RepositoryStatus) : Prop where
  path : IsUtf8 (pathText status.path)
  url : IsUtf8 status.remoteUrl
  messages : ∀ message ∈ status.errorMessages, IsUtf8 message

/-- The tables of statuses in UTF-8 are the same. -/
theorem renderTable_parity {statuses : List RepositoryStatus}
    (valid : ∀ status ∈ statuses, status.TextsUtf8) (color : Bool) :
    Go.renderTable statuses color = Cpp.renderTable statuses color := by
  have measured : ∀ {text : Text}, IsUtf8 text → Go.runeCount text = Cpp.utf8Width text :=
    fun valid => (Cpp.utf8Width_of_isUtf8 valid).1.symm
  refine Report.renderTable_congr ?_ ?_ color
  · decide
  · intro status inside cell listed
    exact measured (Report.isUtf8_of_mem_statusRow (valid status inside).path
      (valid status inside).url cell listed)

/-! ## The whole report -/

/-- A status with a remote, whose second command was interrupted. -/
def interruptedStatus : RepositoryStatus where
  path := ascii "/w/lib"
  remoteUrl := encode "https://host/café".toList
  remoteName := ascii "origin"
  hasRemote := true
  worktreeError := some (ascii "interrupted")
  upstreamState := .error
  upstreamError := some (ascii "interrupted")

/-- White space outside of ASCII in a message shows in the warnings. -/
theorem writeCheckWarnings_parity_iff {statuses : List RepositoryStatus}
    (valid : ∀ status ∈ statuses, status.TextsUtf8) :
    Go.writeCheckWarnings statuses = Cpp.writeCheckWarnings statuses ↔
      ∀ status ∈ statuses, ∀ message ∈ status.errorMessages, OnlyAsciiSpace message := by
  have messages := fun status inside => (valid status inside).messages
  constructor
  · intro same status inside message listed
    have hidden := hiddenBytes_eq_zero_of_written messages same.symm status inside
    obtain ⟨issue, raised, rfl⟩ :=
      List.mem_map.mp ((status.issues_oneIssueEach.covered message).mpr listed)
    exact (hiddenBytes_eq_zero_iff (messages status inside _ listed)).mp (hidden issue raised)
  · intro plain
    refine Report.writeCheckWarnings_congr fun status inside => ?_
    rw [Go.map_writeIssue_issues]
    refine List.map_congr_left fun issue raised => ?_
    have listed := status.mem_errorMessages_of_mem_issues raised
    rw [Cpp.writeIssue, writeWrapped_eq_of_onlyAsciiSpace (messages status inside _ listed)
      (plain status inside _ listed)]

namespace Report

/-- The end of a scan without repositories. -/
theorem reportNone_parity {instants : Instants} (fit : instants.Fit) (root : Text)
    (warnings : List Text) :
    reportNone Go.writers instants root warnings =
      reportNone Cpp.writers instants root warnings := by
  rw [reportNone, reportNone, timing_parity fit (by decide)]

/-- What is written to the standard output does not depend on the messages. -/
theorem reportChecks_eq {instants : Instants} {statuses : List RepositoryStatus}
    (fit : instants.Fit) (valid : ∀ status ∈ statuses, status.TextsUtf8)
    (dirtyOnly color : Bool) (warnings : List Text)
    (warned : Go.writeCheckWarnings statuses = Cpp.writeCheckWarnings statuses) :
    reportChecks Go.writers instants dirtyOnly color warnings statuses =
      reportChecks Cpp.writers instants dirtyOnly color warnings statuses := by
  have warned' : Go.writers.writeCheckWarnings statuses =
      Cpp.writers.writeCheckWarnings statuses := warned
  have drawn : ∀ displayed, (∀ status ∈ displayed, status ∈ statuses) →
      Go.writers.renderTable displayed color = Cpp.writers.renderTable displayed color :=
    fun displayed part =>
      renderTable_parity (fun status inside => valid status (part status inside)) color
  have table := drawn (if dirtyOnly then filterNeedsAttention statuses else statuses) (by
    intro status inside
    cases dirtyOnly with
    | false => exact inside
    | true => exact List.mem_of_mem_filter inside)
  simp only [reportChecks, warned', table, timing_parity fit fit.checks]

/-- **Both programs report alike.** For statuses in UTF-8 the exit code and all that is
written are the same exactly if the messages have no white space outside of ASCII. -/
theorem reportChecks_parity_iff {instants : Instants} {statuses : List RepositoryStatus}
    (fit : instants.Fit) (valid : ∀ status ∈ statuses, status.TextsUtf8)
    (dirtyOnly color : Bool) (warnings : List Text) :
    reportChecks Go.writers instants dirtyOnly color warnings statuses =
        reportChecks Cpp.writers instants dirtyOnly color warnings statuses ↔
      ∀ status ∈ statuses, ∀ message ∈ status.errorMessages, OnlyAsciiSpace message := by
  have counted : (Go.writers.writeCheckWarnings statuses).2 =
      (Cpp.writers.writeCheckWarnings statuses).2 := by
    rw [Go.writers.issues_counted, Cpp.writers.issues_counted]
  rw [← writeCheckWarnings_parity_iff valid]
  refine ⟨fun same => ?_, reportChecks_eq fit valid dirtyOnly color warnings⟩
  have errors := congrArg Outcome.errorOutput same
  exact Prod.ext (List.append_cancel_left errors) counted

/-- A scan of one repository whose check was interrupted. -/
theorem reportChecks_parity_interrupted :
    reportChecks Go.writers ⟨0, 0, 5, 5, 9, 9, 10⟩ false true [] [interruptedStatus] =
      reportChecks Cpp.writers ⟨0, 0, 5, 5, 9, 9, 10⟩ false true [] [interruptedStatus] := by
  have messages : ∀ message ∈ interruptedStatus.errorMessages, IsAscii message := by decide
  have valid : ∀ status ∈ [interruptedStatus], status.TextsUtf8 := by
    rw [List.forall_mem_singleton]
    exact ⟨IsAscii.isUtf8 (by decide), ⟨"https://host/café".toList, rfl⟩,
      fun message listed => (messages message listed).isUtf8⟩
  refine (reportChecks_parity_iff ⟨by decide, by decide, by decide⟩ valid false true []).mpr ?_
  rw [List.forall_mem_singleton]
  exact fun message listed => (messages message listed).onlyAsciiSpace

end Report

end CheckGitStatus
