import CheckGitStatus.Cpp.Duration
import CheckGitStatus.Report

/-! # What the C++ program writes -/

namespace CheckGitStatus.Cpp

/-- The number of bytes that are not continuation bytes. -/
def utf8Width (value : Text) : Nat :=
  value.countP fun byte => byte &&& 0xc0 != 0x80

theorem utf8Width_append (left right : Text) :
    utf8Width (left ++ right) = utf8Width left + utf8Width right :=
  List.countP_append

theorem utf8Width_spaces (count : Nat) : utf8Width (List.replicate count 32) = count := by
  rw [utf8Width, List.countP_replicate]
  rfl

/-- `render_table`, with the widths that `utf8_width` computes. -/
def renderTable (statuses : List RepositoryStatus) (color : Bool) : Text :=
  Report.renderTable utf8Width statuses color

/-- `write_wrapped`. -/
def writeWrapped (message : Text) (indent maxWidth : Nat) : Text :=
  Report.writeWrapped utf8Width (words message) indent maxWidth

/-- An issue with its label and, below it, the wrapped message. -/
def writeIssue (issue : Issue) : Text :=
  ascii "  " ++ issue.label ++ ascii ":\n" ++ writeWrapped issue.message 4 100

/-- `write_check_warnings`, with the number of issues that it returns. -/
def writeCheckWarnings (statuses : List RepositoryStatus) : Text × Nat :=
  Report.writeCheckWarnings (fun status => status.issues.map writeIssue) statuses

/-- `write_timing_report`. -/
def writeTimingReport (discovery checks total : Int) : Text :=
  Report.writeTimingReport formatDuration discovery checks total

/-- The writers of the C++ program. -/
def writers : Report.Writers where
  renderTable := renderTable
  writeCheckWarnings := writeCheckWarnings
  writeTimingReport := writeTimingReport
  issues_counted statuses := by
    rw [writeCheckWarnings, Report.writeCheckWarnings_count]
    simp only [List.length_map]

end CheckGitStatus.Cpp
