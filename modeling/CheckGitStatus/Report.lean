import CheckGitStatus.Status
import Mathlib.Algebra.GroupWithZero.Nat

/-!
# What a run writes

The two programs lay out their table, warnings and summary in the same way. They differ
in how they measure a text, split a message into words, print a duration and keep the
issues of a status, which are parameters here. A writer is the text that it writes.
-/

namespace CheckGitStatus.Report

/-- The sequence that ends every colour. -/
def ansiReset : Text := ascii "\x1b[0m"

/-- Bold, for the header row. -/
def ansiBold : Text := ascii "\x1b[1m"

/-- The colour of the header row. -/
def ansiCyan : Text := ascii "\x1b[36m"

/-- The colour of a repository that is in order. -/
def ansiGreen : Text := ascii "\x1b[32m"

/-- The colour of a branch that is not compared. -/
def ansiYellow : Text := ascii "\x1b[33m"

/-- The colour of what needs attention. -/
def ansiRed : Text := ascii "\x1b[31m"

/-- `filter_needs_attention`: what `--dirty-only` shows. -/
def filterNeedsAttention (statuses : List RepositoryStatus) : List RepositoryStatus :=
  statuses.filter RepositoryStatus.needsAttention

/-- `count_needs_attention`: the number for the last line of the report. -/
def countNeedsAttention (statuses : List RepositoryStatus) : Nat :=
  (filterNeedsAttention statuses).length

/-! ## The table -/

/-- `TableCell`: the colour takes no width. -/
structure TableCell where
  text : Text
  color : Text := []
  deriving DecidableEq, Repr

/-- The cell of the remote; an error hides what else is known. -/
def remoteCell (status : RepositoryStatus) : TableCell :=
  if status.remoteError.isSome then { text := ascii "Error", color := ansiRed }
  else if !status.hasRemote then { text := ascii "No Remote", color := ansiRed }
  else if status.remoteUrl = [] then { text := ascii "Configured", color := ansiGreen }
  else { text := status.remoteUrl }

/-- The cell of the worktree. -/
def worktreeCell (status : RepositoryStatus) : TableCell :=
  if status.worktreeError.isSome then { text := ascii "Error", color := ansiRed }
  else if status.dirty then { text := ascii "Dirty", color := ansiRed }
  else { text := ascii "Clean", color := ansiGreen }

/-- The cell of the upstream: the count is shown in an `ok` state only. -/
def unpushedCell (status : RepositoryStatus) : TableCell :=
  if status.upstreamError.isSome ∨ status.upstreamState = .error then
    { text := ascii "Error", color := ansiRed }
  else if status.upstreamState = .detached then
    { text := ascii "Detached HEAD", color := ansiYellow }
  else if status.upstreamState = .missing then
    { text := ascii "No Upstream", color := ansiYellow }
  else if status.ahead = 1 then { text := ascii "1 commit ahead", color := ansiRed }
  else if 1 < status.ahead then
    { text := stdToString status.ahead ++ ascii " commits ahead", color := ansiRed }
  else { text := ascii "OK", color := ansiGreen }

/-- `status_row`. -/
def statusRow (status : RepositoryStatus) : List TableCell :=
  [{ text := pathText status.path }, remoteCell status, worktreeCell status, unpushedCell status]

/-- The names of the columns. -/
def headerRow : List TableCell :=
  [ascii "REPOSITORY", ascii "REMOTE", ascii "WORKTREE", ascii "UNPUSHED"].map fun text =>
    { text, color := ansiBold ++ ansiCyan }

/-- A cell in its colour, if colours are on. -/
def paintCell (color : Bool) (cell : TableCell) (value : Text) : Text :=
  if color && cell.color ≠ [] then cell.color ++ value ++ ansiReset else value

section Layout

/- The number of columns that a text takes. -/
variable (width : Text → Nat)

/-- The loop that widens the four columns to the cells of every row. -/
def columnWidths (rows : List (List TableCell)) : List Nat :=
  rows.foldl (fun widths row => List.zipWith max widths (row.map fun cell => width cell.text))
    [0, 0, 0, 0]

/-- The cells of a row. All but the last one are padded to the width of the column
and two more. -/
def renderCells (color : Bool) : List Nat → List TableCell → Text
  | columnWidth :: widths, cell :: next :: cells =>
      paintCell color cell
        (cell.text ++ List.replicate (columnWidth - width cell.text + 2) 32) ++
      renderCells color widths (next :: cells)
  | _, [cell] => paintCell color cell cell.text
  | _, _ => []

/-- The table for a way to measure texts: the header, a rule and the rows, in columns as wide as
their widest cell. -/
def renderTable (statuses : List RepositoryStatus) (color : Bool) : Text :=
  let rows := statuses.map statusRow
  let widths := columnWidths width (headerRow :: rows)
  renderCells width color widths headerRow ++ ascii "\n" ++
  List.replicate (widths.sum + 2 * (widths.length - 1)) 45 ++ ascii "\n" ++
  rows.flatMap fun row => renderCells width color widths row ++ ascii "\n"

/-! ## Wrapped messages -/

/-- The text written so far, the line that is being filled and its width. -/
structure Wrapping where
  written : Text := []
  line : Text
  lineWidth : Nat
  deriving DecidableEq, Repr

/-- One turn of the loop over the words: a word that does not fit opens a new line, unless it is
the first one of its line. -/
def wrapWord (indent maxWidth : Nat) (state : Wrapping) (word : Text) : Wrapping :=
  let spaces := List.replicate indent 32
  let separatorWidth := if indent < state.lineWidth then 1 else 0
  if indent < state.lineWidth ∧ maxWidth < state.lineWidth + separatorWidth + width word then
    { written := state.written ++ state.line ++ ascii "\n"
      line := spaces ++ word
      lineWidth := indent + width word }
  else
    { state with
      line := state.line ++ (if 0 < separatorWidth then ascii " " else []) ++ word
      lineWidth := state.lineWidth + separatorWidth + width word }

/-- The words of a message on lines that are indented and no wider than need be. -/
def writeWrapped (words : List Text) (indent maxWidth : Nat) : Text :=
  let start : Wrapping := { line := List.replicate indent 32, lineWidth := indent }
  let final := words.foldl (wrapWord width indent maxWidth) start
  if indent < final.lineWidth then final.written ++ final.line ++ ascii "\n" else final.written

end Layout

/-! ## Warnings and times -/

/-- The line of the three durations. -/
def writeTimingReport (formatDuration : Int → Text) (discovery checks total : Int) : Text :=
  ascii "Timing: discovery " ++ formatDuration discovery ++ ascii "; checks " ++
  formatDuration checks ++ ascii "; total " ++ formatDuration total ++ ascii ".\n"

/-- `write_walk_warnings`: one line for each failure of the discovery. -/
def writeWalkWarnings (warnings : List Text) : Text :=
  warnings.flatMap fun warning => ascii "warning: " ++ warning ++ ascii "\n"

/-- The text written so far, the number of issues in it and whether a status is there. -/
structure CheckWarnings where
  written : Text := []
  count : Nat := 0
  wroteStatus : Bool := false
  deriving DecidableEq, Repr

section Issues

/- The texts of the issues of a status. -/
variable (issueTexts : RepositoryStatus → List Text)

/-- One turn of the loop over the statuses: a blank line goes between two
repositories with issues. -/
def writeStatusIssues (state : CheckWarnings) (status : RepositoryStatus) : CheckWarnings :=
  if issueTexts status = [] then state
  else
    { written := state.written ++ (if state.wroteStatus then ascii "\n" else []) ++
        ascii "warning: " ++ pathText status.path ++ ascii "\n" ++ (issueTexts status).flatten
      count := state.count + (issueTexts status).length
      wroteStatus := true }

/-- The text of the warnings and the number of issues. -/
def writeCheckWarnings (statuses : List RepositoryStatus) : Text × Nat :=
  let final := statuses.foldl (writeStatusIssues issueTexts) {}
  (final.written, final.count)

/-- One turn counts the issues of its status. -/
theorem writeStatusIssues_count (state : CheckWarnings) (status : RepositoryStatus) :
    (writeStatusIssues issueTexts state status).count =
      state.count + (issueTexts status).length := by
  unfold writeStatusIssues
  split
  · rename_i none
    rw [none, List.length_nil, Nat.add_zero]
  · rfl

/-- Every issue of every status is counted. -/
theorem writeCheckWarnings_count (statuses : List RepositoryStatus) :
    (writeCheckWarnings issueTexts statuses).2 =
      (statuses.map fun status => (issueTexts status).length).sum := by
  have counted : ∀ state : CheckWarnings,
      (statuses.foldl (writeStatusIssues issueTexts) state).count =
        state.count + (statuses.map fun status => (issueTexts status).length).sum := by
    induction statuses with
    | nil => exact fun _ => rfl
    | cons status rest ih =>
        intro state
        rw [List.foldl_cons, ih, writeStatusIssues_count, List.map_cons, List.sum_cons,
          Nat.add_assoc]
  have whole := counted {}
  rwa [Nat.zero_add] at whole

end Issues

/-! ## The end of a scan -/

/-- What the process leaves behind. -/
structure Outcome where
  exitCode : Nat
  standardOutput : Text := []
  errorOutput : Text := []
  deriving DecidableEq, Repr

/-- The writers of one program. The issues are counted as those of the statuses. -/
structure Writers where
  renderTable : List RepositoryStatus → Bool → Text
  writeCheckWarnings : List RepositoryStatus → Text × Nat
  writeTimingReport : Int → Int → Int → Text
  issues_counted : ∀ statuses, (writeCheckWarnings statuses).2 =
    (statuses.map fun status => status.issues.length).sum

/-- The instants of a run at which the clock or the interrupt flag is read, in nanoseconds. -/
structure Instants where
  runStarted : Int
  discoveryStarted : Int
  discoveryOver : Int
  checksStarted : Int
  checksOver : Int
  /-- The flag is read, right after the checks. -/
  interruptTest : Int
  finished : Int

/-- Whether the flag is set by now, given the moment at which it turns true, if it ever does. -/
def isInterrupted (interrupt : Option Int) (now : Int) : Bool :=
  interrupt.any fun moment => moment ≤ now

variable (writers : Writers) (instants : Instants)

/-- The report of the times, with those of the checks as they are measured. -/
def timing (checks : Int) : Text :=
  writers.writeTimingReport (instants.discoveryOver - instants.discoveryStarted) checks
    (instants.finished - instants.runStarted)

/-- The end of a scan that found no repositories. -/
def reportNone (root : Text) (warnings : List Text) : Outcome where
  exitCode := if warnings.isEmpty then 0 else 1
  standardOutput := ascii "No Git repositories found under " ++ root ++ ascii ".\n" ++
    timing writers instants 0
  errorOutput := writeWalkWarnings warnings

/-- The end of a scan with checks that was not interrupted. -/
def reportChecks (dirtyOnly color : Bool) (warnings : List Text)
    (statuses : List RepositoryStatus) : Outcome :=
  let displayed := if dirtyOnly then filterNeedsAttention statuses else statuses
  let table :=
    if displayed.isEmpty then ascii "No repositories need attention.\n"
    else writers.renderTable displayed color
  let (checkWarnings, checkErrors) := writers.writeCheckWarnings statuses
  { exitCode := if warnings.isEmpty && checkErrors == 0 then 0 else 1
    standardOutput := table ++ ascii "\nScanned " ++ decimal statuses.length ++
      ascii " repositories; " ++ decimal (countNeedsAttention statuses) ++
      ascii " need attention.\n" ++
      timing writers instants (instants.checksOver - instants.checksStarted)
    errorOutput := writeWalkWarnings warnings ++ checkWarnings }

/-- No issue is counted exactly when no status has an error. -/
theorem writeCheckWarnings_count_eq_zero_iff (statuses : List RepositoryStatus) :
    (writers.writeCheckWarnings statuses).2 = 0 ↔
      ∀ status ∈ statuses, ¬ status.HasError := by
  rw [writers.issues_counted, List.sum_eq_zero_iff_forall_eq_nat, List.forall_mem_map]
  refine forall₂_congr fun status _ => ?_
  rw [List.length_eq_zero_iff, ← status.issues_ne_nil_iff, not_not]

end CheckGitStatus.Report
