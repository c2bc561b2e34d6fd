import CheckGitStatus.Cpp.Duration
import CheckGitStatus.Library.Folds
import CheckGitStatus.Library.Sorting
import CheckGitStatus.Status

/-!
# One repository check of the C++ program

`GitClient::check` runs `git remote -v` and `git status --porcelain=v2 --branch`
under one deadline and reads their outputs line by line. What the check reads from
outside besides the commands' results, the clock and the `cancelled` flag, is an
argument (`Readings`). Clock readings are in nanoseconds, timeouts in
milliseconds.
-/

namespace CheckGitStatus.Cpp

open Library

/-- `CommandResult`: the output counts only if there is no error. -/
structure CommandResult where
  output : Text := []
  error : Text := []
  exitCode : Int := -1
  timedOut : Bool := false
  deriving DecidableEq, Repr

/-- `CommandResult::ok`. -/
def CommandResult.ok (result : CommandResult) : Bool :=
  result.error.isEmpty && result.exitCode == 0

/-- `GitRunner::run`: what a command does in a directory, given the time it may take. -/
abbrev GitRunner := Path → List Text → Int → CommandResult

/-- The arguments of the command that lists the remotes. -/
def remoteArguments : List Text :=
  [ascii "remote", ascii "-v"]

/-- The arguments of the command that reports the worktree and the branch. -/
def statusArguments : List Text :=
  [ascii "status", ascii "--porcelain=v2", ascii "--branch"]

/-- What `run_before_deadline` reads before it starts a command. -/
structure Reading where
  cancelled : Bool
  now : Int

/-- What a check reads from the clock and the flag, in order. -/
structure Readings where
  started : Int
  remote : Reading
  status : Reading

/-- `command_timeout_message`. -/
def commandTimeoutMessage (timeout : Int) : Text :=
  ascii "timed out after " ++ formatDuration (timeout * nanosecondsPerMillisecond)

/-- The time left, in whole milliseconds towards zero. -/
def remaining (deadline now : Int) : Int :=
  (deadline - now).tdiv nanosecondsPerMillisecond

/-- `run_before_deadline`: the command is not started after an interrupt or once the deadline of
the whole check is over. -/
def runBeforeDeadline (runner : GitRunner) (path : Path) (arguments : List Text)
    (deadline originalTimeout : Int) (reading : Reading) : CommandResult :=
  if reading.cancelled then { error := ascii "interrupted" }
  else if remaining deadline reading.now ≤ 0 then
    { error := commandTimeoutMessage originalTimeout, timedOut := true }
  else runner path arguments (remaining deadline reading.now)

/-! ## The remotes -/

/-- The name and URL in a line of `git remote -v`, if it is a fetch line. -/
def fetchLine (line : Text) : Option (Text × Text) :=
  match stripSuffix (ascii " (fetch)") (dropCarriageReturn line) with
  | none => none
  | some line =>
      let name := line.takeWhile fun byte => !isBlank byte
      let afterName := line.dropWhile fun byte => !isBlank byte
      let url := afterName.dropWhile isBlank
      if afterName = [] then none
      else if url = [] then none
      else some (name, url)

/-- The loop over the lines: the first fetch line of every name. -/
def collectRemotes (output : Text) : List (Text × Text) :=
  (getlines output).foldl
    (fun remotes line =>
      match fetchLine line with
      | none => remotes
      | some remote => insertNew remotes remote)
    []

/-- The `operator<` of a pair of strings. -/
def pairBefore (left right : Text × Text) : Bool :=
  left.1 < right.1 || (left.1 == right.1 && left.2 < right.2)

/-- `std::sort` of the pairs, then `origin` if it is there and the first one otherwise. -/
def selectRemote (remotes : List (Text × Text)) : Option (Text × Text) :=
  let sorted := remotes.insertionSort fun left right => pairBefore right left = false
  match sorted.find? fun remote => remote.1 == ascii "origin" with
  | some origin => some origin
  | none => sorted.head?

/-- What a successful `remote -v` writes into the status. -/
def readRemotes (output : Text) (status : RepositoryStatus) : RepositoryStatus :=
  match selectRemote (collectRemotes output) with
  | none => status
  | some selected =>
      { status with hasRemote := true, remoteName := selected.1, remoteUrl := selected.2 }

/-! ## The worktree -/

/-- The count of a `branch.ab` header: a plus sign and a number that fills the field. -/
def aheadCount (field : Text) : Option Int :=
  if field.head? = some 43 then
    match fromChars field.tail with
    | some (ahead, []) => some ahead
    | _ => none
  else none

/-- The fields of a header line: a third field is needed, and a count that cannot be read
leaves the old one. -/
def readHeader (fields : List Text) (scan : StatusScan) : StatusScan :=
  match fields with
  | _ :: key :: value :: _ =>
      if key = ascii "branch.head" then { scan with detached := value == ascii "(detached)" }
      else if key = ascii "branch.upstream" then { scan with hasUpstream := true }
      else if key = ascii "branch.ab" then
        match aheadCount value with
        | some ahead => { scan with ahead }
        | none => scan
      else scan
  | _ => scan

/-- One turn of the loop over the lines of the status output. -/
def readStatusLine (scan : StatusScan) (line : Text) : StatusScan :=
  let line := dropCarriageReturn line
  if line.head? ≠ some 35 then
    if line ≠ [] then { scan with dirty := true } else scan
  else readHeader (words line) scan

/-- The loop over the lines of the status output. -/
def scanStatus (output : Text) : StatusScan :=
  (getlines output).foldl readStatusLine {}

/-- What a successful `status` writes into the status: a detached head goes
before an upstream. -/
def readStatus (output : Text) (status : RepositoryStatus) : RepositoryStatus :=
  let scan := scanStatus output
  { status with
    dirty := scan.dirty
    ahead := scan.ahead
    upstreamState :=
      if scan.detached then .detached else if scan.hasUpstream then .ok else .missing }

/-! ## The check -/

/-- `GitClient::check`: both commands share one deadline, and each fills in its part of the
status or its error. -/
def check (runner : GitRunner) (timeout : Int) (path : Path) (readings : Readings) :
    RepositoryStatus :=
  let deadline := readings.started + timeout * nanosecondsPerMillisecond
  let run := runBeforeDeadline runner path
  let remotes := run remoteArguments deadline timeout readings.remote
  let status : RepositoryStatus := { path }
  let status :=
    if remotes.ok then readRemotes remotes.output status
    else { status with remoteError := some remotes.error }
  let worktree := run statusArguments deadline timeout readings.status
  if worktree.ok then readStatus worktree.output status
  else
    { status with
      worktreeError := some worktree.error
      upstreamState := .error
      upstreamError := some worktree.error }

/-- The status after the first command. -/
def remoteStatus (remotes : CommandResult) (path : Path) : RepositoryStatus :=
  if remotes.ok then readRemotes remotes.output { path }
  else { path, remoteError := some remotes.error }

/-- The status after the second command. -/
def worktreeStatus (worktree : CommandResult) (status : RepositoryStatus) : RepositoryStatus :=
  if worktree.ok then readStatus worktree.output status
  else
    { status with
      worktreeError := some worktree.error
      upstreamState := .error
      upstreamError := some worktree.error }

/-- A check is made of the results of its two commands. -/
theorem check_eq (runner : GitRunner) (timeout : Int) (path : Path) (readings : Readings) :
    check runner timeout path readings =
      worktreeStatus
        (runBeforeDeadline runner path statusArguments
          (readings.started + timeout * nanosecondsPerMillisecond) timeout readings.status)
        (remoteStatus
          (runBeforeDeadline runner path remoteArguments
            (readings.started + timeout * nanosecondsPerMillisecond) timeout readings.remote)
          path) := rfl

/-- The errors of a check are those of its commands. -/
theorem check_errors (remotes worktree : CommandResult) (path : Path) :
    (worktreeStatus worktree (remoteStatus remotes path)).remoteError =
        (if remotes.ok then none else some remotes.error) ∧
      (worktreeStatus worktree (remoteStatus remotes path)).worktreeError =
        (if worktree.ok then none else some worktree.error) ∧
      (worktreeStatus worktree (remoteStatus remotes path)).upstreamError =
        (if worktree.ok then none else some worktree.error) := by
  have fresh : ∀ output : Text, (readRemotes output { path }).remoteError = none ∧
      (readRemotes output { path }).worktreeError = none ∧
      (readRemotes output { path }).upstreamError = none := by
    intro output
    unfold readRemotes
    split
    · exact ⟨rfl, rfl, rfl⟩
    · exact ⟨rfl, rfl, rfl⟩
  obtain ⟨noRemote, noWorktree, noUpstream⟩ := fresh remotes.output
  unfold worktreeStatus remoteStatus
  cases remotes.ok with
  | true =>
      cases worktree.ok with
      | true => exact ⟨noRemote, noWorktree, noUpstream⟩
      | false => exact ⟨noRemote, rfl, rfl⟩
  | false =>
      cases worktree.ok with
      | true => exact ⟨rfl, rfl, rfl⟩
      | false => exact ⟨rfl, rfl, rfl⟩

/-- The second command leaves the remote alone. -/
theorem worktreeStatus_remote (worktree : CommandResult) (status : RepositoryStatus) :
    (worktreeStatus worktree status).hasRemote = status.hasRemote ∧
      (worktreeStatus worktree status).remoteName = status.remoteName ∧
      (worktreeStatus worktree status).remoteUrl = status.remoteUrl := by
  unfold worktreeStatus
  split
  · exact ⟨rfl, rfl, rfl⟩
  · exact ⟨rfl, rfl, rfl⟩

/-- No cancellation is seen and both commands may start in time. -/
structure Readings.Prompt (readings : Readings) (timeout : Int) : Prop where
  remote : readings.remote.cancelled = false
  remoteTime : 0 < remaining (readings.started + timeout * nanosecondsPerMillisecond)
    readings.remote.now
  status : readings.status.cancelled = false
  statusTime : 0 < remaining (readings.started + timeout * nanosecondsPerMillisecond)
    readings.status.now

/-- A command that may start in time is what the runner makes of it. -/
theorem runBeforeDeadline_eq {runner : GitRunner} {path : Path} {arguments : List Text}
    {deadline timeout : Int} {reading : Reading} (calm : reading.cancelled = false)
    (time : 0 < remaining deadline reading.now) :
    runBeforeDeadline runner path arguments deadline timeout reading =
      runner path arguments (remaining deadline reading.now) := by
  have notLate : ¬ remaining deadline reading.now ≤ 0 := not_le.mpr time
  simp only [runBeforeDeadline, calm, Bool.false_eq_true, ↓reduceIte, notLate]

/-- When both commands succeed, the status is read off their outputs. -/
theorem check_eq_of_results {runner : GitRunner} {timeout : Int} {path : Path}
    {readings : Readings} {remoteOutput statusOutput : Text}
    (remote : runBeforeDeadline runner path remoteArguments
      (readings.started + timeout * nanosecondsPerMillisecond) timeout readings.remote =
        { output := remoteOutput, exitCode := 0 })
    (status : runBeforeDeadline runner path statusArguments
      (readings.started + timeout * nanosecondsPerMillisecond) timeout readings.status =
        { output := statusOutput, exitCode := 0 }) :
    check runner timeout path readings =
      readStatus statusOutput (readRemotes remoteOutput { path }) := by
  rw [check_eq, remote, status]
  rfl

/-- When the second command succeeds, its output is read over a status in which only
the remote is filled in. -/
theorem check_eq_of_status_result {runner : GitRunner} {timeout : Int} {path : Path}
    {readings : Readings} {output : Text}
    (status : runBeforeDeadline runner path statusArguments
      (readings.started + timeout * nanosecondsPerMillisecond) timeout readings.status =
        { output, exitCode := 0 }) :
    ∃ before : RepositoryStatus, before.worktreeError = none ∧ before.upstreamError = none ∧
      check runner timeout path readings = readStatus output before := by
  rw [check_eq, status]
  generalize runBeforeDeadline runner path remoteArguments _ timeout readings.remote = remotes
  obtain ⟨-, worktree, upstream⟩ := check_errors remotes { output, exitCode := 0 } path
  exact ⟨remoteStatus remotes path, worktree, upstream, rfl⟩

/-! ## The runner of the tests -/

/-- A runner that answers the two commands of a check with given outputs. -/
def scriptedRunner (remoteOutput statusOutput : Text) : GitRunner :=
  fun _ arguments _ =>
    if arguments = remoteArguments then { output := remoteOutput, exitCode := 0 }
    else if arguments = statusArguments then { output := statusOutput, exitCode := 0 }
    else { error := ascii "unexpected Git command", exitCode := 2 }

/-- A clock that stands still and a flag that stays unset. -/
def stillReadings : Readings where
  started := 0
  remote := { cancelled := false, now := 0 }
  status := { cancelled := false, now := 0 }

end CheckGitStatus.Cpp
