import CheckGitStatus.Cpp.CapturedRun
import CheckGitStatus.Cpp.WindowsDiscovery

/-! # Running one git command on Windows

The Windows branch of `ExecGitRunner::run` hands the system one command line, and its loop
reads the flag and the clock before it looks at the child, so that it is the POSIX loop
with one reading more (`CheckGitStatus.Cpp.Windows.waitLoop_eq`). A command succeeds only
if the child was seen to end in time with code 0
(`CheckGitStatus.Cpp.Windows.run_ok_iff`), and git that answers alike leads both builds to
the same status (`CheckGitStatus.Cpp.Windows.check_builds_eq`).
-/

namespace CheckGitStatus.Cpp.Windows

/-- What happens outside the program during one run. -/
structure Execution where
  cancelled : Bool := false
  pipeError : Option Dword := none
  handleError : Option Dword := none
  processError : Option Dword := none
  started : Int
  /-- The turns whose wait of 25 ms runs out. -/
  turns : List Turn
  /-- The readings of the turn whose wait ends otherwise. -/
  lastTurn : Turn
  waitError : Option Dword := none
  /-- What `GetExitCodeProcess` stores, if it succeeds. -/
  exitCode : Option Dword
  captured : Text

/-- The system with the conversion of arguments, which leaves ASCII as it is. -/
structure ProcessSystem extends System where
  utf8ToWide : Text → WideText
  utf8ToWide_ascii : ∀ text : Text, text.all (fun byte => byte < 128) = true →
    utf8ToWide text = text.map UInt8.toUInt16

/-- The turns whose wait runs out, and then the last one. -/
def waitLoop (deadline : Int) (waitError : Option Text) (last : Turn) :
    List Turn → WaitOutcome
  | [] =>
      if last.cancelled then .cancelled
      else if deadline ≤ last.now then .timedOut
      else waitError.elim .ended .waitFailed
  | turn :: rest =>
      if turn.cancelled then .cancelled
      else if deadline ≤ turn.now then .timedOut
      else waitLoop deadline waitError last rest

/-- The exit code as an `int`; it stays 1 if the system does not tell it. -/
def Execution.exitStatus (execution : Execution) : Int :=
  (execution.exitCode.getD 1).toInt32.toInt

/-- What a run returns, given what happens. -/
def Execution.result (execution : Execution) (system : ProcessSystem) (timeout : Int) :
    CommandResult :=
  if execution.cancelled then { error := ascii "interrupted" }
  else match execution.pipeError, execution.handleError, execution.processError with
    | some error, _, _ => { error := ascii "create Git output pipe: " ++ system.message error }
    | none, some error, _ =>
        { error := ascii "configure Git output pipe: " ++ system.message error }
    | none, none, some error => { error := ascii "start Git: " ++ system.message error }
    | none, none, none =>
        let exitCode := execution.exitStatus
        let deadline := execution.started + timeout * nanosecondsPerMillisecond
        match waitLoop deadline (execution.waitError.map system.message) execution.lastTurn
          execution.turns with
        | .cancelled => { error := ascii "interrupted", exitCode }
        | .timedOut => { error := commandTimeoutMessage timeout, exitCode, timedOut := true }
        | .waitFailed error =>
            -- the text is tested, not whether the wait has failed
            if error ≠ [] then { error := ascii "wait for Git: " ++ error, exitCode }
            else completedResult execution.captured exitCode
        | .ended => completedResult execution.captured exitCode

section Run

variable (system : ProcessSystem) (binary : WideText) (execute : WideText → Execution)

/-- `command_arguments`. -/
def commandArguments (directory : WideText) (arguments : List Text) : List WideText :=
  [binary, wide "--no-optional-locks", wide "-C", directory] ++
    arguments.map system.utf8ToWide

/-- `ExecGitRunner::run`; `execute` says what happens when a command line is run. -/
def run (directory : WideText) (arguments : List Text) (timeout : Int) : CommandResult :=
  (execute (commandLine (commandArguments system binary directory arguments))).result system
    timeout

/-- `GitClient::check` with this runner; of the path it keeps, only the text is read. -/
def check (timeout : Int) (path : WideText) (readings : Readings) : RepositoryStatus :=
  Cpp.check (fun _ arguments time => run system binary execute path arguments time) timeout
    (system.u8string path) readings

end Run

/-! ## The wait loop -/

/-- **One reading more.** The loop ends as that of the POSIX build does when it finds the
child still running one more time. -/
theorem waitLoop_eq (deadline : Int) (waitError : Option Text) (last : Turn)
    (turns : List Turn) :
    waitLoop deadline waitError last turns =
      Cpp.waitLoop deadline waitError (turns ++ [last]) := by
  induction turns with
  | nil => rfl
  | cons turn rest ih => rw [waitLoop, List.cons_append, Cpp.waitLoop, ih]

/-! ## The result -/

/-- The command is started and ends by itself in time, with this code. -/
structure Execution.Exits (execution : Execution) (system : ProcessSystem) (timeout : Int)
    (code : Int) : Prop where
  calm : execution.cancelled = false
  piped : execution.pipeError = none
  configured : execution.handleError = none
  created : execution.processError = none
  running : ∀ turn ∈ execution.turns ++ [execution.lastTurn], turn.cancelled = false ∧
    turn.now < execution.started + timeout * nanosecondsPerMillisecond
  /-- A failed wait without a message goes unnoticed. -/
  waited : ∀ error, execution.waitError = some error → system.message error = []
  exited : execution.exitStatus = code

section Result

variable {execution : Execution} {system : ProcessSystem} {timeout code : Int}

/-- An execution that exits by itself is completed. -/
theorem Execution.Exits.result_eq (exits : execution.Exits system timeout code) :
    execution.result system timeout = completedResult execution.captured code := by
  simp only [Execution.result, exits.calm, Bool.false_eq_true, ↓reduceIte, exits.piped,
    exits.configured, exits.created, waitLoop_eq, waitLoop_eq_elim_iff.mpr exits.running,
    exits.exited]
  cases failed : execution.waitError with
  | none => rfl
  | some error => simp [exits.waited error failed]

/-- **When a command succeeds.** No failure of the system and no reading of the flag or of
the clock is lost on the way to the result. -/
theorem Execution.result_ok_iff :
    (execution.result system timeout).ok = true ↔ execution.Exits system timeout 0 := by
  constructor
  · intro ok
    unfold Execution.result at ok
    split at ok
    · cases ok
    rename_i calm
    split at ok
    · exact absurd ok (not_ok_of_error (by decide) rfl)
    · exact absurd ok (not_ok_of_error (by decide) rfl)
    · exact absurd ok (not_ok_of_error (by decide) rfl)
    rename_i piped configured created
    dsimp only at ok
    rw [waitLoop_eq] at ok
    rcases waitLoop_cases (execution.started + timeout * nanosecondsPerMillisecond)
      (execution.waitError.map system.message) (execution.turns ++ [execution.lastTurn]) with
      cancelled | timedOut | ended
    · rw [cancelled] at ok
      cases ok
    · rw [timedOut] at ok
      exact absurd ok (@not_ok_of_error _ (ascii "timed out after ") _ (by decide) rfl)
    · have exits (waited : ∀ error, execution.waitError = some error → system.message error = [])
          (exited : execution.exitStatus = 0) : execution.Exits system timeout 0 :=
        ⟨(Bool.not_eq_true _).mp calm, piped, configured, created,
          waitLoop_eq_elim_iff.mp ended, waited, exited⟩
      rw [ended] at ok
      cases failed : execution.waitError with
      | none =>
          rw [failed] at ok
          refine exits (fun error same => ?_) (completedResult_ok_iff.mp ok)
          cases failed.symm.trans same
      | some error =>
          rw [failed] at ok
          simp only [Option.map_some, Option.elim_some] at ok
          split at ok
          · exact absurd ok (not_ok_of_error (by decide) rfl)
          · rename_i silent
            refine exits (fun other same => ?_) (completedResult_ok_iff.mp ok)
            cases failed.symm.trans same
            exact not_not.mp silent
  · intro exits
    rw [exits.result_eq, completedResult_ok_iff]

end Result

/-! ## The check -/

/-- A command is started in time, and git writes this and exits with this code in time. -/
structure Answered (system : ProcessSystem) (execution : Execution) (deadline : Int)
    (reading : Reading) (text : Text) (code : Nat) : Prop where
  calm : reading.cancelled = false
  time : 0 < remaining deadline reading.now
  exits : execution.Exits system (remaining deadline reading.now) code
  captured : execution.captured = text

section Check

variable {system : ProcessSystem} {binary widePath : WideText} {git : List WideText → Execution}

/-- The child finds the arguments in the command line again. -/
theorem Answered.run_eq {arguments : List Text} {wideArguments : List WideText}
    {deadline : Int} {reading : Reading} {text : Text} {code : Nat}
    (noQuote : WideChar.quote ∉ binary) (ending : binary.getLast? ≠ some WideChar.backslash)
    (converted : arguments.map system.utf8ToWide = wideArguments)
    (answered : Answered system
      (git ([binary, wide "--no-optional-locks", wide "-C", widePath] ++ wideArguments)) deadline
      reading text code) (path : Path) (timeout : Int) :
    runBeforeDeadline
        (fun _ arguments time =>
          run system binary (fun line => git (splitCommandLine line)) widePath arguments time)
        path arguments deadline timeout reading =
      completedResult text code := by
  rw [runBeforeDeadline_eq answered.calm answered.time, run, commandArguments, converted,
    List.cons_append, splitCommandLine_eq noQuote ending, ← List.cons_append,
    answered.exits.result_eq, answered.captured]

/-- **The two builds check alike.** If git, started in time with the same arguments, writes
the same and exits with the same codes in time, the two builds come to the same status but
for the path. -/
theorem check_builds_eq {environment : Environment} {posixGit path : Path} {answers : Answers}
    {readings : Readings} (noQuote : WideChar.quote ∉ binary)
    (ending : binary.getLast? ≠ some WideChar.backslash)
    (gives : environment.Gives posixGit path answers)
    (remote : Answered system
      (git [binary, wide "--no-optional-locks", wide "-C", widePath, wide "remote", wide "-v"])
      (readings.started + 15000 * nanosecondsPerMillisecond) readings.remote answers.remoteText
      answers.remoteCode)
    (status : Answered system
      (git [binary, wide "--no-optional-locks", wide "-C", widePath, wide "status",
        wide "--porcelain=v2", wide "--branch"])
      (readings.started + 15000 * nanosecondsPerMillisecond) readings.status answers.statusText
      answers.statusCode) :
    check system binary (fun line => git (splitCommandLine line)) 15000 widePath readings =
      { environment.checker posixGit path with path := system.u8string widePath } := by
  have remoteConverted : remoteArguments.map system.utf8ToWide = [wide "remote", wide "-v"] := by
    simp only [remoteArguments, List.map_cons, List.map_nil]
    rw [system.utf8ToWide_ascii (ascii "remote") (by decide),
      system.utf8ToWide_ascii (ascii "-v") (by decide)]
    rfl
  have statusConverted : statusArguments.map system.utf8ToWide =
      [wide "status", wide "--porcelain=v2", wide "--branch"] := by
    simp only [statusArguments, List.map_cons, List.map_nil]
    rw [system.utf8ToWide_ascii (ascii "status") (by decide),
      system.utf8ToWide_ascii (ascii "--porcelain=v2") (by decide),
      system.utf8ToWide_ascii (ascii "--branch") (by decide)]
    rfl
  rw [check, check_eq, remote.run_eq noQuote ending remoteConverted,
    status.run_eq noQuote ending statusConverted, gives.checker_eq, ← Answers.status_path_eq]
  rfl

end Check

/-- A command that writes two bytes and exits at once. -/
def promptExecution : Execution where
  started := 0
  turns := []
  lastTurn := { cancelled := false, now := 0 }
  exitCode := some 0
  captured := ascii "ok"

/-- The system of the shut directory, with ASCII arguments widened unit by unit. -/
def shutProcesses : ProcessSystem where
  toSystem := shutSystem
  utf8ToWide text := text.map UInt8.toUInt16
  utf8ToWide_ascii _ _ := rfl

theorem promptExecution_answered : Answered shutProcesses promptExecution
    (0 + 15000 * nanosecondsPerMillisecond) { cancelled := false, now := 0 } (ascii "ok") 0 where
  calm := rfl
  time := by decide
  exits := ⟨rfl, rfl, rfl, rfl, by decide, nofun, rfl⟩
  captured := rfl

theorem check_builds_eq_two_bytes :
    ∃ environment : Environment,
      check shutProcesses (wide "C:\\git.exe")
          (fun line => (fun _ => promptExecution) (splitCommandLine line)) 15000 (wide "C:\\w")
          stillReadings =
        { environment.checker (ascii "/usr/bin/git") (ascii "/w/app") with
          path := shutProcesses.u8string (wide "C:\\w") } := by
  obtain ⟨state, undisturbed⟩ :=
    OutputCapture.exists_undisturbed Nat.one_pos 15000 (ascii "ok") 0
  have collects := collects_of_undisturbed undisturbed (ascii "/usr/bin/git") (ascii "/w/app")
  exact ⟨⟨buildRoot, fun _ => state.execution, fun _ => stillReadings⟩,
    @check_builds_eq shutProcesses (wide "C:\\git.exe") (wide "C:\\w") (fun _ => promptExecution)
      _ _ _ ⟨ascii "ok", 0, ascii "ok", 0⟩ stillReadings (by decide) (by decide)
      ⟨collects _, collects _⟩ promptExecution_answered promptExecution_answered⟩

end CheckGitStatus.Cpp.Windows
