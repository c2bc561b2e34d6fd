import CheckGitStatus.ExitCode
import CheckGitStatus.Go.Options
import CheckGitStatus.Go.Report

/-!
# A whole run of the Go program

`runCLI` has the phases of the C++ program. What they find, the readings of the clock
and the moment at which the context is cancelled are those of an arbitrary `World`.
-/

namespace CheckGitStatus.Go

/-- What a run comes upon besides the results of its phases. -/
structure Surroundings where
  numCPU : Int
  /-- The quoting of `%q`. -/
  quote : Text → Text
  /-- `exec.LookPath`. -/
  gitBinary : Except Text Path
  supportsColor : Bool
  instants : Report.Instants
  /-- The moment at which the context is cancelled, if it ever is. -/
  interrupt : Option Int

/-- The surroundings of a run and the results of its phases. -/
structure World extends Surroundings where
  /-- `discoverRepositories`: the repositories, the warnings and the error. -/
  discover : Path → List Path × List Text × Option Text
  /-- `checkRepositories` with a client that runs this git. -/
  checkRepositories : Path → List Path → Int → List RepositoryStatus

/-- `runCLI`: the exit code and what is written to the two streams. -/
def runCLI (world : World) (arguments : List Text) : Report.Outcome :=
  let (parsed, written) := parseOptions world.quote world.numCPU arguments
  match parsed with
  | .error .help => { exitCode := 0, errorOutput := written }
  | .error (.message text) =>
      { exitCode := 2, errorOutput := written ++ ascii "error: " ++ text ++ ascii "\n" }
  | .ok options =>
      match world.gitBinary with
      | .error _ =>
          { exitCode := 1
            errorOutput := ascii "error: Git was not found in PATH; install Git and try again\n" }
      | .ok gitBinary =>
          let (repositories, walkWarnings, failure) := world.discover options.root
          match failure with
          | some error =>
              { exitCode := 1, errorOutput := ascii "error: " ++ error ++ ascii "\n" }
          | none =>
              if repositories.length = 0 then
                Report.reportNone writers world.instants options.root walkWarnings
              else
                let statuses := world.checkRepositories gitBinary repositories options.workers
                if Report.isInterrupted world.interrupt world.instants.interruptTest then
                  { exitCode := 130, errorOutput := ascii "error: scan interrupted\n" }
                else
                  Report.reportChecks writers world.instants options.dirtyOnly
                    (!options.noColor && world.supportsColor) walkWarnings statuses

/-- What the phases of a run amount to. The discovery is over at `discoveryOver`; the
checks, if there are any, are over when the context is tested. -/
def course (world : World) (arguments : List Text) : Course :=
  match (parseOptions world.quote world.numCPU arguments).1 with
  | .error .help => .helpRequest
  | .error (.message _) => .usageError
  | .ok options =>
      match world.gitBinary with
      | .error _ => .gitNotFound
      | .ok gitBinary =>
          match world.discover options.root with
          | (_, _, some _) => .rootError
          | ([], walkWarnings, none) =>
              .emptyScan (Report.isInterrupted world.interrupt world.instants.discoveryOver)
                (!walkWarnings.isEmpty)
          | (repositories, walkWarnings, none) =>
              .scan (Report.isInterrupted world.interrupt world.instants.interruptTest)
                (!walkWarnings.isEmpty)
                ((world.checkRepositories gitBinary repositories options.workers).any
                  fun status => status.HasError)

/-- The program ends a scan without repositories early. -/
theorem runCLI_exitCode (world : World) (arguments : List Text) :
    (runCLI world arguments).exitCode = (course world arguments).earlyExitCode := by
  unfold runCLI course
  generalize parseOptions world.quote world.numCPU arguments = parse
  obtain ⟨parsed, written⟩ := parse
  cases parsed with
  | error error => cases error <;> rfl
  | ok options =>
      cases world.gitBinary with
      | error _ => rfl
      | ok gitBinary =>
          rcases found : world.discover options.root with ⟨repositories, walkWarnings, failure⟩
          simp only [found]
          cases failure with
          | some error => rfl
          | none =>
              cases repositories with
              | nil => exact Report.reportNone_exitCode writers _ options.root walkWarnings
              | cons first others =>
                  have someFound : (first :: others).length ≠ 0 := Nat.succ_ne_zero _
                  simp only [someFound, ↓reduceIte]
                  cases Report.isInterrupted world.interrupt world.instants.interruptTest with
                  | true => rfl
                  | false => exact Report.reportChecks_exitCode writers _ _ _ walkWarnings _

end CheckGitStatus.Go
