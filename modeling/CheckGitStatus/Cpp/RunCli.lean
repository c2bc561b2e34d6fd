import CheckGitStatus.Cpp.Discovery
import CheckGitStatus.Cpp.Options
import CheckGitStatus.Cpp.Report
import CheckGitStatus.ExitCode

/-!
# A whole run of the C++ program

`run_cli` parses the arguments, looks up git, discovers the repositories, checks them
and reports. What these phases find, the readings of the clock and the moment of an
interrupt are those of an arbitrary `World`.
-/

namespace CheckGitStatus.Cpp

/-- What a run comes upon besides the results of its phases. -/
structure Surroundings where
  hardwareConcurrency : UInt32
  /-- `find_git_executable`. -/
  gitExecutable : Option Path
  supportsColor : Bool
  instants : Report.Instants
  /-- The moment at which `cancelled` turns true, if it ever does. -/
  interrupt : Option Int

/-- The surroundings of a run and the results of its phases. -/
structure World extends Surroundings where
  /-- `discover_repositories`. -/
  discover : Path → DiscoveryResult
  /-- `check_repositories` with a client that runs this git. -/
  checkRepositories : Path → List Path → UInt32 → List RepositoryStatus

/-- `run_cli`: the exit code and what is written to the two streams. -/
def runCli (world : World) (arguments : List Text) : Report.Outcome :=
  let parsed := parseOptions world.hardwareConcurrency arguments
  if parsed.helpRequested then { exitCode := 0, standardOutput := usage }
  else if parsed.error ≠ [] then
    { exitCode := 2, errorOutput := usage ++ ascii "error: " ++ parsed.error ++ ascii "\n" }
  else
    match world.gitExecutable with
    | none =>
        { exitCode := 1
          errorOutput := ascii "error: Git was not found in PATH; install Git and try again\n" }
    | some git =>
        let discovery := world.discover parsed.options.root
        if discovery.error ≠ [] then
          { exitCode := 1, errorOutput := ascii "error: " ++ discovery.error ++ ascii "\n" }
        else if discovery.repositories.isEmpty then
          Report.reportNone writers world.instants parsed.options.root
            discovery.warnings
        else
          let statuses :=
            world.checkRepositories git discovery.repositories parsed.options.workers
          if Report.isInterrupted world.interrupt world.instants.interruptTest then
            { exitCode := 130, errorOutput := ascii "error: scan interrupted\n" }
          else
            Report.reportChecks writers world.instants parsed.options.dirtyOnly
              (!parsed.options.noColor && world.supportsColor) discovery.warnings statuses

/-! ## The course of a run -/

/-- What the phases of a run amount to. The discovery is over at `discoveryOver`; the
checks, if there are any, are over when the flag is tested. -/
def course (world : World) (arguments : List Text) : Course :=
  let parsed := parseOptions world.hardwareConcurrency arguments
  if parsed.helpRequested then .helpRequest
  else if parsed.error ≠ [] then .usageError
  else
    match world.gitExecutable with
    | none => .gitNotFound
    | some git =>
        let discovery := world.discover parsed.options.root
        if discovery.error ≠ [] then .rootError
        else
          let warned := !discovery.warnings.isEmpty
          if discovery.repositories = [] then
            .emptyScan (Report.isInterrupted world.interrupt world.instants.discoveryOver) warned
          else
            let statuses :=
              world.checkRepositories git discovery.repositories parsed.options.workers
            .scan (Report.isInterrupted world.interrupt world.instants.interruptTest) warned
              (statuses.any fun status => status.HasError)

/-- The program ends a scan without repositories early. -/
theorem runCli_exitCode (world : World) (arguments : List Text) :
    (runCli world arguments).exitCode = (course world arguments).earlyExitCode := by
  dsimp only [runCli, course]
  generalize parseOptions world.hardwareConcurrency arguments = parsed
  by_cases help : parsed.helpRequested = true
  · rw [if_pos help, if_pos help]
    rfl
  rw [if_neg help, if_neg help]
  by_cases refused : parsed.error ≠ []
  · rw [if_pos refused, if_pos refused]
    rfl
  rw [if_neg refused, if_neg refused]
  cases world.gitExecutable with
  | none => rfl
  | some git =>
      dsimp only
      generalize world.discover parsed.options.root = discovery
      by_cases noRoot : discovery.error ≠ []
      · rw [if_pos noRoot, if_pos noRoot]
        rfl
      rw [if_neg noRoot, if_neg noRoot]
      by_cases empty : discovery.repositories = []
      · rw [if_pos empty, if_pos (List.isEmpty_iff.mpr empty)]
        exact Report.reportNone_exitCode writers _ parsed.options.root discovery.warnings
      · rw [if_neg empty, if_neg (List.isEmpty_iff.not.mpr empty)]
        cases interrupted : Report.isInterrupted world.interrupt world.instants.interruptTest with
        | true => rfl
        | false => exact Report.reportChecks_exitCode writers _ _ _ discovery.warnings _

end CheckGitStatus.Cpp
