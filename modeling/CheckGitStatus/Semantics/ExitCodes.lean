import CheckGitStatus.Cpp.RunCli
import CheckGitStatus.Go.RunCli

/-!
# The exit codes of both programs

The early exit for a scan without repositories does not test for an interrupt. This is
the only departure of either program from the promised exit codes
(`CheckGitStatus.exitCode_promised_iff`).
-/

namespace CheckGitStatus

/-- Each program ends with the promised exit code, for all arguments, all outcomes of
its phases and all moments of an interrupt, unless the scan was interrupted and found
no repositories. -/
theorem exitCode_promised_iff (cppWorld : Cpp.World) (goWorld : Go.World)
    (arguments : List Text) :
    ((Cpp.runCli cppWorld arguments).exitCode = (Cpp.course cppWorld arguments).exitCode ↔
      ¬ (Cpp.course cppWorld arguments).InterruptedEmpty) ∧
    ((Go.runCLI goWorld arguments).exitCode = (Go.course goWorld arguments).exitCode ↔
      ¬ (Go.course goWorld arguments).InterruptedEmpty) := by
  rw [Cpp.runCli_exitCode, Go.runCLI_exitCode]
  exact ⟨Course.earlyExitCode_eq_iff _, Course.earlyExitCode_eq_iff _⟩

/-- A discovery that is interrupted after one of two seconds. -/
def interruptedDiscovery : Report.Instants where
  runStarted := 0
  discoveryStarted := 0
  discoveryOver := 2000000000
  checksStarted := 2000000000
  checksOver := 2000000000
  interruptTest := 2000000000
  finished := 2000000000

/-- A run of the C++ program without repositories, interrupted during its discovery. -/
def cppEmptyScan : Cpp.World where
  hardwareConcurrency := 8
  gitExecutable := some (ascii "/usr/bin/git")
  discover _ := {}
  checkRepositories _ _ _ := []
  supportsColor := false
  instants := interruptedDiscovery
  interrupt := some 1000000000

/-- The same run of the Go program. -/
def goEmptyScan : Go.World where
  numCPU := 8
  quote := id
  gitBinary := .ok (ascii "/usr/bin/git")
  discover _ := ([], [], none)
  checkRepositories _ _ _ := []
  supportsColor := false
  instants := interruptedDiscovery
  interrupt := some 1000000000

/-- Interrupted during the discovery of an empty directory, both programs end with success. -/
theorem emptyScan_interrupt_lost :
    ((Cpp.runCli cppEmptyScan [ascii "empty"]).exitCode = 0 ∧
      (Cpp.course cppEmptyScan [ascii "empty"]).exitCode = 130) ∧
    ((Go.runCLI goEmptyScan [ascii "empty"]).exitCode = 0 ∧
      (Go.course goEmptyScan [ascii "empty"]).exitCode = 130) := by
  decide

end CheckGitStatus
