import CheckGitStatus.Report

/-!
# Exit codes

The README promises exit code `1` for operational failures, `2` for invalid usage and
`130` for an interrupted scan. What the phases of a run find is its `Course`; both
programs give a course the promised code unless the scan was interrupted and found no
repositories (`CheckGitStatus.Course.earlyExitCode_eq_iff`).
-/

namespace CheckGitStatus

/-- What the phases of a run find. A scan is the discovery and the checks of the
repositories that it found, if any. -/
inductive Course where
  | helpRequest
  | usageError
  | gitNotFound
  | rootError
  | emptyScan (interrupted warned : Bool)
  | scan (interrupted warned checkFailed : Bool)
  deriving DecidableEq, Repr

namespace Course

/-- The promised exit code of a scan. -/
def scanExitCode (interrupted warned checkFailed : Bool) : Nat :=
  if interrupted then 130 else if warned || checkFailed then 1 else 0

/-- The promised exit code. -/
def exitCode : Course → Nat
  | helpRequest => 0
  | usageError => 2
  | gitNotFound | rootError => 1
  | emptyScan interrupted warned => scanExitCode interrupted warned false
  | scan interrupted warned checkFailed => scanExitCode interrupted warned checkFailed

/-- The exit code when a scan that finds no repositories ends without regard to an interrupt. -/
def earlyExitCode : Course → Nat
  | emptyScan _ warned => scanExitCode false warned false
  | course => course.exitCode

/-- The scan was interrupted and found no repositories. -/
def InterruptedEmpty (course : Course) : Prop :=
  ∃ warned, course = emptyScan true warned

/-- Only an interrupted scan has the exit code 130. -/
theorem scanExitCode_ne_of_not_interrupted (warned checkFailed : Bool) :
    scanExitCode false warned checkFailed ≠ 130 := by
  cases warned <;> cases checkFailed <;> decide

/-- The early exit keeps the promise unless the scan was interrupted. -/
theorem earlyExitCode_eq_iff (course : Course) :
    course.earlyExitCode = course.exitCode ↔ ¬ course.InterruptedEmpty := by
  cases course with
  | emptyScan interrupted warned =>
      cases interrupted with
      | false => simp [earlyExitCode, exitCode, InterruptedEmpty]
      | true =>
          have early := scanExitCode_ne_of_not_interrupted warned false
          have late : scanExitCode true warned false = 130 := rfl
          simp [earlyExitCode, exitCode, InterruptedEmpty, late, early]
  | helpRequest | usageError | gitNotFound | rootError | scan interrupted warned checkFailed =>
      simp [earlyExitCode, InterruptedEmpty]

/-- What an exit code says of a scan with these warnings and these repositories, of which
some are checked without an error. -/
structure ScanMeaning (code : Nat) (interrupted : Bool) (warns : Text → Prop)
    (repository checked : Path → Prop) : Prop where
  success : code = 0 ↔ (∀ warning, ¬ warns warning) ∧
    ∀ path, repository path → interrupted = false ∧ checked path
  interruption : code = 130 ↔ interrupted = true ∧ ∃ path, repository path
  others : code = 0 ∨ code = 1 ∨ code = 130

/-- The exit code of a scan that tests for an interrupt only when it has found something. -/
theorem scanExitCode_meaning {interrupted : Bool} {paths : List Path} {warnings : List Text}
    {failed : Path → Bool} {warns : Text → Prop} {repository checked : Path → Prop}
    (warned : ∀ warning, warning ∈ warnings ↔ warns warning)
    (listed : ∀ path, path ∈ paths ↔ repository path)
    (succeeded : ∀ path, failed path = false ↔ checked path) :
    ScanMeaning
      (scanExitCode (interrupted && !paths.isEmpty) (!warnings.isEmpty) (paths.any failed))
      interrupted warns repository checked where
  success := by
    have zero : ∀ interrupted warned checkFailed, scanExitCode interrupted warned checkFailed = 0 ↔
        interrupted = false ∧ warned = false ∧ checkFailed = false := by decide
    simp only [← warned, ← listed, ← succeeded, zero, Bool.not_eq_false', List.isEmpty_iff,
      List.eq_nil_iff_forall_not_mem, List.any_eq_false, Bool.not_eq_true]
    constructor
    · rintro ⟨calm, noWarning, noFailure⟩
      refine ⟨noWarning, fun path inside => ⟨?_, noFailure path inside⟩⟩
      have found : paths.isEmpty = false := List.isEmpty_eq_false_iff_exists_mem.mpr ⟨path, inside⟩
      rwa [found, Bool.not_false, Bool.and_true] at calm
    · rintro ⟨noWarning, undisturbed⟩
      refine ⟨?_, noWarning, fun path inside => (undisturbed path inside).2⟩
      cases paths with
      | nil => exact Bool.and_false _
      | cons path rest => rw [(undisturbed path List.mem_cons_self).1, Bool.false_and]
  interruption := by
    have late : ∀ interrupted warned checkFailed,
        scanExitCode interrupted warned checkFailed = 130 ↔ interrupted = true := by decide
    rw [late, Bool.and_eq_true, Bool.not_eq_true', List.isEmpty_eq_false_iff_exists_mem]
    simp only [listed]
  others := by
    have all : ∀ interrupted warned checkFailed, scanExitCode interrupted warned checkFailed = 0 ∨
        scanExitCode interrupted warned checkFailed = 1 ∨
        scanExitCode interrupted warned checkFailed = 130 := by decide
    exact all _ _ _

end Course

namespace Report

variable (writers : Writers) (instants : Instants)

/-- Without repositories only the warnings of the discovery decide the exit code. -/
theorem reportNone_exitCode (root : Text) (warnings : List Text) :
    (reportNone writers instants root warnings).exitCode =
      Course.scanExitCode false (!warnings.isEmpty) false := by
  cases empty : warnings.isEmpty <;> simp [reportNone, Course.scanExitCode, empty]

/-- With repositories a warning or a status with an error makes the exit code 1. -/
theorem reportChecks_exitCode (dirtyOnly color : Bool) (warnings : List Text)
    (statuses : List RepositoryStatus) :
    (reportChecks writers instants dirtyOnly color warnings statuses).exitCode =
      Course.scanExitCode false (!warnings.isEmpty)
        (statuses.any fun status => decide status.HasError) := by
  have counted := writeCheckWarnings_count_eq_zero_iff writers statuses
  have anyFailed : (∀ status ∈ statuses, ¬ status.HasError) ↔
      (statuses.any fun status => decide status.HasError) = false := by
    simp only [List.any_eq_false, decide_eq_true_eq]
  rw [anyFailed] at counted
  unfold reportChecks Course.scanExitCode
  cases warnings.isEmpty with
  | false => rfl
  | true =>
      cases failed : statuses.any fun status => decide status.HasError with
      | false => simp [counted.mpr failed]
      | true =>
          have some : (writers.writeCheckWarnings statuses).2 ≠ 0 := by
            rw [Ne, counted, failed]
            exact Bool.noConfusion
          simp [some]

end Report

end CheckGitStatus
