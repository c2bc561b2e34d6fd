import CheckGitStatus.Go.Porcelain
import CheckGitStatus.Go.WholeRun

/-! # What the exit code of a Go run says

As in the C++ program no failure is lost on the way to the exit code
(`CheckGitStatus.Go.runCLI_scanMeaning`). Here a check fails also when git succeeds and
writes a count that cannot be read.
-/

namespace CheckGitStatus.Go

open Course (ScanMeaning scanExitCode scanExitCode_meaning)

/-! ## The checks -/

/-- A runner returns an output exactly if the command does not fail. -/
theorem execRun_eq_ok_iff {combinedOutput : List Text → Text × Option Text} {directory : Path}
    {arguments : List Text} {output : Text} :
    execRun combinedOutput directory arguments = .ok output ↔
      (combinedOutput ([ascii "-C", directory] ++ arguments)).2 = none ∧
        trimSpace (combinedOutput ([ascii "-C", directory] ++ arguments)).1 = output := by
  unfold execRun
  generalize combinedOutput ([ascii "-C", directory] ++ arguments) = result
  obtain ⟨written, failure⟩ := result
  cases failure with
  | none => simp
  | some error =>
      dsimp only
      split <;> simp

/-- The remote check of a new status sets no error but its own. -/
theorem checkRemote_errors (runner : GitRunner) (path : Path) :
    ((checkRemote runner path { path }).remoteError.isSome ↔
      ¬ ∃ listing, runner path remoteArguments = .ok listing) ∧
    (checkRemote runner path { path }).worktreeError = none ∧
    (checkRemote runner path { path }).upstreamError = none := by
  refine ⟨?_, ?_, checkRemote_upstreamError runner path { path }⟩
  · cases result : runner path remoteArguments with
    | error error => simp [checkRemote, result]
    | ok listing =>
        rw [checkRemote_of_result result]
        unfold RepositoryStatus.withRemote
        split <;> simp
  · cases result : runner path remoteArguments with
    | error error => simp [checkRemote, result]
    | ok listing =>
        rw [checkRemote_of_result result]
        unfold RepositoryStatus.withRemote
        split <;> rfl

/-- A check ends without an error exactly if both commands succeed and every count in the
status can be read. -/
theorem check_hasError_iff (quote : Text → Text) (runner : GitRunner) (path : Path) :
    (check quote runner path).HasError ↔
      ¬ ((∃ listing, runner path remoteArguments = .ok listing) ∧
        ∃ output, runner path statusArguments = .ok output ∧
          (statusLines output).all StatusLine.readable = true) := by
  obtain ⟨remote, worktree, upstream⟩ := checkRemote_errors runner path
  rw [check, RepositoryStatus.HasError]
  generalize checkRemote runner path { path } = status at *
  cases result : runner path statusArguments with
  | error error => simp [checkStatus, result]
  | ok output =>
      by_cases readable : (statusLines output).all StatusLine.readable = true
      · rw [checkStatus_of_readable result readable, and_iff_left ⟨output, rfl, readable⟩]
        simp only [remote, worktree, upstream, Option.isSome_none, Bool.false_eq_true, or_false]
      · obtain ⟨scan, error, checked⟩ := checkStatus_of_unreadable quote status result readable
        rw [checked]
        refine iff_of_true (.inr (.inr rfl)) ?_
        rintro ⟨_, _, same, all⟩
        cases same
        exact readable all

/-- What the commands of a check write and whether they fail lets it end without an error. -/
structure Environment.Completes (environment : Environment) (git path : Path) : Prop where
  remote : (environment.combinedOutput git ([ascii "-C", path] ++ remoteArguments)).2 = none
  status : (environment.combinedOutput git ([ascii "-C", path] ++ statusArguments)).2 = none
  counts : (statusLines (trimSpace (environment.combinedOutput git
    ([ascii "-C", path] ++ statusArguments)).1)).all StatusLine.readable = true

/-- A checked repository has an error exactly if its commands did not complete. -/
theorem Environment.checker_hasError_iff {environment : Environment} {quote : Text → Text}
    {git path : Path} :
    (environment.checker quote git path).HasError ↔ ¬ environment.Completes git path := by
  rw [checker, check_hasError_iff, not_iff_not]
  simp only [execRun_eq_ok_iff]
  constructor
  · rintro ⟨⟨_, remote, _⟩, _, ⟨status, rfl⟩, counts⟩
    exact ⟨remote, status, counts⟩
  · rintro ⟨remote, status, counts⟩
    exact ⟨⟨_, remote, rfl⟩, _, ⟨status, rfl⟩, counts⟩

/-! ## The run -/

/-- The exit code of a run, from what its phases have found. -/
theorem World.Runs.exitCode_eq {world : World} {environment : Environment} {options : Options}
    (runs : world.Runs environment options) {arguments : List Text} {git root : Path}
    {result : List Path × List Text × Option Text}
    (parsed : (parseOptions world.quote world.numCPU arguments).1 = .ok options)
    (found : world.gitBinary = .ok git) (discovered : world.discover options.root = result)
    (finds : FindsReadable world.quote environment.files.toFileSystem root result) :
    (runCLI world arguments).exitCode =
      scanExitCode
        (Report.isInterrupted world.interrupt world.instants.interruptTest && !result.1.isEmpty)
        (!result.2.1.isEmpty)
        (result.1.any fun path =>
          decide (environment.checker world.quote git path).HasError) := by
  rw [runs.runCLI_eq parsed found discovered finds.top.noError finds.top.sorted]
  by_cases empty : result.1 = []
  · rw [if_pos empty, empty, Report.reportNone_exitCode, List.isEmpty_nil, Bool.not_true,
      Bool.and_false, List.any_nil]
  rw [if_neg empty, List.isEmpty_eq_false_iff.mpr empty, Bool.not_false, Bool.and_true]
  cases Report.isInterrupted world.interrupt world.instants.interruptTest with
  | true => rfl
  | false =>
      rw [if_neg Bool.false_ne_true, Report.reportChecks_exitCode, List.any_map]
      rfl

/-- **What the exit code of a whole run says.** Every run from an accepted root that is no
link ends, and with 0 exactly if no directory that the walk reads shows a failure, and, if
it finds any repository, no interrupt was noticed and git answered both commands of each
one readably. -/
theorem runCLI_scanMeaning {surroundings : Surroundings} {environment : Environment}
    {arguments : List Text} {options : Options} {git absRoot : Path}
    (parsed : (parseOptions surroundings.quote surroundings.numCPU arguments).1 = .ok options)
    (found : surroundings.gitBinary = .ok git)
    (resolved : abs environment.files.toFileSystem options.root = .ok absRoot)
    (accepted : environment.files.status absRoot = .ok .directory)
    (plain : ¬ environment.files.IsLink absRoot) (finite : environment.files.Finite absRoot) :
    ∃ discovery, surroundings.EndsIn environment options git arguments discovery fun outcome =>
      ScanMeaning outcome.exitCode
        (Report.isInterrupted surroundings.interrupt surroundings.instants.interruptTest)
        (fun warning => ∃ directory,
          (withoutPartial environment.files.toFileSystem).Inspected absRoot directory ∧
          environment.files.hasMarker directory = false ∧
          FailureMessage surroundings.quote environment.files.toFileSystem directory warning)
        ((withoutPartial environment.files.toFileSystem).IsTopRepository absRoot)
        (environment.Completes git) := by
  obtain ⟨visits, bound, worksOff, ends⟩ :=
    exists_visits_of_not_isLink surroundings.quote resolved accepted plain finite
  have finds := resultOf_findsReadable surroundings.quote (abs_isClean resolved) worksOff
  refine ⟨_, .of_discovers parsed ⟨bound, ends⟩ ?_⟩
  rintro world rfl runs discovered
  rw [runs.exitCode_eq parsed found discovered finds]
  refine scanExitCode_meaning finds.warnings finds.top.repositories fun repository => ?_
  rw [decide_eq_false_iff_not, Environment.checker_hasError_iff, not_not]

/-- What the exit code of the run over the tree with the partial listing says. -/
theorem runCLI_scanMeaning_partialTree :
    ∃ discovery, partialSurroundings.EndsIn (silentEnvironment partialTree)
      { workers := 8, root := ascii "." } (ascii "/usr/bin/git") [] discovery fun outcome =>
        ScanMeaning outcome.exitCode false
          (fun warning => ∃ directory,
            (withoutPartial partialTree.toFileSystem).Inspected (ascii "/t") directory ∧
            partialTree.hasMarker directory = false ∧
            FailureMessage plainQuote partialTree.toFileSystem directory warning)
          ((withoutPartial partialTree.toFileSystem).IsTopRepository (ascii "/t"))
          ((silentEnvironment partialTree).Completes (ascii "/usr/bin/git")) := by
  have parsed : (parseOptions partialSurroundings.quote partialSurroundings.numCPU []).1 =
      .ok { workers := 8, root := ascii "." } := by decide
  have resolved : abs partialTree.toFileSystem (ascii ".") = .ok (ascii "/t") := by decide
  exact @runCLI_scanMeaning partialSurroundings (silentEnvironment partialTree) [] _
    (ascii "/usr/bin/git") (ascii "/t") parsed rfl resolved (by decide) partialTree_real
    partialTree_finite

end CheckGitStatus.Go
