import CheckGitStatus.Cpp.WholeRun

/-! # What the exit code of a C++ run says

A failure can occur at every level of a run: in the discovery, when a command is to be
started, while it runs and in its exit status. None of them is lost on the way to the exit
code, and nothing else changes it
(`CheckGitStatus.Cpp.runCli_scanMeaning`).
-/

namespace CheckGitStatus.Cpp

open Course (ScanMeaning scanExitCode scanExitCode_meaning)

/-! ## The checks -/

/-- A command is started in time and exits by itself in time, with 0. -/
structure Completes (git path : Path) (execute : List Text → Execution) (arguments : List Text)
    (deadline : Int) (reading : Reading) : Prop where
  calm : reading.cancelled = false
  time : 0 < remaining deadline reading.now
  exits : (execute (ExecGitRunner.commandArguments git path arguments)).Exits
    (remaining deadline reading.now) 0

/-- A command is a success exactly if it completes. -/
theorem runBeforeDeadline_ok_iff {git path : Path} {execute : List Text → Execution}
    {arguments : List Text} {deadline timeout : Int} {reading : Reading} :
    (runBeforeDeadline (ExecGitRunner.run git execute) path arguments deadline timeout
      reading).ok = true ↔ Completes git path execute arguments deadline reading := by
  constructor
  · intro ok
    unfold runBeforeDeadline at ok
    split at ok
    · cases ok
    rename_i calm
    split at ok
    · exact absurd ok (@not_ok_of_error _ (ascii "timed out after ") _ (by decide) rfl)
    rename_i late
    exact ⟨(Bool.not_eq_true _).mp calm, not_le.mp late, ExecGitRunner.run_ok_iff.mp ok⟩
  · intro completes
    rw [runBeforeDeadline_eq completes.calm completes.time]
    exact ExecGitRunner.run_ok_iff.mpr completes.exits

/-- Both commands of the check complete. -/
structure Environment.Completes (environment : Environment) (git path : Path) : Prop where
  remote : Cpp.Completes git path environment.execute remoteArguments
    ((environment.readings path).started + 15000 * nanosecondsPerMillisecond)
    (environment.readings path).remote
  status : Cpp.Completes git path environment.execute statusArguments
    ((environment.readings path).started + 15000 * nanosecondsPerMillisecond)
    (environment.readings path).status

/-- A checked repository has an error exactly if its commands did not complete. -/
theorem Environment.checker_hasError_iff {environment : Environment} {git path : Path} :
    (environment.checker git path).HasError ↔ ¬ environment.Completes git path := by
  have completes : environment.Completes git path ↔ _ ∧ _ :=
    ⟨fun both => ⟨both.remote, both.status⟩, fun both => ⟨both.1, both.2⟩⟩
  rw [completes, ← @runBeforeDeadline_ok_iff _ _ _ _ _ 15000,
    ← @runBeforeDeadline_ok_iff _ _ _ _ _ 15000, checker, check_eq]
  generalize runBeforeDeadline _ _ remoteArguments _ _ _ = remotes
  generalize runBeforeDeadline _ _ statusArguments _ _ _ = worktree
  obtain ⟨remote, status, upstream⟩ := check_errors remotes worktree path
  rw [RepositoryStatus.HasError, remote, status, upstream]
  cases remotes.ok <;> cases worktree.ok <;> simp

/-! ## The run -/

/-- The exit code of a run, from what its phases have found. -/
theorem World.Runs.exitCode_eq {world : World} {environment : Environment} {options : Options}
    (runs : world.Runs environment options) {arguments : List Text} {git root : Path}
    {discovery : DiscoveryResult}
    (parsed : parseOptions world.hardwareConcurrency arguments = { options })
    (found : world.gitExecutable = some git)
    (discovered : world.discover options.root = discovery)
    (finds : FindsTopRepositories environment.files.toFileSystem root discovery) :
    (runCli world arguments).exitCode =
      scanExitCode
        (Report.isInterrupted world.interrupt world.instants.interruptTest &&
          !discovery.repositories.isEmpty)
        (!discovery.warnings.isEmpty)
        (discovery.repositories.any fun path =>
          decide (environment.checker git path).HasError) := by
  rw [runs.runCli_eq parsed found discovered finds.noError finds.sorted]
  by_cases empty : discovery.repositories = []
  · rw [if_pos empty, empty, Report.reportNone_exitCode, List.isEmpty_nil, Bool.not_true,
      Bool.and_false, List.any_nil]
  rw [if_neg empty, List.isEmpty_eq_false_iff.mpr empty, Bool.not_false, Bool.and_true]
  cases Report.isInterrupted world.interrupt world.instants.interruptTest with
  | true => rfl
  | false =>
      rw [if_neg Bool.false_ne_true, Report.reportChecks_exitCode, List.any_map]
      rfl

/-- **What the exit code of a whole run says.** Every run from an accepted root ends, and with
0 exactly if the discovery met no failure, and, if there is any repository, no interrupt was
noticed and both commands of each one completed. -/
theorem runCli_scanMeaning {surroundings : Surroundings} {environment : Environment}
    {arguments : List Text} {options : Options} {git path : Path}
    (parsed : parseOptions surroundings.hardwareConcurrency arguments = { options })
    (found : surroundings.gitExecutable = some git)
    (resolved : absolute environment.files.toFileSystem options.root = .ok path)
    (accepted : environment.files.status (cleanPath path) = .ok .directory)
    (finite : environment.files.Finite (cleanPath path)) :
    ∃ discovery, surroundings.EndsIn environment options git arguments discovery fun outcome =>
      ScanMeaning outcome.exitCode
        (Report.isInterrupted surroundings.interrupt surroundings.instants.interruptTest)
        (fun warning => ∃ directory,
          environment.files.Inspected (lexicallyNormal path) directory ∧
          environment.files.hasMarker directory = false ∧
          FailureMessage environment.files.toFileSystem directory warning)
        (environment.files.IsTopRepository (lexicallyNormal path))
        (environment.Completes git) := by
  obtain ⟨discovery, bound, ends, finds⟩ := exists_findsTopRepositories resolved accepted finite
  refine ⟨discovery, .of_discovers ⟨bound, ends⟩ ?_⟩
  rintro world rfl runs discovered
  rw [runs.exitCode_eq parsed found discovered finds]
  refine scanExitCode_meaning finds.warnings finds.repositories fun repository => ?_
  rw [decide_eq_false_iff_not, Environment.checker_hasError_iff, not_not]

theorem runCli_scanMeaning_buildRoot :
    ∃ discovery, buildSurroundings.EndsIn (silentEnvironment buildRoot)
      { workers := 8, root := ascii "build/" } (ascii "/usr/bin/git") [ascii "build/"]
      discovery fun outcome => ScanMeaning outcome.exitCode false
        (fun warning => ∃ directory, buildRoot.Inspected (ascii "/w/build/") directory ∧
          buildRoot.hasMarker directory = false ∧
          FailureMessage buildRoot.toFileSystem directory warning)
        (buildRoot.IsTopRepository (ascii "/w/build/"))
        ((silentEnvironment buildRoot).Completes (ascii "/usr/bin/git")) :=
  @runCli_scanMeaning buildSurroundings (silentEnvironment buildRoot) [ascii "build/"]
    { workers := 8, root := ascii "build/" } (ascii "/usr/bin/git") (ascii "/w/build/")
    parseOptions_buildRoot rfl absolute_buildRoot accepted_buildRoot buildRoot_finite

end CheckGitStatus.Cpp
