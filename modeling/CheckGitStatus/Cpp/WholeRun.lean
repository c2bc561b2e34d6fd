import CheckGitStatus.Cpp.Process
import CheckGitStatus.Cpp.RunCli
import CheckGitStatus.Cpp.ScanRoot
import CheckGitStatus.Cpp.WorkerPool

/-! # The phases of a run of the C++ program

The phases of a `World` are arbitrary functions. Those of a run are the discovery in a
file system and a run of the worker pool whose checks start git
(`CheckGitStatus.Cpp.World.Runs`). Wherever the discovery ends there is such a run
(`CheckGitStatus.Cpp.exists_runs`), and however many workers there are and in whatever
order they move, every one that is not interrupted ends in the report of the top-most
repositories in the order of their path texts (`CheckGitStatus.Cpp.runCli_reports`).
-/

namespace CheckGitStatus.Cpp

open Library

/-- What a run comes upon: the files, what becomes of each command that is started, and
what each check reads from the clock and the flag. -/
structure Environment where
  files : PosixFileSystem
  execute : List Text → Execution
  readings : Path → Readings

/-- `client.check`, with the timeout that `run_cli` hands to the client. -/
def Environment.checker (environment : Environment) (git path : Path) : RepositoryStatus :=
  check (ExecGitRunner.run git environment.execute) 15000 path (environment.readings path)

/-- The phases of the world are those of the program, for a run with these options. An
interrupt that the program has not noticed after the checks was not there before. -/
structure World.Runs (world : World) (environment : Environment) (options : Options) : Prop where
  discovers : ∃ fuel, discoverRepositories environment.files.toFileSystem fuel options.root =
    some (world.discover options.root)
  checks : ∀ git, world.gitExecutable = some git → ∃ state,
    (WorkerPool.pool (world.discover options.root).repositories options.workers
      (environment.checker git)).Reachable state ∧
    state.result = some
      (world.checkRepositories git (world.discover options.root).repositories options.workers) ∧
    (Report.isInterrupted world.interrupt world.instants.interruptTest = false →
      state.cancelled = false)

/-- More fuel does not change what is discovered. -/
theorem discoverRepositories_of_le {files : FileSystem} {root : Path} {fuel more : Nat}
    (enough : fuel ≤ more) {result : DiscoveryResult}
    (ends : discoverRepositories files fuel root = some result) :
    discoverRepositories files more root = some result := by
  unfold discoverRepositories at ends ⊢
  split at ends
  · exact ends
  · dsimp only at ends ⊢
    split at ends
    · exact ends
    · obtain ⟨scan, loop, same⟩ := Option.map_eq_some_iff.mp ends
      rw [runLoop_of_le _ enough loop, Option.map_some, same]
    · exact ends

theorem remoteStatus_path (remotes : CommandResult) (path : Path) :
    (remoteStatus remotes path).path = path := by
  unfold remoteStatus readRemotes
  split
  · split <;> rfl
  · rfl

theorem worktreeStatus_path (worktree : CommandResult) (status : RepositoryStatus) :
    (worktreeStatus worktree status).path = status.path := by
  unfold worktreeStatus readStatus
  split <;> rfl

/-- A check reports under the path that it is given. -/
theorem check_path (runner : GitRunner) (timeout : Int) (path : Path) (readings : Readings) :
    (check runner timeout path readings).path = path := by
  rw [check_eq, worktreeStatus_path, remoteStatus_path]

/-- What a run writes once it has discovered without an error. -/
theorem runCli_of_noError {world : World} {arguments : List Text} {options : Options} {git : Path}
    (parsed : parseOptions world.hardwareConcurrency arguments = { options })
    (found : world.gitExecutable = some git) (noError : (world.discover options.root).error = []) :
    runCli world arguments =
      if (world.discover options.root).repositories = [] then
        Report.reportNone writers world.instants options.root
          (world.discover options.root).warnings
      else if Report.isInterrupted world.interrupt world.instants.interruptTest then
        { exitCode := 130, errorOutput := ascii "error: scan interrupted\n" }
      else
        Report.reportChecks writers world.instants options.dirtyOnly
          (!options.noColor && world.supportsColor) (world.discover options.root).warnings
          (world.checkRepositories git (world.discover options.root).repositories
            options.workers) := by
  simp only [runCli, parsed, found, noError, Bool.false_eq_true, ne_eq, not_true_eq_false,
    ↓reduceIte, List.isEmpty_iff]

namespace World.Runs

variable {world : World} {environment : Environment} {options : Options}
  (runs : world.Runs environment options)
include runs

/-- A discovery has one result. -/
theorem discover_eq {result : DiscoveryResult}
    (ends : ∃ bound, ∀ fuel, bound ≤ fuel →
      discoverRepositories environment.files.toFileSystem fuel options.root = some result) :
    world.discover options.root = result := by
  obtain ⟨fuel, discovered⟩ := runs.discovers
  obtain ⟨bound, ended⟩ := ends
  have same := discoverRepositories_of_le (le_max_left fuel bound) discovered
  rw [ended (max fuel bound) (le_max_right fuel bound)] at same
  exact (Option.some.inj same).symm

/-- Without an interrupt the pool returns the statuses of sorted paths in their order. -/
theorem checkRepositories_eq {git : Path} (found : world.gitExecutable = some git)
    (sorted : (world.discover options.root).repositories.Pairwise fun left right =>
      pathText left < pathText right)
    (calm : Report.isInterrupted world.interrupt world.instants.interruptTest = false) :
    world.checkRepositories git (world.discover options.root).repositories options.workers =
      (world.discover options.root).repositories.map (environment.checker git) := by
  obtain ⟨state, reachable, done, notCancelled⟩ := runs.checks git found
  have own : ∀ path, (environment.checker git path).path = path :=
    fun path => check_path _ _ path _
  have distinct : ((world.discover options.root).repositories.map pathText).Nodup := by
    rw [List.Nodup, List.pairwise_map]
    exact sorted.imp fun before same => Std.ne_of_lt before same
  rw [(WorkerPool.reachable_invariant reachable).result_eq distinct (fun path _ => own path)
    (notCancelled calm) done]
  apply sortByKey_of_strict
  rw [List.pairwise_map]
  exact sorted.imp fun before => by rwa [own, own]

/-- The outcome of a run. -/
theorem runCli_eq {arguments : List Text} {git : Path} {discovery : DiscoveryResult}
    (parsed : parseOptions world.hardwareConcurrency arguments = { options })
    (found : world.gitExecutable = some git)
    (discovered : world.discover options.root = discovery) (noError : discovery.error = [])
    (sorted : discovery.repositories.Pairwise fun left right => pathText left < pathText right) :
    runCli world arguments =
      if discovery.repositories = [] then
        Report.reportNone writers world.instants options.root discovery.warnings
      else if Report.isInterrupted world.interrupt world.instants.interruptTest then
        { exitCode := 130, errorOutput := ascii "error: scan interrupted\n" }
      else
        Report.reportChecks writers world.instants options.dirtyOnly
          (!options.noColor && world.supportsColor) discovery.warnings
          (discovery.repositories.map (environment.checker git)) := by
  subst discovered
  rw [runCli_of_noError parsed found noError]
  cases calm : Report.isInterrupted world.interrupt world.instants.interruptTest with
  | true => rfl
  | false => rw [runs.checkRepositories_eq found sorted calm]

end World.Runs

/-! ## Every run ends -/

/-- Every run in the surroundings ends, in whatever order its workers move, and with an
outcome of which `post` holds. -/
structure Surroundings.EndsIn (surroundings : Surroundings) (environment : Environment)
    (options : Options) (git : Path) (arguments : List Text) (discovery : DiscoveryResult)
    (post : Report.Outcome → Prop) : Prop where
  discovers : ∃ bound, ∀ fuel, bound ≤ fuel →
    discoverRepositories environment.files.toFileSystem fuel options.root = some discovery
  checks : (WorkerPool.pool discovery.repositories options.workers
    (environment.checker git)).Completes WorkerPool.Event.Own WorkerPool.Returned
  possible : ∃ world : World, world.toSurroundings = surroundings ∧
    world.Runs environment options
  every : ∀ world : World, world.toSurroundings = surroundings →
    world.Runs environment options → post (runCli world arguments)

/-- Where the discovery ends there is a run, for the pool completes with any git. -/
theorem exists_runs (surroundings : Surroundings) {environment : Environment} {options : Options}
    {discovery : DiscoveryResult}
    (discovers : ∃ fuel, discoverRepositories environment.files.toFileSystem fuel options.root =
      some discovery) :
    ∃ world : World, world.toSurroundings = surroundings ∧ world.Runs environment options := by
  have checked := fun git => WorkerPool.exists_returned discovery.repositories options.workers
    (environment.checker git)
  choose states results reachable done calm using checked
  refine ⟨⟨surroundings, fun _ => discovery, fun git _ _ => results git⟩, rfl, discovers, ?_⟩
  exact fun git _ => ⟨states git, reachable git, done git, fun _ => calm git⟩

/-- To see what every run comes to it is enough to look at those with this discovery. -/
theorem Surroundings.EndsIn.of_discovers {surroundings : Surroundings} {environment : Environment}
    {options : Options} {git : Path} {arguments : List Text} {discovery : DiscoveryResult}
    {post : Report.Outcome → Prop}
    (discovers : ∃ bound, ∀ fuel, bound ≤ fuel →
      discoverRepositories environment.files.toFileSystem fuel options.root = some discovery)
    (every : ∀ world : World, world.toSurroundings = surroundings →
      world.Runs environment options → world.discover options.root = discovery →
        post (runCli world arguments)) :
    surroundings.EndsIn environment options git arguments discovery post where
  discovers := discovers
  checks := WorkerPool.completes _ _ _
  possible := by
    obtain ⟨bound, ends⟩ := discovers
    exact exists_runs surroundings ⟨bound, ends bound le_rfl⟩
  every world same runs := every world same runs (runs.discover_eq discovers)

/-- **What a whole run reports.** From an accepted root, under any spelling, every run that
is not interrupted ends, in the report of the top-most repositories, each with the status
that its check computes. -/
theorem runCli_reports {surroundings : Surroundings} {environment : Environment}
    {arguments : List Text} {options : Options} {git path : Path}
    (parsed : parseOptions surroundings.hardwareConcurrency arguments = { options })
    (found : surroundings.gitExecutable = some git)
    (resolved : absolute environment.files.toFileSystem options.root = .ok path)
    (accepted : environment.files.status (cleanPath path) = .ok .directory)
    (finite : environment.files.Finite (cleanPath path))
    (calm : Report.isInterrupted surroundings.interrupt surroundings.instants.interruptTest =
      false) :
    ∃ discovery,
      FindsTopRepositories environment.files.toFileSystem (lexicallyNormal path) discovery ∧
      surroundings.EndsIn environment options git arguments discovery fun outcome =>
        outcome =
          if discovery.repositories = [] then
            Report.reportNone writers surroundings.instants options.root discovery.warnings
          else
            Report.reportChecks writers surroundings.instants options.dirtyOnly
              (!options.noColor && surroundings.supportsColor) discovery.warnings
              (discovery.repositories.map (environment.checker git)) := by
  obtain ⟨discovery, bound, ends, finds⟩ := exists_findsTopRepositories resolved accepted finite
  refine ⟨discovery, finds, .of_discovers ⟨bound, ends⟩ ?_⟩
  rintro world rfl runs discovered
  rw [runs.runCli_eq parsed found discovered finds.noError finds.sorted, calm,
    if_neg Bool.false_ne_true]

/-- Every command succeeds and writes nothing. -/
def silentEnvironment (files : PosixFileSystem) : Environment where
  files
  execute _ := { started := 0, turns := [], status := .exited 0, captured := [] }
  readings _ := stillReadings

/-- The surroundings of a run in the directory `/w`. -/
def buildSurroundings : Surroundings where
  hardwareConcurrency := 8
  gitExecutable := some (ascii "/usr/bin/git")
  supportsColor := false
  instants := ⟨0, 0, 0, 0, 0, 0, 0⟩
  interrupt := none

theorem accepted_buildRoot :
    buildRoot.status (cleanPath (ascii "/w/build/")) = .ok .directory := by decide

theorem absolute_buildRoot :
    absolute buildRoot.toFileSystem (ascii "build/") = .ok (ascii "/w/build/") := by decide

theorem parseOptions_buildRoot :
    parseOptions buildSurroundings.hardwareConcurrency [ascii "build/"] =
      { options := { workers := 8, root := ascii "build/" } } := by
  change parseOptions 8 _ = _
  decide

theorem runCli_reports_buildRoot :
    ∃ discovery, FindsTopRepositories buildRoot.toFileSystem (ascii "/w/build/") discovery ∧
      buildSurroundings.EndsIn (silentEnvironment buildRoot)
        { workers := 8, root := ascii "build/" } (ascii "/usr/bin/git") [ascii "build/"]
        discovery fun outcome => outcome =
          if discovery.repositories = [] then
            Report.reportNone writers ⟨0, 0, 0, 0, 0, 0, 0⟩ (ascii "build/") discovery.warnings
          else
            Report.reportChecks writers ⟨0, 0, 0, 0, 0, 0, 0⟩ false false discovery.warnings
              (discovery.repositories.map
                ((silentEnvironment buildRoot).checker (ascii "/usr/bin/git"))) :=
  @runCli_reports buildSurroundings (silentEnvironment buildRoot) [ascii "build/"]
    { workers := 8, root := ascii "build/" } (ascii "/usr/bin/git") (ascii "/w/build/")
    parseOptions_buildRoot rfl absolute_buildRoot accepted_buildRoot buildRoot_finite rfl

end CheckGitStatus.Cpp
