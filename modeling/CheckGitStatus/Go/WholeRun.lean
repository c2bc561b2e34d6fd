import CheckGitStatus.Go.GitClient
import CheckGitStatus.Go.ListingFailures
import CheckGitStatus.Go.RunCli
import CheckGitStatus.Go.WorkerPool

/-! # The phases of a run of the Go program

As for the C++ program, the phases of a run are the discovery in a file system and a run
of the worker pool whose checks start git (`CheckGitStatus.Go.World.Runs`). There is such
a run wherever the discovery ends (`CheckGitStatus.Go.exists_runs`), and however the
goroutines are scheduled, every one that is not interrupted ends in the report of the
repositories that its walk finds in the order of their paths
(`CheckGitStatus.Go.runCLI_reports`).
-/

namespace CheckGitStatus.Go

open Library

/-! ## Fuel -/

section Fuel

variable {σ : Type*} {files : FileSystem} {callback : WalkDirFunc σ}

/-- A walk of the entries that ends is the same for a callee that ends more often. -/
theorem walkEntries_of_imp {walk other : Path → Entry → σ → Option (σ × Option WalkSignal)}
    (agrees : ∀ path entry state result, walk path entry state = some result →
      other path entry state = some result) {path : Path} {entries : List Entry} {state : σ}
    {result : σ × Option WalkSignal}
    (ends : walkEntries walk path entries state = some result) :
    walkEntries other path entries state = some result := by
  induction entries generalizing state with
  | nil => exact ends
  | cons entry rest ih =>
      rw [walkEntries] at ends ⊢
      cases walked : walk (join path entry.name) entry state with
      | none =>
          rw [walked] at ends
          cases ends
      | some outcome =>
          rw [walked] at ends
          rw [agrees _ _ _ _ walked]
          obtain ⟨next, signal⟩ := outcome
          rcases signal with _ | _ | error
          · exact ih ends
          · exact ends
          · exact ends

/-- More fuel does not change where a walk ends. -/
theorem walkDir_of_le {fuel more : Nat} (enough : fuel ≤ more) {path : Path} {entry : Entry}
    {state : σ} {result : σ × Option WalkSignal}
    (ends : walkDir files callback fuel path entry state = some result) :
    walkDir files callback more path entry state = some result := by
  induction fuel generalizing more path entry state result with
  | zero => cases ends
  | succ fuel ih =>
      obtain ⟨more, rfl⟩ := Nat.exists_eq_add_of_le' (Nat.one_le_of_lt enough)
      have deeper : ∀ path entry state result,
          walkDir files callback fuel path entry state = some result →
          walkDir files callback more path entry state = some result :=
        fun _ _ _ _ => ih (Nat.le_of_succ_le_succ enough)
      rw [walkDir] at ends ⊢
      split at ends
      · exact ends
      · exact ends
      · by_cases leaf : (!Entry.isDir entry) = true
        · rw [if_pos leaf] at ends ⊢
          exact ends
        · rw [if_neg leaf] at ends ⊢
          dsimp only at ends ⊢
          split at ends
          · exact ends
          · exact ends
          · exact walkEntries_of_imp deeper ends

/-- More fuel does not change what is discovered. -/
theorem discoverRepositories_of_le {quote : Text → Text} {files : PosixFileSystem} {root : Path}
    {fuel more : Nat} (enough : fuel ≤ more) {result : List Path × List Text × Option Text}
    (ends : discoverRepositories quote files fuel root = some result) :
    discoverRepositories quote files more root = some result := by
  unfold discoverRepositories at ends ⊢
  split at ends
  · exact ends
  · split at ends
    · exact ends
    · obtain ⟨walked, walks, same⟩ := Option.map_eq_some_iff.mp ends
      rw [Option.map_eq_some_iff]
      refine ⟨walked, ?_, same⟩
      unfold filepathWalkDir at walks ⊢
      split at walks
      · exact walks
      · obtain ⟨outcome, ended, same⟩ := Option.map_eq_some_iff.mp walks
        rw [walkDir_of_le enough ended, Option.map_some, same]
    · exact ends

end Fuel

/-! ## The phases -/

/-- What a run comes upon: the files, and what a command that is started leaves behind,
given the binary. -/
structure Environment where
  files : PosixFileSystem
  combinedOutput : Path → List Text → Text × Option Text

/-- `client.Check`. -/
def Environment.checker (environment : Environment) (quote : Text → Text) (git path : Path) :
    RepositoryStatus :=
  check quote (execRun (environment.combinedOutput git)) path

/-- The phases of the world are those of the program, for a run with these options. -/
structure World.Runs (world : World) (environment : Environment) (options : Options) : Prop where
  discovers : ∃ fuel, discoverRepositories world.quote environment.files fuel options.root =
    some (world.discover options.root)
  checks : ∀ git, world.gitBinary = .ok git → ∃ state,
    (WorkerPool.pool (world.discover options.root).1 options.workers.toNat
      (environment.checker world.quote git)).Reachable state ∧
    state.result = some
      (world.checkRepositories git (world.discover options.root).1 options.workers)

/-- A check reports under the path that it is given. -/
theorem check_path (quote : Text → Text) (runner : GitRunner) (path : Path) :
    (check quote runner path).path = path := by
  have kept : (checkRemote runner path { path }).path = path := by
    unfold checkRemote
    split
    · rfl
    · split <;> rfl
  unfold check checkStatus
  split
  · exact kept
  · split
    · exact kept
    · exact kept

/-- What a run writes once it has discovered without an error. -/
theorem runCLI_of_noError {world : World} {arguments : List Text} {options : Options} {git : Path}
    (parsed : (parseOptions world.quote world.numCPU arguments).1 = .ok options)
    (found : world.gitBinary = .ok git) (noError : (world.discover options.root).2.2 = none) :
    runCLI world arguments =
      if (world.discover options.root).1 = [] then
        Report.reportNone writers world.instants options.root (world.discover options.root).2.1
      else if Report.isInterrupted world.interrupt world.instants.interruptTest then
        { exitCode := 130, errorOutput := ascii "error: scan interrupted\n" }
      else
        Report.reportChecks writers world.instants options.dirtyOnly
          (!options.noColor && world.supportsColor) (world.discover options.root).2.1
          (world.checkRepositories git (world.discover options.root).1 options.workers) := by
  simp only [runCLI, parsed, found, noError, List.length_eq_zero_iff]

namespace World.Runs

variable {world : World} {environment : Environment} {options : Options}
  (runs : world.Runs environment options)
include runs

/-- A discovery has one result. -/
theorem discover_eq {result : List Path × List Text × Option Text}
    (ends : ∃ bound, ∀ fuel, bound ≤ fuel →
      discoverRepositories world.quote environment.files fuel options.root = some result) :
    world.discover options.root = result := by
  obtain ⟨fuel, discovered⟩ := runs.discovers
  obtain ⟨bound, ended⟩ := ends
  have same := discoverRepositories_of_le (le_max_left fuel bound) discovered
  rw [ended (max fuel bound) (le_max_right fuel bound)] at same
  exact (Option.some.inj same).symm

/-- The pool returns the statuses of sorted paths in their order. -/
theorem checkRepositories_eq {git : Path} (found : world.gitBinary = .ok git)
    (sorted : (world.discover options.root).1.Pairwise fun left right =>
      pathText left < pathText right) :
    world.checkRepositories git (world.discover options.root).1 options.workers =
      (world.discover options.root).1.map (environment.checker world.quote git) := by
  obtain ⟨state, reachable, done⟩ := runs.checks git found
  have own : ∀ path, (environment.checker world.quote git path).path = path :=
    fun path => check_path _ _ path
  have distinct : (world.discover options.root).1.Nodup :=
    sorted.imp fun before same => Std.ne_of_lt before same
  rw [(WorkerPool.reachable_invariant reachable).result_eq distinct (fun path _ => own path) done]
  apply sortByKey_of_strict
  rw [List.pairwise_map]
  exact sorted.imp fun before => by rwa [own, own]

/-- The outcome of a run. -/
theorem runCLI_eq {arguments : List Text} {git : Path}
    {discovery : List Path × List Text × Option Text}
    (parsed : (parseOptions world.quote world.numCPU arguments).1 = .ok options)
    (found : world.gitBinary = .ok git) (discovered : world.discover options.root = discovery)
    (noError : discovery.2.2 = none)
    (sorted : discovery.1.Pairwise fun left right => pathText left < pathText right) :
    runCLI world arguments =
      if discovery.1 = [] then
        Report.reportNone writers world.instants options.root discovery.2.1
      else if Report.isInterrupted world.interrupt world.instants.interruptTest then
        { exitCode := 130, errorOutput := ascii "error: scan interrupted\n" }
      else
        Report.reportChecks writers world.instants options.dirtyOnly
          (!options.noColor && world.supportsColor) discovery.2.1
          (discovery.1.map (environment.checker world.quote git)) := by
  subst discovered
  rw [runCLI_of_noError parsed found noError, runs.checkRepositories_eq found sorted]

end World.Runs

/-! ## Every run ends -/

/-- Every run in the surroundings ends, however its goroutines are scheduled, and with an
outcome of which `post` holds. -/
structure Surroundings.EndsIn (surroundings : Surroundings) (environment : Environment)
    (options : Options) (git : Path) (arguments : List Text)
    (discovery : List Path × List Text × Option Text) (post : Report.Outcome → Prop) : Prop where
  discovers : ∃ bound, ∀ fuel, bound ≤ fuel →
    discoverRepositories surroundings.quote environment.files fuel options.root = some discovery
  checks : (WorkerPool.pool discovery.1 options.workers.toNat
    (environment.checker surroundings.quote git)).Completes (fun _ => True) WorkerPool.Returned
  possible : ∃ world : World, world.toSurroundings = surroundings ∧
    world.Runs environment options
  every : ∀ world : World, world.toSurroundings = surroundings →
    world.Runs environment options → post (runCLI world arguments)

/-- Where the discovery ends there is a run, for the pool completes with any git. -/
theorem exists_runs (surroundings : Surroundings) {environment : Environment} {options : Options}
    {discovery : List Path × List Text × Option Text} (positive : 1 ≤ options.workers)
    (discovers : ∃ fuel, discoverRepositories surroundings.quote environment.files fuel
      options.root = some discovery) :
    ∃ world : World, world.toSurroundings = surroundings ∧ world.Runs environment options := by
  have worker : 1 ≤ options.workers.toNat := by omega
  have checked := fun git => WorkerPool.exists_returned discovery.1 worker
    (environment.checker surroundings.quote git)
  choose states results reachable done using checked
  refine ⟨⟨surroundings, fun _ => discovery, fun git _ _ => results git⟩, rfl, discovers, ?_⟩
  exact fun git _ => ⟨states git, reachable git, done git⟩

/-- To see what every run comes to it is enough to look at those with this discovery. -/
theorem Surroundings.EndsIn.of_discovers {surroundings : Surroundings} {environment : Environment}
    {options : Options} {git : Path} {arguments : List Text}
    {discovery : List Path × List Text × Option Text} {post : Report.Outcome → Prop}
    (parsed : (parseOptions surroundings.quote surroundings.numCPU arguments).1 = .ok options)
    (discovers : ∃ bound, ∀ fuel, bound ≤ fuel →
      discoverRepositories surroundings.quote environment.files fuel options.root =
        some discovery)
    (every : ∀ world : World, world.toSurroundings = surroundings →
      world.Runs environment options → world.discover options.root = discovery →
        post (runCLI world arguments)) :
    surroundings.EndsIn environment options git arguments discovery post where
  discovers := discovers
  checks := by
    have positive := one_le_workers_of_parseOptions parsed
    exact WorkerPool.completes _ (by omega) _
  possible := by
    obtain ⟨bound, ends⟩ := discovers
    exact exists_runs surroundings (one_le_workers_of_parseOptions parsed)
      ⟨bound, ends bound le_rfl⟩
  every world same runs := by
    subst same
    exact every world rfl runs (runs.discover_eq discovers)

/-- **What a whole run reports.** From an accepted root that is no link every run that is
not interrupted ends, in the report of the top-most repositories of the tree without the
partial listings, each with the status that its check computes. -/
theorem runCLI_reports {surroundings : Surroundings} {environment : Environment}
    {arguments : List Text} {options : Options} {git absRoot : Path}
    (parsed : (parseOptions surroundings.quote surroundings.numCPU arguments).1 = .ok options)
    (found : surroundings.gitBinary = .ok git)
    (resolved : abs environment.files.toFileSystem options.root = .ok absRoot)
    (accepted : environment.files.status absRoot = .ok .directory)
    (plain : ¬ environment.files.IsLink absRoot) (finite : environment.files.Finite absRoot)
    (calm : Report.isInterrupted surroundings.interrupt surroundings.instants.interruptTest =
      false) :
    ∃ result, FindsReadable surroundings.quote environment.files.toFileSystem absRoot result ∧
      surroundings.EndsIn environment options git arguments result fun outcome =>
        outcome =
          if result.1 = [] then
            Report.reportNone writers surroundings.instants options.root result.2.1
          else
            Report.reportChecks writers surroundings.instants options.dirtyOnly
              (!options.noColor && surroundings.supportsColor) result.2.1
              (result.1.map (environment.checker surroundings.quote git)) := by
  obtain ⟨visits, bound, worksOff, ends⟩ :=
    exists_visits_of_not_isLink surroundings.quote resolved accepted plain finite
  have finds := resultOf_findsReadable surroundings.quote (abs_isClean resolved) worksOff
  refine ⟨_, finds, .of_discovers parsed ⟨bound, ends⟩ ?_⟩
  rintro world rfl runs discovered
  rw [runs.runCLI_eq parsed found discovered finds.top.noError finds.top.sorted, calm,
    if_neg Bool.false_ne_true]

/-- Every command succeeds and writes nothing. -/
def silentEnvironment (files : PosixFileSystem) : Environment where
  files
  combinedOutput _ _ := ([], none)

/-- The surroundings of a run in the directory `/t`. -/
def partialSurroundings : Surroundings where
  numCPU := 8
  quote := plainQuote
  gitBinary := .ok (ascii "/usr/bin/git")
  supportsColor := false
  instants := ⟨0, 0, 0, 0, 0, 0, 0⟩
  interrupt := none

theorem runCLI_reports_partialTree :
    ∃ result, FindsReadable plainQuote partialTree.toFileSystem (ascii "/t") result ∧
      partialSurroundings.EndsIn (silentEnvironment partialTree)
        { workers := 8, root := ascii "." } (ascii "/usr/bin/git") [] result fun outcome =>
          outcome =
            if result.1 = [] then
              Report.reportNone writers partialSurroundings.instants (ascii ".") result.2.1
            else
              Report.reportChecks writers partialSurroundings.instants false false result.2.1
                (result.1.map
                  ((silentEnvironment partialTree).checker plainQuote (ascii "/usr/bin/git"))) := by
  have parsed : (parseOptions partialSurroundings.quote partialSurroundings.numCPU []).1 =
      .ok { workers := 8, root := ascii "." } := by decide
  have resolved : abs partialTree.toFileSystem (ascii ".") = .ok (ascii "/t") := by decide
  exact @runCLI_reports partialSurroundings (silentEnvironment partialTree) [] _
    (ascii "/usr/bin/git") (ascii "/t") parsed rfl resolved (by decide) partialTree_real
    partialTree_finite rfl

end CheckGitStatus.Go
