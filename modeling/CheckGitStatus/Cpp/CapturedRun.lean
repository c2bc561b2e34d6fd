import CheckGitStatus.Cpp.WaitLoop
import CheckGitStatus.Cpp.WholeRun

/-! # A run of the C++ program down to the threads of its calls

The workers of a run call `run`, and each call consists of a child, a thread that reads
and one that waits. However all of these are scheduled, the report depends on the files
and on what git writes and exits with, and on nothing else
(`CheckGitStatus.Cpp.runCli_of_answers`).
-/

namespace CheckGitStatus.Cpp

/-- What git writes for the two commands of a check, and its exit codes. -/
structure Answers where
  remoteText : Text
  remoteCode : Nat
  statusText : Text
  statusCode : Nat

/-- The status that the answers amount to. -/
def Answers.status (answers : Answers) (path : Path) : RepositoryStatus :=
  worktreeStatus (completedResult answers.statusText answers.statusCode)
    (remoteStatus (completedResult answers.remoteText answers.remoteCode) path)

/-- The status but for the path does not depend on the path. -/
theorem Answers.status_path_eq (answers : Answers) (path other : Path) :
    answers.status path = { answers.status other with path } := by
  unfold Answers.status remoteStatus worktreeStatus readRemotes readStatus
  cases selectRemote (collectRemotes
    (completedResult answers.remoteText answers.remoteCode).output) with
  | none => split <;> split <;> rfl
  | some remote => split <;> split <;> rfl

/-- A command is started in time, and its call comes to its end undisturbed, under
some schedule. -/
structure Collects (git path : Path) (execute : List Text → Execution) (arguments : List Text)
    (deadline : Int) (reading : Reading) (text : Text) (code : Nat) : Prop where
  calm : reading.cancelled = false
  time : 0 < remaining deadline reading.now
  call : ∃ capacity state result,
    OutputCapture.Undisturbed capacity (remaining deadline reading.now) text code state result ∧
      execute (ExecGitRunner.commandArguments git path arguments) = state.execution

/-- The call returns what the child has written and its exit code. -/
theorem Collects.run_eq {git path : Path} {execute : List Text → Execution}
    {arguments : List Text} {deadline : Int} {reading : Reading} {text : Text} {code : Nat}
    (collects : Collects git path execute arguments deadline reading text code) (timeout : Int) :
    runBeforeDeadline (ExecGitRunner.run git execute) path arguments deadline timeout reading =
      completedResult text code := by
  obtain ⟨capacity, state, result, undisturbed, decided⟩ := collects.call
  obtain ⟨_, same⟩ :=
    (OutputCapture.reachable_waits undisturbed.reachable).returned result undisturbed.returned
  rw [runBeforeDeadline_eq collects.calm collects.time,
    OutputCapture.run_eq undisturbed.reachable undisturbed.returned decided, same,
    undisturbed.result_eq]

/-- Both commands of a check are answered so. -/
structure Environment.Gives (environment : Environment) (git path : Path) (answers : Answers) :
    Prop where
  remote : Collects git path environment.execute remoteArguments
    ((environment.readings path).started + 15000 * nanosecondsPerMillisecond)
    (environment.readings path).remote answers.remoteText answers.remoteCode
  status : Collects git path environment.execute statusArguments
    ((environment.readings path).started + 15000 * nanosecondsPerMillisecond)
    (environment.readings path).status answers.statusText answers.statusCode

/-- The status of a repository is what the answers amount to. -/
theorem Environment.Gives.checker_eq {environment : Environment} {git path : Path}
    {answers : Answers} (gives : environment.Gives git path answers) :
    environment.checker git path = answers.status path := by
  rw [Environment.checker, check_eq, gives.remote.run_eq, gives.status.run_eq, Answers.status]

/-- **The report depends on the answers of git only.** Every call ends whose child holds the
pipe alone. Under any schedule of the workers and of the threads of every call, every run
that is not interrupted ends, and it reports of each top-most repository what its answers
amount to. -/
theorem runCli_of_answers {surroundings : Surroundings} {environment : Environment}
    {arguments : List Text} {options : Options} {git path : Path}
    (parsed : parseOptions surroundings.hardwareConcurrency arguments = { options })
    (found : surroundings.gitExecutable = some git)
    (resolved : absolute environment.files.toFileSystem options.root = .ok path)
    (accepted : environment.files.status (cleanPath path) = .ok .directory)
    (finite : environment.files.Finite (cleanPath path))
    (calm : Report.isInterrupted surroundings.interrupt surroundings.instants.interruptTest =
      false)
    {answers : Path → Answers}
    (gives : ∀ repository,
      environment.files.IsTopRepository (lexicallyNormal path) repository →
        environment.Gives git repository (answers repository)) :
    (∀ capacity timeout text, (OutputCapture.capture capacity timeout text []).Completes
      OutputCapture.Event.Own OutputCapture.State.Returned) ∧
    ∃ discovery,
      FindsTopRepositories environment.files.toFileSystem (lexicallyNormal path) discovery ∧
      surroundings.EndsIn environment options git arguments discovery fun outcome =>
        outcome =
          if discovery.repositories = [] then
            Report.reportNone writers surroundings.instants options.root discovery.warnings
          else
            Report.reportChecks writers surroundings.instants options.dirtyOnly
              (!options.noColor && surroundings.supportsColor) discovery.warnings
              (discovery.repositories.map fun repository =>
                (answers repository).status repository) := by
  refine ⟨OutputCapture.call_completes_alone, ?_⟩
  obtain ⟨discovery, bound, ends, finds⟩ := exists_findsTopRepositories resolved accepted finite
  have statuses : discovery.repositories.map (environment.checker git) =
      discovery.repositories.map fun repository => (answers repository).status repository :=
    List.map_congr_left fun repository listed =>
      (gives repository ((finds.repositories repository).mp listed)).checker_eq
  refine ⟨discovery, finds, .of_discovers ⟨bound, ends⟩ ?_⟩
  rintro world rfl runs discovered
  rw [runs.runCli_eq parsed found discovered finds.noError finds.sorted, calm,
    if_neg Bool.false_ne_true, statuses]

/-- A call that is started at once and whose child exits with 0. -/
theorem collects_of_undisturbed {state : OutputCapture.State} {result : CommandResult} {text : Text}
    (undisturbed : OutputCapture.Undisturbed 1 15000 text 0 state result)
    (git path : Path) (arguments : List Text) :
    Collects git path (fun _ => state.execution) arguments (0 + 15000 * nanosecondsPerMillisecond)
      { cancelled := false, now := 0 } text 0 :=
  ⟨rfl, by decide, 1, state, result, undisturbed, rfl⟩

theorem runCli_of_answers_two_bytes :
    ∃ environment, (∀ capacity timeout text,
        (OutputCapture.capture capacity timeout text []).Completes
          OutputCapture.Event.Own OutputCapture.State.Returned) ∧
      ∃ discovery, FindsTopRepositories buildRoot.toFileSystem (ascii "/w/build/") discovery ∧
        buildSurroundings.EndsIn environment { workers := 8, root := ascii "build/" }
          (ascii "/usr/bin/git") [ascii "build/"] discovery fun outcome => outcome =
            if discovery.repositories = [] then
              Report.reportNone writers ⟨0, 0, 0, 0, 0, 0, 0⟩ (ascii "build/") discovery.warnings
            else
              Report.reportChecks writers ⟨0, 0, 0, 0, 0, 0, 0⟩ false false discovery.warnings
                (discovery.repositories.map fun repository =>
                  Answers.status ⟨ascii "ok", 0, ascii "ok", 0⟩ repository) := by
  obtain ⟨state, undisturbed⟩ :=
    OutputCapture.exists_undisturbed Nat.one_pos 15000 (ascii "ok") 0
  let environment : Environment := ⟨buildRoot, fun _ => state.execution, fun _ => stillReadings⟩
  have collects := collects_of_undisturbed undisturbed (ascii "/usr/bin/git")
  exact ⟨environment, @runCli_of_answers buildSurroundings environment _ _ _ (ascii "/w/build/")
    parseOptions_buildRoot rfl absolute_buildRoot accepted_buildRoot buildRoot_finite rfl
    (fun _ => ⟨ascii "ok", 0, ascii "ok", 0⟩)
    fun repository _ => ⟨collects repository _, collects repository _⟩⟩

end CheckGitStatus.Cpp
