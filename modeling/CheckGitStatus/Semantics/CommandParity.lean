import CheckGitStatus.Cpp.Process
import CheckGitStatus.Semantics.Parity
import CheckGitStatus.Text.PlainText

/-! # Checks whose commands may fail

A command that exits leaves its output and its exit code. Both runners make the same
result of them if the output is plain text
(`CheckGitStatus.execRun_eq_toExcept`), also where the code is not zero. Two checks with
the same results fill in the same record exactly if their successful outputs are read
alike (`CheckGitStatus.check_exits_parity_iff`).
-/

namespace CheckGitStatus

/-! ## The results of a command -/

/-- What the Go runner returns in place of a result of the C++ runner. -/
def Cpp.CommandResult.toExcept (result : Cpp.CommandResult) : Except Text Text :=
  if result.ok then .ok result.output else .error result.error

/-- The error that `CombinedOutput` returns for a command that has exited. -/
def Go.exitError (code : Nat) : Option Text :=
  if code = 0 then none else some (ascii "exit status " ++ stdToString code)

/-- **Both runners make the same of a command that exits.** -/
theorem execRun_eq_toExcept {output : Text} (plain : IsPlainText output) {code : Nat}
    {combinedOutput : List Text → Text × Option Text} {directory : Path} {arguments : List Text}
    (exited : combinedOutput ([ascii "-C", directory] ++ arguments) =
      (output, Go.exitError code)) :
    Go.execRun combinedOutput directory arguments = (Cpp.completedResult output code).toExcept := by
  simp only [Go.execRun, exited, plain.trimSpace_eq, plain.trim.singleLine_eq, Go.exitError,
    Cpp.CommandResult.toExcept, Cpp.completedResult]
  by_cases success : code = 0
  · simp only [success, ↓reduceIte, Int.natCast_zero]
    rfl
  · have failed : ¬ (code : Int) = 0 := by omega
    have notZero : ((code : Int) == 0) = false := beq_eq_false_iff_ne.mpr failed
    simp only [success, failed, ↓reduceIte, Cpp.CommandResult.ok, notZero, Bool.and_false,
      Bool.false_eq_true]
    by_cases silent : Cpp.trim output = []
    · simp only [silent, ne_eq, not_true_eq_false, ↓reduceIte, List.nil_append]
    · simp only [silent, ne_eq, not_false_eq_true, ↓reduceIte, List.append_assoc]

/-! ## The two parts of a check -/

/-- Only the remote is filled in. -/
structure RepositoryStatus.Fresh (status : RepositoryStatus) : Prop where
  dirty : status.dirty = false
  ahead : status.ahead = 0
  worktreeError : status.worktreeError = none
  upstreamState : status.upstreamState = .ok
  upstreamError : status.upstreamError = none

/-- Filling in a remote leaves the rest untouched. -/
theorem RepositoryStatus.Fresh.withRemote {status : RepositoryStatus} (fresh : status.Fresh)
    (selected : Option (Text × Text)) : (status.withRemote selected).Fresh := by
  cases selected with
  | none => exact fresh
  | some remote =>
      exact ⟨fresh.dirty, fresh.ahead, fresh.worktreeError, fresh.upstreamState,
        fresh.upstreamError⟩

section Check

variable {path : Path} {goRunner : Go.GitRunner} {remotes worktree : Cpp.CommandResult}
  {left right : RepositoryStatus} (quote : Text → Text)

theorem Cpp.remoteStatus_fresh : (Cpp.remoteStatus remotes path).Fresh := by
  unfold Cpp.remoteStatus
  split
  · rw [Cpp.readRemotes_eq]
    exact RepositoryStatus.Fresh.withRemote ⟨rfl, rfl, rfl, rfl, rfl⟩ _
  · exact ⟨rfl, rfl, rfl, rfl, rfl⟩

theorem Go.checkRemote_fresh (runner : Go.GitRunner) (path : Path) :
    (Go.checkRemote runner path { path }).Fresh := by
  cases result : runner path Go.remoteArguments with
  | error error =>
      simp only [Go.checkRemote, result]
      exact ⟨rfl, rfl, rfl, rfl, rfl⟩
  | ok output =>
      rw [Go.checkRemote_of_result result]
      exact RepositoryStatus.Fresh.withRemote ⟨rfl, rfl, rfl, rfl, rfl⟩ _

/-- The first command leads to the same status exactly if it fails or the same
remote is selected. -/
theorem checkRemote_eq_iff (remote : goRunner path Go.remoteArguments = remotes.toExcept) :
    Go.checkRemote goRunner path { path } = Cpp.remoteStatus remotes path ↔
      (remotes.ok = true → ascii "origin" ∈ (Cpp.fetchLines remotes.output).map Prod.fst ∨
        [] ∉ (Cpp.fetchLines remotes.output).map Prod.fst) := by
  unfold Cpp.CommandResult.toExcept at remote
  by_cases ok : remotes.ok = true
  · rw [if_pos ok] at remote
    rw [Go.checkRemote_of_result remote, Cpp.remoteStatus, if_pos ok, Cpp.readRemotes_eq,
      imp_iff_right ok, ← selectRemote_parity_iff]
    refine ⟨fun same => ?_, fun same => by rw [same]⟩
    exact ((RepositoryStatus.withRemote_fields_iff rfl).mp
      ⟨congrArg RepositoryStatus.hasRemote same, congrArg RepositoryStatus.remoteName same,
        congrArg RepositoryStatus.remoteUrl same⟩).symm
  · rw [if_neg ok] at remote
    refine iff_of_true ?_ fun succeeded => absurd succeeded ok
    simp only [Go.checkRemote, remote, Cpp.remoteStatus, if_neg ok]

/-- What the second command leaves alone. -/
structure RepositoryStatus.SameRemote (left right : RepositoryStatus) : Prop where
  path : left.path = right.path
  remoteUrl : left.remoteUrl = right.remoteUrl
  remoteName : left.remoteName = right.remoteName
  hasRemote : left.hasRemote = right.hasRemote
  remoteError : left.remoteError = right.remoteError

/-- Statuses of which only the remote is touched are equal if the remotes are. -/
theorem RepositoryStatus.SameRemote.eq_of_fresh (same : left.SameRemote right)
    (freshLeft : left.Fresh) (freshRight : right.Fresh) : left = right := by
  cases left
  cases right
  obtain ⟨rfl, rfl, rfl, rfl, rfl⟩ := freshLeft
  obtain ⟨rfl, rfl, rfl, rfl, rfl⟩ := freshRight
  obtain ⟨rfl, rfl, rfl, rfl, rfl⟩ := same
  rfl

theorem Cpp.worktreeStatus_sameRemote (worktree : Cpp.CommandResult)
    (status : RepositoryStatus) : (Cpp.worktreeStatus worktree status).SameRemote status := by
  unfold Cpp.worktreeStatus
  split
  · exact ⟨rfl, rfl, rfl, rfl, rfl⟩
  · exact ⟨rfl, rfl, rfl, rfl, rfl⟩

theorem Go.checkStatus_sameRemote (runner : Go.GitRunner) (path : Path)
    (status : RepositoryStatus) : (Go.checkStatus quote runner path status).SameRemote status := by
  unfold Go.checkStatus
  split
  · exact ⟨rfl, rfl, rfl, rfl, rfl⟩
  · split
    · exact ⟨rfl, rfl, rfl, rfl, rfl⟩
    · exact ⟨rfl, rfl, rfl, rfl, rfl⟩

/-- The second command leads to the same status exactly if the first one did and it fails
or its headers are read alike. -/
theorem checkStatus_eq_iff (status : goRunner path Go.statusArguments = worktree.toExcept)
    (freshLeft : left.Fresh) (freshRight : right.Fresh) :
    Go.checkStatus quote goRunner path left = Cpp.worktreeStatus worktree right ↔
      left = right ∧ (worktree.ok = true →
        (Go.statusLines worktree.output).all StatusLine.readable = true ∧
          StatusLine.SameHeaders (Cpp.statusLines worktree.output)
            (Go.statusLines worktree.output)) := by
  have remote : Go.checkStatus quote goRunner path left = Cpp.worktreeStatus worktree right →
      left = right := by
    intro same
    have goRemote := Go.checkStatus_sameRemote quote goRunner path left
    have cppRemote := Cpp.worktreeStatus_sameRemote worktree right
    rw [same] at goRemote
    refine RepositoryStatus.SameRemote.eq_of_fresh ?_ freshLeft freshRight
    exact ⟨goRemote.path.symm.trans cppRemote.path,
      goRemote.remoteUrl.symm.trans cppRemote.remoteUrl,
      goRemote.remoteName.symm.trans cppRemote.remoteName,
      goRemote.hasRemote.symm.trans cppRemote.hasRemote,
      goRemote.remoteError.symm.trans cppRemote.remoteError⟩
  unfold Cpp.CommandResult.toExcept at status
  by_cases ok : worktree.ok = true
  · rw [if_pos ok] at status
    rw [imp_iff_right ok]
    have cpp : Cpp.worktreeStatus worktree right = _ :=
      (if_pos ok).trans (Cpp.readStatus_eq worktree.output right)
    by_cases readable : (Go.statusLines worktree.output).all StatusLine.readable = true
    · rw [and_iff_right readable]
      constructor
      · intro same
        refine ⟨remote same, ?_⟩
        rw [cpp, Go.checkStatus_of_readable status readable] at same
        have state := congrArg RepositoryStatus.upstreamState same
        obtain ⟨head, upstream⟩ := StatusLine.upstreamState_eq_iff.mp state.symm
        exact ⟨head, upstream, (congrArg RepositoryStatus.ahead same).symm⟩
      · rintro ⟨rfl, head, upstream, count⟩
        rw [cpp, Go.checkStatus_of_readable status readable,
          StatusLine.upstreamState_eq_iff.mpr ⟨head, upstream⟩, count,
          decide_eq_decide.mpr entry_mem_statusLines_iff]
    · refine iff_of_false (fun same => ?_) fun both => readable both.2.1
      obtain ⟨scan, error, checked⟩ := Go.checkStatus_of_unreadable quote left status readable
      rw [cpp, checked] at same
      exact StatusLine.upstreamState_ne_error _ (congrArg RepositoryStatus.upstreamState same).symm
  · rw [if_neg ok] at status
    refine ⟨fun same => ⟨remote same, fun succeeded => absurd succeeded ok⟩, ?_⟩
    rintro ⟨rfl, _⟩
    simp only [Go.checkStatus, status, Cpp.worktreeStatus, if_neg ok]

/-! ## The check -/

/-- The outputs of the commands that succeed are read alike: `origin` has a fetch line or
every fetch line has a name, the Go program can read every count, and both programs read
the same headers. -/
structure ReadAlike (remotes worktree : Cpp.CommandResult) : Prop where
  remote : remotes.ok = true → ascii "origin" ∈ (Cpp.fetchLines remotes.output).map Prod.fst ∨
    [] ∉ (Cpp.fetchLines remotes.output).map Prod.fst
  status : worktree.ok = true → (Go.statusLines worktree.output).all StatusLine.readable = true ∧
    StatusLine.SameHeaders (Cpp.statusLines worktree.output) (Go.statusLines worktree.output)

/-- From the same results both programs fill in the same record exactly if the outputs
are read alike. -/
theorem check_eq_iff (remote : goRunner path Go.remoteArguments = remotes.toExcept)
    (status : goRunner path Go.statusArguments = worktree.toExcept) :
    Go.check quote goRunner path =
        Cpp.worktreeStatus worktree (Cpp.remoteStatus remotes path) ↔
      ReadAlike remotes worktree := by
  rw [Go.check, checkStatus_eq_iff quote status (Go.checkRemote_fresh goRunner path)
    Cpp.remoteStatus_fresh, checkRemote_eq_iff remote]
  constructor
  · rintro ⟨first, second⟩
    exact ⟨first, second⟩
  · rintro ⟨first, second⟩
    exact ⟨first, second⟩

end Check

/-! ## Commands that exit in both programs -/

/-- A command that both programs start exits in time with the same code, after it has
written the same plain text. -/
structure ExitsAlike (git path : Path) (execute : List Text → Cpp.Execution)
    (combinedOutput : List Text → Text × Option Text) (arguments : List Text) (deadline : Int)
    (reading : Cpp.Reading) (output : Text) (code : Nat) : Prop where
  calm : reading.cancelled = false
  time : 0 < Cpp.remaining deadline reading.now
  exits : (execute (Cpp.ExecGitRunner.commandArguments git path arguments)).Exits
    (Cpp.remaining deadline reading.now) code
  captured :
    (execute (Cpp.ExecGitRunner.commandArguments git path arguments)).captured = output
  combined : combinedOutput ([ascii "-C", path] ++ arguments) = (output, Go.exitError code)
  plain : IsPlainText output

section Exits

variable {git path : Path} {execute : List Text → Cpp.Execution}
  {combinedOutput : List Text → Text × Option Text} {arguments : List Text} {deadline : Int}
  {reading : Cpp.Reading} {output : Text} {code : Nat}

/-- What the C++ program is handed of a command that exits in time. -/
theorem ExitsAlike.cpp
    (alike : ExitsAlike git path execute combinedOutput arguments deadline reading output code)
    (timeout : Int) :
    Cpp.runBeforeDeadline (Cpp.ExecGitRunner.run git execute) path arguments deadline timeout
      reading = Cpp.completedResult output code := by
  rw [Cpp.runBeforeDeadline_eq alike.calm alike.time, Cpp.ExecGitRunner.run_of_exits alike.exits,
    alike.captured]

/-- What the Go program is handed of the same command. -/
theorem ExitsAlike.go
    (alike : ExitsAlike git path execute combinedOutput arguments deadline reading output code) :
    Go.execRun combinedOutput path arguments = (Cpp.completedResult output code).toExcept :=
  execRun_eq_toExcept alike.plain alike.combined

end Exits

section Runs

variable {git path : Path} {execute : List Text → Cpp.Execution} {timeout : Int}
  {readings : Cpp.Readings} {combinedOutput : List Text → Text × Option Text}
  {remoteOutput statusOutput : Text} {remoteCode statusCode : Nat}

/-- The status that the C++ program computes of two commands that exit. -/
theorem check_eq_of_exits
    (remote : ExitsAlike git path execute combinedOutput Cpp.remoteArguments
      (readings.started + timeout * Cpp.nanosecondsPerMillisecond) readings.remote
      remoteOutput remoteCode)
    (status : ExitsAlike git path execute combinedOutput Cpp.statusArguments
      (readings.started + timeout * Cpp.nanosecondsPerMillisecond) readings.status
      statusOutput statusCode) :
    Cpp.check (Cpp.ExecGitRunner.run git execute) timeout path readings =
      Cpp.worktreeStatus (Cpp.completedResult statusOutput statusCode)
        (Cpp.remoteStatus (Cpp.completedResult remoteOutput remoteCode) path) := by
  rw [Cpp.check_eq, remote.cpp, status.cpp]

/-- **When two commands that exit lead to the same status.** Whatever the codes, the two
programs fill in the same record exactly if they read the successful outputs alike. -/
theorem check_exits_parity_iff (quote : Text → Text)
    (remote : ExitsAlike git path execute combinedOutput Cpp.remoteArguments
      (readings.started + timeout * Cpp.nanosecondsPerMillisecond) readings.remote
      remoteOutput remoteCode)
    (status : ExitsAlike git path execute combinedOutput Cpp.statusArguments
      (readings.started + timeout * Cpp.nanosecondsPerMillisecond) readings.status
      statusOutput statusCode) :
    Go.check quote (Go.execRun combinedOutput) path =
        Cpp.check (Cpp.ExecGitRunner.run git execute) timeout path readings ↔
      ReadAlike (Cpp.completedResult remoteOutput remoteCode)
        (Cpp.completedResult statusOutput statusCode) := by
  rw [check_eq_of_exits remote status]
  exact check_eq_iff quote remote.go status.go

end Runs

/-- What git writes outside of a repository. -/
def notARepository : Text :=
  ascii "fatal: not a git repository\n"

/-- Both commands fail, and both programs report the same. -/
theorem check_exits_parity_notARepository :
    Go.check id (Go.execRun fun _ => (notARepository, some (ascii "exit status 128")))
        (ascii "/r") =
      Cpp.check (Cpp.ExecGitRunner.run (ascii "/usr/bin/git") fun _ =>
          { started := 0, turns := [], status := .exited 128, captured := notARepository })
        15000 (ascii "/r") Cpp.stillReadings := by
  have alike : ∀ arguments, ExitsAlike (ascii "/usr/bin/git") (ascii "/r")
      (fun _ => { started := 0, turns := [], status := .exited 128, captured := notARepository })
      (fun _ => (notARepository, some (ascii "exit status 128"))) arguments
      (0 + 15000 * Cpp.nanosecondsPerMillisecond) { cancelled := false, now := 0 } notARepository
      128 := by
    intro arguments
    exact ⟨rfl, by decide, ⟨rfl, rfl, rfl, by simp, rfl, rfl⟩, rfl, rfl,
      IsAscii.isPlainText (by decide)⟩
  have failed : ¬ (Cpp.completedResult notARepository (128 : Nat)).ok = true := by decide
  refine (check_exits_parity_iff id (alike Cpp.remoteArguments) (alike Cpp.statusArguments)).mpr ?_
  exact ⟨fun ok => absurd ok failed, fun ok => absurd ok failed⟩

end CheckGitStatus
