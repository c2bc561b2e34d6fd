import CheckGitStatus.Cpp.GitClient

/-!
# Running one git command

`ExecGitRunner::run` of the POSIX build starts a child whose standard output and
standard error are one pipe, reads the pipe to its end and waits for the child.
Everything that the system decides during a run is the argument `Execution`: the
failures of `pipe` and `fork`, the turns of the wait loop in which the child is
still running, how the child ended, and the bytes read from the pipe.
-/

namespace CheckGitStatus.Cpp

/-- The outcome of a process as `waitpid` reports it. -/
inductive ProcessStatus where
  | exited (code : Nat)
  | signalled (signal : Nat)
  | other
  deriving DecidableEq, Repr

/-- The exit code that `run` reports: a signal counts from 128 as in a shell. -/
def ProcessStatus.exitCode : ProcessStatus → Int
  | .exited code => code
  | .signalled signal => 128 + signal
  | .other => 128

/-- A turn of the wait loop in which `waitpid` finds the child still running. -/
structure Turn where
  cancelled : Bool
  now : Int
  deriving DecidableEq, Repr

/-- What happens outside the program during one run. After the listed turns
`waitpid` either reports the child or fails. -/
structure Execution where
  cancelled : Bool := false
  pipeError : Option Text := none
  forkError : Option Text := none
  started : Int
  turns : List Turn
  waitError : Option Text := none
  status : ProcessStatus
  captured : Text
  deriving DecidableEq, Repr

/-- How the wait loop ends. -/
inductive WaitOutcome where
  | ended
  | waitFailed (error : Text)
  | cancelled
  | timedOut
  deriving DecidableEq, Repr

/-- The wait loop: the flag is tested before the deadline, and a child that has ended is
seen before both. -/
def waitLoop (deadline : Int) (waitError : Option Text) : List Turn → WaitOutcome
  | [] => waitError.elim .ended .waitFailed
  | turn :: rest =>
      if turn.cancelled then .cancelled
      else if deadline ≤ turn.now then .timedOut
      else waitLoop deadline waitError rest

/-- `completed_result`: the output of a command that failed is put into its error. -/
def completedResult (output : Text) (exitCode : Int) : CommandResult :=
  let output := trim output
  if exitCode = 0 then { output, exitCode := 0 }
  else
    let shown := if output ≠ [] then singleLine output ++ ascii ": " else []
    { error := shown ++ ascii "exit status " ++ stdToString exitCode, exitCode }

namespace ExecGitRunner

/-- The arguments handed to `execv`. -/
def commandArguments (binary directory : Path) (arguments : List Text) : List Text :=
  [binary, ascii "--no-optional-locks", ascii "-C", directory] ++ arguments

/-- `execute` says what happens when a command line is run. -/
def run (binary : Path) (execute : List Text → Execution) : GitRunner :=
  fun directory arguments timeout =>
    let execution := execute (commandArguments binary directory arguments)
    if execution.cancelled then { error := ascii "interrupted" }
    else match execution.pipeError, execution.forkError with
      | some error, _ => { error := ascii "create Git output pipe: " ++ error }
      | none, some error => { error := ascii "start Git: " ++ error }
      | none, none =>
          let exitCode := execution.status.exitCode
          let deadline := execution.started + timeout * nanosecondsPerMillisecond
          match waitLoop deadline execution.waitError execution.turns with
          | .cancelled => { error := ascii "interrupted", exitCode }
          | .timedOut => { error := commandTimeoutMessage timeout, exitCode, timedOut := true }
          | .waitFailed error => { error := ascii "wait for Git: " ++ error, exitCode }
          | .ended => completedResult execution.captured exitCode

end ExecGitRunner

/-- A loop whose turns all find the flag unset and time left ends with the child. -/
theorem waitLoop_eq_ended {deadline : Int} {turns : List Turn}
    (running : ∀ turn ∈ turns, turn.cancelled = false ∧ turn.now < deadline) :
    waitLoop deadline none turns = .ended := by
  induction turns with
  | nil => rfl
  | cons turn rest ih =>
      obtain ⟨calm, early⟩ := running turn List.mem_cons_self
      have late : ¬ deadline ≤ turn.now := not_le.mpr early
      simp only [waitLoop, calm, Bool.false_eq_true, late, ↓reduceIte]
      exact ih fun turn inside => running turn (List.mem_cons_of_mem _ inside)

/-- A loop ends with the child or a failed wait exactly if every turn finds the flag unset
and time left. -/
theorem waitLoop_eq_elim_iff {deadline : Int} {waitError : Option Text} {turns : List Turn} :
    waitLoop deadline waitError turns = waitError.elim .ended .waitFailed ↔
      ∀ turn ∈ turns, turn.cancelled = false ∧ turn.now < deadline := by
  have ordinary : waitError.elim .ended .waitFailed ≠ WaitOutcome.cancelled ∧
      waitError.elim .ended .waitFailed ≠ WaitOutcome.timedOut := by
    cases waitError <;> exact ⟨nofun, nofun⟩
  induction turns with
  | nil => exact iff_of_true rfl fun turn absent => absurd absent List.not_mem_nil
  | cons turn rest ih =>
      rw [waitLoop, List.forall_mem_cons]
      by_cases flagged : turn.cancelled = true
      · rw [if_pos flagged]
        refine iff_of_false ordinary.1.symm fun both => ?_
        rw [flagged] at both
        cases both.1.1
      · rw [if_neg flagged]
        by_cases late : deadline ≤ turn.now
        · rw [if_pos late]
          exact iff_of_false ordinary.2.symm fun both => absurd both.1.2 (not_lt.mpr late)
        · rw [if_neg late]
          have here : turn.cancelled = false ∧ turn.now < deadline :=
            ⟨(Bool.not_eq_true _).mp flagged, not_le.mp late⟩
          exact ih.trans (and_iff_right here).symm

/-- The wait ends by the flag, by the deadline or with the child. -/
theorem waitLoop_cases (deadline : Int) (waitError : Option Text) (turns : List Turn) :
    waitLoop deadline waitError turns = .cancelled ∨
      waitLoop deadline waitError turns = .timedOut ∨
      waitLoop deadline waitError turns = waitError.elim .ended .waitFailed := by
  induction turns with
  | nil => exact .inr (.inr rfl)
  | cons turn rest ih =>
      rw [waitLoop]
      split
      · exact .inl rfl
      · split
        · exact .inr (.inl rfl)
        · exact ih

/-- A completed command is a success exactly if its exit code is zero. -/
theorem completedResult_ok_iff {output : Text} {code : Int} :
    (completedResult output code).ok = true ↔ code = 0 := by
  rw [completedResult]
  split
  · rename_i success
    exact iff_of_true rfl success
  · rename_i failure
    refine iff_of_false (fun ok => failure ?_) failure
    rw [CommandResult.ok, Bool.and_eq_true] at ok
    exact beq_iff_eq.mp ok.2

/-- An error text is a failure. -/
theorem not_ok_of_error {result : CommandResult} {front error : Text} (nonempty : front ≠ [])
    (same : result.error = front ++ error) : ¬ result.ok = true := by
  rw [CommandResult.ok, same, Bool.and_eq_true, List.isEmpty_iff]
  exact fun both => List.append_ne_nil_of_left_ne_nil nonempty error both.1

/-- The command is started and exits by itself in time, with this code. -/
structure Execution.Exits (execution : Execution) (timeout : Int) (code : Nat) : Prop where
  calm : execution.cancelled = false
  piped : execution.pipeError = none
  forked : execution.forkError = none
  running : ∀ turn ∈ execution.turns, turn.cancelled = false ∧
    turn.now < execution.started + timeout * nanosecondsPerMillisecond
  waited : execution.waitError = none
  exited : execution.status = .exited code

/-- The command is started, ends by itself in time and reports success. -/
abbrev Execution.Succeeds (execution : Execution) (timeout : Int) : Prop :=
  execution.Exits timeout 0

/-- A command that exits by itself is judged by its output and its code. -/
theorem ExecGitRunner.run_of_exits {binary directory : Path}
    {execute : List Text → Execution} {arguments : List Text} {timeout : Int} {code : Nat}
    (exits : (execute (ExecGitRunner.commandArguments binary directory arguments)).Exits
      timeout code) :
    ExecGitRunner.run binary execute directory arguments timeout =
      completedResult
        (execute (ExecGitRunner.commandArguments binary directory arguments)).captured
        code := by
  simp only [ExecGitRunner.run, exits.calm, Bool.false_eq_true, ↓reduceIte, exits.piped,
    exits.forked, exits.waited, waitLoop_eq_ended exits.running, exits.exited,
    ProcessStatus.exitCode]

/-- A command that succeeds returns its trimmed output. -/
theorem ExecGitRunner.run_of_succeeds {binary directory : Path}
    {execute : List Text → Execution} {arguments : List Text} {timeout : Int}
    (succeeds : (execute (commandArguments binary directory arguments)).Succeeds timeout) :
    run binary execute directory arguments timeout =
      { output := trim (execute (commandArguments binary directory arguments)).captured,
        exitCode := 0 } := by
  rw [run_of_exits succeeds]
  rfl

/-- Only an exit with zero has the exit code zero. -/
theorem ProcessStatus.exitCode_eq_zero_iff {status : ProcessStatus} :
    status.exitCode = 0 ↔ status = .exited 0 := by
  cases status with
  | exited code => simp [exitCode]
  | signalled signal =>
      refine iff_of_false ?_ nofun
      rw [exitCode]
      omega
  | other => exact iff_of_false (by decide) nofun

/-- **When a command succeeds.** No failure of the system, no reading of the flag or of the
clock and no signal is lost on the way to the result. -/
theorem ExecGitRunner.run_ok_iff {binary directory : Path} {execute : List Text → Execution}
    {arguments : List Text} {timeout : Int} :
    (ExecGitRunner.run binary execute directory arguments timeout).ok = true ↔
      (execute (ExecGitRunner.commandArguments binary directory arguments)).Exits timeout 0 := by
  constructor
  · intro ok
    unfold ExecGitRunner.run at ok
    generalize execute (ExecGitRunner.commandArguments binary directory arguments) =
      execution at ok ⊢
    dsimp only at ok
    split at ok
    · cases ok
    rename_i calm
    split at ok
    · exact absurd ok (not_ok_of_error (by decide) rfl)
    · exact absurd ok (not_ok_of_error (by decide) rfl)
    rename_i piped forked
    rcases waitLoop_cases (execution.started + timeout * nanosecondsPerMillisecond)
      execution.waitError execution.turns with cancelled | timedOut | ended
    · rw [cancelled] at ok
      cases ok
    · rw [timedOut] at ok
      exact absurd ok (@not_ok_of_error _ (ascii "timed out after ") _ (by decide) rfl)
    · have running := waitLoop_eq_elim_iff.mp ended
      rw [ended] at ok
      cases failed : execution.waitError with
      | none =>
          rw [failed] at ok
          exact ⟨(Bool.not_eq_true _).mp calm, piped, forked, running, failed,
            ProcessStatus.exitCode_eq_zero_iff.mp (completedResult_ok_iff.mp ok)⟩
      | some error =>
          rw [failed] at ok
          exact absurd ok (not_ok_of_error (by decide) rfl)
  · intro exits
    rw [ExecGitRunner.run_of_exits exits, completedResult_ok_iff]
    rfl

end CheckGitStatus.Cpp
