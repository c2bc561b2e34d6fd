import CheckGitStatus.Cpp.DurationText
import CheckGitStatus.Cpp.Process

/-! # The timeouts of one check

`run_before_deadline` reports the configured timeout, `ExecGitRunner::run` the time that
was left when it was called, in whole milliseconds. On a clock that does not go backwards
a check reports every timeout as configured exactly if the commands that are killed were
started without any time gone by
(`CheckGitStatus.Cpp.check_reportsTimeouts_iff`).
-/

namespace CheckGitStatus.Cpp

/-! ## The clock -/

/-- The readings of the clock in the wait loop. -/
def waitReadings (deadline : Int) : List Turn → List Int
  | [] => []
  | turn :: rest =>
      if turn.cancelled then []
      else turn.now :: if deadline ≤ turn.now then [] else waitReadings deadline rest

/-- The child is started. -/
def Execution.Starts (execution : Execution) : Prop :=
  execution.cancelled = false ∧ execution.pipeError = none ∧ execution.forkError = none

instance (execution : Execution) : Decidable execution.Starts :=
  inferInstanceAs (Decidable (_ ∧ _ ∧ _))

/-- The readings of the clock for one command of a check. -/
def commandReadings (deadline : Int) (reading : Reading) (execution : Execution) : List Int :=
  if reading.cancelled then []
  else reading.now ::
    if 0 < remaining deadline reading.now ∧ execution.Starts then
      execution.started :: waitReadings
        (execution.started + remaining deadline reading.now * nanosecondsPerMillisecond)
        execution.turns
    else []

/-- The test before a command reads the clock. -/
theorem mem_commandReadings {deadline : Int} {reading : Reading} (execution : Execution)
    (calm : reading.cancelled = false) :
    reading.now ∈ commandReadings deadline reading execution := by
  rw [commandReadings, calm]
  exact List.mem_cons_self

/-- The readings of the clock in a check, in order. -/
def checkReadings (timeout : Int) (readings : Readings) (remote status : Execution) : List Int :=
  let deadline := readings.started + timeout * nanosecondsPerMillisecond
  readings.started :: (commandReadings deadline readings.remote remote ++
    commandReadings deadline readings.status status)

/-- The command is started and found running at its deadline. -/
structure Killed (deadline : Int) (reading : Reading) (execution : Execution) : Prop where
  calm : reading.cancelled = false
  time : 0 < remaining deadline reading.now
  starts : execution.Starts
  late : waitLoop (execution.started + remaining deadline reading.now * nanosecondsPerMillisecond)
    execution.waitError execution.turns = .timedOut

/-- A wait that times out has read the clock after the deadline. -/
theorem exists_late_of_timedOut {deadline : Int} {waitError : Option Text} {turns : List Turn}
    (late : waitLoop deadline waitError turns = .timedOut) :
    ∃ now ∈ waitReadings deadline turns, deadline ≤ now := by
  induction turns with
  | nil => cases waitError <;> cases late
  | cons turn rest ih =>
      unfold waitLoop at late
      unfold waitReadings
      split at late
      · cases late
      · rename_i calm
        rw [if_neg calm]
        split at late
        · rename_i passed
          exact ⟨turn.now, List.mem_cons_self, passed⟩
        · rename_i early
          obtain ⟨now, inside, passed⟩ := ih late
          rw [if_neg early]
          exact ⟨now, List.mem_cons_of_mem _ inside, passed⟩

/-- Time is left only from a millisecond on. -/
theorem remaining_pos_iff {deadline now : Int} :
    0 < remaining deadline now ↔ nanosecondsPerMillisecond ≤ deadline - now := by
  unfold remaining nanosecondsPerMillisecond
  rcases Int.lt_or_le (deadline - now) 0 with behind | ahead
  · have opposite : 0 ≤ (-(deadline - now)).tdiv 1000000 := Int.tdiv_nonneg (by omega) (by decide)
    rw [Int.neg_tdiv] at opposite
    omega
  · rw [Int.tdiv_eq_ediv_of_nonneg ahead]
    omega

/-- What is left is cut to whole milliseconds. -/
theorem remaining_bounds {deadline now : Int} (time : 0 < remaining deadline now) :
    remaining deadline now * nanosecondsPerMillisecond ≤ deadline - now ∧
      deadline - now <
        remaining deadline now * nanosecondsPerMillisecond + nanosecondsPerMillisecond := by
  have enough := remaining_pos_iff.mp time
  unfold remaining nanosecondsPerMillisecond at *
  rw [Int.tdiv_eq_ediv_of_nonneg (by omega)]
  omega

/-- Nothing is left once the clock has passed a command's own deadline. -/
theorem remaining_nonpos_of_late {deadline started now : Int} (time : 0 < remaining deadline started)
    (passed : started + remaining deadline started * nanosecondsPerMillisecond ≤ now) :
    remaining deadline now ≤ 0 := by
  obtain ⟨_, cut⟩ := remaining_bounds time
  by_contra! left
  have enough := remaining_pos_iff.mp left
  omega

/-- All of the timeout is left only as long as the clock stands still. -/
theorem remaining_eq_timeout_iff {started timeout now : Int} (later : started ≤ now)
    (time : 0 < remaining (started + timeout * nanosecondsPerMillisecond) now) :
    remaining (started + timeout * nanosecondsPerMillisecond) now = timeout ↔ now = started := by
  obtain ⟨low, high⟩ := remaining_bounds time
  unfold nanosecondsPerMillisecond at *
  constructor
  · intro whole
    rw [whole] at low
    omega
  · rintro rfl
    omega

/-- The messages of two timeouts differ. -/
theorem commandTimeoutMessage_inj {left right : Int} (leftPositive : 0 < left)
    (rightPositive : 0 < right) :
    commandTimeoutMessage left = commandTimeoutMessage right ↔ left = right := by
  have read : ∀ {timeout : Int}, 0 < timeout →
      readDuration (formatDuration (timeout * nanosecondsPerMillisecond)) = some timeout.toNat := by
    intro timeout positive
    have rounded : roundedMilliseconds (timeout * nanosecondsPerMillisecond) = timeout.toNat := by
      unfold roundedMilliseconds nanosecondsPerMillisecond
      rw [Int.tdiv_eq_ediv_of_nonneg (by omega)]
      omega
    rw [readDuration_formatDuration, rounded]
    unfold nanosecondsPerMillisecond
    omega
  constructor
  · intro same
    have texts := List.append_cancel_left same
    have values := congrArg readDuration texts
    rw [read leftPositive, read rightPositive, Option.some.injEq] at values
    omega
  · rintro rfl
    rfl

/-! ## One command -/

section Command

variable {binary path : Path} {execute : List Text → Execution} {arguments : List Text}
  {deadline : Int} {reading : Reading}

/-- A command that is killed reports what was left of the time. -/
theorem runBeforeDeadline_of_killed (timeout : Int)
    (killed : Killed deadline reading
      (execute (ExecGitRunner.commandArguments binary path arguments))) :
    (runBeforeDeadline (ExecGitRunner.run binary execute) path arguments deadline timeout
        reading).timedOut = true ∧
      (runBeforeDeadline (ExecGitRunner.run binary execute) path arguments deadline timeout
        reading).error = commandTimeoutMessage (remaining deadline reading.now) := by
  obtain ⟨calm, time, ⟨started, piped, forked⟩, late⟩ := killed
  rw [runBeforeDeadline_eq calm time]
  simp only [ExecGitRunner.run, started, Bool.false_eq_true, ↓reduceIte, piped, forked, late,
    and_self]

/-- A command that is not started in time reports the configured timeout. -/
theorem runBeforeDeadline_of_refused (calm : reading.cancelled = false)
    (refused : remaining deadline reading.now ≤ 0) (runner : GitRunner) (timeout : Int) :
    runBeforeDeadline runner path arguments deadline timeout reading =
      { error := commandTimeoutMessage timeout, timedOut := true } := by
  simp only [runBeforeDeadline, calm, Bool.false_eq_true, ↓reduceIte, refused]

/-- A command times out by being refused or killed. -/
theorem refused_or_killed_of_timedOut {timeout : Int}
    (timedOut : (runBeforeDeadline (ExecGitRunner.run binary execute) path arguments deadline timeout
      reading).timedOut = true) :
    (reading.cancelled = false ∧ remaining deadline reading.now ≤ 0) ∨
      Killed deadline reading (execute (ExecGitRunner.commandArguments binary path arguments)) := by
  cases calm : reading.cancelled with
  | true => simp only [runBeforeDeadline, calm, ↓reduceIte, Bool.false_eq_true] at timedOut
  | false =>
      rcases Int.lt_or_le 0 (remaining deadline reading.now) with time | refused
      · right
        rw [runBeforeDeadline_eq calm time] at timedOut
        unfold ExecGitRunner.run at timedOut
        dsimp only at timedOut
        split at timedOut
        · cases timedOut
        · rename_i started
          split at timedOut
          · cases timedOut
          · cases timedOut
          · rename_i piped forked
            split at timedOut
            · cases timedOut
            · rename_i late
              exact ⟨calm, time, ⟨Bool.not_eq_true _ ▸ started, piped, forked⟩, late⟩
            · cases timedOut
            · unfold completedResult at timedOut
              dsimp only at timedOut
              split at timedOut <;> cases timedOut
      · exact .inl ⟨rfl, refused⟩

end Command

/-! ## The check -/

/-- Errors with the same message are one issue. -/
theorem issues_of_same_error {status : RepositoryStatus} {message : Text}
    (remote : status.remoteError = some message) (worktree : status.worktreeError = some message)
    (upstream : status.upstreamError = some message) :
    status.issues = [{ checks := [ascii "remote", ascii "worktree", ascii "upstream"], message }] := by
  simp only [RepositoryStatus.issues, remote, worktree, upstream, addIssue, List.findIdx?_nil,
    List.nil_append, List.findIdx?_cons, BEq.rfl, ↓reduceIte, List.modify_cons, List.cons_append]

/-- Every timeout of a check is reported with the configured limit, and a check whose first
command times out raises one issue. -/
structure ReportsTimeouts (timeout : Int) (statusReading : Reading)
    (remotes worktree : CommandResult) (status : RepositoryStatus) : Prop where
  remote : remotes.timedOut = true → status.remoteError = some (commandTimeoutMessage timeout)
  worktree : worktree.timedOut = true →
    status.worktreeError = some (commandTimeoutMessage timeout) ∧
      status.upstreamError = some (commandTimeoutMessage timeout)
  single : remotes.timedOut = true → statusReading.cancelled = false →
    status.issues =
      [{ checks := [ascii "remote", ascii "worktree", ascii "upstream"]
         message := commandTimeoutMessage timeout }]

/-- A message of a timeout is an error. -/
theorem ok_of_timeoutMessage {result : CommandResult} {timeout : Int}
    (error : result.error = commandTimeoutMessage timeout) : result.ok = false := by
  rw [CommandResult.ok, error]
  rfl

/-- A timeout is recorded with its message. -/
theorem recorded_of_timeoutMessage {result : CommandResult} {timeout : Int}
    (error : result.error = commandTimeoutMessage timeout) :
    (if result.ok then none else some result.error) = some (commandTimeoutMessage timeout) := by
  rw [ok_of_timeoutMessage error, if_neg Bool.false_ne_true, error]

section Check

variable {binary path : Path} {execute : List Text → Execution} {arguments : List Text}
  {timeout started : Int} {reading : Reading}

/-- A killed command reports the configured timeout only if no time went by before. -/
theorem killed_message_iff (later : started ≤ reading.now) {execution : Execution}
    (killed : Killed (started + timeout * nanosecondsPerMillisecond) reading execution) :
    commandTimeoutMessage (remaining (started + timeout * nanosecondsPerMillisecond) reading.now) =
      commandTimeoutMessage timeout ↔ reading.now = started := by
  have positive : 0 < timeout := by
    have enough := remaining_pos_iff.mp killed.time
    unfold nanosecondsPerMillisecond at enough
    omega
  rw [commandTimeoutMessage_inj killed.time positive, remaining_eq_timeout_iff later killed.time]

/-- What is recorded for a command that times out, when a killed one was started at once. -/
theorem recorded_of_timedOut
    (later : reading.cancelled = false → started ≤ reading.now)
    (prompt : Killed (started + timeout * nanosecondsPerMillisecond) reading
      (execute (ExecGitRunner.commandArguments binary path arguments)) → reading.now = started) :
    let result := runBeforeDeadline (ExecGitRunner.run binary execute) path arguments
      (started + timeout * nanosecondsPerMillisecond) timeout reading
    result.timedOut = true →
      (if result.ok then none else some result.error) = some (commandTimeoutMessage timeout) := by
  intro result timedOut
  apply recorded_of_timeoutMessage
  rcases refused_or_killed_of_timedOut timedOut with ⟨calm, refused⟩ | killed
  · exact congrArg CommandResult.error (runBeforeDeadline_of_refused calm refused _ _)
  · have sameMessage := (killed_message_iff (later killed.calm) killed).mpr (prompt killed)
    exact (runBeforeDeadline_of_killed timeout killed).2.trans sameMessage

/-- If the configured message is recorded whenever a command times out, a killed one was
started at once. -/
theorem started_of_recorded (later : reading.cancelled = false → started ≤ reading.now)
    (killed : Killed (started + timeout * nanosecondsPerMillisecond) reading
      (execute (ExecGitRunner.commandArguments binary path arguments))) :
    let result := runBeforeDeadline (ExecGitRunner.run binary execute) path arguments
      (started + timeout * nanosecondsPerMillisecond) timeout reading
    (result.timedOut = true →
      (if result.ok then none else some result.error) = some (commandTimeoutMessage timeout)) →
      reading.now = started := by
  intro result reported
  obtain ⟨timedOut, error⟩ := runBeforeDeadline_of_killed timeout killed
  have recorded := reported timedOut
  rw [recorded_of_timeoutMessage error, Option.some.injEq] at recorded
  exact (killed_message_iff (later killed.calm) killed).mp recorded

/-- A first command that times out leaves no time for the second one, whose reading is
not before those of the first. -/
theorem remaining_nonpos_of_timedOut {deadline now : Int}
    (within : (commandReadings deadline reading
      (execute (ExecGitRunner.commandArguments binary path arguments))).Pairwise (· ≤ ·))
    (order : ∀ earlier ∈ commandReadings deadline reading
      (execute (ExecGitRunner.commandArguments binary path arguments)), earlier ≤ now)
    (timedOut : (runBeforeDeadline (ExecGitRunner.run binary execute) path arguments deadline timeout
      reading).timedOut = true) : remaining deadline now ≤ 0 := by
  rcases refused_or_killed_of_timedOut timedOut with ⟨calm, refused⟩ | killed
  · have ordered : reading.now ≤ now := order _ (mem_commandReadings _ calm)
    by_contra! left
    have enough := remaining_pos_iff.mp left
    have late : ¬ 0 < remaining deadline reading.now := not_lt.mpr refused
    rw [remaining_pos_iff] at late
    omega
  · obtain ⟨passedNow, inside, passed⟩ := exists_late_of_timedOut killed.late
    rw [commandReadings, killed.calm, if_neg Bool.false_ne_true,
      if_pos ⟨killed.time, killed.starts⟩] at order within
    have startedLater := List.rel_of_pairwise_cons within List.mem_cons_self
    have ordered := order passedNow (List.mem_cons_of_mem _ (List.mem_cons_of_mem _ inside))
    exact remaining_nonpos_of_late killed.time (by omega)

end Check

/-- On a clock that does not go backwards the timeouts of a check are reported as they
should exactly if every command that is killed was started without any time gone by since
the deadline was set. -/
theorem check_reportsTimeouts_iff {binary path : Path} {execute : List Text → Execution}
    {timeout : Int} {readings : Readings}
    (monotone : (checkReadings timeout readings
      (execute (ExecGitRunner.commandArguments binary path remoteArguments))
      (execute (ExecGitRunner.commandArguments binary path statusArguments))).Pairwise (· ≤ ·)) :
    let deadline := readings.started + timeout * nanosecondsPerMillisecond
    let run := runBeforeDeadline (ExecGitRunner.run binary execute) path
    ReportsTimeouts timeout readings.status
        (run remoteArguments deadline timeout readings.remote)
        (run statusArguments deadline timeout readings.status)
        (check (ExecGitRunner.run binary execute) timeout path readings) ↔
      (Killed deadline readings.remote
          (execute (ExecGitRunner.commandArguments binary path remoteArguments)) →
        readings.remote.now = readings.started) ∧
      (Killed deadline readings.status
          (execute (ExecGitRunner.commandArguments binary path statusArguments)) →
        readings.status.now = readings.started) := by
  intro deadline run
  rw [checkReadings, List.pairwise_cons, List.pairwise_append] at monotone
  obtain ⟨first, within, -, order⟩ := monotone
  obtain ⟨remoteError, worktreeError, upstreamError⟩ := check_errors
    (run remoteArguments deadline timeout readings.remote)
    (run statusArguments deadline timeout readings.status) path
  have remoteLater : readings.remote.cancelled = false →
      readings.started ≤ readings.remote.now :=
    fun calm => first _ (List.mem_append_left _ (mem_commandReadings _ calm))
  have statusLater : readings.status.cancelled = false →
      readings.started ≤ readings.status.now :=
    fun calm => first _ (List.mem_append_right _ (mem_commandReadings _ calm))
  rw [check_eq]
  constructor
  · intro reports
    constructor
    · intro killed
      apply started_of_recorded remoteLater killed
      intro timedOut
      rw [← reports.remote timedOut, remoteError]
    · intro killed
      apply started_of_recorded statusLater killed
      intro timedOut
      rw [← (reports.worktree timedOut).1, worktreeError]
  · rintro ⟨remotePrompt, statusPrompt⟩
    have remoteRecorded := recorded_of_timedOut remoteLater remotePrompt
    have statusRecorded := recorded_of_timedOut statusLater statusPrompt
    refine ⟨fun timedOut => remoteError.trans (remoteRecorded timedOut),
      fun timedOut => ⟨worktreeError.trans (statusRecorded timedOut),
        upstreamError.trans (statusRecorded timedOut)⟩, ?_⟩
    intro timedOut calm
    -- the first command has used up the time, so that the second one is refused
    have noTimeLeft : remaining deadline readings.status.now ≤ 0 :=
      remaining_nonpos_of_timedOut within
        (fun earlier inside => order earlier inside _ (mem_commandReadings _ calm)) timedOut
    have refused : (run statusArguments deadline timeout readings.status).timedOut = true := by
      simp only [run, runBeforeDeadline_of_refused calm noTimeLeft]
    exact issues_of_same_error (remoteError.trans (remoteRecorded timedOut))
      (worktreeError.trans (statusRecorded refused))
      (upstreamError.trans (statusRecorded refused))

/-- A command that runs on until the end of the time for a check of 15 seconds. -/
def lateExecution : Execution where
  started := 1
  turns := [{ cancelled := false, now := 15000000000 }]
  status := .signalled 9
  captured := []

/-- The readings of a check that is started at zero, with the first command a
nanosecond later. -/
def lateReadings : Readings where
  started := 0
  remote := { cancelled := false, now := 1 }
  status := { cancelled := false, now := 15000000000 }

/-- A command that is killed reports a millisecond less than was configured, and the check
raises two issues. -/
theorem check_lateReadings :
    let execute := fun _ : List Text => lateExecution
    (checkReadings 15000 lateReadings lateExecution lateExecution).Pairwise (· ≤ ·) ∧
      (check (ExecGitRunner.run (ascii "/usr/bin/git") execute) 15000 (ascii "/r")
        lateReadings).issues =
        [{ checks := [ascii "remote"], message := ascii "timed out after 14.999s" },
          { checks := [ascii "worktree", ascii "upstream"]
            message := ascii "timed out after 15s" }] ∧
      commandTimeoutMessage 15000 = ascii "timed out after 15s" := by
  decide

/-- A check whose second command starts late reports its time-out. -/
theorem check_lateReadings_reportsTimeouts :
    let execute := fun _ : List Text => lateExecution
    let run := runBeforeDeadline (ExecGitRunner.run (ascii "/usr/bin/git") execute) (ascii "/r")
    ReportsTimeouts 15000 lateReadings.status
        (run remoteArguments 15000000000 15000 lateReadings.remote)
        (run statusArguments 15000000000 15000 lateReadings.status)
        (check (ExecGitRunner.run (ascii "/usr/bin/git") execute) 15000 (ascii "/r")
          lateReadings) ↔
      (Killed 15000000000 lateReadings.remote lateExecution →
        lateReadings.remote.now = lateReadings.started) ∧
      (Killed 15000000000 lateReadings.status lateExecution →
        lateReadings.status.now = lateReadings.started) :=
  check_reportsTimeouts_iff (by decide)

end CheckGitStatus.Cpp
