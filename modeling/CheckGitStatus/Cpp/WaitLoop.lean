import CheckGitStatus.Cpp.OutputCapture
import Mathlib.Algebra.BigOperators.Group.List.Basic
import Mathlib.Algebra.GroupWithZero.Nat

/-! # How a call of git comes to its end

The variables of the wait loop fit the place of the main thread in every reachable state
(`CheckGitStatus.Cpp.OutputCapture.Waits`). A call returns whatever the child does
(`CheckGitStatus.Cpp.OutputCapture.capture_completes`), its result is the one that
`ExecGitRunner.run` computes from what the main thread has read
(`CheckGitStatus.Cpp.OutputCapture.run_eq_result`), and for a command that exits in time
it is a matter of the command's text and exit code alone
(`CheckGitStatus.Cpp.OutputCapture.result_eq_completed`).
-/

namespace CheckGitStatus.Cpp.OutputCapture

open Library

variable {capacity : Nat} {timeout : Int} {before after : State} {event : Event}

/-! ## What the main thread knows -/

/-- The main thread has not left the wait loop. -/
def MainPhase.looping : MainPhase → Bool
  | .starting | .polling | .checkingFlag | .checkingClock | .sleeping => true
  | .killing | .reaping | .joining | .returned _ => false

/-- The main thread has not left the blocking `waitpid`. -/
def MainPhase.waiting : MainPhase → Bool
  | .joining | .returned _ => false
  | _ => true

/-- The turn lets the loop go on. -/
def LetsGoOn (deadline : Int) (turn : Turn) : Prop :=
  turn.cancelled = false ∧ turn.now < deadline

/-- The variables of the wait loop fit the place of the main thread. -/
structure Waits (timeout : Int) (state : State) : Prop where
  fresh : state.main = .starting → state.turns = []
  unset : state.main.looping = true →
    state.wasCancelled = false ∧ state.timedOut = false ∧ state.waitError = []
  calm : state.main.looping = true →
    ∀ turn ∈ state.turns, LetsGoOn (state.deadline timeout) turn
  outcome : waitLoop (state.deadline timeout) state.error state.turns = state.outcome
  inTime : state.main = .sleeping → state.clock < state.deadline timeout
  unreaped : state.main.waiting = true → ∀ status, state.child ≠ .reaped status
  signalled : state.main = .reaping → state.killed = true
  -- the child is killed for a reason
  blamed : state.main = .killing ∨ state.killed = true → state.outcome ≠ .ended
  told : state.main.waiting = false →
    state.killed = true ∨ state.child = .reaped state.processStatus
  returned : ∀ result, state.main = .returned result →
    state.reader ≠ .reading ∧ result = state.result timeout

/-- The turns that let the loop go on have no part in its outcome. -/
theorem waitLoop_append {deadline : Int} {error : Option Text} {calm : List Turn}
    (running : ∀ turn ∈ calm, LetsGoOn deadline turn) (turns : List Turn) :
    waitLoop deadline error (calm ++ turns) = waitLoop deadline error turns := by
  induction calm with
  | nil => rfl
  | cons turn rest ih =>
      obtain ⟨calm, early⟩ := running turn List.mem_cons_self
      have late : ¬ deadline ≤ turn.now := not_le.mpr early
      simp only [List.cons_append, waitLoop, calm, Bool.false_eq_true, late, ↓reduceIte]
      exact ih fun turn inside => running turn (List.mem_cons_of_mem _ inside)

/-- A loop whose turns all let it go on ends with what `waitpid` says then. -/
theorem waitLoop_of_calm {deadline : Int} {error : Option Text} {turns : List Turn}
    (running : ∀ turn ∈ turns, LetsGoOn deadline turn) :
    waitLoop deadline error turns = error.elim .ended .waitFailed := by
  have whole := @waitLoop_append deadline error turns running []
  rw [List.append_nil] at whole
  exact whole

/-- In the loop nothing is blamed yet. -/
theorem Step.unset (taken : Step capacity timeout before event after)
    (unset : before.main.looping = true →
      before.wasCancelled = false ∧ before.timedOut = false ∧ before.waitError = [])
    (looping : after.main.looping = true) :
    after.wasCancelled = false ∧ after.timedOut = false ∧ after.waitError = [] := by
  cases taken with
  | start main | pollRunning main | flagUnset main | early main | sleep main =>
      refine unset ?_
      rw [main]
      rfl
  | pollEnded | pollFail | flagSet | late | kill | reap | reapFail | join => cases looping
  | _ => exact unset looping

/-- Every turn of the loop that went on was calm and in time. -/
theorem Step.calm (taken : Step capacity timeout before event after)
    (fresh : before.main = .starting → before.turns = [])
    (calm : before.main.looping = true →
      ∀ turn ∈ before.turns, LetsGoOn (before.deadline timeout) turn)
    (looping : after.main.looping = true) :
    ∀ turn ∈ after.turns, LetsGoOn (after.deadline timeout) turn := by
  cases taken with
  | start starting =>
      -- the deadline is new, but no turn has passed
      intro turn inside
      rw [fresh starting] at inside
      cases inside
  | pollRunning main | flagUnset main | sleep main =>
      refine calm ?_
      rw [main]
      rfl
  | early main _ early =>
      intro turn inside
      rcases List.mem_append.mp inside with old | new
      · exact calm (by rw [main]; rfl) turn old
      · cases List.mem_singleton.mp new
        exact ⟨rfl, early⟩
  | pollEnded | pollFail | flagSet | late | kill | reap | reapFail | join => cases looping
  | _ => exact calm looping

/-- The outcome is the one of the sequential loop over the same turns. -/
theorem Step.outcome (taken : Step capacity timeout before event after)
    (waits : Waits timeout before) :
    waitLoop (after.deadline timeout) after.error after.turns = after.outcome := by
  have calm := waits.calm
  have unset := waits.unset
  have calmAfter := taken.calm waits.fresh calm
  cases taken with
  | start starting =>
      obtain ⟨uncancelled, early, fine⟩ := unset (by rw [starting]; rfl)
      simp only [waits.fresh starting, State.outcome, State.error, uncancelled, early, fine,
        waitLoop, Bool.false_eq_true, ↓reduceIte]
  | pollFail polling =>
      have looping : before.main.looping = true := by rw [polling]; rfl
      obtain ⟨uncancelled, early, -⟩ := unset looping
      rw [State.outcome]
      simp only [uncancelled, early, Bool.false_eq_true, ↓reduceIte]
      exact waitLoop_of_calm (calm looping)
  | flagSet checking =>
      have looping : before.main.looping = true := by rw [checking]; rfl
      exact waitLoop_append (calm looping) _
  | late checking passed late =>
      have looping : before.main.looping = true := by rw [checking]; rfl
      obtain ⟨uncancelled, -, -⟩ := unset looping
      refine (waitLoop_append (calm looping) _).trans ?_
      simp only [waitLoop, State.outcome, State.record, uncancelled, Bool.false_eq_true,
        ↓reduceIte, late]
  | early checking passed early =>
      have looping : before.main.looping = true := by rw [checking]; rfl
      obtain ⟨uncancelled, inTime, -⟩ := unset looping
      rw [State.outcome]
      simp only [State.record, uncancelled, inTime, Bool.false_eq_true, ↓reduceIte]
      exact waitLoop_of_calm (calmAfter rfl)
  | _ => exact waits.outcome

/-- The main thread sleeps only before the deadline. -/
theorem Step.inTime (taken : Step capacity timeout before event after)
    (inTime : before.main = .sleeping → before.clock < before.deadline timeout)
    (sleeping : after.main = .sleeping) : after.clock < after.deadline timeout := by
  cases taken with
  | early _ _ early => exact early
  | start | pollEnded | pollRunning | pollFail | flagSet | flagUnset | late | sleep | kill
  | reap | reapFail | join => cases sleeping
  | _ => exact inTime sleeping

/-- In the loop the child has not been waited for. -/
theorem Step.unreaped (taken : Step capacity timeout before event after)
    (unreaped : before.main.waiting = true → ∀ status, before.child ≠ .reaped status)
    (waiting : after.main.waiting = true) (status : ProcessStatus) :
    after.child ≠ .reaped status := by
  cases taken with
  | exit | signal | die => exact ChildPhase.noConfusion
  | start main | pollRunning main | pollFail main | flagSet main | flagUnset main | late main
  | early main | sleep main | kill main =>
      refine unreaped ?_ status
      rw [main]
      rfl
  | pollEnded | reap | reapFail | join => cases waiting
  | _ => exact unreaped waiting status

/-- The child is waited for after its kill. -/
theorem Step.signalled (taken : Step capacity timeout before event after)
    (signalled : before.main = .reaping → before.killed = true)
    (reaping : after.main = .reaping) : after.killed = true := by
  cases taken with
  | kill => rfl
  | start | pollEnded | pollRunning | pollFail | flagSet | flagUnset | late | early | sleep
  | reap | reapFail | join => cases reaping
  | _ => exact signalled reaping

/-- The child is killed only for a reason. -/
theorem Step.blamed (taken : Step capacity timeout before event after)
    (unset : before.main.looping = true →
      before.wasCancelled = false ∧ before.timedOut = false ∧ before.waitError = [])
    (blamed : before.main = .killing ∨ before.killed = true → before.outcome ≠ .ended)
    (stopping : after.main = .killing ∨ after.killed = true) : after.outcome ≠ .ended := by
  cases taken with
  | pollFail polling named =>
      obtain ⟨uncancelled, early, -⟩ := unset (by rw [polling]; rfl)
      simp only [State.outcome, State.error, uncancelled, early, named, Bool.false_eq_true,
        ↓reduceIte, Option.elim_some, ne_eq, reduceCtorEq, not_false_eq_true]
  | flagSet => exact WaitOutcome.noConfusion
  | late checking =>
      obtain ⟨uncancelled, -, -⟩ := unset (by rw [checking]; rfl)
      simp only [State.outcome, State.record, uncancelled, Bool.false_eq_true, ↓reduceIte, ne_eq,
        reduceCtorEq, not_false_eq_true]
  | kill killing => exact blamed (.inl killing)
  | start | pollEnded | pollRunning | flagUnset | early | sleep | reap | reapFail | join =>
      exact blamed (.inr (stopping.resolve_left MainPhase.noConfusion))
  | _ => exact blamed stopping

/-- Past the loop the child is killed or its status known. -/
theorem Step.told (taken : Step capacity timeout before event after)
    (waits : Waits timeout before) (left : after.main.waiting = false) :
    after.killed = true ∨ after.child = .reaped after.processStatus := by
  have told := waits.told
  cases taken with
  | pollEnded | reap => exact .inr rfl
  | reapFail reaping => exact .inl (waits.signalled reaping)
  | exit running | signal running | die running =>
      rcases told left with killed | reaped
      · exact .inl killed
      · cases running.symm.trans reaped
  | join joining =>
      refine told ?_
      rw [joining]
      rfl
  | start | pollRunning | pollFail | flagSet | flagUnset | late | early | sleep | kill =>
      cases left
  | _ => exact told left

/-- What is returned is the result after the reader's end. -/
theorem Step.returned (taken : Step capacity timeout before event after)
    (returned : ∀ result, before.main = .returned result →
      before.reader ≠ .reading ∧ result = before.result timeout)
    (result : CommandResult) (main : after.main = .returned result) :
    after.reader ≠ .reading ∧ result = after.result timeout := by
  cases taken with
  | read reading | readFail reading | endOfFile reading =>
      exact absurd reading (returned result main).1
  | join _ ended =>
      cases main
      exact ⟨ended, rfl⟩
  | start | pollEnded | pollRunning | pollFail | flagSet | flagUnset | late | early | sleep
  | kill | reap | reapFail => cases main
  | _ => exact returned result main

/-- No turn is recorded before the loop starts. -/
theorem Step.fresh (taken : Step capacity timeout before event after)
    (fresh : before.main = .starting → before.turns = [])
    (starting : after.main = .starting) : after.turns = [] := by
  cases taken with
  | start | pollEnded | pollRunning | pollFail | flagSet | flagUnset | late | early | sleep
  | kill | reap | reapFail | join => cases starting
  | _ => exact fresh starting

theorem Waits.step (waits : Waits timeout before)
    (taken : Step capacity timeout before event after) : Waits timeout after where
  fresh := taken.fresh waits.fresh
  unset := taken.unset waits.unset
  calm := taken.calm waits.fresh waits.calm
  outcome := taken.outcome waits
  inTime := taken.inTime waits.inTime
  unreaped := taken.unreaped waits.unreaped
  signalled := taken.signalled waits.signalled
  blamed := taken.blamed waits.unset waits.blamed
  told := taken.told waits
  returned := taken.returned waits.returned

theorem reachable_waits {text : Text} {others : List Text} {state : State}
    (reachable : (capture capacity timeout text others).Reachable state) :
    Waits timeout state := by
  refine reachable.invariant ?_ Waits.step
  rintro state ⟨clock, cancelled, rfl⟩
  exact {
    fresh := fun _ => rfl
    unset := fun _ => ⟨rfl, rfl, rfl⟩
    calm := fun _ => nofun
    outcome := rfl
    inTime := nofun
    unreaped := fun _ _ => nofun
    signalled := nofun
    blamed := fun stopping => by rcases stopping with killing | killed <;> contradiction
    told := nofun
    returned := nofun }

/-- What a call returns is `ExecGitRunner.run` of what has been read during it. -/
theorem run_eq {text : Text} {others : List Text} {state : State}
    {result : CommandResult} {binary directory : Path} {arguments : List Text}
    {execute : List Text → Execution}
    (reachable : (capture capacity timeout text others).Reachable state)
    (returned : state.main = .returned result)
    (decided : execute (ExecGitRunner.commandArguments binary directory arguments) =
      state.execution) :
    ExecGitRunner.run binary execute directory arguments timeout = result := by
  have waits := reachable_waits reachable
  rw [(waits.returned result returned).2]
  have outcome : waitLoop (state.started + timeout * nanosecondsPerMillisecond) state.error
      state.turns = state.outcome := waits.outcome
  simp only [ExecGitRunner.run, decided, State.execution, Bool.false_eq_true, ↓reduceIte,
    outcome, State.outcome, State.result]
  by_cases cancelled : state.wasCancelled
  · simp only [cancelled, ↓reduceIte]
  by_cases late : state.timedOut
  · simp only [cancelled, Bool.false_eq_true, late, ↓reduceIte]
  by_cases fine : state.waitError = []
  · simp only [cancelled, Bool.false_eq_true, late, State.error, fine, ne_eq, not_true_eq_false,
      ↓reduceIte, Option.elim_none]
  · simp only [cancelled, Bool.false_eq_true, late, State.error, fine, ne_eq, not_false_eq_true,
      ↓reduceIte, Option.elim_some]

/-! ## Every call comes to its end -/

/-- How many moves of the child are left: its end and its being waited for. -/
def ChildPhase.size : ChildPhase → Nat
  | .running => 2
  | .ended _ => 1
  | .reaped _ => 0

/-- Whether the reader still reads. -/
def ReaderPhase.size : ReaderPhase → Nat
  | .reading => 1
  | .ended | .failed => 0

/-- A turn of the wait loop takes less than four steps more than it leaves. -/
def MainPhase.size : MainPhase → Nat
  | .starting => 9
  | .polling => 8
  | .checkingFlag => 7
  | .checkingClock => 6
  | .sleeping => 5
  | .killing => 3
  | .reaping => 2
  | .joining => 1
  | .returned _ => 0

/-- The nanoseconds before the deadline. -/
def State.timeLeft (timeout : Int) (state : State) : Nat :=
  if state.main = .starting then (timeout * nanosecondsPerMillisecond).toNat
  else (state.deadline timeout - state.clock).toNat

/-- Every byte is written and read once, every party moves on, and time passes. -/
def State.size (timeout : Int) (state : State) : Nat :=
  2 * (state.rest.length + (state.others.map List.length).sum) + state.others.length +
    state.pipe.length + state.child.size + state.reader.size +
    (if state.cancelled then 0 else 1) + 4 * state.timeLeft timeout + state.main.size

/-- Every move leaves less to do. -/
theorem Step.size_lt (taken : Step capacity timeout before event after)
    (waits : Waits timeout before) : after.size timeout < before.size timeout := by
  cases taken with
  | childWrite _ split some =>
      have := List.length_pos_of_ne_nil some
      simp only [State.size, State.timeLeft, State.deadline, split, List.length_append]
      omega
  | otherWrite held some =>
      have := List.length_pos_of_ne_nil some
      simp only [State.size, State.timeLeft, State.deadline, held, List.length_append,
        List.map_append, List.map_cons, List.sum_append, List.sum_cons, List.length_cons]
      omega
  | otherClose held =>
      simp only [State.size, State.timeLeft, State.deadline, held, List.length_append,
        List.map_append, List.map_cons, List.sum_append, List.sum_cons, List.length_cons]
      omega
  | read reading split some =>
      have := List.length_pos_of_ne_nil some
      simp only [State.size, State.timeLeft, State.deadline, split, List.length_append]
      omega
  | exit running | signal running | die running =>
      simp only [State.size, State.timeLeft, State.deadline, running, ChildPhase.size]
      omega
  | readFail reading | endOfFile reading =>
      simp only [State.size, State.timeLeft, State.deadline, reading, ReaderPhase.size]
      omega
  | interrupt unset =>
      simp only [State.size, State.timeLeft, State.deadline, unset, Bool.false_eq_true,
        ↓reduceIte]
      omega
  | start starting passed =>
      simp only [State.size, State.timeLeft, State.deadline, starting, MainPhase.size, ↓reduceIte,
        reduceCtorEq]
      omega
  | sleep sleeping passed =>
      have early := waits.inTime sleeping
      simp only [State.deadline, pause, nanosecondsPerMillisecond] at early passed
      simp only [State.size, State.timeLeft, State.deadline, sleeping, MainPhase.size, ↓reduceIte,
        reduceCtorEq, nanosecondsPerMillisecond]
      omega
  | pollEnded main ended | reap main ended =>
      simp only [State.size, State.timeLeft, State.deadline, main, ended, MainPhase.size,
        ChildPhase.size, ↓reduceIte, reduceCtorEq]
      omega
  | late main passed | early main passed =>
      simp only [State.size, State.timeLeft, State.deadline, State.record, main, MainPhase.size,
        ↓reduceIte, reduceCtorEq]
      omega
  | pollRunning main | pollFail main | flagSet main | flagUnset main | kill main
  | reapFail main | join main =>
      simp only [State.size, State.timeLeft, State.deadline, State.record, main, MainPhase.size,
        ↓reduceIte, reduceCtorEq]
      omega

theorem one_le_bufferSize : 1 ≤ bufferSize := by decide

/-- In a call that has not returned one of the program's threads can move, a child it has
killed can end, or the reader waits for another process. -/
theorem exists_own_step {state : State} (waits : Waits timeout state)
    (running : ¬ (state.Returned ∨ state.WaitsForOthers)) :
    ∃ event after, event.Own ∧ Step capacity timeout state event after := by
  have unreaped := waits.unreaped
  cases main : state.main with
  | starting => exact ⟨.start, _, trivial, .start main le_rfl⟩
  | polling =>
      rw [main] at unreaped
      cases child : state.child with
      | running => exact ⟨.poll, _, trivial, .pollRunning main child⟩
      | ended status => exact ⟨.poll, _, trivial, .pollEnded main child⟩
      | reaped status => exact absurd child (unreaped rfl status)
  | checkingFlag =>
      cases flag : state.cancelled with
      | true => exact ⟨.loadFlag, _, trivial, .flagSet main flag⟩
      | false => exact ⟨.loadFlag, _, trivial, .flagUnset main flag⟩
  | checkingClock =>
      rcases le_or_gt (state.deadline timeout) state.clock with late | early
      · exact ⟨.readClock, _, trivial, .late main le_rfl late⟩
      · exact ⟨.readClock, _, trivial, .early main le_rfl early⟩
  | sleeping => exact ⟨.sleep, _, trivial, .sleep main le_rfl⟩
  | killing => exact ⟨.kill, _, trivial, .kill main⟩
  | reaping =>
      rw [main] at unreaped
      cases child : state.child with
      | running => exact ⟨.die, _, trivial, .die child (waits.signalled main)⟩
      | ended status => exact ⟨.reap, _, trivial, .reap main child⟩
      | reaped status => exact absurd child (unreaped rfl status)
  | joining =>
      by_cases reading : state.reader = .reading
      · cases filled : state.pipe with
        | cons byte rest =>
            exact ⟨.read, _, trivial, @Step.read _ _ _ [byte] rest reading filled
              (List.cons_ne_nil _ _) one_le_bufferSize⟩
        | nil =>
            cases child : state.child with
            | running =>
                have told := waits.told (by rw [main]; rfl)
                rw [child] at told
                exact ⟨.die, _, trivial, .die child (told.resolve_right nofun)⟩
            | ended | reaped =>
                by_cases closed : state.others = []
                · refine ⟨.endOfFile, _, trivial, .endOfFile reading filled ?_ closed⟩
                  rw [child]
                  exact ChildPhase.noConfusion
                · exact absurd (.inr ⟨main, reading, filled, closed⟩) running
      · exact ⟨.join, _, trivial, .join main reading⟩
  | returned result => exact absurd (.inl ⟨result, main⟩) running

/-- A child that wants to write is not held up by a full pipe: it can write, or the
reader can make room. -/
theorem exists_write_or_read {text : Text} {others : List Text} {state : State}
    (roomy : 0 < capacity)
    (reachable : (capture capacity timeout text others).Reachable state)
    (running : state.child = .running) (more : state.rest ≠ [])
    (working : state.reader ≠ .failed) :
    ∃ event after, (event = .childWrite ∨ event = .read) ∧
      Step capacity timeout state event after := by
  obtain ⟨byte, rest, split⟩ := List.exists_cons_of_ne_nil more
  cases filled : state.pipe with
  | nil =>
      refine ⟨.childWrite, _, .inl rfl, @Step.childWrite _ _ _ [byte] rest running split
        (List.cons_ne_nil _ _) ?_⟩
      rw [filled]
      exact roomy
  | cons first back =>
      cases reading : state.reader with
      | reading =>
          exact ⟨.read, _, .inr rfl, @Step.read _ _ _ [first] back reading filled
            (List.cons_ne_nil _ _) one_le_bufferSize⟩
      | ended => exact absurd running ((reachable_conserves reachable).drained reading).2.1
      | failed => exact absurd reading working

/-- Every run is finite, and until the call has returned the program's own moves suffice to
go on, unless another process keeps the write end of the pipe. -/
theorem call_completes (text : Text) (others : List Text) :
    (capture capacity timeout text others).Completes Event.Own
      fun state => state.Returned ∨ others ≠ [] ∧ state.WaitsForOthers where
  terminates := by
    intro state reachable
    refine TransitionSystem.terminates_of_measure (State.size timeout) ?_ reachable
    intro before event after reachable taken
    exact Step.size_lt taken (reachable_waits reachable)
  progress := by
    intro state reachable running
    refine exists_own_step (reachable_waits reachable) ?_
    rintro (returned | waiting)
    · exact running (.inl returned)
    · refine running (.inr ⟨?_, waiting⟩)
      rintro rfl
      exact waiting.held (reachable_alone reachable).1

/-- A call whose child holds the write end alone returns. -/
theorem call_completes_alone (capacity : Nat) (timeout : Int) (text : Text) :
    (capture capacity timeout text []).Completes Event.Own State.Returned where
  terminates := (call_completes text []).terminates
  progress reachable running := (call_completes text []).progress reachable
    fun done => running (done.resolve_right fun waiting => waiting.1 rfl)

/-- **A call returns, whatever the child does.** No run is infinite, no state is stuck that
does not wait for another process's copy of the write end, and a full pipe holds up no
child for good unless a `read` has failed. -/
theorem capture_completes (roomy : 0 < capacity) (text : Text) (others : List Text) :
    (capture capacity timeout text others).Completes Event.Own
        (fun state => state.Returned ∨ others ≠ [] ∧ state.WaitsForOthers) ∧
      ∀ state, (capture capacity timeout text others).Reachable state →
        state.child = .running → state.rest ≠ [] → state.reader ≠ .failed →
        ∃ event after, (event = .childWrite ∨ event = .read) ∧
          Step capacity timeout state event after :=
  ⟨call_completes text others, fun _ reachable => exists_write_or_read roomy reachable⟩

/-- Even a pipe of one byte holds up no call. -/
theorem capture_completes_one_byte_pipe :
    (capture 1 15000 (ascii "## main\n") []).Completes Event.Own
      (fun state => state.Returned ∨ ([] : List Text) ≠ [] ∧ state.WaitsForOthers) :=
  (capture_completes Nat.one_pos (ascii "## main\n") []).1

/-! ## How often the main thread polls -/

/-- Every turn of the wait loop that goes on is followed by a pause. -/
structure Paced (timeout : Int) (state : State) : Prop where
  fresh : state.main = .starting → state.turns = []
  rested : state.main = .polling ∨ state.main = .checkingFlag ∨ state.main = .checkingClock →
    state.started + pause * state.turns.length ≤ state.clock
  slept : state.main = .sleeping →
    state.started + pause * state.turns.length ≤ state.clock + pause ∧
      state.clock < state.deadline timeout
  looping : state.main.looping = true → 10 * (state.turns.length : Int) < timeout + 10
  bounded : 10 * (state.turns.length : Int) < timeout + 20

/-- Outside of the wait loop only the number of the turns counts. -/
theorem Paced.of_left {state : State} (left : state.main.looping = false)
    (bounded : 10 * (state.turns.length : Int) < timeout + 20) : Paced timeout state where
  fresh main := by rw [main] at left; cases left
  rested main := by rcases main with main | main | main <;> rw [main] at left <;> cases left
  slept main := by rw [main] at left; cases left
  looping looping := by rw [looping] at left; cases left
  bounded := bounded

theorem Paced.step (lasting : 0 ≤ timeout) (paced : Paced timeout before)
    (taken : Step capacity timeout before event after) : Paced timeout after := by
  have fits : before.main.looping = true →
      10 * ((before.turns.length + 1 : Nat) : Int) < timeout + 20 := by
    intro looping
    have := paced.looping looping
    omega
  cases taken with
  | start main =>
      have none := paced.fresh main
      refine ⟨nofun, fun _ => ?_, nofun, fun _ => ?_, paced.bounded⟩
      · simp only [none, List.length_nil, pause, nanosecondsPerMillisecond]
        omega
      · simp only [none, List.length_nil]
        omega
  | pollRunning main | flagUnset main =>
      have looping : before.main.looping = true := by rw [main]; rfl
      refine ⟨nofun, fun _ => paced.rested ?_, nofun, fun _ => paced.looping looping,
        paced.bounded⟩
      simp only [main, true_or, or_true]
  | early main passed early =>
      have rested := paced.rested (.inr (.inr main))
      have looping : before.main.looping = true := by rw [main]; rfl
      have bounded := fits looping
      have inTime := early
      simp only [State.deadline, pause, nanosecondsPerMillisecond] at rested early
      refine ⟨nofun, fun main => by simp at main, fun _ => ⟨?_, inTime⟩, fun _ => ?_, ?_⟩
      all_goals simp only [State.record, List.length_append, List.length_cons, List.length_nil,
        pause, nanosecondsPerMillisecond]
      all_goals omega
  | sleep main passed =>
      obtain ⟨slept, early⟩ := paced.slept main
      have looping : before.main.looping = true := by rw [main]; rfl
      refine ⟨nofun, fun _ => ?_, nofun, fun _ => paced.looping looping, paced.bounded⟩
      exact le_trans slept passed
  | flagSet main | late main =>
      refine .of_left rfl ?_
      rw [State.record, List.length_append]
      exact fits (by rw [main]; rfl)
  | pollEnded | pollFail | kill | reap | reapFail | join => exact .of_left rfl paced.bounded
  | _ => exact ⟨paced.fresh, paced.rested, paced.slept, paced.looping, paced.bounded⟩

theorem reachable_paced {text : Text} {others : List Text} {state : State}
    (lasting : 0 ≤ timeout)
    (reachable : (capture capacity timeout text others).Reachable state) :
    Paced timeout state := by
  refine reachable.invariant ?_ (Paced.step lasting)
  rintro state ⟨clock, cancelled, rfl⟩
  refine ⟨fun _ => rfl, fun main => by simp at main, nofun, fun _ => ?_, ?_⟩
  all_goals
    simp only [List.length_nil]
    omega

/-! ## The result -/

/-- A wait loop that ends with the child has set none of its variables. -/
theorem quiet_of_ended {state : State} (ended : state.outcome = .ended) :
    state.wasCancelled = false ∧ state.timedOut = false ∧ state.waitError = [] := by
  rw [State.outcome, State.error] at ended
  by_cases cancelled : state.wasCancelled
  · rw [if_pos cancelled] at ended
    cases ended
  by_cases late : state.timedOut
  · rw [if_neg cancelled, if_pos late] at ended
    cases ended
  by_cases fine : state.waitError = []
  · exact ⟨Bool.eq_false_of_not_eq_true cancelled, Bool.eq_false_of_not_eq_true late, fine⟩
  · rw [if_neg cancelled, if_neg late, if_neg fine] at ended
    cases ended

/-- **The call is `ExecGitRunner.run`.** In every order of the steps the result is the one
that `ExecGitRunner.run` computes from the readings of the main thread, the child's status
and the reader's output, and there are no more turns than pauses fit into the timeout. -/
theorem run_eq_result {text : Text} {others : List Text} {state : State}
    {result : CommandResult} {binary directory : Path} {arguments : List Text}
    {execute : List Text → Execution} (lasting : 0 ≤ timeout)
    (reachable : (capture capacity timeout text others).Reachable state)
    (returned : state.main = .returned result)
    (decided : execute (ExecGitRunner.commandArguments binary directory arguments) =
      state.execution) :
    ExecGitRunner.run binary execute directory arguments timeout = result ∧
      10 * (state.turns.length : Int) < timeout + 20 :=
  ⟨run_eq reachable returned decided, (reachable_paced lasting reachable).bounded⟩

theorem run_eq_result_two_bytes :
    ∃ state : State, ExecGitRunner.run (ascii "/usr/bin/git") (fun _ => state.execution)
        (ascii "/r") statusArguments 15000 = completedResult (ascii "ok") 0 ∧
      10 * (state.turns.length : Int) < 15000 + 20 := by
  obtain ⟨state, reachable, returned, -⟩ := reachable_two_bytes
  exact ⟨state, run_eq_result (by decide) reachable returned rfl⟩

/-- The call comes to its end undisturbed: the reads succeed, and the child, which has the
write end to itself, exits before the main thread sees the flag or the deadline. -/
structure Undisturbed (capacity : Nat) (timeout : Int) (text : Text) (code : Nat) (state : State)
    (result : CommandResult) : Prop where
  reachable : (capture capacity timeout text []).Reachable state
  returned : state.main = .returned result
  readable : state.reader ≠ .failed
  exited : state.child.status = some (.exited code)
  ended : state.outcome = .ended

/-- The call then collects the whole text and the child's status. -/
theorem Undisturbed.collected {text : Text} {state : State} {result : CommandResult} {code : Nat}
    (calm : Undisturbed capacity timeout text code state result) :
    state.output = text ∧ state.processStatus = .exited code := by
  have waits := reachable_waits calm.reachable
  obtain ⟨joined, -⟩ := waits.returned result calm.returned
  have ended : state.reader = .ended := by
    cases reader : state.reader with
    | reading => exact absurd reader joined
    | failed => exact absurd reader calm.readable
    | ended => rfl
  have reaped : state.child = .reaped state.processStatus := by
    refine (waits.told (by rw [calm.returned]; rfl)).resolve_left fun killed => ?_
    exact waits.blamed (.inr killed) calm.ended
  have exited := calm.exited
  rw [reaped] at exited
  exact ⟨output_eq_text calm.reachable ended calm.exited, Option.some.inj exited⟩

/-- An undisturbed call returns the whole text and the exit code. -/
theorem Undisturbed.result_eq {text : Text} {state : State} {result : CommandResult} {code : Nat}
    (calm : Undisturbed capacity timeout text code state result) :
    state.result timeout = completedResult text code := by
  obtain ⟨whole, status⟩ := calm.collected
  have quiet := quiet_of_ended calm.ended
  rw [State.result]
  simp only [quiet, status, whole, ProcessStatus.exitCode, Bool.false_eq_true, ne_eq,
    not_true_eq_false, ↓reduceIte]

/-- What a running child is still to write can go through the pipe byte by byte. -/
theorem exists_drained (roomy : 0 < capacity) {text : Text} {others : List Text} {state : State}
    (running : state.child = .running) (reading : state.reader = .reading) (rest : Text) :
    ∀ {fromChild written output : Text},
      (capture capacity timeout text others).Reachable
        { state with rest, pipe := [], fromChild, written, output } →
      ∃ fromChild written output, (capture capacity timeout text others).Reachable
        { state with rest := [], pipe := [], fromChild, written, output } := by
  induction rest with
  | nil => exact fun reachable => ⟨_, _, _, reachable⟩
  | cons byte rest ih =>
      intro fromChild written output reachable
      have wrote := reachable.step (@Step.childWrite _ _ _ [byte] rest running rfl
        (List.cons_ne_nil _ _) roomy)
      exact ih (wrote.step (@Step.read _ _ _ [byte] [] reading rfl (List.cons_ne_nil _ _)
        one_le_bufferSize))

/-- Every text and exit code is collected by some undisturbed call. -/
theorem exists_undisturbed (roomy : 0 < capacity) (timeout : Int) (text : Text) (code : Nat) :
    ∃ state, Undisturbed capacity timeout text code state (completedResult text code) := by
  have initial : (capture capacity timeout text []).Reachable
      { rest := text, others := [], clock := 0, cancelled := false } := .initial ⟨0, false, rfl⟩
  have started := initial.step (@Step.start _ _ _ 0 rfl le_rfl)
  obtain ⟨_, _, _, wrote⟩ := @exists_drained capacity timeout roomy text []
    { rest := text, others := [], main := .polling, clock := 0, cancelled := false } rfl rfl text
    [] [] [] started
  have exited := wrote.step (@Step.exit _ _ _ code rfl rfl)
  have drained := exited.step (@Step.endOfFile _ _ _ rfl rfl ChildPhase.noConfusion rfl)
  have polled := drained.step (@Step.pollEnded _ _ _ (.exited code) rfl rfl)
  have joined := polled.step (@Step.join _ _ _ rfl ReaderPhase.noConfusion)
  have calm : Undisturbed capacity timeout text code _ _ :=
    ⟨joined, rfl, ReaderPhase.noConfusion, rfl, rfl⟩
  exact ⟨_, joined, congrArg MainPhase.returned calm.result_eq, ReaderPhase.noConfusion, rfl, rfl⟩

/-- **The result of a command that exits.** If the child has the write end to itself, every
`read` succeeds and the main thread sees the child's end before any other, the result
depends on what the child writes and on its exit code only. -/
theorem result_eq_completed {text : Text} {state : State} {result : CommandResult} {code : Nat}
    (calm : Undisturbed capacity timeout text code state result) :
    result = completedResult text code := by
  obtain ⟨_, same⟩ := (reachable_waits calm.reachable).returned result calm.returned
  rw [same, calm.result_eq]

theorem result_eq_completed_two_bytes :
    ∃ (state : State) (result : CommandResult), state.main = .returned result ∧
      result = completedResult (ascii "ok") 0 := by
  obtain ⟨state, calm⟩ := exists_undisturbed Nat.one_pos 15000 (ascii "ok") 0
  exact ⟨state, _, calm.returned, result_eq_completed calm⟩

end CheckGitStatus.Cpp.OutputCapture
