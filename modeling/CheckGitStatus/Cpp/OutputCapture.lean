import CheckGitStatus.Cpp.Process
import CheckGitStatus.Library.Interleaving
import CheckGitStatus.Library.Transition

/-! # Capturing the output of a running command

Once `ExecGitRunner::run` of the POSIX build has forked, three parties move in any
order. The child writes into a pipe of bounded capacity, and the reader thread empties it
into `output`. The main thread polls `waitpid` until the child ends, the flag `cancelled`
is set, the deadline passes or `waitpid` fails, kills a child that has not ended, joins
the reader and builds the result. Other processes may hold the write end as well: those
that inherited it at a concurrent fork, and those that the child has started. No byte is
lost, repeated or reordered (`CheckGitStatus.Cpp.OutputCapture.output_faithful`).
-/

namespace CheckGitStatus.Cpp.OutputCapture

open Library

/-- The child; `reaped` is after a `waitpid` that reports its end. -/
inductive ChildPhase where
  | running
  | ended (status : ProcessStatus)
  | reaped (status : ProcessStatus)
  deriving DecidableEq, Repr

/-- The reader thread: inside `read`, or returned at the end of the file or after a
failed `read`. -/
inductive ReaderPhase where
  | reading
  | ended
  | failed
  deriving DecidableEq, Repr

/-- Where the main thread stands after the start of the reader. -/
inductive MainPhase where
  /-- about to read the clock for the deadline -/
  | starting
  /-- about to call `waitpid` with `WNOHANG` -/
  | polling
  | checkingFlag
  | checkingClock
  | sleeping
  /-- about to call `kill` -/
  | killing
  /-- inside the blocking `waitpid` -/
  | reaping
  /-- inside `reader.join` -/
  | joining
  | returned (result : CommandResult)
  deriving DecidableEq, Repr

/-- The pipe, the parties and the variables of `run`, with a record of what the child,
the others and both together have written and of the turns of the wait loop. -/
structure State where
  /-- what the child is still to write -/
  rest : Text
  child : ChildPhase := .running
  killed : Bool := false
  /-- what each other process that holds the write end is still to write -/
  others : List Text
  pipe : Text := []
  fromChild : Text := []
  fromOthers : Text := []
  written : Text := []
  output : Text := []
  reader : ReaderPhase := .reading
  main : MainPhase := .starting
  clock : Int
  cancelled : Bool
  started : Int := 0
  wasCancelled : Bool := false
  timedOut : Bool := false
  waitError : Text := []
  processStatus : ProcessStatus := .exited 0
  turns : List Turn := []
  deriving Repr

/-- The length of `buffer`. -/
def bufferSize : Nat := 4096

/-- The pause between two polls, in nanoseconds. -/
def pause : Int := 10 * nanosecondsPerMillisecond

/-- Who moves: the child, the other holders of the write end, the reader thread, the main thread
or the clock. -/
inductive Event where
  | childWrite
  | exit
  /-- a signal of somebody else ends the child -/
  | signal
  /-- the program's own signal ends the child -/
  | die
  | otherWrite
  | otherClose
  | interrupt
  | read
  | readFail
  | endOfFile
  | start
  | poll
  | pollFail
  | loadFlag
  | readClock
  | sleep
  | kill
  | reap
  | reapFail
  | join
  deriving DecidableEq, Repr

namespace State

variable (state : State) (timeout : Int)

/-- The instant from which the main thread gives up waiting. -/
def deadline : Int :=
  state.started + timeout * nanosecondsPerMillisecond

/-- What `run` returns after `reader.join`. -/
def result : CommandResult :=
  let exitCode := state.processStatus.exitCode
  if state.wasCancelled then { error := ascii "interrupted", exitCode }
  else if state.timedOut then
    { error := commandTimeoutMessage timeout, exitCode, timedOut := true }
  else if state.waitError ≠ [] then
    { error := ascii "wait for Git: " ++ state.waitError, exitCode }
  else completedResult state.output exitCode

/-- The error of the wait loop, if it set one. -/
def error : Option Text :=
  if state.waitError = [] then none else some state.waitError

/-- How the wait loop has ended, as its variables say. -/
def outcome : WaitOutcome :=
  if state.wasCancelled then .cancelled
  else if state.timedOut then .timedOut
  else state.error.elim .ended .waitFailed

/-- What the system has decided during the call. -/
def execution : Execution where
  started := state.started
  turns := state.turns
  waitError := state.error
  status := state.processStatus
  captured := state.output

/-- The turn of the wait loop that ends now is recorded. -/
def record (turn : Turn) : State :=
  { state with clock := turn.now, turns := state.turns ++ [turn] }

end State

variable (capacity : Nat) (timeout : Int)

/-- One move. What the child and others do is not up to the program; a move of the reader or the
main thread is the next statement of its thread. -/
inductive Step : State → Event → State → Prop where
  -- a `write` may be partial and waits while the pipe is full
  | childWrite {state : State} {bytes rest : Text} : state.child = .running →
      state.rest = bytes ++ rest → bytes ≠ [] →
      state.pipe.length + bytes.length ≤ capacity →
      Step state .childWrite
        { state with
          rest := rest
          pipe := state.pipe ++ bytes
          fromChild := state.fromChild ++ bytes
          written := state.written ++ bytes }
  | exit {state : State} {code : Nat} : state.child = .running → state.rest = [] →
      Step state .exit { state with child := .ended (.exited code) }
  | signal {state : State} {number : Nat} : state.child = .running →
      Step state .signal { state with child := .ended (.signalled number) }
  | die {state : State} : state.child = .running → state.killed = true →
      Step state .die { state with child := .ended (.signalled 9) }
  | otherWrite {state : State} {front back : List Text} {bytes rest : Text} :
      state.others = front ++ (bytes ++ rest) :: back → bytes ≠ [] →
      state.pipe.length + bytes.length ≤ capacity →
      Step state .otherWrite
        { state with
          others := front ++ rest :: back
          pipe := state.pipe ++ bytes
          fromOthers := state.fromOthers ++ bytes
          written := state.written ++ bytes }
  | otherClose {state : State} {front back : List Text} {rest : Text} :
      state.others = front ++ rest :: back →
      Step state .otherClose { state with others := front ++ back }
  | interrupt {state : State} : state.cancelled = false →
      Step state .interrupt { state with cancelled := true }
  | read {state : State} {bytes rest : Text} : state.reader = .reading →
      state.pipe = bytes ++ rest → bytes ≠ [] → bytes.length ≤ bufferSize →
      Step state .read { state with pipe := rest, output := state.output ++ bytes }
  | readFail {state : State} : state.reader = .reading →
      Step state .readFail { state with reader := .failed }
  | endOfFile {state : State} : state.reader = .reading → state.pipe = [] →
      state.child ≠ .running → state.others = [] →
      Step state .endOfFile { state with reader := .ended }
  | start {state : State} {now : Int} : state.main = .starting → state.clock ≤ now →
      Step state .start { state with main := .polling, clock := now, started := now }
  | pollEnded {state : State} {status : ProcessStatus} : state.main = .polling →
      state.child = .ended status →
      Step state .poll
        { state with main := .joining, child := .reaped status, processStatus := status }
  | pollRunning {state : State} : state.main = .polling → state.child = .running →
      Step state .poll { state with main := .checkingFlag }
  -- the texts of `strerror` are not empty
  | pollFail {state : State} {error : Text} : state.main = .polling → error ≠ [] →
      Step state .pollFail { state with main := .killing, waitError := error }
  | flagSet {state : State} : state.main = .checkingFlag → state.cancelled = true →
      Step state .loadFlag
        { state.record { cancelled := true, now := state.clock } with
          main := .killing, wasCancelled := true }
  | flagUnset {state : State} : state.main = .checkingFlag → state.cancelled = false →
      Step state .loadFlag { state with main := .checkingClock }
  | late {state : State} {now : Int} : state.main = .checkingClock → state.clock ≤ now →
      state.deadline timeout ≤ now →
      Step state .readClock
        { state.record { cancelled := false, now } with main := .killing, timedOut := true }
  | early {state : State} {now : Int} : state.main = .checkingClock → state.clock ≤ now →
      now < state.deadline timeout →
      Step state .readClock
        { state.record { cancelled := false, now } with main := .sleeping }
  | sleep {state : State} {now : Int} : state.main = .sleeping → state.clock + pause ≤ now →
      Step state .sleep { state with main := .polling, clock := now }
  | kill {state : State} : state.main = .killing →
      Step state .kill { state with main := .reaping, killed := true }
  | reap {state : State} {status : ProcessStatus} : state.main = .reaping →
      state.child = .ended status →
      Step state .reap
        { state with main := .joining, child := .reaped status, processStatus := status }
  -- as after a `waitpid` that has found no child
  | reapFail {state : State} : state.main = .reaping →
      Step state .reapFail { state with main := .joining }
  | join {state : State} : state.main = .joining → state.reader ≠ .reading →
      Step state .join { state with main := .returned (state.result timeout) }

/-- The child is to write `text` and exit, and the other holders `others`. -/
def Initial (text : Text) (others : List Text) (state : State) : Prop :=
  ∃ clock cancelled, state = { rest := text, others, clock, cancelled }

/-- The call of `run` from the fork on, for a child that wants to write `text` while `others`
want to write theirs. -/
def capture (text : Text) (others : List Text) : TransitionSystem State Event where
  Initial := Initial text others
  Step := Step capacity timeout

/-- The moves of the program's two threads where no system call fails, and the end of a child
they have killed. No move of a child that is not killed, nor of another process, is among
them, and no failure of `read` or `waitpid`. -/
def Event.Own : Event → Prop
  | .childWrite | .exit | .signal | .otherWrite | .otherClose | .interrupt => False
  | .readFail | .pollFail | .reapFail => False
  | .die | .read | .endOfFile | .start | .poll | .loadFlag | .readClock | .sleep | .kill
  | .reap | .join => True

/-- The main thread has returned a result. -/
def State.Returned (state : State) : Prop :=
  ∃ result, state.main = .returned result

/-- Only another process that holds the write end keeps the reader, and with it the call,
from going on. -/
structure State.WaitsForOthers (state : State) : Prop where
  joining : state.main = .joining
  reading : state.reader = .reading
  emptied : state.pipe = []
  held : state.others ≠ []

/-! ## What becomes of the bytes -/

/-- How the child has ended, if it has. -/
def ChildPhase.status : ChildPhase → Option ProcessStatus
  | .running => none
  | .ended status | .reaped status => some status

/-- Where the bytes written so far are. -/
structure Conserves (text : Text) (state : State) : Prop where
  conserved : state.output ++ state.pipe = state.written
  shared : Interleaving state.fromChild state.fromOthers state.written
  childText : state.fromChild ++ state.rest = text
  -- the end of the file is not seen before the last writer is gone
  drained : state.reader = .ended →
    state.pipe = [] ∧ state.child ≠ .running ∧ state.others = []
  whole : ∀ code, state.child.status = some (.exited code) → state.rest = []

variable {capacity timeout} {before after : State} {event : Event}

/-- A move loses no byte of the pipe. -/
theorem Step.conserved (taken : Step capacity timeout before event after)
    (conserved : before.output ++ before.pipe = before.written) :
    after.output ++ after.pipe = after.written := by
  cases taken
  case childWrite | otherWrite =>
    rw [← List.append_assoc, conserved]
  case read bytes rest _ split _ _ =>
    rw [split] at conserved
    rw [List.append_assoc, conserved]
  all_goals exact conserved

/-- What is written stays an interleaving of the writers' texts. -/
theorem Step.shared (taken : Step capacity timeout before event after)
    (shared : Interleaving before.fromChild before.fromOthers before.written) :
    Interleaving after.fromChild after.fromOthers after.written := by
  cases taken
  case childWrite bytes _ _ _ _ _ => exact shared.append_left bytes
  case otherWrite bytes _ _ _ _ => exact shared.append_right bytes
  all_goals exact shared

/-- What the child has written and what is left make its text. -/
theorem Step.childText {text : Text} (taken : Step capacity timeout before event after)
    (childText : before.fromChild ++ before.rest = text) :
    after.fromChild ++ after.rest = text := by
  cases taken
  case childWrite bytes rest _ split _ _ =>
    rw [split] at childText
    rw [List.append_assoc, childText]
  all_goals exact childText

/-- The reader ends only at an empty pipe that nobody holds. -/
theorem Step.drained (taken : Step capacity timeout before event after)
    (drained : before.reader = .ended →
      before.pipe = [] ∧ before.child ≠ .running ∧ before.others = [])
    (ended : after.reader = .ended) :
    after.pipe = [] ∧ after.child ≠ .running ∧ after.others = [] := by
  cases taken with
  | childWrite running => exact absurd running (drained ended).2.1
  | otherWrite held | otherClose held =>
      rw [(drained ended).2.2] at held
      cases List.append_eq_nil_iff.mp held.symm |>.2
  | read reading => cases reading.symm.trans ended
  | readFail => cases ended
  | endOfFile _ empty stopped closed => exact ⟨empty, stopped, closed⟩
  | exit | signal | die | pollEnded | reap =>
      exact ⟨(drained ended).1, ChildPhase.noConfusion, (drained ended).2.2⟩
  | _ => exact drained ended

/-- A child that exits has written all. -/
theorem Step.whole (taken : Step capacity timeout before event after)
    (whole : ∀ code, before.child.status = some (.exited code) → before.rest = [])
    (code : Nat) (exited : after.child.status = some (.exited code)) : after.rest = [] := by
  cases taken with
  | childWrite running =>
      simp only [running, ChildPhase.status] at exited
      cases exited
  | exit _ silent => exact silent
  | signal | die => cases exited
  | pollEnded _ ended | reap _ ended =>
      refine whole code ?_
      rw [ended]
      exact exited
  | _ => exact whole code exited

theorem Conserves.step {text : Text} (conserves : Conserves text before)
    (taken : Step capacity timeout before event after) : Conserves text after where
  conserved := taken.conserved conserves.conserved
  shared := taken.shared conserves.shared
  childText := taken.childText conserves.childText
  drained := taken.drained conserves.drained
  whole := taken.whole conserves.whole

theorem reachable_conserves {text : Text} {others : List Text} {state : State}
    (reachable : (capture capacity timeout text others).Reachable state) :
    Conserves text state := by
  refine reachable.invariant ?_ Conserves.step
  rintro state ⟨clock, cancelled, rfl⟩
  exact ⟨rfl, .nil, rfl, ReaderPhase.noConfusion, fun _ => nofun⟩

/-- A child with the write end to itself stays alone. -/
theorem reachable_alone {text : Text} {state : State}
    (reachable : (capture capacity timeout text []).Reachable state) :
    state.others = [] ∧ state.fromOthers = [] := by
  induction reachable with
  | initial first =>
      obtain ⟨clock, cancelled, rfl⟩ := first
      exact ⟨rfl, rfl⟩
  | step _ taken alone =>
      cases taken with
      | otherWrite held | otherClose held =>
          rw [alone.1] at held
          cases (List.append_eq_nil_iff.mp held.symm).2
      | _ => exact alone

/-- A child writes two bytes through a pipe with room for one and exits while the main
thread sleeps. -/
theorem reachable_two_bytes :
    ∃ state, (capture 1 15000 (ascii "ok") []).Reachable state ∧
      state.main = .returned (completedResult (ascii "ok") 0) ∧ state.reader = .ended ∧
      state.child.status = some (.exited 0) ∧ state.outcome = .ended := by
  have initial : (capture 1 15000 (ascii "ok") []).Reachable
      { rest := ascii "ok", others := [], clock := 0, cancelled := false } :=
    .initial ⟨0, false, rfl⟩
  have started := initial.step (@Step.start _ _ _ 0 rfl le_rfl)
  have polled := started.step (@Step.pollRunning _ _ _ rfl rfl)
  have first := polled.step (@Step.childWrite _ _ _ (ascii "o") (ascii "k") rfl rfl
    (by decide) (by decide))
  have checked := first.step (@Step.flagUnset _ _ _ rfl rfl)
  have early := checked.step (@Step.early _ _ _ 0 rfl le_rfl (by decide))
  have readFirst := early.step (@Step.read _ _ _ (ascii "o") [] rfl rfl (by decide) (by decide))
  have second := readFirst.step (@Step.childWrite _ _ _ (ascii "k") [] rfl rfl
    (by decide) (by decide))
  have readSecond := second.step (@Step.read _ _ _ (ascii "k") [] rfl rfl (by decide) (by decide))
  have exited := readSecond.step (@Step.exit _ _ _ 0 rfl rfl)
  have slept := exited.step (@Step.sleep _ _ _ pause rfl (by decide))
  have drained := slept.step (@Step.endOfFile _ _ _ rfl rfl ChildPhase.noConfusion rfl)
  have polledAgain := drained.step (@Step.pollEnded _ _ _ (.exited 0) rfl rfl)
  have joined := polledAgain.step (@Step.join _ _ _ rfl ReaderPhase.noConfusion)
  exact ⟨_, joined, rfl, rfl, rfl, rfl⟩

/-- A child that has the write end to itself is the only one that is read. -/
theorem output_append_pipe {text : Text} {state : State}
    (reachable : (capture capacity timeout text []).Reachable state) :
    state.output ++ state.pipe = state.fromChild := by
  have shared := (reachable_conserves reachable).shared
  rw [(reachable_alone reachable).2, ← (reachable_conserves reachable).conserved] at shared
  exact shared.eq_left

/-- Whoever reads up to the end of the file has read all that the child has written. -/
theorem fromChild_of_exited {text : Text} {others : List Text} {state : State} {code : Nat}
    (reachable : (capture capacity timeout text others).Reachable state)
    (ended : state.reader = .ended) (exited : state.child.status = some (.exited code)) :
    state.fromChild = text ∧ state.pipe = [] := by
  obtain ⟨-, -, childText, drained, whole⟩ := reachable_conserves reachable
  rw [whole code exited, List.append_nil] at childText
  exact ⟨childText, (drained ended).1⟩

/-- After the end of the file the output of a child that was alone is its text. -/
theorem output_eq_text {text : Text} {state : State} {code : Nat}
    (reachable : (capture capacity timeout text []).Reachable state)
    (ended : state.reader = .ended) (exited : state.child.status = some (.exited code)) :
    state.output = text := by
  obtain ⟨said, drained⟩ := fromChild_of_exited reachable ended exited
  have alone := output_append_pipe reachable
  rwa [drained, List.append_nil, said] at alone

/-- **No byte is lost, repeated or reordered.** What the reader has taken and what is
still in the pipe is what the child has written of its text, interleaved with what the
others have written; after the end of the file it is the whole text of a child that has
exited, and nothing but that text if the child had the write end to itself. -/
theorem output_faithful {text : Text} {others : List Text} {state : State}
    (reachable : (capture capacity timeout text others).Reachable state) :
    state.fromChild <+: text ∧
      Interleaving state.fromChild state.fromOthers (state.output ++ state.pipe) ∧
      (others = [] → state.output <+: text) ∧
      ∀ code, state.reader = .ended → state.child.status = some (.exited code) →
        Interleaving text state.fromOthers state.output ∧
          (others = [] → state.output = text) := by
  have conserves := reachable_conserves reachable
  have shared := conserves.shared
  rw [← conserves.conserved] at shared
  refine ⟨⟨state.rest, conserves.childText⟩, shared, ?_, fun code ended exited => ⟨?_, ?_⟩⟩
  · rintro rfl
    exact List.IsPrefix.trans ⟨state.pipe, output_append_pipe reachable⟩
      ⟨state.rest, conserves.childText⟩
  · obtain ⟨said, drained⟩ := fromChild_of_exited reachable ended exited
    rwa [said, drained, List.append_nil] at shared
  · rintro rfl
    exact output_eq_text reachable ended exited

theorem output_faithful_two_bytes :
    ∃ state : State, state.main = .returned (completedResult (ascii "ok") 0) ∧
      Interleaving state.fromChild state.fromOthers (state.output ++ state.pipe) ∧
      state.output = ascii "ok" := by
  obtain ⟨state, reachable, returned, ended, exited, -⟩ := reachable_two_bytes
  obtain ⟨-, shared, -, whole⟩ := output_faithful reachable
  exact ⟨state, returned, shared, (whole 0 ended exited).2 rfl⟩

end CheckGitStatus.Cpp.OutputCapture
