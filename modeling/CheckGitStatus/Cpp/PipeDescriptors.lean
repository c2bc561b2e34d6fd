import CheckGitStatus.Library.ListUpdate
import CheckGitStatus.Library.Transition
import Mathlib.Logic.Function.Basic

/-! # The descriptors of concurrent git runs

`ExecGitRunner::run` of the POSIX build makes a pipe, forks, closes its copy of the
write end and reads until no process holds the write end any more. Several workers do
so at once over one descriptor table, and a child inherits every descriptor that is
open at its fork. A write end stays with its own run if no fork happens while another
run has its write end open in the parent
(`CheckGitStatus.Cpp.PipeDescriptors.writeEnd_stays`), and only then
(`CheckGitStatus.Cpp.PipeDescriptors.reachableThrough_writeEndsStay_iff`): otherwise the
child of one run keeps the pipe of another one open
(`CheckGitStatus.Cpp.PipeDescriptors.child_holds_other_pipe`).
-/

namespace CheckGitStatus.Cpp.PipeDescriptors

open Library

/-- What a descriptor refers to. The two ends of a pipe carry the number of their run. -/
inductive OpenFile where
  | inherited (number : Nat)
  | readEnd (run : Nat)
  | writeEnd (run : Nat)
  deriving DecidableEq, Repr

/-- The descriptors of a process. None is marked close-on-exec. -/
abbrev Table := Nat → Option OpenFile

namespace Table

/-- `close` of a descriptor. -/
def close (table : Table) (descriptor : Nat) : Table :=
  Function.update table descriptor none

/-- `dup2`, which does nothing if the first descriptor is not open. -/
def dup2 (table : Table) (source target : Nat) : Table :=
  match table source with
  | none => table
  | some file => Function.update table target (some file)

/-- A table in which nothing is open. -/
def empty : Table := fun _ => none

/-- Some descriptor refers to the file. -/
def Holds (table : Table) (file : OpenFile) : Prop :=
  ∃ descriptor, table descriptor = some file

end Table

/-- Where a child stands; `ready` is before `execv`, `running` after it. -/
inductive ChildPhase where
  | started
  | readClosed
  | outputDuplicated
  | errorDuplicated
  | ready
  | running
  | exited
  deriving DecidableEq, Repr

/-- A child with its own copy of the descriptors. -/
structure Child where
  table : Table
  phase : ChildPhase

/-- Where the parent's side of a run stands. The two `fork` failures are the closing of
the read end and of the write end after `fork` has failed. -/
inductive Phase where
  | piped
  | forkFailed
  | forkFailedReadClosed
  | forked
  | reading
  | drained
  | finished
  deriving DecidableEq, Repr

/-- One call of `ExecGitRunner::run`, with the descriptors in `output_pipe`. -/
structure Run where
  readDescriptor : Nat
  writeDescriptor : Nat
  phase : Phase := .piped
  child : Option Child := none

/-- The descriptors of the program and the runs that its workers have begun, in the order
of their pipes. -/
structure State where
  parent : Table
  runs : List Run := []

/-- Which run moves, and how; `child` and `exit` are moves of its child. -/
inductive Event where
  | pipe
  | fork (run : Nat)
  | forkFail (run : Nat)
  | parentClose (run : Nat)
  | child (run : Nat)
  | exit (run : Nat)
  | endOfFile (run : Nat)
  | finish (run : Nat)
  deriving DecidableEq, Repr

/-- The calls of a child up to `execv`, which keeps every descriptor. -/
def Child.next (run : Run) (child : Child) : Option Child :=
  match child.phase with
  | .started =>
      some { table := child.table.close run.readDescriptor, phase := .readClosed }
  | .readClosed =>
      some { table := child.table.dup2 run.writeDescriptor 1, phase := .outputDuplicated }
  | .outputDuplicated =>
      some { table := child.table.dup2 run.writeDescriptor 2, phase := .errorDuplicated }
  | .errorDuplicated =>
      some { table := child.table.close run.writeDescriptor, phase := .ready }
  | .ready => some { child with phase := .running }
  | .running | .exited => none

/-- Some process holds the file. -/
def State.Held (state : State) (file : OpenFile) : Prop :=
  state.parent.Holds file ∨
    ∃ run : Run, run ∈ state.runs ∧ ∃ child : Child, run.child = some child ∧
      child.table.Holds file

/-- The state after a move of one run. -/
def State.setRun (state : State) (number : Nat) (run : Run) : State :=
  { state with runs := state.runs.set number run }

/-- One move. A fork copies every descriptor that is open in the program at that moment, also
those of other runs. -/
inductive Step : State → Event → State → Prop where
  | pipe {state : State} {readDescriptor writeDescriptor : Nat} :
      state.parent readDescriptor = none → state.parent writeDescriptor = none →
      readDescriptor ≠ writeDescriptor →
      Step state .pipe
        { parent := Function.update (Function.update state.parent readDescriptor
            (some (.readEnd state.runs.length))) writeDescriptor
            (some (.writeEnd state.runs.length))
          runs := state.runs ++ [{ readDescriptor, writeDescriptor }] }
  | fork {state : State} {number : Nat} {run : Run} : state.runs[number]? = some run →
      run.phase = .piped →
      Step state (.fork number)
        (state.setRun number
          { run with
            phase := .forked
            child := some { table := state.parent, phase := .started } })
  | forkFail {state : State} {number : Nat} {run : Run} : state.runs[number]? = some run →
      run.phase = .piped →
      Step state (.forkFail number) (state.setRun number { run with phase := .forkFailed })
  | closeReadAfterFailure {state : State} {number : Nat} {run : Run} :
      state.runs[number]? = some run → run.phase = .forkFailed →
      Step state (.parentClose number)
        { parent := state.parent.close run.readDescriptor
          runs := state.runs.set number { run with phase := .forkFailedReadClosed } }
  | closeWriteAfterFailure {state : State} {number : Nat} {run : Run} :
      state.runs[number]? = some run → run.phase = .forkFailedReadClosed →
      Step state (.parentClose number)
        { parent := state.parent.close run.writeDescriptor
          runs := state.runs.set number { run with phase := .finished } }
  | closeWrite {state : State} {number : Nat} {run : Run} : state.runs[number]? = some run →
      run.phase = .forked →
      Step state (.parentClose number)
        { parent := state.parent.close run.writeDescriptor
          runs := state.runs.set number { run with phase := .reading } }
  | child {state : State} {number : Nat} {run : Run} {child next : Child} :
      state.runs[number]? = some run → run.child = some child → child.next run = some next →
      Step state (.child number) (state.setRun number { run with child := some next })
  -- by itself, after a failed `execv`, or killed by the parent
  | exit {state : State} {number : Nat} {run : Run} {child : Child} :
      state.runs[number]? = some run → run.child = some child → child.phase ≠ .exited →
      Step state (.exit number)
        (state.setRun number { run with child := some { table := .empty, phase := .exited } })
  | endOfFile {state : State} {number : Nat} {run : Run} : state.runs[number]? = some run →
      run.phase = .reading → ¬ state.Held (.writeEnd number) →
      Step state (.endOfFile number) (state.setRun number { run with phase := .drained })
  -- `reader.join` and the last `close`, once the wait loop has seen the child's end
  | finish {state : State} {number : Nat} {run : Run} {child : Child} :
      state.runs[number]? = some run → run.phase = .drained → run.child = some child →
      child.phase = .exited →
      Step state (.finish number)
        { parent := state.parent.close run.readDescriptor
          runs := state.runs.set number { run with phase := .finished } }

/-- Before the first run the program has only the descriptors it was started with. -/
def Initial (state : State) : Prop :=
  state.runs = [] ∧ ∀ descriptor file, state.parent descriptor = some file →
    ∃ number, file = .inherited number

/-- The calls of `run` by all workers, as far as they open, copy and close descriptors. -/
def runs : TransitionSystem State Event where
  Initial := Initial
  Step := Step

/-- The run has not closed its write end in the parent. -/
def Phase.holdsWrite : Phase → Bool
  | .piped | .forkFailed | .forkFailedReadClosed | .forked => true
  | .reading | .drained | .finished => false

/-- The write end of a run's pipe is open only in the parent, until the run closes it,
and in the run's own child. -/
structure WriteEndsStay (state : State) : Prop where
  parent : ∀ number, state.parent.Holds (.writeEnd number) →
    ∃ run, state.runs[number]? = some run ∧ run.phase.holdsWrite = true
  child : ∀ (number : Nat) (run : Run) (child : Child) (other : Nat),
    state.runs[number]? = some run → run.child = some child →
    child.table.Holds (.writeEnd other) → other = number

/-- Once its child has exited and the parent has closed its copy, a run's reader reaches
the end of the file and its join returns. -/
def ReadersEnd (state : State) : Prop :=
  ∀ (number : Nat) (run : Run) (child : Child), state.runs[number]? = some run →
    run.phase = .reading → run.child = some child → child.phase = .exited →
    ∃ drained finished, Step state (.endOfFile number) drained ∧
      Step drained (.finish number) finished

/-- A fork happens only while no other run has its write end open in the parent. -/
def ForksAlone (state : State) (event : Event) : Prop :=
  ∀ number, event = .fork number →
    ∀ other, state.parent.Holds (.writeEnd other) → other = number

/-! ## What a call can make a process hold -/

namespace Table

variable {table : Table} {file : OpenFile}

theorem eq_of_close {closed descriptor : Nat} (there : table.close closed descriptor = some file) :
    descriptor ≠ closed ∧ table descriptor = some file := by
  by_cases same : descriptor = closed
  · subst same
    rw [close, Function.update_self] at there
    cases there
  · rw [close, Function.update_of_ne same] at there
    exact ⟨same, there⟩

theorem Holds.of_close {closed : Nat} (holds : (table.close closed).Holds file) :
    table.Holds file := by
  obtain ⟨descriptor, there⟩ := holds
  exact ⟨descriptor, (eq_of_close there).2⟩

theorem Holds.of_dup2 {source target : Nat} (holds : (table.dup2 source target).Holds file) :
    table.Holds file := by
  obtain ⟨descriptor, there⟩ := holds
  cases found : table source with
  | none =>
      simp only [dup2, found] at there
      exact ⟨descriptor, there⟩
  | some duplicated =>
      simp only [dup2, found] at there
      by_cases same : descriptor = target
      · subst same
        rw [Function.update_self] at there
        exact ⟨source, found.trans there⟩
      · rw [Function.update_of_ne same] at there
        exact ⟨descriptor, there⟩

theorem not_empty_holds : ¬ empty.Holds file := by
  rintro ⟨descriptor, there⟩
  cases there

end Table

/-- A child opens nothing that it has not inherited. -/
theorem Child.holds_of_next {run : Run} {child next : Child} {file : OpenFile}
    (moved : child.next run = some next) (holds : next.table.Holds file) :
    child.table.Holds file := by
  unfold Child.next at moved
  split at moved
  · cases moved
    exact holds.of_close
  · cases moved
    exact holds.of_dup2
  · cases moved
    exact holds.of_dup2
  · cases moved
    exact holds.of_close
  · cases moved
    exact holds
  · cases moved
  · cases moved

/-- The set-up does not end the child. -/
theorem Child.next_phase {run : Run} {child next : Child} (moved : child.next run = some next) :
    next.phase ≠ .exited := by
  unfold Child.next at moved
  split at moved <;> cases moved <;> exact ChildPhase.noConfusion

/-! ## The invariant -/

/-- Every write end in the table is that of a run which has not closed it, under the
descriptor that the run remembers. -/
def Owned (parent : Table) (runs : List Run) : Prop :=
  ∀ descriptor number, parent descriptor = some (.writeEnd number) →
    ∃ run, runs[number]? = some run ∧ run.writeDescriptor = descriptor ∧
      run.phase.holdsWrite = true

/-- The child holds no write end but its run's, and none after its exit. -/
def Run.ChildKeeps (run : Run) (number : Nat) : Prop :=
  ∀ child, run.child = some child →
    (∀ other, child.table.Holds (.writeEnd other) → other = number) ∧
      (child.phase = .exited → child.table = .empty)

/-- No child holds a write end of another run. -/
def ChildrenKeep (runs : List Run) : Prop :=
  ∀ (number : Nat) (run : Run), runs[number]? = some run → run.ChildKeeps number

/-- What holds in every reachable state: who owns which descriptor, and what the
children hold. -/
structure Invariant (state : State) : Prop where
  owned : Owned state.parent state.runs
  children : ChildrenKeep state.runs

variable {parent : Table} {started : List Run} {number : Nat} {run : Run}

/-- Replacing a run keeps the write ends owned if the table gains none and the run
keeps what is its own. -/
theorem Owned.set (owned : Owned parent started) (found : started[number]? = some run)
    {later : Table} {next : Run}
    (fewer : ∀ descriptor other, later descriptor = some (.writeEnd other) →
      parent descriptor = some (.writeEnd other))
    (kept : ∀ descriptor, later descriptor = some (.writeEnd number) →
      run.writeDescriptor = descriptor → run.phase.holdsWrite = true →
      next.writeDescriptor = descriptor ∧ next.phase.holdsWrite = true) :
    Owned later (started.set number next) := by
  intro descriptor other there
  obtain ⟨owner, listed, named, holds⟩ := owned descriptor other (fewer descriptor other there)
  by_cases same : number = other
  · subst same
    rw [found] at listed
    cases listed
    obtain ⟨below, _⟩ := List.getElem?_eq_some_iff.mp found
    exact ⟨next, List.getElem?_set_self below, kept descriptor there named holds⟩
  · refine ⟨owner, ?_, named, holds⟩
    rw [List.getElem?_set_ne same]
    exact listed

/-- Replacing a run keeps the children apart if its child is. -/
theorem ChildrenKeep.set (children : ChildrenKeep started) {next : Run}
    (keeps : next.ChildKeeps number) : ChildrenKeep (started.set number next) := by
  intro other run there
  by_cases same : number = other
  · subst same
    obtain ⟨below, _⟩ := List.getElem?_eq_some_iff.mp there
    rw [List.length_set] at below
    rw [List.getElem?_set_self below] at there
    cases there
    exact keeps
  · rw [List.getElem?_set_ne same] at there
    exact children other run there

/-- Every move keeps the owners apart. -/
theorem Step.owned {before after : State} {event : Event} (taken : Step before event after)
    (owned : Owned before.parent before.runs) : Owned after.parent after.runs := by
  cases taken with
  | @pipe readDescriptor writeDescriptor =>
      intro descriptor other there
      dsimp only at there
      by_cases write : descriptor = writeDescriptor
      · subst write
        rw [Function.update_self] at there
        cases there
        exact ⟨_, List.getElem?_concat_length, rfl, rfl⟩
      rw [Function.update_of_ne write] at there
      by_cases read : descriptor = readDescriptor
      · subst read
        rw [Function.update_self] at there
        cases there
      rw [Function.update_of_ne read] at there
      obtain ⟨run, listed, named, holds⟩ := owned descriptor other there
      obtain ⟨below, _⟩ := List.getElem?_eq_some_iff.mp listed
      exact ⟨run, (List.getElem?_append_left below).trans listed, named, holds⟩
  | fork found | forkFail found =>
      exact owned.set found (fun _ _ there => there) fun _ _ named _ => ⟨named, rfl⟩
  | child found | exit found =>
      exact owned.set found (fun _ _ there => there) fun _ _ named holds => ⟨named, holds⟩
  | closeReadAfterFailure found =>
      exact owned.set found (fun _ _ there => (Table.eq_of_close there).2)
        fun _ _ named _ => ⟨named, rfl⟩
  | closeWriteAfterFailure found | closeWrite found =>
      refine owned.set found (fun _ _ there => (Table.eq_of_close there).2) ?_
      intro descriptor there named _
      exact absurd named.symm (Table.eq_of_close there).1
  | endOfFile found reading =>
      refine owned.set found (fun _ _ there => there) ?_
      intro _ _ _ holds
      rw [reading] at holds
      cases holds
  | finish found drained =>
      refine owned.set found (fun _ _ there => (Table.eq_of_close there).2) ?_
      intro _ _ _ holds
      rw [drained] at holds
      cases holds

/-- A child inherits only its own write end if no other is open at its fork. -/
theorem Step.children {before after : State} {event : Event} (taken : Step before event after)
    (alone : ForksAlone before event)
    (children : ChildrenKeep before.runs) : ChildrenKeep after.runs := by
  cases taken with
  | pipe =>
      intro number run there
      rcases Nat.lt_or_ge number before.runs.length with below | beyond
      · rw [List.getElem?_append_left below] at there
        exact children number run there
      · rw [List.getElem?_append_right beyond, List.getElem?_singleton] at there
        split at there
        · cases there
          intro child some
          cases some
        · cases there
  | fork found =>
      refine children.set ?_
      intro child forked
      cases forked
      exact ⟨alone _ rfl, ChildPhase.noConfusion⟩
  | child found has moved =>
      refine children.set ?_
      intro child same
      cases same
      refine ⟨fun other holds => ?_, fun exited => absurd exited (Child.next_phase moved)⟩
      exact (children _ _ found _ has).1 other (Child.holds_of_next moved holds)
  | exit found =>
      refine children.set ?_
      intro child exited
      cases exited
      exact ⟨fun other holds => absurd holds Table.not_empty_holds, fun _ => rfl⟩
  | forkFail found | closeReadAfterFailure found | closeWriteAfterFailure found
  | closeWrite found | endOfFile found | finish found =>
      have kept := children _ _ found
      exact children.set fun child has => kept child has

theorem Initial.invariant {state : State} (initial : Initial state) : Invariant state := by
  obtain ⟨none, inherited⟩ := initial
  refine ⟨fun descriptor number there => ?_, fun number run there => ?_⟩
  · obtain ⟨inheritedNumber, other⟩ := inherited descriptor _ there
    cases other
  · rw [none] at there
    cases there

theorem reachable_invariant {state : State}
    (reachable : (runs.restrict ForksAlone).Reachable state) : Invariant state := by
  apply reachable.invariant Initial.invariant
  intro before event after invariant taken
  exact ⟨taken.2.owned invariant.owned, taken.2.children taken.1 invariant.children⟩

/-! ## Write ends and readers -/

/-- Under the invariant write ends stay where they belong. -/
theorem Invariant.writeEndsStay {state : State} (invariant : Invariant state) :
    WriteEndsStay state where
  parent number holds := by
    obtain ⟨descriptor, there⟩ := holds
    obtain ⟨run, listed, _, notClosed⟩ := invariant.owned descriptor number there
    exact ⟨run, listed, notClosed⟩
  child number run child other found has holds :=
    (invariant.children number run found child has).1 other holds

/-- When the parent has closed the write end and the child has exited, nobody holds it. -/
theorem Invariant.not_held {state : State} (invariant : Invariant state) {number : Nat}
    {run : Run} {child : Child} (found : state.runs[number]? = some run)
    (reading : run.phase = .reading) (has : run.child = some child)
    (exited : child.phase = .exited) : ¬ state.Held (.writeEnd number) := by
  rintro (parent | ⟨other, inside, otherChild, otherHas, holds⟩)
  · obtain ⟨owner, listed, notClosed⟩ := invariant.writeEndsStay.parent number parent
    rw [found] at listed
    cases listed
    rw [reading] at notClosed
    cases notClosed
  · obtain ⟨index, listed⟩ := List.mem_iff_getElem?.mp inside
    have own := (invariant.children index other listed otherChild otherHas).1 number holds
    subst own
    rw [found] at listed
    cases listed
    rw [has] at otherHas
    cases otherHas
    rw [(invariant.children _ run found child has).2 exited] at holds
    exact Table.not_empty_holds holds

/-- Under the invariant a reader meets the end of its file once its own child has exited. -/
theorem Invariant.readersEnd {state : State} (invariant : Invariant state) :
    ReadersEnd state := by
  intro number run child found reading has exited
  have free := invariant.not_held found reading has exited
  obtain ⟨below, _⟩ := List.getElem?_eq_some_iff.mp found
  have drained : (state.runs.set number { run with phase := .drained })[number]? =
      some { run with phase := .drained } := List.getElem?_set_self below
  exact ⟨_, _, .endOfFile found reading free, .finish drained rfl has exited⟩

/-- **Write ends stay with their runs when forks are alone.** In every run of the system
in which each fork finds no other write end open in the parent, the write ends stay and
the readers end. -/
theorem writeEnd_stays {state : State}
    (reachable : (runs.restrict ForksAlone).Reachable state) :
    WriteEndsStay state ∧ ReadersEnd state := by
  have invariant := reachable_invariant reachable
  exact ⟨invariant.writeEndsStay, invariant.readersEnd⟩

/-- A fork that is not alone breaks the invariant at once. -/
theorem fork_leaks {before after : State} {number other : Nat}
    (taken : Step before (.fork number) after) (holds : before.parent.Holds (.writeEnd other))
    (differ : other ≠ number) : ¬ WriteEndsStay after := by
  intro stays
  cases taken with
  | fork found piped =>
      obtain ⟨below, _⟩ := List.getElem?_eq_some_iff.mp found
      exact differ (stays.child number _ _ other (List.getElem?_set_self below) rfl holds)

/-- The runs that keep the write ends apart are those whose forks are alone. -/
theorem reachableThrough_writeEndsStay_iff {state : State} :
    runs.ReachableThrough WriteEndsStay state ↔ (runs.restrict ForksAlone).Reachable state := by
  constructor
  · intro reachable
    induction reachable with
    | initial first => exact .initial first
    | @step before after event _ taken stays ih =>
        refine ih.step ⟨?_, taken⟩
        rintro number rfl other holds
        by_contra differ
        exact fork_leaks taken holds differ stays
  · intro reachable
    induction reachable with
    | initial first => exact .initial first (Initial.invariant first).writeEndsStay
    | step before taken ih =>
        exact ih.step taken.2 (reachable_invariant (before.step taken)).writeEndsStay

/-- Standard input, output and error. -/
def standardDescriptors : Table := fun descriptor =>
  if descriptor < 3 then some (.inherited descriptor) else none

theorem initial_standard : Initial { parent := standardDescriptors } := by
  refine ⟨rfl, fun descriptor file there => ?_⟩
  change standardDescriptors descriptor = some file at there
  unfold standardDescriptors at there
  split at there
  · exact ⟨descriptor, (Option.some.inj there).symm⟩
  · cases there

/-- Two runs one after the other: the first one's reader reaches the end of its pipe
while the second one's child is alive. -/
theorem writeEnd_stays_two_runs :
    ∃ state, (runs.restrict ForksAlone).Reachable state ∧ ∃ drained finished,
      Step state (.endOfFile 0) drained ∧ Step drained (.finish 0) finished := by
  have start : (runs.restrict ForksAlone).Reachable { parent := standardDescriptors } :=
    .initial initial_standard
  have piped := start.step ⟨fun _ => Event.noConfusion,
    @Step.pipe _ 3 4 rfl rfl (by decide)⟩
  have forked := piped.step ⟨?_, @Step.fork _ 0 _ rfl rfl⟩
  · have closed := forked.step ⟨fun _ => Event.noConfusion, @Step.closeWrite _ 0 _ rfl rfl⟩
    have pipedNext := closed.step ⟨fun _ => Event.noConfusion,
      @Step.pipe _ 4 5 rfl rfl (by decide)⟩
    have forkedNext := pipedNext.step ⟨?_, @Step.fork _ 1 _ rfl rfl⟩
    · have exited := forkedNext.step ⟨fun _ => Event.noConfusion,
        @Step.exit _ 0 _ _ rfl rfl ChildPhase.noConfusion⟩
      exact ⟨_, exited, (writeEnd_stays exited).2 0 _ _ rfl rfl rfl rfl⟩
    · intro number same other holds
      cases same
      obtain ⟨run, listed, notClosed⟩ :=
        (reachable_invariant pipedNext).writeEndsStay.parent other holds
      obtain ⟨below, _⟩ := List.getElem?_eq_some_iff.mp listed
      cases other with
      | zero =>
          cases listed
          cases notClosed
      | succ other =>
          change other + 1 < 2 at below
          omega
  · intro number same other holds
    cases same
    obtain ⟨run, listed, _⟩ := (reachable_invariant piped).writeEndsStay.parent other holds
    obtain ⟨below, _⟩ := List.getElem?_eq_some_iff.mp listed
    change other < 1 at below
    omega

/-- Two workers make their pipes before either forks. The second child inherits the
first pipe, and the first reader waits for it although its own child has exited. -/
theorem child_holds_other_pipe :
    ∃ state, runs.Reachable state ∧ ¬ WriteEndsStay state ∧ ¬ ReadersEnd state := by
  have start : runs.Reachable { parent := standardDescriptors } := .initial initial_standard
  have piped := start.step (@Step.pipe _ 3 4 rfl rfl (by decide))
  have bothPiped := piped.step (@Step.pipe _ 5 6 rfl rfl (by decide))
  have forked := bothPiped.step (@Step.fork _ 0 _ rfl rfl)
  have bothForked := forked.step (@Step.fork _ 1 _ rfl rfl)
  have closed := bothForked.step (@Step.closeWrite _ 0 _ rfl rfl)
  have readClosed := closed.step (@Step.child _ 1 _ _ _ rfl rfl rfl)
  have outputDuplicated := readClosed.step (@Step.child _ 1 _ _ _ rfl rfl rfl)
  have errorDuplicated := outputDuplicated.step (@Step.child _ 1 _ _ _ rfl rfl rfl)
  have ready := errorDuplicated.step (@Step.child _ 1 _ _ _ rfl rfl rfl)
  have running := ready.step (@Step.child _ 1 _ _ _ rfl rfl rfl)
  have exited := running.step (@Step.exit _ 0 _ _ rfl rfl ChildPhase.noConfusion)
  refine ⟨_, exited, fun stays => ?_, fun ends => ?_⟩
  · exact absurd (stays.child 1 _ _ 0 rfl rfl ⟨4, rfl⟩) (by decide)
  · obtain ⟨drained, finished, read, _⟩ := ends 0 _ _ rfl rfl rfl rfl
    cases read with
    | endOfFile _ _ free =>
        exact free (.inr ⟨_, List.mem_cons_of_mem _ List.mem_cons_self, _, rfl, ⟨4, rfl⟩⟩)

end CheckGitStatus.Cpp.PipeDescriptors
