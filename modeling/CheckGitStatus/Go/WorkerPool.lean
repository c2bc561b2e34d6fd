import CheckGitStatus.Library.ListUpdate
import CheckGitStatus.Library.Sorting
import CheckGitStatus.Library.Transition
import CheckGitStatus.Status

/-! # The worker pool of the Go program

`checkRepositories` starts workers that range over the unbuffered channel `jobs` and
send statuses on the channel `results`, which has room for all of them, and a producer
that sends the paths, closes `jobs`, waits for the workers and closes `results`. The
main goroutine collects until `results` is closed and empty. The pool is a transition
system whose steps are those of the goroutines in any order. Misusing a channel or the
wait group is a panic (`CheckGitStatus.Go.WorkerPool.Misuse`), which
`CheckGitStatus.Go.WorkerPool.protocol` rules out together with deadlocks.
-/

namespace CheckGitStatus.Go.WorkerPool

open Library

/-- Where a worker goroutine stands. -/
inductive Worker where
  /-- at the head of `for path := range jobs` -/
  | receiving
  | checking (path : Path)
  /-- about to send on `results` -/
  | sending (status : RepositoryStatus)
  /-- past the loop, about to run the deferred `Done` -/
  | leaving
  | exited
  deriving DecidableEq, Repr

/-- Where the producer goroutine stands. -/
inductive Producer where
  | absent
  /-- in the loop over the paths, with those that are still to be sent -/
  | sending (rest : List Path)
  /-- in `workerGroup.Wait` -/
  | waiting
  /-- about to close `results` -/
  | closing
  | exited
  deriving DecidableEq, Repr

/-- The channels, the wait group, the goroutines and what the main goroutine has
collected. `received` records which worker received which path. -/
structure State where
  workers : List Worker := []
  producer : Producer := .absent
  jobsClosed : Bool := false
  buffer : List RepositoryStatus := []
  resultsClosed : Bool := false
  waitGroup : Nat
  collected : List RepositoryStatus := []
  result : Option (List RepositoryStatus) := none
  panicked : Bool := false
  received : List (Nat × Path) := []
  deriving Repr

/-- Which goroutine moves, and for a worker which one. -/
inductive Event where
  | spawnWorker
  | spawnProducer
  | job (worker : Nat)
  | rangeEnd (worker : Nat)
  | check (worker : Nat)
  | send (worker : Nat)
  | done (worker : Nat)
  | closeJobs
  | wait
  | closeResults
  | collect
  | finish
  | panic
  deriving DecidableEq, Repr

variable (paths : List Path) (workers : Nat) (checker : Path → RepositoryStatus)

/-- `workers`, lowered to `len(paths)` if it is greater. -/
def workerCount : Nat :=
  if workers > paths.length then paths.length else workers

/-- The operations that panic: a send on a closed channel, a second close, and a `Done`
that makes the counter negative. -/
inductive Misuse (state : State) : Prop where
  | sendJob {path : Path} {rest : List Path} : state.producer = .sending (path :: rest) →
      state.jobsClosed = true → Misuse state
  | sendResult {worker : Nat} {status : RepositoryStatus} :
      state.workers[worker]? = some (.sending status) → state.resultsClosed = true →
      Misuse state
  | closeJobs : state.producer = .sending [] → state.jobsClosed = true → Misuse state
  | closeResults : state.producer = .closing → state.resultsClosed = true → Misuse state
  | done {worker : Nat} : state.workers[worker]? = some .leaving → state.waitGroup = 0 →
      Misuse state

/-- One move of one goroutine. A receive that needs a partner is one move of both. -/
inductive Step : State → Event → State → Prop where
  | spawnWorker {state : State} : paths ≠ [] →
      state.workers.length < workerCount paths workers →
      Step state .spawnWorker { state with workers := state.workers ++ [.receiving] }
  | spawnProducer {state : State} : paths ≠ [] →
      state.workers.length = workerCount paths workers → state.producer = .absent →
      Step state .spawnProducer { state with producer := .sending paths }
  | job {state : State} {worker : Nat} {path : Path} {rest : List Path} :
      state.producer = .sending (path :: rest) → state.jobsClosed = false →
      state.workers[worker]? = some .receiving →
      Step state (.job worker)
        { state with
          producer := .sending rest
          workers := state.workers.set worker (.checking path)
          received := state.received ++ [(worker, path)] }
  | rangeEnd {state : State} {worker : Nat} : state.workers[worker]? = some .receiving →
      state.jobsClosed = true →
      Step state (.rangeEnd worker) { state with workers := state.workers.set worker .leaving }
  | check {state : State} {worker : Nat} {path : Path} :
      state.workers[worker]? = some (.checking path) →
      Step state (.check worker)
        { state with workers := state.workers.set worker (.sending (checker path)) }
  | send {state : State} {worker : Nat} {status : RepositoryStatus} :
      state.workers[worker]? = some (.sending status) → state.resultsClosed = false →
      state.buffer.length < paths.length →
      Step state (.send worker)
        { state with
          workers := state.workers.set worker .receiving
          buffer := state.buffer ++ [status] }
  | done {state : State} {worker : Nat} : state.workers[worker]? = some .leaving →
      0 < state.waitGroup →
      Step state (.done worker)
        { state with
          workers := state.workers.set worker .exited
          waitGroup := state.waitGroup - 1 }
  | closeJobs {state : State} : state.producer = .sending [] → state.jobsClosed = false →
      Step state .closeJobs { state with producer := .waiting, jobsClosed := true }
  | wait {state : State} : state.producer = .waiting → state.waitGroup = 0 →
      Step state .wait { state with producer := .closing }
  | closeResults {state : State} : state.producer = .closing → state.resultsClosed = false →
      Step state .closeResults { state with producer := .exited, resultsClosed := true }
  | collect {state : State} {status : RepositoryStatus} {rest : List RepositoryStatus} :
      state.producer ≠ .absent → state.buffer = status :: rest →
      Step state .collect
        { state with buffer := rest, collected := state.collected ++ [status] }
  | sort {state : State} {sorted : List RepositoryStatus} : state.buffer = [] →
      state.resultsClosed = true → state.result = none →
      IsSortOf RepositoryStatus.path state.collected sorted →
      Step state .finish { state with result := some sorted }
  | nothing {state : State} : paths = [] → state.result = none →
      Step state .finish { state with result := some [] }
  | panic {state : State} : Misuse state → state.panicked = false →
      Step state .panic { state with panicked := true }

/-- `Add` has been called for all workers before any of them starts. -/
def Initial (state : State) : Prop :=
  state = { waitGroup := workerCount paths workers }

/-- `checkRepositories` for these paths. -/
def pool : TransitionSystem State Event where
  Initial := Initial paths workers
  Step := Step paths workers checker

/-- The statuses have been returned. -/
def Returned (state : State) : Prop :=
  state.result ≠ none

/-! ## Where the paths are -/

/-- The paths that are still to be sent. -/
def Producer.remaining : Producer → List Path
  | .absent => paths
  | .sending rest => rest
  | _ => []

/-- The producer has closed `jobs`. -/
def Producer.pastJobs : Producer → Bool
  | .absent | .sending _ => false
  | _ => true

/-- The status that a worker owes. -/
def Worker.owed : Worker → Option RepositoryStatus
  | .checking path => some (checker path)
  | .sending status => some status
  | _ => none

/-- The worker has called `Done`. -/
def Worker.isExited : Worker → Bool
  | .exited => true
  | _ => false

/-- Steps until the worker receives the next path or has exited. -/
def Worker.weight : Worker → Nat
  | .exited => 0
  | .leaving => 1
  | .receiving => 2
  | .sending _ => 4
  | .checking _ => 5

/-- Steps left to the producer, with five more for every path it still sends. -/
def Producer.weight : Producer → Nat
  | .absent => 5 * paths.length + 4
  | .sending rest => 5 * rest.length + 3
  | .waiting => 2
  | .closing => 1
  | .exited => 0

/-- The paths whose statuses the main goroutine has received. -/
def State.pathsReceived (state : State) : List Path :=
  state.received.map Prod.snd

/-- What every reachable state satisfies. -/
structure Invariant (state : State) : Prop where
  calm : state.panicked = false
  idle : paths = [] → state.workers = [] ∧ state.producer = .absent
  started : state.workers.length ≤ workerCount paths workers
  startedAll : state.producer ≠ .absent → state.workers.length = workerCount paths workers
  -- every path is still to be sent or has been received once, in order
  order : state.pathsReceived ++ state.producer.remaining paths = paths
  -- the status of every received path is owed, buffered or collected
  ledger : (state.workers.filterMap (Worker.owed checker) ++
      (state.buffer ++ state.collected)).Perm (state.pathsReceived.map checker)
  jobs : state.jobsClosed = state.producer.pastJobs
  results : state.resultsClosed = true ↔ state.producer = .exited
  group : state.waitGroup + state.workers.countP Worker.isExited = workerCount paths workers
  left : ∀ worker ∈ state.workers, worker = .leaving ∨ worker = .exited →
    state.jobsClosed = true
  waited : state.producer = .closing ∨ state.producer = .exited → state.waitGroup = 0
  returned : ∀ result, state.result = some result →
    paths = [] ∧ result = [] ∨ state.resultsClosed = true ∧ state.buffer = [] ∧
      IsSortOf RepositoryStatus.path state.collected result

/-! ## No misuse -/

variable {paths workers checker} {state before after : State} {event : Event}

/-- Some worker has not called `Done` while it is in the wait group. -/
theorem Invariant.waitGroup_pos (invariant : Invariant paths workers checker state)
    {worker : Worker} (inside : worker ∈ state.workers) (busy : worker.isExited = false) :
    0 < state.waitGroup := by
  have fewer : state.workers.countP Worker.isExited < state.workers.length := by
    refine Nat.lt_of_le_of_ne List.countP_le_length fun all => ?_
    have exited := List.countP_eq_length.mp all worker inside
    rw [busy] at exited
    cases exited
  have started := invariant.started
  have group := invariant.group
  omega

/-- The producer waits for every worker before it closes `results`. -/
theorem Invariant.results_open (invariant : Invariant paths workers checker state)
    {worker : Worker} (inside : worker ∈ state.workers) (busy : worker.isExited = false) :
    state.producer ≠ .closing ∧ state.producer ≠ .exited := by
  have pos := invariant.waitGroup_pos inside busy
  refine ⟨fun closing => ?_, fun exited => ?_⟩
  · have zero := invariant.waited (.inl closing)
    omega
  · have zero := invariant.waited (.inr exited)
    omega

/-- No reachable state is about to misuse a channel or the group. -/
theorem Invariant.no_misuse (invariant : Invariant paths workers checker state) :
    ¬ Misuse state := by
  have jobs := invariant.jobs
  intro misuse
  cases misuse with
  | sendJob sending closed | closeJobs sending closed =>
      rw [sending, closed] at jobs
      cases jobs
  | sendResult found closed =>
      have stillOpen := invariant.results_open (List.mem_of_getElem? found) rfl
      exact stillOpen.2 (invariant.results.mp closed)
  | closeResults closing closed =>
      have exited := invariant.results.mp closed
      rw [closing] at exited
      cases exited
  | done found zero =>
      have pos := invariant.waitGroup_pos (List.mem_of_getElem? found) rfl
      omega

/-- A status that is about to be sent always finds room in `results`. -/
theorem Invariant.room (invariant : Invariant paths workers checker state) {worker : Worker}
    (inside : worker ∈ state.workers) {status : RepositoryStatus}
    (owed : worker.owed checker = some status) : state.buffer.length < paths.length := by
  have owing : 0 < (state.workers.filterMap (Worker.owed checker)).length :=
    List.length_pos_of_mem (List.mem_filterMap.mpr ⟨worker, inside, owed⟩)
  have ledger := invariant.ledger.length_eq
  have order := congrArg List.length invariant.order
  simp only [List.length_append, List.length_map] at ledger order
  omega

/-! ## What one step preserves -/

/-- Without paths nothing is started. -/
theorem Step.idle (taken : Step paths workers checker before event after)
    (idle : paths = [] → before.workers = [] ∧ before.producer = .absent) :
    paths = [] → after.workers = [] ∧ after.producer = .absent := by
  intro empty
  obtain ⟨none, absent⟩ := idle empty
  cases taken with
  | spawnWorker some | spawnProducer some => exact absurd empty some
  | rangeEnd | check | send | done => exact ⟨by rw [none]; rfl, absent⟩
  | job producing | closeJobs producing | wait producing | closeResults producing =>
      rw [absent] at producing
      cases producing
  | collect | sort | nothing | panic => exact ⟨none, absent⟩

/-- No more workers are started than are counted. -/
theorem Step.started (taken : Step paths workers checker before event after)
    (started : before.workers.length ≤ workerCount paths workers) :
    after.workers.length ≤ workerCount paths workers := by
  cases taken with
  | spawnWorker _ room =>
      rw [List.length_append]
      exact room
  | job | rangeEnd | check | send | done =>
      rw [List.length_set]
      exact started
  | spawnProducer | closeJobs | wait | closeResults | collect | sort | nothing | panic =>
      exact started

/-- The producer starts after all workers. -/
theorem Step.startedAll (taken : Step paths workers checker before event after)
    (startedAll : before.producer ≠ .absent →
      before.workers.length = workerCount paths workers) :
    after.producer ≠ .absent → after.workers.length = workerCount paths workers := by
  intro present
  cases taken with
  | spawnWorker _ room =>
      have all := startedAll present
      omega
  | spawnProducer _ all => exact all
  | job producing =>
      rw [List.length_set]
      exact startedAll (producing ▸ Producer.noConfusion)
  | rangeEnd | check | send | done =>
      rw [List.length_set]
      exact startedAll present
  | closeJobs producing | wait producing | closeResults producing =>
      exact startedAll (producing ▸ Producer.noConfusion)
  | collect | sort | nothing | panic => exact startedAll present

/-- A path moves from the producer to the worker that receives it. -/
theorem Step.order (taken : Step paths workers checker before event after)
    (order : before.pathsReceived ++ before.producer.remaining paths = paths) :
    after.pathsReceived ++ after.producer.remaining paths = paths := by
  cases taken with
  | spawnProducer _ _ absent =>
      rw [absent] at order
      exact order
  | job producing =>
      rw [producing] at order
      simp only [State.pathsReceived, List.map_append, List.map_cons, List.map_nil,
        List.append_assoc, List.singleton_append]
      exact order
  | closeJobs producing | wait producing | closeResults producing =>
      rw [producing] at order
      exact order
  | spawnWorker | rangeEnd | check | send | done | collect | sort | nothing | panic =>
      exact order

/-- A status moves from the worker that owes it through the buffer to the main goroutine. -/
theorem Step.ledger (taken : Step paths workers checker before event after)
    (ledger : (before.workers.filterMap (Worker.owed checker) ++
      (before.buffer ++ before.collected)).Perm (before.pathsReceived.map checker)) :
    (after.workers.filterMap (Worker.owed checker) ++
      (after.buffer ++ after.collected)).Perm (after.pathsReceived.map checker) := by
  cases taken with
  | spawnProducer | closeJobs | wait | closeResults | sort | nothing | panic => exact ledger
  | spawnWorker =>
      simp only [List.filterMap_append, List.filterMap_cons, List.filterMap_nil, Worker.owed,
        List.append_nil]
      exact ledger
  | rangeEnd found | check found | done found =>
      refine List.Perm.trans (List.Perm.append_right _ ?_) ledger
      exact filterMap_set_perm_of_eq _ found rfl
  | @job worker path rest _ _ found =>
      have owes : ((before.workers.set worker (.checking path)).filterMap (Worker.owed checker) ++
            (before.buffer ++ before.collected)).Perm
          (checker path :: (before.workers.filterMap (Worker.owed checker) ++
            (before.buffer ++ before.collected))) := by
        refine List.Perm.trans ?_ List.perm_middle
        exact filterMap_set_append_perm _ found _ (.refl _)
      simp only [State.pathsReceived, List.map_append, List.map_cons, List.map_nil]
      exact owes.trans ((ledger.cons _).trans (List.perm_append_singleton _ _).symm)
  | @send worker status found =>
      refine List.Perm.trans ?_ ledger
      refine filterMap_set_append_perm _ found _ ?_
      simp only [Worker.owed, Option.toList_none, Option.toList_some, List.nil_append,
        List.singleton_append, List.append_assoc]
      exact List.perm_middle
  | @collect status rest _ buffered =>
      refine List.Perm.trans (List.Perm.append_left _ ?_) ledger
      rw [buffered, ← List.append_assoc]
      exact List.perm_append_singleton _ _

/-- The channel of the jobs is closed exactly when the producer has gone past it. -/
theorem Step.jobs (taken : Step paths workers checker before event after)
    (jobs : before.jobsClosed = before.producer.pastJobs) :
    after.jobsClosed = after.producer.pastJobs := by
  cases taken with
  | spawnProducer _ _ producing | wait producing | closeResults producing =>
      rw [producing] at jobs
      exact jobs
  | job producing =>
      rw [producing] at jobs
      exact jobs
  | closeJobs => rfl
  | spawnWorker | rangeEnd | check | send | done | collect | sort | nothing | panic => exact jobs

/-- The channel of the results is closed exactly when the producer has ended. -/
theorem Step.results (taken : Step paths workers checker before event after)
    (results : before.resultsClosed = true ↔ before.producer = .exited) :
    after.resultsClosed = true ↔ after.producer = .exited := by
  cases taken with
  | spawnProducer _ _ producing | wait producing | job producing | closeJobs producing =>
      rw [producing] at results
      simpa only [reduceCtorEq, iff_false] using results
  | closeResults => exact ⟨fun _ => rfl, fun _ => rfl⟩
  | spawnWorker | rangeEnd | check | send | done | collect | sort | nothing | panic =>
      exact results

/-- Every `Done` is counted once. -/
theorem Step.group (taken : Step paths workers checker before event after)
    (group : before.waitGroup + before.workers.countP Worker.isExited =
      workerCount paths workers) :
    after.waitGroup + after.workers.countP Worker.isExited = workerCount paths workers := by
  cases taken with
  | spawnWorker =>
      rw [List.countP_append]
      exact group
  | @job worker path rest _ _ found =>
      have count := countP_set Worker.isExited found (.checking path)
      simp only [Worker.isExited, Bool.toNat_false] at count ⊢
      omega
  | rangeEnd found =>
      have count := countP_set Worker.isExited found .leaving
      simp only [Worker.isExited, Bool.toNat_false] at count ⊢
      omega
  | @check worker path found =>
      have count := countP_set Worker.isExited found (.sending (checker path))
      simp only [Worker.isExited, Bool.toNat_false] at count ⊢
      omega
  | send found =>
      have count := countP_set Worker.isExited found .receiving
      simp only [Worker.isExited, Bool.toNat_false] at count ⊢
      omega
  | done found pos =>
      have count := countP_set Worker.isExited found .exited
      simp only [Worker.isExited, Bool.toNat_false, Bool.toNat_true] at count ⊢
      omega
  | spawnProducer | closeJobs | wait | closeResults | collect | sort | nothing | panic =>
      exact group

/-- A worker leaves its loop only after `jobs` has been closed. -/
theorem Step.left (taken : Step paths workers checker before event after)
    (left : ∀ worker ∈ before.workers, worker = .leaving ∨ worker = .exited →
      before.jobsClosed = true) :
    ∀ worker ∈ after.workers, worker = .leaving ∨ worker = .exited → after.jobsClosed = true := by
  intro worker inside gone
  cases taken with
  | spawnWorker =>
      rcases List.mem_append.mp inside with old | new
      · exact left worker old gone
      · rw [List.mem_singleton.mp new] at gone
        rcases gone with gone | gone <;> cases gone
  | rangeEnd found closed => exact closed
  | done found => exact left _ (List.mem_of_getElem? found) (.inl rfl)
  | closeJobs => rfl
  | job | check | send =>
      rcases List.mem_or_eq_of_mem_set inside with old | new
      · exact left worker old gone
      · rw [new] at gone
        rcases gone with gone | gone <;> cases gone
  | spawnProducer | wait | closeResults | collect | sort | nothing | panic =>
      exact left worker inside gone

/-- The producer goes on to close the results only when all workers are done. -/
theorem Step.waited (taken : Step paths workers checker before event after)
    (waited : before.producer = .closing ∨ before.producer = .exited → before.waitGroup = 0) :
    after.producer = .closing ∨ after.producer = .exited → after.waitGroup = 0 := by
  intro late
  cases taken with
  | spawnProducer | job | closeJobs => rcases late with late | late <;> cases late
  | wait _ zero => exact zero
  | closeResults closing => exact waited (.inl closing)
  | done _ pos =>
      have zero := waited late
      omega
  | spawnWorker | rangeEnd | check | send | collect | sort | nothing | panic =>
      exact waited late

/-- Nothing is collected once the collected statuses have been sorted. -/
theorem Step.returned (taken : Step paths workers checker before event after)
    (invariant : Invariant paths workers checker before) :
    ∀ result, after.result = some result →
      paths = [] ∧ result = [] ∨ after.resultsClosed = true ∧ after.buffer = [] ∧
        IsSortOf RepositoryStatus.path after.collected result := by
  intro result done
  cases taken with
  | spawnWorker | spawnProducer | job | rangeEnd | check | done | closeJobs | wait | panic =>
      exact invariant.returned result done
  | closeResults _ stillOpen =>
      rcases invariant.returned result done with empty | ⟨closed, _⟩
      · exact .inl empty
      · rw [stillOpen] at closed
        cases closed
  | send found stillOpen =>
      rcases invariant.returned result done with empty | ⟨closed, _⟩
      · exact .inl empty
      · rw [stillOpen] at closed
        cases closed
  | collect _ buffered =>
      rcases invariant.returned result done with empty | ⟨_, empty, _⟩
      · exact .inl empty
      · rw [buffered] at empty
        cases empty
  | sort empty closed _ sorted =>
      cases done
      exact .inr ⟨closed, empty, sorted⟩
  | nothing empty =>
      cases done
      exact .inl ⟨empty, rfl⟩

/-- No move panics. -/
theorem Step.calm (taken : Step paths workers checker before event after)
    (invariant : Invariant paths workers checker before) : after.panicked = false := by
  cases taken
  case panic misuse _ => exact absurd misuse invariant.no_misuse
  all_goals exact invariant.calm

theorem Initial.invariant (initial : Initial paths workers state) :
    Invariant paths workers checker state := by
  obtain rfl := initial
  refine ⟨rfl, fun _ => ⟨rfl, rfl⟩, Nat.zero_le _, fun present => absurd rfl present, rfl,
    .refl _, rfl, ?_, Nat.add_zero _, ?_, ?_, ?_⟩
  · simp only [Bool.false_eq_true, reduceCtorEq]
  · exact fun _ inside => absurd inside List.not_mem_nil
  · rintro (late | late) <;> cases late
  · intro result done
    cases done

theorem Step.invariant (taken : Step paths workers checker before event after)
    (invariant : Invariant paths workers checker before) :
    Invariant paths workers checker after where
  calm := taken.calm invariant
  idle := taken.idle invariant.idle
  started := taken.started invariant.started
  startedAll := taken.startedAll invariant.startedAll
  order := taken.order invariant.order
  ledger := taken.ledger invariant.ledger
  jobs := taken.jobs invariant.jobs
  results := taken.results invariant.results
  group := taken.group invariant.group
  left := taken.left invariant.left
  waited := taken.waited invariant.waited
  returned := taken.returned invariant

theorem reachable_invariant (reachable : (pool paths workers checker).Reachable state) :
    Invariant paths workers checker state :=
  reachable.invariant Initial.invariant fun invariant taken => Step.invariant taken invariant

/-! ## The pool completes -/

/-- An upper bound on the steps that are left. -/
def State.measure (paths : List Path) (workers : Nat) (state : State) : Nat :=
  3 * (workerCount paths workers - state.workers.length) + state.producer.weight paths +
    (state.workers.map Worker.weight).sum + state.buffer.length +
    (if state.result.isNone then 1 else 0) + (if state.panicked then 0 else 1)

/-- Every move leaves less to do. -/
theorem Step.measure_lt (taken : Step paths workers checker before event after) :
    after.measure paths workers < before.measure paths workers := by
  unfold State.measure
  cases taken with
  | spawnWorker _ room =>
      simp only [List.length_append, List.length_singleton, List.map_append, List.map_cons,
        List.map_nil, List.sum_append, List.sum_cons, List.sum_nil, Worker.weight]
      omega
  | spawnProducer _ _ producing | closeJobs producing | wait producing | closeResults producing =>
      simp only [producing, Producer.weight, List.length_nil]
      omega
  | @job worker path rest producing _ found =>
      have exchanged := sum_map_set Worker.weight found (.checking path)
      simp only [producing, Producer.weight, Worker.weight, List.length_set,
        List.length_cons] at exchanged ⊢
      omega
  | rangeEnd found =>
      have exchanged := sum_map_set Worker.weight found .leaving
      simp only [Worker.weight, List.length_set] at exchanged ⊢
      omega
  | @check worker path found =>
      have exchanged := sum_map_set Worker.weight found (.sending (checker path))
      simp only [Worker.weight, List.length_set] at exchanged ⊢
      omega
  | send found =>
      have exchanged := sum_map_set Worker.weight found .receiving
      simp only [Worker.weight, List.length_set, List.length_append,
        List.length_singleton] at exchanged ⊢
      omega
  | done found =>
      have exchanged := sum_map_set Worker.weight found .exited
      simp only [Worker.weight, List.length_set] at exchanged ⊢
      omega
  | collect _ buffered =>
      simp only [buffered, List.length_cons]
      omega
  | sort _ _ none | nothing _ none =>
      simp only [none, Option.isNone_none, Option.isNone_some, Bool.false_eq_true, ↓reduceIte]
      omega
  | panic _ calm =>
      simp only [calm, Bool.false_eq_true, ↓reduceIte]
      omega

theorem workerCount_pos (some : paths ≠ []) (positive : 1 ≤ workers) :
    0 < workerCount paths workers := by
  have nonempty := List.length_pos_iff.mpr some
  unfold workerCount
  split_ifs <;> omega

/-- Neither waiting for a path nor done. -/
def Worker.Busy (worker : Worker) : Prop :=
  worker ≠ .receiving ∧ worker ≠ .exited

/-- A busy worker can take a step. -/
theorem worker_progress (invariant : Invariant paths workers checker state) {worker : Worker}
    (inside : worker ∈ state.workers) (busy : worker.Busy) :
    ∃ event after, Step paths workers checker state event after := by
  obtain ⟨index, found⟩ := List.mem_iff_getElem?.mp inside
  cases worker with
  | receiving => exact absurd rfl busy.1
  | exited => exact absurd rfl busy.2
  | checking path => exact ⟨_, _, .check found⟩
  | leaving => exact ⟨_, _, .done found (invariant.waitGroup_pos inside rfl)⟩
  | sending status =>
      have stillOpen : state.resultsClosed = false := by
        rw [← Bool.not_eq_true]
        exact fun closed => invariant.no_misuse (.sendResult found closed)
      exact ⟨_, _, .send found stillOpen (invariant.room inside rfl)⟩

/-- When no worker is busy the producer or the main goroutine can take a step. -/
theorem producer_progress (invariant : Invariant paths workers checker state)
    (some : paths ≠ []) (positive : 1 ≤ workers) (pending : state.result = none)
    (quiet : ∀ worker ∈ state.workers, ¬ worker.Busy) :
    ∃ event after, Step paths workers checker state event after := by
  by_cases room : state.workers.length < workerCount paths workers
  · exact ⟨_, _, .spawnWorker some room⟩
  have all : state.workers.length = workerCount paths workers := by
    have started := invariant.started
    omega
  have jobs := invariant.jobs
  -- a worker that is neither busy nor done waits at the head of its loop
  have receiver : ∀ worker ∈ state.workers, worker ≠ .exited →
      ∃ index : Nat, state.workers[index]? = Option.some .receiving := by
    intro worker inside present
    have receiving : worker = .receiving := by
      by_contra other
      exact quiet worker inside ⟨other, present⟩
    exact List.mem_iff_getElem?.mp (receiving ▸ inside)
  cases producing : state.producer with
  | absent => exact ⟨_, _, .spawnProducer some all producing⟩
  | sending rest =>
      have stillOpen : state.jobsClosed = false := by rw [jobs, producing]; rfl
      cases rest with
      | nil => exact ⟨_, _, .closeJobs producing stillOpen⟩
      | cons path rest =>
          have first : 0 < state.workers.length := all ▸ workerCount_pos some positive
          have inside := List.getElem_mem first
          have present : state.workers[0] ≠ .exited := by
            intro exited
            have closed := invariant.left _ inside (.inr exited)
            rw [stillOpen] at closed
            cases closed
          obtain ⟨index, found⟩ := receiver _ inside present
          exact ⟨_, _, .job producing stillOpen found⟩
  | waiting =>
      have closed : state.jobsClosed = true := by rw [jobs, producing]; rfl
      by_cases exited : ∀ worker ∈ state.workers, worker = .exited
      · have count : state.workers.countP Worker.isExited = state.workers.length := by
          rw [List.countP_eq_length]
          intro worker inside
          rw [exited worker inside]
          rfl
        have group := invariant.group
        exact ⟨_, _, .wait producing (by omega)⟩
      · push Not at exited
        obtain ⟨worker, inside, present⟩ := exited
        obtain ⟨index, found⟩ := receiver worker inside present
        exact ⟨_, _, .rangeEnd found closed⟩
  | closing =>
      have stillOpen : state.resultsClosed = false := by
        rw [← Bool.not_eq_true]
        exact fun closed => invariant.no_misuse (.closeResults producing closed)
      exact ⟨_, _, .closeResults producing stillOpen⟩
  | exited =>
      have closed := invariant.results.mpr producing
      cases buffered : state.buffer with
      | nil =>
          exact ⟨_, _, .sort buffered closed pending
            (sortByKey_isSortOf RepositoryStatus.path state.collected)⟩
      | cons status rest =>
          exact ⟨_, _, .collect (producing ▸ Producer.noConfusion) buffered⟩

/-- The pool comes to its end under every schedule. -/
theorem completes (paths : List Path) {workers : Nat} (positive : 1 ≤ workers)
    (checker : Path → RepositoryStatus) :
    (pool paths workers checker).Completes (fun _ => True) Returned where
  terminates reachable := by
    apply TransitionSystem.terminates_of_measure (State.measure paths workers) _ reachable
    intro before event after _ taken
    exact Step.measure_lt taken
  progress {state} reachable pending := by
    have invariant := reachable_invariant reachable
    have none : state.result = none := not_not.mp pending
    have step : ∃ event after, Step paths workers checker state event after := by
      by_cases empty : paths = []
      · exact ⟨_, _, .nothing empty none⟩
      by_cases busy : ∃ worker ∈ state.workers, worker.Busy
      · obtain ⟨worker, inside, busy⟩ := busy
        exact worker_progress invariant inside busy
      · push Not at busy
        exact producer_progress invariant empty positive none busy
    obtain ⟨event, after, taken⟩ := step
    exact ⟨event, after, trivial, taken⟩

/-- Some run ends with a result. -/
theorem exists_returned (paths : List Path) {workers : Nat} (positive : 1 ≤ workers)
    (checker : Path → RepositoryStatus) :
    ∃ state result, (pool paths workers checker).Reachable state ∧
      state.result = some result := by
  have initial : (pool paths workers checker).Reachable
      { waitGroup := workerCount paths workers } := .initial rfl
  obtain ⟨last, leads, returned⟩ := (completes paths positive checker).exists_leads initial
  obtain ⟨result, done⟩ := Option.ne_none_iff_exists'.mp returned
  exact ⟨last, result, leads.of_restrict.reachable initial, done⟩

/-! ## The protocol -/

/-- When the results have been sorted every path has been received and every
status collected. -/
theorem Invariant.collected_perm (invariant : Invariant paths workers checker state)
    (closed : state.resultsClosed = true) (drained : state.buffer = []) :
    state.pathsReceived = paths ∧ state.collected.Perm (paths.map checker) := by
  have exited := invariant.results.mp closed
  have order := invariant.order
  have sentAll : Producer.exited.remaining paths = [] := rfl
  rw [exited, sentAll, List.append_nil] at order
  have zero := invariant.waited (.inr exited)
  have released : state.workers.filterMap (Worker.owed checker) = [] := by
    rw [List.filterMap_eq_nil_iff]
    intro worker inside
    cases busy : worker.isExited with
    | true =>
        cases worker with
        | exited => rfl
        | receiving | checking | sending | leaving => cases busy
    | false =>
        have pos := invariant.waitGroup_pos inside busy
        omega
  have ledger := invariant.ledger
  rw [released, drained, order] at ledger
  exact ⟨order, ledger⟩

/-- What is returned is the sorted list of the statuses of all paths. -/
theorem Invariant.result_eq (invariant : Invariant paths workers checker state)
    (distinct : paths.Nodup) (own : ∀ path ∈ paths, (checker path).path = path)
    {result : List RepositoryStatus} (done : state.result = some result) :
    result = sortByKey RepositoryStatus.path (paths.map checker) := by
  have keys : (paths.map checker).map RepositoryStatus.path = paths := by
    rw [List.map_map]
    calc paths.map (RepositoryStatus.path ∘ checker)
        = paths.map id := List.map_congr_left own
      _ = paths := List.map_id paths
  rcases invariant.returned result done with ⟨empty, none⟩ | ⟨closed, drained, sorted⟩
  · rw [empty, none]
    rfl
  · have every := (invariant.collected_perm closed drained).2
    exact (sorted.of_perm every).eq_sortByKey (keys.symm ▸ distinct)

/-- What is promised of a state of a run. -/
structure Promised (paths : List Path) (checker : Path → RepositoryStatus) (state : State) :
    Prop where
  noMisuse : ¬ Misuse state
  noPanic : state.panicked = false
  /-- a send on `results` finds room -/
  room : ∀ status, .sending status ∈ state.workers → state.buffer.length < paths.length
  receivedOnce : state.pathsReceived.Nodup
  complete : ∀ result, state.result = some result →
    state.pathsReceived.Perm paths ∧
      result = sortByKey RepositoryStatus.path (paths.map checker)

/-- **The protocol of the worker pool.** For distinct paths, at least one worker and a
checker whose statuses carry their paths, every run ends with a result and some goroutine
can move until then; no channel is misused, no send on `results` waits, no path is
received twice, and the result is the sorted list of the answers for all paths. -/
theorem protocol {paths : List Path} {workers : Nat} {checker : Path → RepositoryStatus}
    (distinct : paths.Nodup) (positive : 1 ≤ workers)
    (own : ∀ path ∈ paths, (checker path).path = path) :
    (pool paths workers checker).Completes (fun _ => True) Returned ∧
      ∀ {state}, (pool paths workers checker).Reachable state → Promised paths checker state := by
  refine ⟨completes paths positive checker, ?_⟩
  intro state reachable
  have invariant := reachable_invariant reachable
  refine ⟨invariant.no_misuse, invariant.calm, ?_, ?_, ?_⟩
  · intro status inside
    exact invariant.room inside rfl
  · have order := invariant.order
    exact (order.symm ▸ distinct : (state.pathsReceived ++ _).Nodup).of_append_left
  · intro result done
    refine ⟨?_, invariant.result_eq distinct own done⟩
    rcases invariant.returned result done with ⟨empty, _⟩ | ⟨closed, drained, _⟩
    · have order := invariant.order
      rw [empty] at order
      rw [(List.append_eq_nil_iff.mp order).1, empty]
    · rw [(invariant.collected_perm closed drained).1]

/-- Two repositories and more workers than repositories. -/
theorem protocol_two_repositories :
    (pool [ascii "b", ascii "a"] 3 fun path => { path }).Completes (fun _ => True) Returned ∧
      ∀ {state}, (pool [ascii "b", ascii "a"] 3 fun path => { path }).Reachable state →
        Promised [ascii "b", ascii "a"] (fun path => { path }) state :=
  protocol (by decide) (by decide) fun _ _ => rfl

end CheckGitStatus.Go.WorkerPool
