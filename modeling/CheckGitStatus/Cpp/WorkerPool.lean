import CheckGitStatus.Library.ListUpdate
import CheckGitStatus.Library.Sorting
import CheckGitStatus.Library.Transition
import CheckGitStatus.Status

/-! # The worker pool of the C++ program

`check_repositories` starts workers that claim indices with `fetch_add` until the
paths run out or the flag `cancelled` is set, joins them and sorts the slots they
filled. The pool is a transition system whose steps are the atomic steps of the
main thread and of the workers, in any order, and the one of the signal handler
that sets the flag. `CheckGitStatus.Cpp.WorkerPool.contract` collects what holds in
every run.
-/

namespace CheckGitStatus.Cpp.WorkerPool

open Library

/-- Where a worker stands. -/
inductive Worker where
  /-- about to load `cancelled` -/
  | loading
  /-- about to add to `next_index` -/
  | claiming
  /-- about to call the checker -/
  | claimed (index : Nat)
  /-- inside the checker -/
  | checking (index : Nat)
  /-- about to write the slot -/
  | writing (index : Nat) (status : RepositoryStatus)
  | finished
  deriving DecidableEq, Repr

/-- The variables of `check_repositories` and a record of the calls of the checker and
of the writes (worker and slot). `joined` counts the threads that have been joined. -/
structure State where
  cancelled : Bool
  nextIndex : Nat := 0
  statuses : List RepositoryStatus
  threads : List Worker := []
  joined : Nat := 0
  result : Option (List RepositoryStatus) := none
  handed : List Path := []
  written : List (Nat × Nat) := []
  deriving Repr

/-- Which thread moves: a worker with its number, the main thread that spawns, joins and sorts,
or the handler of the interrupt. -/
inductive Event where
  | interrupt
  | spawn
  | load (worker : Nat)
  | fetchAdd (worker : Nat)
  | call (worker : Nat)
  | answer (worker : Nat)
  | write (worker : Nat)
  | join
  | finish
  deriving DecidableEq, Repr

/-- `std::vector<RepositoryStatus>(size)`. -/
def emptySlots (size : Nat) : List RepositoryStatus :=
  List.replicate size { path := [] }

variable (paths : List Path) (workers : UInt32) (checker : Path → RepositoryStatus)

/-- `std::max(1U, std::min(workers, static_cast<unsigned int>(paths.size())))`. -/
def workerCount : Nat :=
  (max 1 (min workers paths.length.toUInt32)).toNat

/-- One move of one thread, in any order that the threads allow. -/
inductive Step : State → Event → State → Prop where
  | interrupt {state : State} : state.cancelled = false →
      Step state .interrupt { state with cancelled := true }
  | spawn {state : State} : paths ≠ [] → state.threads.length < workerCount paths workers →
      Step state .spawn { state with threads := state.threads ++ [.loading] }
  | stop {state : State} {worker : Nat} : state.threads[worker]? = some .loading →
      state.cancelled = true →
      Step state (.load worker) { state with threads := state.threads.set worker .finished }
  | goOn {state : State} {worker : Nat} : state.threads[worker]? = some .loading →
      state.cancelled = false →
      Step state (.load worker) { state with threads := state.threads.set worker .claiming }
  | claim {state : State} {worker : Nat} : state.threads[worker]? = some .claiming →
      state.nextIndex < paths.length →
      Step state (.fetchAdd worker)
        { state with
          nextIndex := state.nextIndex + 1
          threads := state.threads.set worker (.claimed state.nextIndex) }
  | runOut {state : State} {worker : Nat} : state.threads[worker]? = some .claiming →
      paths.length ≤ state.nextIndex →
      Step state (.fetchAdd worker)
        { state with
          nextIndex := state.nextIndex + 1
          threads := state.threads.set worker .finished }
  | call {state : State} {worker index : Nat} {path : Path} :
      state.threads[worker]? = some (.claimed index) → paths[index]? = some path →
      Step state (.call worker)
        { state with
          threads := state.threads.set worker (.checking index)
          handed := state.handed ++ [path] }
  | answer {state : State} {worker index : Nat} {path : Path} :
      state.threads[worker]? = some (.checking index) → paths[index]? = some path →
      Step state (.answer worker)
        { state with threads := state.threads.set worker (.writing index (checker path)) }
  | write {state : State} {worker index : Nat} {status : RepositoryStatus} :
      state.threads[worker]? = some (.writing index status) →
      Step state (.write worker)
        { state with
          statuses := state.statuses.set index status
          threads := state.threads.set worker .loading
          written := state.written ++ [(worker, index)] }
  | join {state : State} : state.threads.length = workerCount paths workers →
      state.threads[state.joined]? = some .finished →
      Step state .join { state with joined := state.joined + 1 }
  | sort {state : State} {sorted : List RepositoryStatus} : paths ≠ [] →
      state.joined = workerCount paths workers → state.result = none →
      IsSortOf (fun status => pathText status.path) state.statuses sorted →
      Step state .finish { state with result := some sorted }
  | nothing {state : State} : paths = [] → state.result = none →
      Step state .finish { state with result := some [] }

/-- The flag may be set before the pool starts. -/
def Initial (state : State) : Prop :=
  ∃ cancelled, state = { cancelled, statuses := emptySlots paths.length }

/-- `check_repositories` for these paths. -/
def pool : TransitionSystem State Event where
  Initial := Initial paths
  Step := Step paths workers checker

/-- The steps of the program, as opposed to the signal handler's. -/
def Event.Own (event : Event) : Prop :=
  event ≠ .interrupt

/-- The statuses have been returned. -/
def Returned (state : State) : Prop :=
  state.result ≠ none

/-! ## Where the indices are -/

/-- The index a worker has claimed and not yet written. -/
def Worker.held : Worker → Option Nat
  | .claimed index | .checking index | .writing index _ => some index
  | _ => none

/-- The index whose path a worker has handed to the checker and not yet written. -/
def Worker.called : Worker → Option Nat
  | .checking index | .writing index _ => some index
  | _ => none

/-- The worker is inside the checker. -/
def Worker.inFlight : Worker → Bool
  | .checking _ => true
  | _ => false

/-- Steps left until the worker loads the flag the next time. -/
def Worker.weight : Worker → Nat
  | .finished => 0
  | .claiming => 1
  | .loading => 2
  | .writing .. => 3
  | .checking _ => 4
  | .claimed _ => 5

/-- The indices of the vector that have been written. -/
def State.slotsWritten (state : State) : List Nat :=
  state.written.map Prod.snd

/-- How many workers are between the call of the checker and the write of its answer. -/
def State.checksInFlight (state : State) : Nat :=
  state.threads.countP Worker.inFlight

/-- What every reachable state satisfies. -/
structure Invariant (state : State) : Prop where
  slots : state.statuses.length = paths.length
  idle : paths = [] → state.threads = []
  started : state.threads.length ≤ workerCount paths workers
  joinedFinished : ∀ worker < state.joined, state.threads[worker]? = some .finished
  joinedAll : 0 < state.joined → state.threads.length = workerCount paths workers
  -- every index below the counter is held by one worker or written once
  claims : (state.threads.filterMap Worker.held ++ state.slotsWritten).Perm
    (List.range (min state.nextIndex paths.length))
  calls : state.handed.Perm
    ((state.threads.filterMap Worker.called ++ state.slotsWritten).filterMap (paths[·]?))
  answers : ∀ index status, .writing index status ∈ state.threads →
    paths[index]?.map checker = some status
  filled : ∀ index ∈ state.slotsWritten, state.statuses[index]? = paths[index]?.map checker
  -- a worker ends early only when the flag is set
  ranOut : state.cancelled = false → .finished ∈ state.threads → paths.length ≤ state.nextIndex
  returned : ∀ result, state.result = some result →
    paths = [] ∧ result = [] ∨ paths ≠ [] ∧ state.joined = workerCount paths workers ∧
      IsSortOf (fun status => pathText status.path) state.statuses result

/-! ## What one step preserves -/

variable {paths workers checker} {before after : State} {event : Event}

/-- No move changes the number of slots. -/
theorem Step.slots (taken : Step paths workers checker before event after)
    (slots : before.statuses.length = paths.length) : after.statuses.length = paths.length := by
  cases taken
  case write => exact (List.length_set ..).trans slots
  all_goals exact slots

/-- Claiming an index adds it to the held ones and to the range below the counter. -/
theorem Step.claims (taken : Step paths workers checker before event after)
    (claims : (before.threads.filterMap Worker.held ++ before.slotsWritten).Perm
      (List.range (min before.nextIndex paths.length))) :
    (after.threads.filterMap Worker.held ++ after.slotsWritten).Perm
      (List.range (min after.nextIndex paths.length)) := by
  cases taken with
  | interrupt | join | sort | nothing => exact claims
  | spawn =>
      simp only [List.filterMap_append, List.filterMap_cons, List.filterMap_nil, Worker.held,
        List.append_nil]
      exact claims
  | stop found | goOn found | call found | answer found =>
      refine List.Perm.trans (List.Perm.append_right _ ?_) claims
      exact filterMap_set_perm_of_eq Worker.held found rfl
  | runOut found out =>
      have same : min (before.nextIndex + 1) paths.length = min before.nextIndex paths.length := by
        omega
      rw [same]
      refine List.Perm.trans (List.Perm.append_right _ ?_) claims
      exact filterMap_set_perm_of_eq Worker.held found rfl
  | claim found below =>
      have old : min before.nextIndex paths.length = before.nextIndex := by omega
      have new : min (before.nextIndex + 1) paths.length = before.nextIndex + 1 := by omega
      rw [old] at claims
      rw [new, List.range_succ]
      calc (before.threads.set _ (.claimed before.nextIndex)).filterMap Worker.held ++
            before.slotsWritten
          |>.Perm (before.threads.filterMap Worker.held ++
              before.nextIndex :: before.slotsWritten) :=
            filterMap_set_append_perm Worker.held found _ (.refl _)
        _ |>.Perm (before.nextIndex ::
              (before.threads.filterMap Worker.held ++ before.slotsWritten)) :=
            List.perm_middle
        _ |>.Perm (before.nextIndex :: List.range before.nextIndex) := claims.cons _
        _ |>.Perm (List.range before.nextIndex ++ [before.nextIndex]) :=
            (List.perm_append_singleton _ _).symm
  | write found =>
      refine (filterMap_set_append_perm Worker.held found _ ?_).trans claims
      simp only [State.slotsWritten, List.map_append, List.map_cons, List.map_nil, Worker.held,
        Option.toList_none, Option.toList_some, List.nil_append, List.singleton_append]
      exact List.perm_append_singleton _ _

/-- The checker is called for the claimed indices that are past the call. -/
theorem Step.calls (taken : Step paths workers checker before event after)
    (calls : before.handed.Perm
      ((before.threads.filterMap Worker.called ++ before.slotsWritten).filterMap (paths[·]?))) :
    after.handed.Perm
      ((after.threads.filterMap Worker.called ++ after.slotsWritten).filterMap (paths[·]?)) := by
  cases taken with
  | interrupt | join | sort | nothing => exact calls
  | spawn =>
      simp only [List.filterMap_append, List.filterMap_cons, List.filterMap_nil, Worker.called,
        List.append_nil] at calls ⊢
      exact calls
  | stop found | goOn found | runOut found | claim found | answer found =>
      refine calls.trans (List.Perm.filterMap _ (List.Perm.append_right _ ?_))
      refine (filterMap_set_perm_of_eq Worker.called found ?_).symm
      rfl
  | @call worker index path found listed =>
      have moved : ((before.threads.set worker (.checking index)).filterMap Worker.called ++
            before.slotsWritten).Perm
          (index :: (before.threads.filterMap Worker.called ++ before.slotsWritten)) := by
        refine List.Perm.trans ?_ List.perm_middle
        exact filterMap_set_append_perm Worker.called found _ (.refl _)
      have paid := moved.filterMap (paths[·]?)
      rw [List.filterMap_cons, listed] at paid
      calc before.handed ++ [path]
          |>.Perm (path :: before.handed) := List.perm_append_singleton _ _
        _ |>.Perm (path :: (before.threads.filterMap Worker.called ++
              before.slotsWritten).filterMap (paths[·]?)) := calls.cons _
        _ |>.Perm _ := paid.symm
  | write found =>
      refine calls.trans (List.Perm.filterMap _ ?_)
      refine (filterMap_set_append_perm Worker.called found _ ?_).symm
      simp only [State.slotsWritten, List.map_append, List.map_cons, List.map_nil, Worker.called,
        Option.toList_none, Option.toList_some, List.nil_append, List.singleton_append]
      exact List.perm_append_singleton _ _

/-- What a worker is about to write is the checker's answer. -/
theorem Step.answers (taken : Step paths workers checker before event after)
    (answers : ∀ index status, .writing index status ∈ before.threads →
      paths[index]?.map checker = some status) :
    ∀ index status, .writing index status ∈ after.threads →
      paths[index]?.map checker = some status := by
  intro index status inside
  cases taken with
  | interrupt | join | sort | nothing => exact answers index status inside
  | spawn =>
      rcases List.mem_append.mp inside with old | new
      · exact answers index status old
      · cases List.mem_singleton.mp new
  | stop | goOn | runOut | claim | call | write =>
      exact answers index status (mem_of_mem_set inside Worker.noConfusion)
  | answer found listed =>
      rcases List.mem_or_eq_of_mem_set inside with old | new
      · exact answers index status old
      · cases new
        rw [listed]
        rfl

/-- Written slots hold the checker's answers. -/
theorem Step.filled (taken : Step paths workers checker before event after)
    (slots : before.statuses.length = paths.length)
    (answers : ∀ index status, .writing index status ∈ before.threads →
      paths[index]?.map checker = some status)
    (filled : ∀ index ∈ before.slotsWritten,
      before.statuses[index]? = paths[index]?.map checker) :
    ∀ index ∈ after.slotsWritten, after.statuses[index]? = paths[index]?.map checker := by
  cases taken
  case write worker index status found =>
    have answer := answers index status (List.mem_of_getElem? found)
    have below : index < before.statuses.length := by
      by_contra above
      rw [List.getElem?_eq_none (by omega)] at answer
      cases answer
    intro slot inside
    by_cases same : index = slot
    · subst same
      rw [answer]
      exact List.getElem?_set_self below
    · change (before.statuses.set index status)[slot]? = _
      rw [List.getElem?_set_ne same]
      apply filled
      simp only [State.slotsWritten, List.map_append, List.map_cons, List.map_nil,
        List.mem_append, List.mem_singleton] at inside
      rcases inside with old | new
      · exact old
      · exact absurd new.symm same
  all_goals exact filled

/-- Without an interrupt a worker finishes only when the counter has run out. -/
theorem Step.ranOut (taken : Step paths workers checker before event after)
    (ranOut : before.cancelled = false → .finished ∈ before.threads →
      paths.length ≤ before.nextIndex) :
    after.cancelled = false → .finished ∈ after.threads → paths.length ≤ after.nextIndex := by
  intro calm inside
  cases taken with
  | interrupt => cases calm
  | join | sort | nothing => exact ranOut calm inside
  | spawn =>
      rcases List.mem_append.mp inside with old | new
      · exact ranOut calm old
      · cases List.mem_singleton.mp new
  | stop found set =>
      change before.cancelled = false at calm
      rw [calm] at set
      cases set
  | runOut found out => exact Nat.le_succ_of_le out
  | claim =>
      exact Nat.le_succ_of_le (ranOut calm (mem_of_mem_set inside Worker.noConfusion))
  | goOn | call | answer | write =>
      exact ranOut calm (mem_of_mem_set inside Worker.noConfusion)

/-- There is at least one worker, and no more than are allowed or than there are paths,
counted in 32 bits. -/
theorem workerCount_eq (paths : List Path) (workers : UInt32) :
    workerCount paths workers = max 1 (min workers.toNat paths.length.toUInt32.toNat) := by
  have least : min workers paths.length.toUInt32 =
      if workers ≤ paths.length.toUInt32 then workers else paths.length.toUInt32 := rfl
  have most : max 1 (min workers paths.length.toUInt32) =
      if 1 ≤ min workers paths.length.toUInt32 then min workers paths.length.toUInt32 else 1 := rfl
  have one : (1 : UInt32).toNat = 1 := rfl
  rw [workerCount, most, least]
  simp only [UInt32.le_iff_toNat_le]
  split_ifs <;> omega

theorem workerCount_pos (paths : List Path) (workers : UInt32) :
    0 < workerCount paths workers := by
  rw [workerCount_eq]
  omega

/-- The conversion of the size to 32 bits can only lower the number of workers. -/
theorem workerCount_le (paths : List Path) (workers : UInt32) :
    workerCount paths workers ≤ max 1 (min workers.toNat paths.length) := by
  have cast : paths.length.toUInt32.toNat ≤ paths.length := Nat.mod_le _ _
  rw [workerCount_eq]
  omega

/-- No more workers are spawned than are counted. -/
theorem Step.started (taken : Step paths workers checker before event after)
    (started : before.threads.length ≤ workerCount paths workers) :
    after.threads.length ≤ workerCount paths workers := by
  cases taken with
  | interrupt | join | sort | nothing => exact started
  | spawn _ room =>
      rw [List.length_append]
      exact room
  | stop | goOn | claim | runOut | call | answer | write =>
      rw [List.length_set]
      exact started

/-- Without paths nobody is spawned. -/
theorem Step.idle (taken : Step paths workers checker before event after)
    (idle : paths = [] → before.threads = []) : paths = [] → after.threads = [] := by
  intro empty
  cases taken with
  | interrupt | join | sort | nothing => exact idle empty
  | spawn some => exact absurd empty some
  | stop | goOn | claim | runOut | call | answer | write =>
      rw [idle empty]
      rfl

/-- A worker that has been joined has finished. -/
theorem Step.joinedFinished (taken : Step paths workers checker before event after)
    (joinedFinished : ∀ worker < before.joined, before.threads[worker]? = some .finished) :
    ∀ worker < after.joined, after.threads[worker]? = some .finished := by
  intro worker joined
  cases taken with
  | interrupt | sort | nothing => exact joinedFinished worker joined
  | spawn =>
      have there := joinedFinished worker joined
      obtain ⟨inside, _⟩ := List.getElem?_eq_some_iff.mp there
      rw [List.getElem?_append_left inside]
      exact there
  | join _ last =>
      rcases Nat.lt_succ_iff_lt_or_eq.mp joined with earlier | rfl
      · exact joinedFinished worker earlier
      · exact last
  | stop found | goOn found | claim found | runOut found | call found | answer found
  | write found =>
      exact getElem?_set_of_ne_old found (joinedFinished worker joined) Worker.noConfusion

/-- Joining starts after all workers have been spawned. -/
theorem Step.joinedAll (taken : Step paths workers checker before event after)
    (joinedAll : 0 < before.joined → before.threads.length = workerCount paths workers) :
    0 < after.joined → after.threads.length = workerCount paths workers := by
  intro some
  cases taken with
  | interrupt | sort | nothing => exact joinedAll some
  | join all => exact all
  | spawn _ room =>
      have all := joinedAll some
      omega
  | stop | goOn | claim | runOut | call | answer | write =>
      rw [List.length_set]
      exact joinedAll some

/-- After the joins every worker has finished. -/
theorem Invariant.finished {state : State} (invariant : Invariant paths workers checker state)
    (joined : state.joined = workerCount paths workers) :
    ∀ worker ∈ state.threads, worker = .finished := by
  intro worker inside
  obtain ⟨index, below, rfl⟩ := List.mem_iff_getElem.mp inside
  have all := invariant.joinedAll (joined ▸ workerCount_pos paths workers)
  have there := invariant.joinedFinished index (by omega)
  rw [List.getElem?_eq_getElem below] at there
  exact Option.some.inj there

/-- Nothing changes the slots once they have been sorted. -/
theorem Step.returned (taken : Step paths workers checker before event after)
    (invariant : Invariant paths workers checker before) :
    ∀ result, after.result = some result →
      paths = [] ∧ result = [] ∨ paths ≠ [] ∧ after.joined = workerCount paths workers ∧
        IsSortOf (fun status => pathText status.path) after.statuses result := by
  intro result done
  cases taken with
  | interrupt | spawn | stop | goOn | claim | runOut | call | answer =>
      exact invariant.returned result done
  | @write worker index status found =>
      rcases invariant.returned result done with empty | ⟨_, joined, _⟩
      · exact .inl empty
      · have finished := invariant.finished joined _ (List.mem_of_getElem? found)
        cases finished
  | join all last =>
      rcases invariant.returned result done with empty | ⟨_, joined, _⟩
      · exact .inl empty
      · obtain ⟨below, _⟩ := List.getElem?_eq_some_iff.mp last
        omega
  | sort some joined _ sorted =>
      cases done
      exact .inr ⟨some, joined, sorted⟩
  | nothing empty =>
      cases done
      exact .inl ⟨empty, rfl⟩

theorem Initial.invariant {state : State} (initial : Initial paths state) :
    Invariant paths workers checker state := by
  obtain ⟨cancelled, rfl⟩ := initial
  refine ⟨List.length_replicate, fun _ => rfl, Nat.zero_le _, ?_, ?_, ?_, ?_, ?_, ?_, ?_, ?_⟩
  · exact fun worker joined => absurd joined (Nat.not_lt_zero worker)
  · exact fun joined => absurd joined (Nat.lt_irrefl 0)
  · rw [Nat.zero_min]
    exact .refl _
  · exact .refl _
  · exact fun _ _ inside => absurd inside List.not_mem_nil
  · exact fun _ inside => absurd inside List.not_mem_nil
  · exact fun _ inside => absurd inside List.not_mem_nil
  · intro result done
    cases done

theorem Step.invariant (taken : Step paths workers checker before event after)
    (invariant : Invariant paths workers checker before) :
    Invariant paths workers checker after where
  slots := taken.slots invariant.slots
  idle := taken.idle invariant.idle
  started := taken.started invariant.started
  joinedFinished := taken.joinedFinished invariant.joinedFinished
  joinedAll := taken.joinedAll invariant.joinedAll
  claims := taken.claims invariant.claims
  calls := taken.calls invariant.calls
  answers := taken.answers invariant.answers
  filled := taken.filled invariant.slots invariant.answers invariant.filled
  ranOut := taken.ranOut invariant.ranOut
  returned := taken.returned invariant

theorem reachable_invariant {state : State}
    (reachable : (pool paths workers checker).Reachable state) :
    Invariant paths workers checker state :=
  reachable.invariant Initial.invariant fun invariant taken => Step.invariant taken invariant

/-! ## What the invariant says about a run -/

/-- A called index is a held one. -/
theorem called_sublist_held (threads : List Worker) :
    (threads.filterMap Worker.called).Sublist (threads.filterMap Worker.held) := by
  induction threads with
  | nil => exact .slnil
  | cons worker rest ih =>
      cases worker with
      | loading | claiming | finished => exact ih
      | claimed index => exact ih.cons index
      | checking index | writing index => exact ih.cons_cons index

namespace Invariant

variable {state : State}

/-- No index is held or written twice. -/
theorem nodup (invariant : Invariant paths workers checker state) :
    (state.threads.filterMap Worker.held ++ state.slotsWritten).Nodup :=
  invariant.claims.nodup_iff.mpr List.nodup_range

/-- A held index is in range. -/
theorem held_lt (invariant : Invariant paths workers checker state) {worker : Worker}
    (inside : worker ∈ state.threads) {index : Nat} (held : worker.held = some index) :
    index < paths.length := by
  have listed : index ∈ state.threads.filterMap Worker.held ++ state.slotsWritten :=
    List.mem_append_left _ (List.mem_filterMap.mpr ⟨worker, inside, held⟩)
  have below := List.mem_range.mp (invariant.claims.mem_iff.mp listed)
  omega

theorem handed_nodup (invariant : Invariant paths workers checker state)
    (distinct : paths.Nodup) : state.handed.Nodup := by
  rw [invariant.calls.nodup_iff]
  apply List.Nodup.filterMap
  · intro left right path leftPath rightPath
    obtain ⟨below, _⟩ := List.getElem?_eq_some_iff.mp leftPath
    apply (List.getElem?_inj below distinct).mp
    exact Eq.trans leftPath rightPath.symm
  · exact invariant.nodup.sublist ((called_sublist_held state.threads).append_right _)

/-- No more checks are in flight than there are workers. -/
theorem checksInFlight_le (invariant : Invariant paths workers checker state) :
    state.checksInFlight ≤ max 1 (min workers.toNat paths.length) :=
  calc state.checksInFlight
      ≤ state.threads.length := List.countP_le_length
    _ ≤ workerCount paths workers := invariant.started
    _ ≤ max 1 (min workers.toNat paths.length) := workerCount_le paths workers

/-- With the flag unset, nothing is held any more and the counter has run out when the
result is there. -/
theorem exhausted (invariant : Invariant paths workers checker state)
    (calm : state.cancelled = false) {result : List RepositoryStatus}
    (done : state.result = some result) :
    state.threads.filterMap Worker.held = [] ∧ paths.length ≤ state.nextIndex := by
  rcases invariant.returned result done with ⟨empty, _⟩ | ⟨_, joined, _⟩
  · have none := invariant.claims
    rw [empty, List.length_nil, Nat.min_zero, List.range_zero, List.perm_nil] at none
    rw [empty]
    exact ⟨(List.append_eq_nil_iff.mp none).1, Nat.zero_le _⟩
  · have finished := invariant.finished joined
    have some := workerCount_pos paths workers
    refine ⟨?_, ?_⟩
    · rw [List.filterMap_eq_nil_iff]
      intro worker inside
      rw [finished worker inside]
      rfl
    · have first := invariant.joinedFinished 0 (by omega)
      exact invariant.ranOut calm (List.mem_of_getElem? first)

/-- Every index is written when the result is there and the flag is unset. -/
theorem slotsWritten_perm (invariant : Invariant paths workers checker state)
    (calm : state.cancelled = false) {result : List RepositoryStatus}
    (done : state.result = some result) :
    state.slotsWritten.Perm (List.range paths.length) := by
  obtain ⟨released, out⟩ := invariant.exhausted calm done
  have all := invariant.claims
  rw [released, List.nil_append, min_eq_right out] at all
  exact all

/-- Without an interrupt every path has been handed out. -/
theorem handed_perm (invariant : Invariant paths workers checker state)
    (calm : state.cancelled = false) {result : List RepositoryStatus}
    (done : state.result = some result) : state.handed.Perm paths := by
  obtain ⟨released, _⟩ := invariant.exhausted calm done
  have none := called_sublist_held state.threads
  rw [released, List.sublist_nil] at none
  have calls := invariant.calls
  rw [none, List.nil_append] at calls
  have every := (invariant.slotsWritten_perm calm done).filterMap (paths[·]?)
  rw [filterMap_range_getElem?] at every
  exact calls.trans every

/-- Without an interrupt every slot has the status of its path. -/
theorem statuses_eq (invariant : Invariant paths workers checker state)
    (calm : state.cancelled = false) {result : List RepositoryStatus}
    (done : state.result = some result) : state.statuses = paths.map checker := by
  apply List.ext_getElem?
  intro index
  rw [List.getElem?_map]
  by_cases below : index < paths.length
  · apply invariant.filled
    exact (invariant.slotsWritten_perm calm done).mem_iff.mpr (List.mem_range.mpr below)
  · have slots := invariant.slots
    rw [List.getElem?_eq_none (by omega), List.getElem?_eq_none (by omega), Option.map_none]

/-- Without an interrupt what is returned is the sorted list of the statuses of all paths. -/
theorem result_eq (invariant : Invariant paths workers checker state)
    (distinct : (paths.map pathText).Nodup)
    (own : ∀ path ∈ paths, (checker path).path = path)
    (calm : state.cancelled = false) {result : List RepositoryStatus}
    (done : state.result = some result) :
    result = sortByKey (fun status => pathText status.path) (paths.map checker) := by
  have keys : (paths.map checker).map (fun status => pathText status.path) =
      paths.map pathText := by
    rw [List.map_map]
    apply List.map_congr_left
    intro path inside
    exact congrArg pathText (own path inside)
  rcases invariant.returned result done with ⟨empty, none⟩ | ⟨_, _, sorted⟩
  · rw [empty, none]
    rfl
  · rw [invariant.statuses_eq calm done] at sorted
    exact sorted.eq_sortByKey (keys ▸ distinct)

end Invariant

/-! ## The pool completes -/

/-- An upper bound on the steps that are left. -/
def State.measure (paths : List Path) (workers : UInt32) (state : State) : Nat :=
  (if state.cancelled then 0 else 1) + 3 * (workerCount paths workers - state.threads.length) +
    5 * (paths.length - state.nextIndex) + (state.threads.map Worker.weight).sum +
    (workerCount paths workers - state.joined) + (if state.result.isNone then 1 else 0)

/-- Every move leaves less to do. -/
theorem Step.measure_lt (taken : Step paths workers checker before event after) :
    after.measure paths workers < before.measure paths workers := by
  unfold State.measure
  cases taken with
  | interrupt calm =>
      simp only [calm, Bool.false_eq_true, ↓reduceIte]
      omega
  | spawn _ room =>
      simp only [List.length_append, List.length_singleton, List.map_append, List.map_cons,
        List.map_nil, List.sum_append, List.sum_cons, List.sum_nil, Worker.weight]
      omega
  | @stop worker found | @runOut worker found =>
      have exchanged := sum_map_set Worker.weight found .finished
      simp only [Worker.weight, List.length_set] at exchanged ⊢
      omega
  | @goOn worker found =>
      have exchanged := sum_map_set Worker.weight found .claiming
      simp only [Worker.weight, List.length_set] at exchanged ⊢
      omega
  | claim found below =>
      -- the claimed index leaves the first sum and pays for the check and the write
      have exchanged := sum_map_set Worker.weight found (.claimed before.nextIndex)
      simp only [Worker.weight, List.length_set] at exchanged ⊢
      omega
  | @call worker index path found =>
      have exchanged := sum_map_set Worker.weight found (.checking index)
      simp only [Worker.weight, List.length_set] at exchanged ⊢
      omega
  | @answer worker index path found =>
      have exchanged := sum_map_set Worker.weight found (.writing index (checker path))
      simp only [Worker.weight, List.length_set] at exchanged ⊢
      omega
  | write found =>
      have exchanged := sum_map_set Worker.weight found .loading
      simp only [Worker.weight, List.length_set] at exchanged ⊢
      omega
  | join all last =>
      obtain ⟨below, _⟩ := List.getElem?_eq_some_iff.mp last
      dsimp only
      omega
  | sort _ _ none | nothing _ none =>
      simp only [none, Option.isNone_none, Option.isNone_some, Bool.false_eq_true, ↓reduceIte]
      omega

/-- A worker that has not finished can take a step. -/
theorem worker_progress {state : State} (invariant : Invariant paths workers checker state)
    {worker : Worker} (inside : worker ∈ state.threads) (busy : worker ≠ .finished) :
    ∃ event after, event.Own ∧ Step paths workers checker state event after := by
  obtain ⟨index, found⟩ := List.mem_iff_getElem?.mp inside
  cases worker with
  | loading =>
      cases flag : state.cancelled with
      | true => exact ⟨_, _, Event.noConfusion, .stop found flag⟩
      | false => exact ⟨_, _, Event.noConfusion, .goOn found flag⟩
  | claiming =>
      rcases Nat.lt_or_ge state.nextIndex paths.length with below | out
      · exact ⟨_, _, Event.noConfusion, .claim found below⟩
      · exact ⟨_, _, Event.noConfusion, .runOut found out⟩
  | claimed slot =>
      have below := invariant.held_lt inside rfl
      exact ⟨_, _, Event.noConfusion, .call found (List.getElem?_eq_getElem below)⟩
  | checking slot =>
      have below := invariant.held_lt inside rfl
      exact ⟨_, _, Event.noConfusion, .answer found (List.getElem?_eq_getElem below)⟩
  | writing slot status => exact ⟨_, _, Event.noConfusion, .write found⟩
  | finished => exact absurd rfl busy

/-- Until the result is there some thread can take a step. -/
theorem progress {state : State} (invariant : Invariant paths workers checker state)
    (pending : ¬ Returned state) :
    ∃ event after, event.Own ∧ Step paths workers checker state event after := by
  have none : state.result = none := not_not.mp pending
  by_cases empty : paths = []
  · exact ⟨_, _, Event.noConfusion, .nothing empty none⟩
  by_cases room : state.threads.length < workerCount paths workers
  · exact ⟨_, _, Event.noConfusion, .spawn empty room⟩
  by_cases finished : ∀ worker ∈ state.threads, worker = .finished
  · have all : state.threads.length = workerCount paths workers := by
      have started := invariant.started
      omega
    by_cases joined : state.joined < state.threads.length
    · have last := finished _ (List.getElem_mem joined)
      have there : state.threads[state.joined]? = some .finished := by
        rw [List.getElem?_eq_getElem joined, last]
      exact ⟨_, _, Event.noConfusion, .join all there⟩
    · have joinedAll : state.joined = workerCount paths workers := by
        rcases Nat.eq_zero_or_pos state.joined with zero | some
        · have pos := workerCount_pos paths workers
          omega
        · by_contra more
          have there := invariant.joinedFinished state.threads.length (by omega)
          rw [List.getElem?_eq_none (Nat.le_refl _)] at there
          cases there
      have sorted := sortByKey_isSortOf
        (fun status : RepositoryStatus => pathText status.path) state.statuses
      exact ⟨_, _, Event.noConfusion, .sort empty joinedAll none sorted⟩
  · push Not at finished
    obtain ⟨worker, inside, busy⟩ := finished
    exact worker_progress invariant inside busy

/-- The pool comes to its end under every schedule. -/
theorem completes (paths : List Path) (workers : UInt32) (checker : Path → RepositoryStatus) :
    (pool paths workers checker).Completes Event.Own Returned where
  terminates reachable := by
    apply TransitionSystem.terminates_of_measure (State.measure paths workers) _ reachable
    intro before event after _ taken
    exact Step.measure_lt taken
  progress reachable pending := progress (reachable_invariant reachable) pending

/-- The program's own steps leave the flag alone. -/
theorem Step.cancelled_eq (taken : Step paths workers checker before event after)
    (own : event.Own) : after.cancelled = before.cancelled := by
  cases taken with
  | interrupt => exact absurd rfl own
  | _ => rfl

/-- Some run that is not interrupted ends with a result. -/
theorem exists_returned (paths : List Path) (workers : UInt32)
    (checker : Path → RepositoryStatus) :
    ∃ state result, (pool paths workers checker).Reachable state ∧
      state.result = some result ∧ state.cancelled = false := by
  have initial : (pool paths workers checker).Reachable
      { cancelled := false, statuses := emptySlots paths.length } := .initial ⟨false, rfl⟩
  obtain ⟨last, leads, returned⟩ := (completes paths workers checker).exists_leads initial
  obtain ⟨result, done⟩ := Option.ne_none_iff_exists'.mp returned
  refine ⟨last, result, leads.of_restrict.reachable initial, done, ?_⟩
  exact @TransitionSystem.Leads.invariant _ _ _ (fun state => state.cancelled = false) _ _ leads
    rfl fun calm taken => (Step.cancelled_eq taken.2 taken.1).trans calm

/-! ## The contract -/

/-- What is promised of a state of a run: no path is handed out twice, no slot is
written twice, the checks in flight are bounded, and when the result is there all
workers have finished and, unless the flag is set, the result is the sorted list of the
answers for all paths. -/
structure Promised (paths : List Path) (workers : UInt32) (checker : Path → RepositoryStatus)
    (state : State) : Prop where
  handedOnce : state.handed.Nodup
  writtenOnce : state.slotsWritten.Nodup
  bounded : state.checksInFlight ≤ max 1 (min workers.toNat paths.length)
  finished : Returned state → ∀ worker ∈ state.threads, worker = .finished
  complete : ∀ result, state.result = some result → state.cancelled = false →
    state.handed.Perm paths ∧
      result = sortByKey (fun status => pathText status.path) (paths.map checker)

/-- **The worker pool.** For paths with distinct texts and a checker whose statuses
carry their paths, every run ends with a result, and every state of every run keeps what
is promised, whenever the flag is set and in whatever order the workers move. -/
theorem contract {paths : List Path} {workers : UInt32} {checker : Path → RepositoryStatus}
    (distinct : (paths.map pathText).Nodup)
    (own : ∀ path ∈ paths, (checker path).path = path) :
    (pool paths workers checker).Completes Event.Own Returned ∧
      ∀ {state}, (pool paths workers checker).Reachable state →
        Promised paths workers checker state := by
  refine ⟨completes paths workers checker, ?_⟩
  intro state reachable
  have invariant := reachable_invariant reachable
  refine ⟨invariant.handed_nodup (List.Nodup.of_map pathText distinct), ?_,
    invariant.checksInFlight_le, ?_, ?_⟩
  · exact (List.nodup_append.mp invariant.nodup).2.1
  · intro done
    obtain ⟨result, there⟩ := Option.ne_none_iff_exists'.mp done
    rcases invariant.returned result there with ⟨empty, _⟩ | ⟨_, joined, _⟩
    · rw [invariant.idle empty]
      exact fun worker inside => absurd inside List.not_mem_nil
    · exact invariant.finished joined
  · intro result done calm
    exact ⟨invariant.handed_perm calm done, invariant.result_eq distinct own calm done⟩

/-- Two repositories and one worker more than there are. -/
theorem contract_two_repositories :
    (pool [ascii "b", ascii "a"] 3 fun path => { path }).Completes Event.Own Returned ∧
      ∀ {state}, (pool [ascii "b", ascii "a"] 3 fun path => { path }).Reachable state →
        Promised [ascii "b", ascii "a"] 3 (fun path => { path }) state :=
  contract (by decide) fun _ _ => rfl

end CheckGitStatus.Cpp.WorkerPool
