import CheckGitStatus.Cpp.WorkerPool

/-! # What an interrupt leaves of the worker pool

A worker that is past its look at the flag still checks one path, and then no more
(`CheckGitStatus.Cpp.WorkerPool.count_call_le_one`). The indices are claimed in order, so
that an interrupted run has checked the first paths of the list, however the workers
moved, and the other slots keep their first value
(`CheckGitStatus.Cpp.WorkerPool.interrupt_stops`).
-/

namespace CheckGitStatus.Cpp.WorkerPool

open Library

variable {paths : List Path} {workers : UInt32} {checker : Path → RepositoryStatus}
  {before after : State} {event : Event}

/-! ## How many checks follow -/

/-- The worker has loaded the flag and not yet called the checker. -/
def Worker.committed : Worker → Bool
  | .claiming | .claimed _ => true
  | _ => false

/-- The calls of the checker, those that a set flag does not prevent included. -/
def State.callsToCome (state : State) : Nat :=
  state.handed.length + state.threads.countP Worker.committed

/-- Once the flag is set no worker commits itself any more. -/
theorem Step.callsToCome_le (taken : Step paths workers checker before event after)
    (set : before.cancelled = true) :
    after.cancelled = true ∧ after.callsToCome ≤ before.callsToCome := by
  unfold State.callsToCome
  cases taken with
  | interrupt calm =>
      rw [set] at calm
      cases calm
  | spawn =>
      refine ⟨set, ?_⟩
      rw [List.countP_append]
      exact Nat.le_refl _
  | goOn found calm =>
      rw [set] at calm
      cases calm
  | stop found =>
      have exchanged := countP_set Worker.committed found .finished
      simp only [Worker.committed, Bool.toNat_false] at exchanged
      exact ⟨set, by dsimp only; omega⟩
  | runOut found =>
      have exchanged := countP_set Worker.committed found .finished
      simp only [Worker.committed, Bool.toNat_true, Bool.toNat_false] at exchanged
      exact ⟨set, by dsimp only; omega⟩
  | claim found =>
      have exchanged := countP_set Worker.committed found (.claimed before.nextIndex)
      simp only [Worker.committed, Bool.toNat_true] at exchanged
      exact ⟨set, by dsimp only; omega⟩
  | @call worker index path found =>
      -- the call that the worker was committed to
      have exchanged := countP_set Worker.committed found (.checking index)
      simp only [Worker.committed, Bool.toNat_true, Bool.toNat_false] at exchanged
      refine ⟨set, ?_⟩
      rw [List.length_append, List.length_singleton]
      dsimp only
      omega
  | @answer worker index path found =>
      have exchanged := countP_set Worker.committed found (.writing index (checker path))
      simp only [Worker.committed, Bool.toNat_false] at exchanged
      exact ⟨set, by dsimp only; omega⟩
  | write found =>
      have exchanged := countP_set Worker.committed found .loading
      simp only [Worker.committed, Bool.toNat_false] at exchanged
      exact ⟨set, by dsimp only; omega⟩
  | join | sort | nothing => exact ⟨set, Nat.le_refl _⟩

/-- Every worker hands out one path at most once the flag is set. -/
theorem handed_le_of_leads {state : State}
    (reachable : (pool paths workers checker).Reachable state)
    (set : state.cancelled = true) (leads : (pool paths workers checker).Leads state after) :
    after.handed.length ≤ state.handed.length + max 1 (min workers.toNat paths.length) := by
  have bound : after.cancelled = true ∧ after.callsToCome ≤ state.callsToCome := by
    induction leads with
    | refl => exact ⟨set, Nat.le_refl _⟩
    | step _ taken ih =>
        obtain ⟨kept, fewer⟩ := Step.callsToCome_le taken ih.1
        exact ⟨kept, Nat.le_trans fewer ih.2⟩
  have committed : state.threads.countP Worker.committed ≤ max 1 (min workers.toNat paths.length) :=
    calc state.threads.countP Worker.committed
        ≤ state.threads.length := List.countP_le_length
      _ ≤ workerCount paths workers := (reachable_invariant reachable).started
      _ ≤ max 1 (min workers.toNat paths.length) := workerCount_le paths workers
  have all := bound.2
  unfold State.callsToCome at all
  omega

/-- The worker with this number is committed to a call. -/
def committedAt (threads : List Worker) (worker : Nat) : Bool :=
  threads[worker]?.any Worker.committed

theorem committedAt_set {threads : List Worker} {worker : Nat} {old : Worker}
    (found : threads[worker]? = some old) (next : Worker) (other : Nat) :
    committedAt (threads.set worker next) other =
      if worker = other then next.committed else committedAt threads other := by
  obtain ⟨below, _⟩ := List.getElem?_eq_some_iff.mp found
  unfold committedAt
  rw [List.getElem?_set]
  by_cases same : worker = other
  · rw [if_pos same, if_pos same, if_pos below, Option.any_some]
  · rw [if_neg same, if_neg same]

theorem committedAt_append_loading (threads : List Worker) (worker : Nat) :
    committedAt (threads ++ [.loading]) worker = committedAt threads worker := by
  unfold committedAt
  rcases Nat.lt_trichotomy worker threads.length with below | rfl | above
  · rw [List.getElem?_append_left below]
  · rw [List.getElem?_concat_length, List.getElem?_eq_none (Nat.le_refl _)]
    rfl
  · rw [List.getElem?_append_right (Nat.le_of_lt above), List.getElem?_eq_none (by simp; omega),
      List.getElem?_eq_none (Nat.le_of_lt above)]

/-- With the flag set a worker calls the checker only if it was committed to that. -/
theorem Step.count_call_le (taken : Step paths workers checker before event after)
    (set : before.cancelled = true) (worker : Nat) :
    [event].count (.call worker) + (committedAt after.threads worker).toNat ≤
      (committedAt before.threads worker).toNat := by
  have alone : ∀ {other : Event}, other ≠ .call worker → [other].count (.call worker) = 0 :=
    fun different => List.count_eq_zero_of_not_mem fun inside =>
      different (List.mem_singleton.mp inside).symm
  -- what a step of one worker changes
  have moves : ∀ {moved : Nat} {old : Worker}, before.threads[moved]? = some old →
      ∀ next : Worker, next.committed.toNat ≤ old.committed.toNat →
        (committedAt (before.threads.set moved next) worker).toNat ≤
          (committedAt before.threads worker).toNat := by
    intro moved old found next fewer
    rw [committedAt_set found]
    split
    · rename_i same
      rwa [committedAt, ← same, found, Option.any_some]
    · exact Nat.le_refl _
  cases taken with
  | interrupt calm =>
      rw [set] at calm
      cases calm
  | goOn found calm =>
      rw [set] at calm
      cases calm
  | spawn =>
      rw [alone Event.noConfusion, committedAt_append_loading, Nat.zero_add]
  | stop found | write found | answer found | claim found =>
      rw [alone Event.noConfusion, Nat.zero_add]
      exact moves found _ (Nat.le_refl _)
  | runOut found =>
      rw [alone Event.noConfusion, Nat.zero_add]
      exact moves found _ (Nat.zero_le _)
  | @call moved index path found =>
      rw [committedAt_set found]
      split
      · rename_i same
        subst same
        rw [List.count_singleton_self, committedAt, found]
        exact Nat.le_refl 1
      · rename_i other
        rw [alone fun same => other (Event.call.inj same), Nat.zero_add]
  | join | sort | nothing =>
      rw [alone Event.noConfusion, Nat.zero_add]

/-- Once the flag is set every worker calls the checker at most once. -/
theorem count_call_le_one {state : State} {events : List Event}
    (set : state.cancelled = true)
    (trace : (pool paths workers checker).Trace state events after) (worker : Nat) :
    events.count (.call worker) ≤ 1 := by
  have bound : after.cancelled = true ∧
      events.count (.call worker) + (committedAt after.threads worker).toNat ≤
        (committedAt state.threads worker).toNat := by
    induction trace with
    | refl => exact ⟨set, by rw [List.count_nil, Nat.zero_add]⟩
    | step _ taken ih =>
        refine ⟨(Step.callsToCome_le taken ih.1).1, ?_⟩
        have next := Step.count_call_le taken ih.1 worker
        rw [List.count_append]
        omega
  have one := Bool.toNat_le (committedAt state.threads worker)
  omega

/-! ## What has been checked -/

/-- The slots that have not been written keep their first value. -/
theorem Step.untouched (taken : Step paths workers checker before event after)
    (untouched : ∀ index < paths.length, index ∉ before.slotsWritten →
      before.statuses[index]? = some { path := [] }) :
    ∀ index < paths.length, index ∉ after.slotsWritten →
      after.statuses[index]? = some { path := [] } := by
  cases taken
  case write worker index status found =>
    intro slot below unwritten
    simp only [State.slotsWritten, List.map_append, List.map_cons, List.map_nil, List.mem_append,
      List.mem_singleton, not_or] at unwritten
    obtain ⟨before, other⟩ := unwritten
    rw [List.getElem?_set_ne (Ne.symm other)]
    exact untouched slot below before
  all_goals exact untouched

/-- A slot that has not been written holds an empty status. -/
theorem reachable_untouched {state : State}
    (reachable : (pool paths workers checker).Reachable state) :
    ∀ index < paths.length, index ∉ state.slotsWritten →
      state.statuses[index]? = some { path := [] } := by
  refine reachable.invariant ?_ fun untouched taken => Step.untouched taken untouched
  rintro _ ⟨cancelled, rfl⟩ index below _
  exact List.getElem?_replicate_of_lt below

/-- When the result is there no worker holds an index. -/
theorem Invariant.released {state : State} (invariant : Invariant paths workers checker state)
    {result : List RepositoryStatus} (done : state.result = some result) :
    state.threads.filterMap Worker.held = [] := by
  rw [List.filterMap_eq_nil_iff]
  intro worker inside
  rcases invariant.returned result done with ⟨empty, _⟩ | ⟨_, joined, _⟩
  · rw [invariant.idle empty] at inside
    cases inside
  · rw [invariant.finished joined worker inside]
    rfl

/-- Looking up the first positions of a list gives its beginning. -/
theorem filterMap_range_take (paths : List Path) {count : Nat} (enough : count ≤ paths.length) :
    (List.range count).filterMap (paths[·]?) = paths.take count := by
  have length : (paths.take count).length = count := List.length_take_of_le enough
  rw [← filterMap_range_getElem? (paths.take count), length]
  refine List.filterMap_congr fun index inside => ?_
  rw [List.getElem?_take_of_lt (List.mem_range.mp inside)]

/-- The slots hold the answers for the first paths and their first value otherwise. -/
theorem statuses_eq_of_slotsWritten {state : State}
    (reachable : (pool paths workers checker).Reachable state) {count : Nat}
    (enough : count ≤ paths.length) (written : state.slotsWritten.Perm (List.range count)) :
    state.statuses =
      (paths.take count).map checker ++
        List.replicate (paths.length - count) { path := [] } := by
  have invariant := reachable_invariant reachable
  apply List.ext_getElem?
  intro index
  have length : ((paths.take count).map checker).length = count := by
    rw [List.length_map, List.length_take_of_le enough]
  have isWritten : index ∈ state.slotsWritten ↔ index < count := by
    rw [written.mem_iff, List.mem_range]
  by_cases early : index < count
  · rw [invariant.filled index (isWritten.mpr early), List.getElem?_append_left (by omega),
      List.getElem?_map, List.getElem?_take_of_lt early]
  · rw [List.getElem?_append_right (by omega), length]
    by_cases below : index < paths.length
    · rw [List.getElem?_replicate_of_lt (by omega)]
      exact reachable_untouched reachable index below fun inside => early (isWritten.mp inside)
    · have slots := invariant.slots
      rw [List.getElem?_eq_none (by omega), List.getElem?_eq_none]
      rw [List.length_replicate]
      omega

/-- What a run has done whose result is there: the first paths are checked. -/
structure ChecksFirst (paths : List Path) (checker : Path → RepositoryStatus) (count : Nat)
    (state : State) (result : List RepositoryStatus) : Prop where
  enough : count ≤ paths.length
  handed : state.handed.Perm (paths.take count)
  sorted : IsSortOf (fun status => pathText status.path)
    ((paths.take count).map checker ++ List.replicate (paths.length - count) { path := [] }) result

/-- The result has the answers for a beginning of the list. -/
theorem exists_checksFirst {state : State}
    (reachable : (pool paths workers checker).Reachable state)
    {result : List RepositoryStatus} (done : state.result = some result) :
    ∃ count, ChecksFirst paths checker count state result := by
  have invariant := reachable_invariant reachable
  have enough : min state.nextIndex paths.length ≤ paths.length := Nat.min_le_right _ _
  have released := invariant.released done
  have called := called_sublist_held state.threads
  have written := invariant.claims
  have handed := invariant.calls
  rw [released, List.sublist_nil] at called
  rw [released, List.nil_append] at written
  rw [called, List.nil_append] at handed
  have statuses := statuses_eq_of_slotsWritten reachable enough written
  refine ⟨_, enough, ?_, ?_⟩
  · rw [← filterMap_range_take paths enough]
    exact handed.trans (written.filterMap _)
  · rcases invariant.returned result done with ⟨empty, none⟩ | ⟨_, _, sorted⟩
    · subst empty none
      rw [List.take_nil, List.length_nil, Nat.zero_sub]
      exact ⟨.refl _, .nil⟩
    · rw [← statuses]
      exact sorted

/-- **What an interrupt stops.** In whatever order the workers move, each of them hands out
at most one path after the flag is set, and the run ends, with the answers for the first
paths of the list and empty statuses for the others. -/
theorem interrupt_stops {state : State} {events : List Event}
    (reachable : (pool paths workers checker).Reachable state) (set : state.cancelled = true)
    (trace : (pool paths workers checker).Trace state events after) :
    (∀ worker, events.count (.call worker) ≤ 1) ∧
      after.handed.length ≤ state.handed.length + max 1 (min workers.toNat paths.length) ∧
      (pool paths workers checker).Completes Event.Own Returned ∧
      ∀ result, after.result = some result →
        ∃ count, ChecksFirst paths checker count after result :=
  ⟨count_call_le_one set trace, handed_le_of_leads reachable set trace.leads,
    completes paths workers checker,
    fun _ done => exists_checksFirst (trace.leads.reachable reachable) done⟩

/-- A worker that has looked at the flag before it is set checks one of two paths. -/
theorem interrupt_stops_committed :
    ∃ (state after : State) (events : List Event), state.cancelled = true ∧ state.handed = [] ∧
      after.handed = [ascii "a"] ∧ (∀ worker, events.count (.call worker) ≤ 1) ∧
      after.handed.length ≤ state.handed.length + max 1 (min (1 : UInt32).toNat 2) ∧
      (pool [ascii "a", ascii "b"] 1 fun path => { path }).Completes Event.Own Returned ∧
      ∀ result, after.result = some result → ∃ count,
        ChecksFirst [ascii "a", ascii "b"] (fun path => { path }) count after result := by
  have initial : (pool [ascii "a", ascii "b"] 1 fun path => { path }).Reachable
      { cancelled := false, statuses := emptySlots 2 } := .initial ⟨false, rfl⟩
  have spawned := initial.step (.spawn (List.cons_ne_nil _ _) Nat.one_pos)
  have loaded := spawned.step (@Step.goOn _ _ _ _ 0 rfl rfl)
  have interrupted := loaded.step (.interrupt rfl)
  have here : (pool [ascii "a", ascii "b"] 1 fun path => { path }).Trace
      { cancelled := true, statuses := emptySlots 2, threads := [.claiming] } [] _ := .refl
  have claimed := here.step (@Step.claim _ _ _ _ 0 rfl Nat.two_pos)
  have called := claimed.step (@Step.call _ _ _ _ 0 0 (ascii "a") rfl rfl)
  exact ⟨_, _, _, rfl, rfl, rfl, interrupt_stops interrupted rfl called⟩

end CheckGitStatus.Cpp.WorkerPool
