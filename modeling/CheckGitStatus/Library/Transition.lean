import Mathlib.Order.WellFounded

/-! # Labelled transition systems and what holds along their runs

A system is a set of initial states and a labelled step relation. Properties of
whole runs are derived from properties of single steps: an invariant holds in
every reachable state (`Library.TransitionSystem.Reachable.invariant`), and a
decreasing measure makes every run finite
(`Library.TransitionSystem.terminates_of_measure`). A system completes when its runs
are finite and it can always move until it is done, and then some run leads to its end
(`Library.TransitionSystem.Completes.exists_leads`).
-/

namespace Library

/-- Initial states and labelled steps. -/
structure TransitionSystem (State Label : Type*) where
  Initial : State → Prop
  Step : State → Label → State → Prop

namespace TransitionSystem

variable {State Label : Type*} (system : TransitionSystem State Label)

/-- The states that some finite run reaches. -/
inductive Reachable : State → Prop where
  | initial {state : State} : system.Initial state → Reachable state
  | step {before after : State} {label : Label} :
      Reachable before → system.Step before label after → Reachable after

/-- Some finite run reaches the state, and `good` holds of every state on the way. -/
inductive ReachableThrough (good : State → Prop) : State → Prop where
  | initial {state : State} : system.Initial state → good state → ReachableThrough good state
  | step {before after : State} {label : Label} : ReachableThrough good before →
      system.Step before label after → good after → ReachableThrough good after

/-- Some finite run leads from the one state to the other. -/
inductive Leads (start : State) : State → Prop where
  | refl : Leads start start
  | step {before after : State} {label : Label} :
      Leads start before → system.Step before label after → Leads start after

/-- A run from the one state to the other, with the labels of its steps in order. -/
inductive Trace (start : State) : List Label → State → Prop where
  | refl : Trace start [] start
  | step {labels : List Label} {before after : State} {label : Label} :
      Trace start labels before → system.Step before label after →
      Trace start (labels ++ [label]) after

/-- The system whose steps are those that meet a condition on the state they start from. -/
def restrict (allowed : State → Label → Prop) : TransitionSystem State Label where
  Initial := system.Initial
  Step before label after := allowed before label ∧ system.Step before label after

/-- A state from which no infinite run starts. -/
def Terminates (state : State) : Prop :=
  Acc (fun after before => ∃ label, system.Step before label after) state

/-- Every run is finite, and until a final state is reached one of the system's
own moves is possible. -/
structure Completes (own : Label → Prop) (final : State → Prop) : Prop where
  terminates : ∀ {state}, system.Reachable state → system.Terminates state
  progress : ∀ {state}, system.Reachable state → ¬ final state →
    ∃ label after, own label ∧ system.Step state label after

variable {system}

/-- What holds initially and is preserved by every step of a reachable state
holds in every reachable state. -/
theorem Reachable.invariant {Invariant : State → Prop} {state : State}
    (reachable : system.Reachable state)
    (start : ∀ {state}, system.Initial state → Invariant state)
    (preserved : ∀ {before label after}, Invariant before →
      system.Step before label after → Invariant after) : Invariant state := by
  induction reachable with
  | initial first => exact start first
  | step _ taken ih => exact preserved ih taken

/-- What holds of a state and is preserved by every step holds wherever a run leads. -/
theorem Leads.invariant {Invariant : State → Prop} {start state : State}
    (leads : system.Leads start state) (first : Invariant start)
    (preserved : ∀ {before label after}, Invariant before →
      system.Step before label after → Invariant after) : Invariant state := by
  induction leads with
  | refl => exact first
  | step _ taken ih => exact preserved ih taken

/-- What a reachable state leads to is reachable. -/
theorem Leads.reachable {start state : State} (leads : system.Leads start state)
    (reachable : system.Reachable start) : system.Reachable state :=
  leads.invariant reachable Reachable.step

/-- A labelled run is a run. -/
theorem Trace.leads {start state : State} {labels : List Label}
    (trace : system.Trace start labels state) : system.Leads start state := by
  induction trace with
  | refl => exact .refl
  | step _ taken ih => exact ih.step taken

/-- A run whose steps meet a condition is a run. -/
theorem Leads.of_restrict {allowed : State → Label → Prop} {start state : State}
    (leads : (system.restrict allowed).Leads start state) : system.Leads start state := by
  induction leads with
  | refl => exact .refl
  | step _ taken ih => exact ih.step taken.2

/-- Runs can be put together. -/
theorem Leads.trans {start middle state : State} (first : system.Leads start middle)
    (second : system.Leads middle state) : system.Leads start state := by
  induction second with
  | refl => exact first
  | step _ taken ih => exact ih.step taken

/-- A system that completes can be brought to its end by its own moves. -/
theorem Completes.exists_leads {own : Label → Prop} {final : State → Prop}
    (completes : system.Completes own final) {state : State}
    (reachable : system.Reachable state) :
    ∃ last, (system.restrict fun _ label => own label).Leads state last ∧ final last := by
  induction completes.terminates reachable with
  | intro state _ ih =>
      by_cases done : final state
      · exact ⟨state, .refl, done⟩
      · obtain ⟨label, after, move, taken⟩ := completes.progress reachable done
        obtain ⟨last, rest, ended⟩ := ih after ⟨label, taken⟩ (reachable.step taken)
        have first : (system.restrict fun _ label => own label).Leads state after :=
          Leads.refl.step ⟨move, taken⟩
        exact ⟨last, first.trans rest, ended⟩

/-- A measure that every step of a reachable state decreases bounds every run. -/
theorem terminates_of_measure (measure : State → Nat)
    (decreases : ∀ {before label after}, system.Reachable before →
      system.Step before label after → measure after < measure before)
    {state : State} (reachable : system.Reachable state) : system.Terminates state := by
  induction bound : measure state using Nat.strongRecOn generalizing state with
  | ind value ih =>
      refine Acc.intro state ?_
      rintro after ⟨label, taken⟩
      exact ih _ (bound ▸ decreases reachable taken) (reachable.step taken) rfl

end TransitionSystem

end Library
