import Mathlib.Data.List.Nodup
import Mathlib.Data.List.Perm.Basic
import Mathlib.Logic.Relation
import Mathlib.Tactic.Choose

/-! # Depth-first search with an explicit stack

A search pops a node, puts the nodes that it expands to on the stack and goes on until
the stack is empty. It ends if expansion is well-founded from the root
(`Library.StackSearch.exists_worksOff`), it then has visited exactly the nodes that can be
reached from the root (`Library.StackSearch.mem_visited_iff`), and each of them once if
expansion forms a tree (`Library.StackSearch.visited_nodup`).
-/

namespace Library

section Loop

variable {σ : Type*} (step : σ → Option σ)

/-- Iterate a step until it is no longer possible, or fail when the fuel runs out. -/
def runLoop : Nat → σ → Option σ
  | 0, _ => none
  | fuel + 1, state =>
      match step state with
      | none => some state
      | some next => runLoop fuel next

/-- A loop that ends in some number of steps ends with any fuel that suffices. -/
theorem runLoop_of_run {first last : σ}
    (run : Relation.ReflTransGen (fun before after => step before = some after) first last)
    (ended : step last = none) : ∃ bound, ∀ fuel, bound ≤ fuel →
      runLoop step fuel first = some last := by
  induction run using Relation.ReflTransGen.head_induction_on with
  | refl =>
      refine ⟨1, fun fuel enough => ?_⟩
      obtain ⟨more, rfl⟩ := Nat.exists_eq_add_of_le' enough
      simp only [runLoop, ended]
  | head taken _ ih =>
      obtain ⟨bound, later⟩ := ih
      refine ⟨bound + 1, fun fuel enough => ?_⟩
      obtain ⟨more, rfl⟩ := Nat.exists_eq_add_of_le' enough
      simp only [runLoop, taken]
      exact later _ (Nat.le_add_left bound more)

/-- More fuel does not change where a loop ends. -/
theorem runLoop_of_le {fuel more : Nat} (enough : fuel ≤ more) {first last : σ}
    (ends : runLoop step fuel first = some last) : runLoop step more first = some last := by
  induction fuel generalizing first more with
  | zero => cases ends
  | succ fuel ih =>
      obtain ⟨more, rfl⟩ := Nat.exists_eq_add_of_le' (Nat.one_le_of_lt enough)
      rw [runLoop] at ends ⊢
      split at ends
      · exact ends
      · exact ih (Nat.le_of_succ_le_succ enough) ends

end Loop

namespace StackSearch

variable {α : Type*} (expand : α → List α)

/-- The stack, top first, and the nodes visited so far. -/
structure Search (α : Type*) where
  pending : List α
  visited : List α := []

/-- One turn of the search: the top of the stack is visited and what it expands to put
in its place. -/
def step (search : Search α) : Option (Search α) :=
  match search.pending with
  | [] => none
  | node :: rest =>
      some { pending := expand node ++ rest, visited := search.visited ++ [node] }

/-- Any number of turns. -/
abbrev Run : Search α → Search α → Prop :=
  Relation.ReflTransGen fun before after => step expand before = some after

/-- The nodes that expansion leads to from a root. -/
def Reaches (root node : α) : Prop :=
  Relation.ReflTransGen (fun parent child => child ∈ expand parent) root node

/-- From a stack with `nodes` on top, a search works these off and visits `visits`,
whatever is below them and has been visited before. -/
def WorksOff (nodes visits : List α) : Prop :=
  ∀ rest visited, Run expand { pending := nodes ++ rest, visited }
    { pending := rest, visited := visited ++ visits }

variable {expand}

/-- An empty stack is worked off without a visit. -/
theorem WorksOff.nil : WorksOff expand [] [] := by
  intro rest visited
  rw [List.append_nil]
  exact .refl

theorem WorksOff.append {first second firstVisits secondVisits : List α}
    (left : WorksOff expand first firstVisits) (right : WorksOff expand second secondVisits) :
    WorksOff expand (first ++ second) (firstVisits ++ secondVisits) := by
  intro rest visited
  rw [List.append_assoc, ← List.append_assoc visited]
  exact (left (second ++ rest) visited).trans (right rest (visited ++ firstVisits))

/-- A node is worked off with what it expands to. -/
theorem WorksOff.node {node : α} {visits : List α} (below : WorksOff expand (expand node) visits) :
    WorksOff expand [node] (node :: visits) := by
  intro rest visited
  rw [List.append_cons]
  exact .head rfl (below rest (visited ++ [node]))

/-- A node that expands to nothing is worked off alone. -/
theorem WorksOff.leaf {node : α} (expanded : expand node = []) :
    WorksOff expand [node] [node] := by
  apply WorksOff.node
  rw [expanded]
  exact .nil

/-- A list is worked off node by node. -/
theorem WorksOff.flatMap {nodes : List α} {visits : α → List α}
    (each : ∀ node ∈ nodes, WorksOff expand [node] (visits node)) :
    WorksOff expand nodes (nodes.flatMap visits) := by
  induction nodes with
  | nil => exact .nil
  | cons node nodes ih =>
      have worksOff := each node List.mem_cons_self
      exact worksOff.append (ih fun other inside => each other (List.mem_cons_of_mem _ inside))

/-- A stack can be worked off if each of its nodes can. -/
theorem exists_worksOff_of_each {nodes : List α}
    (each : ∀ node ∈ nodes, ∃ visits, WorksOff expand [node] visits) :
    ∃ visits, WorksOff expand nodes visits := by
  choose! visits worksOff using each
  exact ⟨nodes.flatMap visits, .flatMap worksOff⟩

/-- A node from which expansion is well-founded is worked off. -/
theorem exists_worksOff {root : α}
    (wellFounded : Acc (fun child parent => child ∈ expand parent) root) :
    ∃ visits, WorksOff expand [root] visits := by
  induction wellFounded with
  | intro node _ ih =>
      obtain ⟨visits, below⟩ := exists_worksOff_of_each ih
      exact ⟨node :: visits, below.node⟩

/-- An expansion with fewer children is well-founded where the larger one is. -/
theorem acc_of_subset {other : α → List α} {root : α}
    (wellFounded : Acc (fun child parent => child ∈ expand parent) root)
    (subset : ∀ node, Reaches expand root node → ∀ child ∈ other node, child ∈ expand node) :
    Acc (fun child parent => child ∈ other parent) root := by
  induction wellFounded with
  | intro node _ ih =>
      refine .intro node fun child below => ?_
      have above : child ∈ expand node := subset node .refl child below
      exact ih child above fun deeper reached => subset deeper (.head above reached)

/-- Expansions that differ in the order of the children lead to the same visits,
in some order. -/
theorem exists_worksOff_perm {other : α → List α} {root : α}
    (wellFounded : Acc (fun child parent => child ∈ expand parent) root)
    (same : ∀ node, Reaches expand root node → (expand node).Perm (other node)) :
    ∃ visits otherVisits, WorksOff expand [root] visits ∧ WorksOff other [root] otherVisits ∧
      visits.Perm otherVisits := by
  induction wellFounded with
  | intro node _ ih =>
      have each : ∀ child ∈ expand node, ∃ visits otherVisits, WorksOff expand [child] visits ∧
          WorksOff other [child] otherVisits ∧ visits.Perm otherVisits := by
        intro child below
        exact ih child below fun deeper reached => same deeper (.head below reached)
      choose! visits otherVisits worksOff otherWorksOff perm using each
      have children := same node .refl
      refine ⟨node :: (expand node).flatMap visits, node :: (other node).flatMap otherVisits,
        .node (.flatMap worksOff), .node (.flatMap fun child below => ?_), ?_⟩
      · exact otherWorksOff child (children.mem_iff.mpr below)
      · exact ((List.Perm.flatMap_left _ perm).trans (children.flatMap_right otherVisits)).cons node

/-- A root that is worked off is searched to the end. -/
theorem WorksOff.run {root : α} {visits : List α} (worksOff : WorksOff expand [root] visits) :
    Run expand { pending := [root] } { pending := [], visited := visits } :=
  worksOff [] []

/-- A loop that takes the steps of a search, seen in states of its own, ends where
the search does. -/
theorem WorksOff.exists_runLoop {σ : Type*} {loopStep : σ → Option σ} {view : Search α → σ}
    (simulates : ∀ search, loopStep (view search) = (step expand search).map view) {root : α}
    {visits : List α} (worksOff : WorksOff expand [root] visits) :
    ∃ bound, ∀ fuel, bound ≤ fuel →
      runLoop loopStep fuel (view { pending := [root] }) =
        some (view { pending := [], visited := visits }) := by
  refine runLoop_of_run _ (worksOff.run.lift view fun before after taken => ?_) ?_
  · change loopStep (view before) = some (view after)
    rw [simulates, taken, Option.map_some]
  · rw [simulates]
    rfl

variable {root : α} {search : Search α}

/-- What holds at every stage of a search from `root`. -/
structure Progress (expand : α → List α) (root : α) (search : Search α) : Prop where
  reached : ∀ node ∈ search.pending ++ search.visited, Reaches expand root node
  rootKept : root ∈ search.pending ++ search.visited
  expanded : ∀ node ∈ search.visited, ∀ child ∈ expand node,
    child ∈ search.pending ++ search.visited
  origin : ∀ node ∈ search.pending ++ search.visited,
    node = root ∨ ∃ parent ∈ search.visited, node ∈ expand parent

/-- Every stage has the nodes it is responsible for. -/
theorem progress_of_run (run : Run expand { pending := [root] } search) :
    Progress expand root search := by
  induction run with
  | refl =>
      refine ⟨?_, List.mem_cons_self, ?_, ?_⟩
      · intro node inside
        rw [List.mem_singleton.mp inside]
        exact .refl
      · exact fun node inside => absurd inside List.not_mem_nil
      · exact fun node inside => .inl (List.mem_singleton.mp inside)
  | @tail before after _ taken ih =>
      unfold step at taken
      split at taken
      · cases taken
      · rename_i node rest pending
        cases taken
        have old : ∀ other, other ∈ before.pending ++ before.visited ↔
            other = node ∨ other ∈ rest ∨ other ∈ before.visited := by
          intro other
          rw [pending, List.cons_append, List.mem_cons, List.mem_append]
        have new : ∀ other, other ∈ (expand node ++ rest) ++ (before.visited ++ [node]) ↔
            other ∈ expand node ∨ other ∈ before.pending ++ before.visited := by
          intro other
          rw [old, List.mem_append, List.mem_append, List.mem_append, List.mem_singleton]
          tauto
        have nodeReached := ih.reached node ((old node).mpr (.inl rfl))
        refine ⟨?_, (new root).mpr (.inr ih.rootKept), ?_, ?_⟩
        · intro other inside
          rcases (new other).mp inside with child | kept
          · exact nodeReached.tail child
          · exact ih.reached other kept
        · intro parent visited child inside
          rcases List.mem_append.mp visited with earlier | last
          · exact (new child).mpr (.inr (ih.expanded parent earlier child inside))
          · rw [List.mem_singleton.mp last] at inside
            exact (new child).mpr (.inl inside)
        · intro other inside
          rcases (new other).mp inside with child | kept
          · exact .inr ⟨node, List.mem_append_right _ List.mem_cons_self, child⟩
          · rcases ih.origin other kept with same | ⟨parent, visited, child⟩
            · exact .inl same
            · exact .inr ⟨parent, List.mem_append_left _ visited, child⟩

/-- A finished search has visited exactly the nodes that the root reaches. -/
theorem mem_visited_iff {visited : List α}
    (run : Run expand { pending := [root] } { pending := [], visited }) {node : α} :
    node ∈ visited ↔ Reaches expand root node := by
  have progress := progress_of_run run
  constructor
  · exact progress.reached node
  · intro reached
    induction reached with
    | refl => exact progress.rootKept
    | tail _ child ih => exact progress.expanded _ ih _ child

/-- Below the root, expansion reaches every node from one parent, and from it once. -/
structure TreeLike (expand : α → List α) (root : α) : Prop where
  children_nodup : ∀ node, Reaches expand root node → (expand node).Nodup
  parent_unique : ∀ first second child, Reaches expand root first →
    Reaches expand root second → child ∈ expand first → child ∈ expand second → first = second
  root_free : ∀ node, Reaches expand root node → root ∉ expand node

/-- In a tree no stage of a search has a node twice. -/
theorem nodup_of_run (tree : TreeLike expand root)
    (run : Run expand { pending := [root] } search) :
    (search.pending ++ search.visited).Nodup := by
  induction run with
  | refl => exact List.nodup_singleton root
  | @tail before after run taken ih =>
      have progress := progress_of_run run
      unfold step at taken
      split at taken
      · cases taken
      · rename_i node rest pending
        cases taken
        have here : node ∈ before.pending ++ before.visited := by
          rw [pending]
          exact List.mem_cons_self
        have nodeReached := progress.reached node here
        have moved : ((expand node ++ rest) ++ (before.visited ++ [node])).Perm
            (expand node ++ (before.pending ++ before.visited)) := by
          rw [pending, List.append_assoc, ← List.append_assoc rest]
          exact (List.perm_append_singleton node _).append_left (expand node)
        rw [moved.nodup_iff, List.nodup_append']
        refine ⟨tree.children_nodup node nodeReached, ih, ?_⟩
        intro child inside kept
        rcases progress.origin child kept with same | ⟨parent, visited, other⟩
        · rw [same] at inside
          exact tree.root_free node nodeReached inside
        · have parentReached := progress.reached parent (List.mem_append_right _ visited)
          have same := tree.parent_unique node parent child nodeReached parentReached inside other
          subst same
          rw [pending, List.cons_append, List.nodup_cons] at ih
          exact ih.1 (List.mem_append_right _ visited)

/-- In a tree every node is visited once. -/
theorem visited_nodup (tree : TreeLike expand root) {visited : List α}
    (run : Run expand { pending := [root] } { pending := [], visited }) : visited.Nodup :=
  nodup_of_run tree run

end StackSearch

end Library
