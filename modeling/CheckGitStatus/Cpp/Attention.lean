import CheckGitStatus.Cpp.Porcelain
import CheckGitStatus.Report

/-! # The filter and the red cells of the table

`needs_attention` and `status_row` look at the same fields, but the row shows a count of
commits only for an attached head with an upstream. A status that `GitClient::check`
returns is marked red exactly if it needs attention, unless the outputs hold a positive
count without such a head and no other problem
(`CheckGitStatus.Cpp.check_needsAttention_iff_hasRedCell_iff`).
-/

namespace CheckGitStatus.Cpp

open Report

/-- Some cell of the row of a status is red. -/
def hasRedCell (status : RepositoryStatus) : Bool :=
  (statusRow status).any fun cell => cell.color == ansiRed

/-! ## The cells -/

section Cells

variable {status : RepositoryStatus}

/-- The cell of the remote is red exactly for an error or without a remote. -/
theorem remoteCell_red_iff :
    (remoteCell status).color = ansiRed ↔
      status.remoteError.isSome = true ∨ status.hasRemote = false := by
  unfold remoteCell
  split
  · rename_i failed
    exact iff_of_true rfl (.inl failed)
  · rename_i noError
    split
    · rename_i noRemote
      exact iff_of_true rfl (.inr ((Bool.not_eq_true' _).mp noRemote))
    · rename_i listed
      have problem : ¬ (status.remoteError.isSome = true ∨ status.hasRemote = false) := by
        rintro (failed | noRemote)
        · exact noError failed
        · exact listed ((Bool.not_eq_true' _).mpr noRemote)
      have uncolored : ([] : Text) ≠ ansiRed := by decide
      split
      · exact iff_of_false (by decide) problem
      · exact iff_of_false uncolored problem

/-- The cell of the worktree is red exactly for an error or a change. -/
theorem worktreeCell_red_iff :
    (worktreeCell status).color = ansiRed ↔
      status.worktreeError.isSome = true ∨ status.dirty = true := by
  unfold worktreeCell
  split
  · rename_i failed
    exact iff_of_true rfl (.inl failed)
  · rename_i noError
    split
    · rename_i dirty
      exact iff_of_true rfl (.inr dirty)
    · rename_i clean
      exact iff_of_false (by decide) (not_or.mpr ⟨noError, clean⟩)

/-- The last cell is red for an error, and for commits of a branch with an upstream. -/
theorem unpushedCell_red_iff :
    (unpushedCell status).color = ansiRed ↔
      (status.upstreamError.isSome = true ∨ status.upstreamState = .error) ∨
        status.upstreamState = .ok ∧ 0 < status.ahead := by
  unfold unpushedCell
  split
  · rename_i failed
    exact iff_of_true rfl (.inl failed)
  · rename_i noError
    rw [or_iff_right noError]
    cases state : status.upstreamState with
    | error => exact absurd (.inr state) noError
    | detached | missing =>
        refine iff_of_false ?_ fun ⟨other, _⟩ => by cases other
        simp only [reduceCtorEq, ↓reduceIte]
        decide
    | ok =>
        simp only [reduceCtorEq, ↓reduceIte, true_and]
        split
        · rename_i one
          exact iff_of_true rfl (by omega)
        · rename_i notOne
          split
          · rename_i several
            exact iff_of_true rfl (by omega)
          · rename_i few
            exact iff_of_false (by decide) (by omega)

/-- When some cell of the row is red. -/
theorem hasRedCell_iff :
    hasRedCell status = true ↔
      (status.remoteError.isSome = true ∨ status.hasRemote = false) ∨
      (status.worktreeError.isSome = true ∨ status.dirty = true) ∨
      (status.upstreamError.isSome = true ∨ status.upstreamState = .error) ∨
        status.upstreamState = .ok ∧ 0 < status.ahead := by
  have path : (([] : Text) == ansiRed) = false := by decide
  simp only [hasRedCell, statusRow, List.any_cons, List.any_nil, path, Bool.false_or, Bool.or_false,
    Bool.or_eq_true, beq_iff_eq, remoteCell_red_iff, worktreeCell_red_iff, unpushedCell_red_iff]

/-- When a repository needs attention, in the same terms. -/
theorem needsAttention_iff :
    status.needsAttention = true ↔
      (status.remoteError.isSome = true ∨ status.hasRemote = false) ∨
      (status.worktreeError.isSome = true ∨ status.dirty = true) ∨
      status.upstreamError.isSome = true ∨ 0 < status.ahead := by
  simp only [RepositoryStatus.needsAttention, Bool.or_eq_true, decide_eq_true_eq,
    Bool.not_eq_true']
  tauto

/-- A status without commits on a branch that has no upstream is marked red exactly if it
needs attention. -/
theorem needsAttention_iff_hasRedCell_iff
    (errorKept : status.upstreamState = .error → status.upstreamError.isSome = true) :
    (status.needsAttention = true ↔ hasRedCell status = true) ↔
      (status.remoteError.isSome = true ∨ status.hasRemote = false) ∨
      (status.worktreeError.isSome = true ∨ status.dirty = true) ∨
      status.upstreamError.isSome = true ∨ status.ahead ≤ 0 ∨ status.upstreamState = .ok := by
  rw [needsAttention_iff, hasRedCell_iff, or_iff_left_of_imp errorKept, ← Int.not_lt]
  by_cases remote : status.remoteError.isSome = true ∨ status.hasRemote = false
  · simp only [remote, true_or]
  by_cases worktree : status.worktreeError.isSome = true ∨ status.dirty = true
  · simp only [worktree, true_or, or_true]
  by_cases upstream : status.upstreamError.isSome = true
  · simp only [upstream, true_or, or_true]
  · -- only the commits are left
    simp only [remote, worktree, upstream, false_or]
    by_cases tracked : status.upstreamState = .ok
    · simp only [tracked, true_and, or_true]
    · simp only [tracked, false_and, or_false, Bool.false_eq_true, iff_false, false_or]

end Cells

/-! ## The statuses that a check returns -/

/-- The first command leaves a problem behind if it fails or lists no fetch line. -/
theorem remoteStatus_problem_iff {remotes : CommandResult} {path : Path} :
    (remoteStatus remotes path).remoteError.isSome = true ∨
        (remoteStatus remotes path).hasRemote = false ↔
      remotes.ok = false ∨ fetchLines remotes.output = [] := by
  unfold remoteStatus
  cases remotes.ok with
  | false => exact iff_of_true (.inl rfl) (.inl rfl)
  | true =>
      have noError : (readRemotes remotes.output { path }).remoteError = none := by
        unfold readRemotes
        split <;> rfl
      have bare : RepositoryStatus.hasRemote { path } = false := rfl
      have missing : (readRemotes remotes.output { path }).hasRemote = false ↔
          fetchLines remotes.output = [] := by
        rw [readRemotes_eq, RepositoryStatus.withRemote_hasRemote bare,
          Option.isSome_eq_false_iff, Option.isNone_iff_eq_none,
          selectRemote_collectRemotes_eq_none_iff]
      simp only [↓reduceIte, noError, missing, Option.isSome_none, Bool.false_eq_true,
        Bool.true_eq_false, false_or]

/-- The red cells and the filter, for any results of the two commands. -/
theorem worktreeStatus_needsAttention_iff (remotes worktree : CommandResult) (path : Path) :
    ((worktreeStatus worktree (remoteStatus remotes path)).needsAttention = true ↔
        hasRedCell (worktreeStatus worktree (remoteStatus remotes path)) = true) ↔
      (remotes.ok = false ∨ fetchLines remotes.output = []) ∨ worktree.ok = false ∨
        .entry ∈ statusLines worktree.output ∨ StatusLine.lastCount (statusLines worktree.output) ≤ 0 ∨
        StatusLine.upstreamState (statusLines worktree.output) = .ok := by
  have problem := @remoteStatus_problem_iff remotes path
  obtain ⟨-, worktreeError, upstreamError⟩ := check_errors remotes worktree path
  cases done : worktree.ok with
  | true =>
      have noErrorState := StatusLine.upstreamState_ne_error (statusLines worktree.output)
      rw [done, if_pos rfl] at worktreeError upstreamError
      unfold worktreeStatus at worktreeError upstreamError ⊢
      rw [done, if_pos rfl, readStatus_eq] at worktreeError upstreamError ⊢
      change (remoteStatus remotes path).worktreeError = none at worktreeError
      change (remoteStatus remotes path).upstreamError = none at upstreamError
      rw [needsAttention_iff_hasRedCell_iff fun failed => absurd failed noErrorState]
      simp only [worktreeError, upstreamError, Option.isSome_none, Bool.false_eq_true, false_or,
        decide_eq_true_eq, Bool.true_eq_false, problem]
  | false =>
      unfold worktreeStatus
      rw [done, if_neg Bool.false_ne_true, needsAttention_iff_hasRedCell_iff fun _ => rfl]
      exact iff_of_true (.inr (.inl (.inl rfl))) (.inr (.inl rfl))

/-- Among the statuses that a check returns, those that need attention are the ones with a
red cell, exactly if there is no positive count without an attached head and an upstream,
or another problem anyway. -/
theorem check_needsAttention_iff_hasRedCell_iff (runner : GitRunner) (timeout : Int) (path : Path)
    (readings : Readings) :
    let deadline := readings.started + timeout * nanosecondsPerMillisecond
    let remotes := runBeforeDeadline runner path remoteArguments deadline timeout readings.remote
    let worktree := runBeforeDeadline runner path statusArguments deadline timeout readings.status
    let lines := statusLines worktree.output
    ((check runner timeout path readings).needsAttention = true ↔
        hasRedCell (check runner timeout path readings) = true) ↔
      (remotes.ok = false ∨ fetchLines remotes.output = []) ∨ worktree.ok = false ∨
        .entry ∈ lines ∨ StatusLine.lastCount lines ≤ 0 ∨
        StatusLine.detached lines = false ∧ .upstream ∈ lines := by
  intro deadline remotes worktree lines
  rw [check_eq, ← StatusLine.upstreamState_eq_ok_iff]
  exact worktreeStatus_needsAttention_iff remotes worktree path

/-- A detached head with a count of commits needs attention, and no cell tells why. -/
theorem check_detached_ahead :
    let status := check
      (scriptedRunner (ascii "origin\thttps://host/r.git (fetch)")
        (ascii "# branch.head (detached)\n# branch.ab +2 -0"))
      1000 (ascii "/r") stillReadings
    status.needsAttention = true ∧ hasRedCell status = false ∧
      Report.unpushedCell status = { text := ascii "Detached HEAD", color := ansiYellow } := by
  decide

end CheckGitStatus.Cpp
