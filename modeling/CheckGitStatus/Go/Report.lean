import CheckGitStatus.Go.Duration
import CheckGitStatus.Report
import CheckGitStatus.Text.GoStrings

/-! # What the Go program writes

The Go program keeps an issue as one text, `label: message`, and cuts it at the first
colon and space when it writes it. The texts are those of the issues that the C++ program
collects (`CheckGitStatus.Go.issues_eq`).
-/

namespace CheckGitStatus.Go

/-! ## Issues -/

/-- The `issueGroup` of `Issues`: a message and the names of the checks that end with it. -/
structure IssueGroup where
  message : Text
  checks : List Text
  deriving DecidableEq, Repr

/-- The loop of `addIssue`: the first group with the message takes the check, and without
one there is a new group. -/
def appendCheck (check message : Text) : List IssueGroup → List IssueGroup
  | [] => [{ message, checks := [check] }]
  | group :: rest =>
      if group.message = message then { group with checks := group.checks ++ [check] } :: rest
      else group :: appendCheck check message rest

/-- The closure `addIssue` of `Issues`. -/
def addIssue (groups : List IssueGroup) (check : Text) (error : Option Text) : List IssueGroup :=
  match error with
  | none => groups
  | some message => appendCheck check message groups

/-- The label of a group, which has a check. -/
def IssueGroup.label (group : IssueGroup) : Text :=
  if 1 < group.checks.length then (ascii "/").intercalate group.checks ++ ascii " checks"
  else group.checks.headD [] ++ ascii " check"

/-- The groups that `Issues` collects. -/
def issueGroups (status : RepositoryStatus) : List IssueGroup :=
  addIssue (addIssue (addIssue [] (ascii "remote") status.remoteError)
    (ascii "worktree") status.worktreeError) (ascii "upstream") status.upstreamError

/-- `Issues`. -/
def issues (status : RepositoryStatus) : List Text :=
  (issueGroups status).map fun group => group.label ++ ascii ": " ++ group.message

/-- The issue of the C++ program that a group is. -/
def IssueGroup.toIssue (group : IssueGroup) : Issue where
  checks := group.checks
  message := group.message

/-- The C++ program looks up the index of the group first. -/
theorem map_toIssue_appendCheck (check message : Text) (groups : List IssueGroup) :
    (appendCheck check message groups).map IssueGroup.toIssue =
      CheckGitStatus.addIssue (groups.map IssueGroup.toIssue) check (some message) := by
  unfold CheckGitStatus.addIssue
  dsimp only
  induction groups with
  | nil => rfl
  | cons group rest ih =>
      rw [appendCheck, List.map_cons, List.findIdx?_cons]
      by_cases same : group.message = message
      · have first : (group.toIssue.message == message) = true := beq_iff_eq.mpr same
        rw [if_pos same, first]
        rfl
      · have other : (group.toIssue.message == message) = false :=
          beq_eq_false_iff_ne.mpr same
        rw [if_neg same, other, List.map_cons, ih]
        cases (rest.map IssueGroup.toIssue).findIdx? fun issue => issue.message == message with
        | none => rfl
        | some index => rfl

theorem map_toIssue_addIssue (groups : List IssueGroup) (check : Text) (error : Option Text) :
    (addIssue groups check error).map IssueGroup.toIssue =
      CheckGitStatus.addIssue (groups.map IssueGroup.toIssue) check error := by
  cases error with
  | none => rfl
  | some message => exact map_toIssue_appendCheck check message groups

/-- Both programs collect the same issues. -/
theorem map_toIssue_issueGroups (status : RepositoryStatus) :
    (issueGroups status).map IssueGroup.toIssue = status.issues := by
  rw [issueGroups, map_toIssue_addIssue, map_toIssue_addIssue, map_toIssue_addIssue]
  rfl

theorem checks_ne_nil_of_appendCheck {check message : Text} {groups : List IssueGroup}
    (checked : ∀ group ∈ groups, group.checks ≠ []) :
    ∀ group ∈ appendCheck check message groups, group.checks ≠ [] := by
  induction groups with
  | nil =>
      intro group inside
      rw [List.mem_singleton.mp inside]
      exact List.cons_ne_nil _ _
  | cons first rest ih =>
      have others := fun group inside => checked group (List.mem_cons_of_mem first inside)
      rw [appendCheck]
      split
      · exact List.forall_mem_cons.mpr
          ⟨List.append_ne_nil_of_right_ne_nil _ (List.cons_ne_nil _ _), others⟩
      · exact List.forall_mem_cons.mpr ⟨checked first List.mem_cons_self, ih others⟩

/-- Every group has a check. -/
theorem checks_ne_nil_of_addIssue {groups : List IssueGroup} {check : Text} {error : Option Text}
    (checked : ∀ group ∈ groups, group.checks ≠ []) :
    ∀ group ∈ addIssue groups check error, group.checks ≠ [] := by
  cases error with
  | none => exact checked
  | some message => exact checks_ne_nil_of_appendCheck checked

/-- Every group has a check, so that its label can be made. -/
theorem checks_ne_nil {status : RepositoryStatus} {group : IssueGroup}
    (inside : group ∈ issueGroups status) : group.checks ≠ [] :=
  checks_ne_nil_of_addIssue (checks_ne_nil_of_addIssue (checks_ne_nil_of_addIssue
    fun _ none => absurd none List.not_mem_nil)) group inside

/-- Both programs label a group with a check alike. -/
theorem IssueGroup.label_eq {group : IssueGroup} (checked : group.checks ≠ []) :
    group.label = group.toIssue.label := by
  unfold IssueGroup.label Issue.label IssueGroup.toIssue
  obtain ⟨message, _ | ⟨first, _ | ⟨second, rest⟩⟩⟩ := group
  · exact absurd rfl checked
  · rfl
  · have several : 1 < (first :: second :: rest).length := Nat.one_lt_succ_succ _
    rw [if_pos several]
    rfl

/-- The issues are those of the C++ program, each as one text. -/
theorem issues_eq (status : RepositoryStatus) :
    issues status =
      status.issues.map fun issue => issue.label ++ ascii ": " ++ issue.message := by
  rw [issues, ← map_toIssue_issueGroups, List.map_map]
  refine List.map_congr_left fun group inside => ?_
  rw [IssueGroup.label_eq (checks_ne_nil inside)]
  rfl

/-! ## Texts -/

/-- `renderTable`, with the widths that counting runes gives. -/
def renderTable (statuses : List RepositoryStatus) (color : Bool) : Text :=
  Report.renderTable runeCount statuses color

/-- `writeWrappedWarning`. -/
def writeWrappedWarning (message : Text) (indent maxWidth : Nat) : Text :=
  Report.writeWrapped runeCount (fields message) indent maxWidth

/-- An issue is cut at its first colon and blank into the label and the message. -/
def writeIssue (issue : Text) : Text :=
  match cut (ascii ": ") issue with
  | none => writeWrappedWarning issue 2 100
  | some (label, message) =>
      ascii "  " ++ label ++ ascii ":\n" ++ writeWrappedWarning message 4 100

/-- `writeCheckWarnings`, with the number of issues that it returns. -/
def writeCheckWarnings (statuses : List RepositoryStatus) : Text × Nat :=
  Report.writeCheckWarnings (fun status => (issues status).map writeIssue) statuses

/-- `writeTimingReport`. -/
def writeTimingReport (discovery checks total : Int) : Text :=
  Report.writeTimingReport formatDuration discovery checks total

/-- The writers of the Go program. -/
def writers : Report.Writers where
  renderTable := renderTable
  writeCheckWarnings := writeCheckWarnings
  writeTimingReport := writeTimingReport
  issues_counted statuses := by
    rw [writeCheckWarnings, Report.writeCheckWarnings_count]
    simp only [issues_eq, List.length_map]

end CheckGitStatus.Go
