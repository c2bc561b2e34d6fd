import CheckGitStatus.Text.Bytes

/-! # Repository statuses and the issues they raise

The record that one repository check fills in. The C++ program and the Go program
declare it with the same fields; an absent error is a `nullopt` in one and a nil
error in the other.
-/

namespace CheckGitStatus

/-- A path of the POSIX build, in its native byte form. -/
abbrev Path := Text

/-- `path_text`: on POSIX the UTF-8 form of a path is its native form. -/
def pathText (path : Path) : Text :=
  path

/-- `UpstreamState`; `ok` is also the state before anything is known. -/
inductive UpstreamState where
  | ok
  | missing
  | detached
  | error
  deriving DecidableEq, Repr

/-- `RepositoryStatus`, with the defaults of both programs. -/
structure RepositoryStatus where
  path : Path
  remoteUrl : Text := []
  remoteName : Text := []
  hasRemote : Bool := false
  remoteError : Option Text := none
  dirty : Bool := false
  worktreeError : Option Text := none
  upstreamState : UpstreamState := .ok
  ahead : Int := 0
  upstreamError : Option Text := none
  deriving DecidableEq, Repr

/-- The variables that the loops over the lines of `git status` update. -/
structure StatusScan where
  dirty : Bool := false
  detached : Bool := false
  hasUpstream : Bool := false
  ahead : Int := 0
  deriving DecidableEq, Repr

/-- A message and the checks that failed with it. -/
structure Issue where
  checks : List Text
  message : Text
  deriving DecidableEq, Repr

/-- `checks_label`: one check alone, or several with slashes between them. -/
def checksLabel (checks : List Text) : Text :=
  match checks with
  | [] => ascii "repository check"
  | [check] => check ++ ascii " check"
  | checks => (ascii "/").intercalate checks ++ ascii " checks"

/-- `Issue::label`. -/
def Issue.label (issue : Issue) : Text :=
  checksLabel issue.checks

/-- Add a check to the issue with the same message, or a new issue at the end. -/
def addIssue (issues : List Issue) (check : Text) (error : Option Text) : List Issue :=
  match error with
  | none => issues
  | some message =>
      match issues.findIdx? fun issue => issue.message == message with
      | some index => issues.modify index fun issue =>
          { issue with checks := issue.checks ++ [check] }
      | none => issues ++ [{ checks := [check], message }]

namespace RepositoryStatus

/-- `needs_attention`: a missing or detached upstream alone is no reason. -/
def needsAttention (status : RepositoryStatus) : Bool :=
  status.dirty || 0 < status.ahead || !status.hasRemote || status.remoteError.isSome ||
    status.worktreeError.isSome || status.upstreamError.isSome

/-- `issues`: equal messages of several checks are one issue. -/
def issues (status : RepositoryStatus) : List Issue :=
  addIssue (addIssue (addIssue [] (ascii "remote") status.remoteError)
    (ascii "worktree") status.worktreeError) (ascii "upstream") status.upstreamError

/-- Some check of the repository ended in an error. -/
def HasError (status : RepositoryStatus) : Prop :=
  status.remoteError.isSome ∨ status.worktreeError.isSome ∨ status.upstreamError.isSome

instance (status : RepositoryStatus) : Decidable status.HasError :=
  inferInstanceAs (Decidable (_ ∨ _ ∨ _))

end RepositoryStatus

/-- Adding an error never empties the list of issues. -/
theorem addIssue_ne_nil_iff (issues : List Issue) (check : Text) (error : Option Text) :
    addIssue issues check error ≠ [] ↔ issues ≠ [] ∨ error.isSome := by
  cases error with
  | none => simp only [addIssue, Option.isSome_none, Bool.false_eq_true, or_false]
  | some message =>
      simp only [addIssue, Option.isSome_some, or_true, iff_true]
      cases found : issues.findIdx? fun issue => issue.message == message with
      | none => simp only [ne_eq, List.append_eq_nil_iff, List.cons_ne_self, and_false,
          not_false_eq_true]
      | some index =>
          obtain ⟨below, _⟩ := List.findIdx?_eq_some_iff_getElem.mp found
          intro empty
          have same := congrArg List.length empty
          simp only [List.length_modify, List.length_nil] at same
          omega

/-- A status raises an issue exactly when one of its checks failed. -/
theorem RepositoryStatus.issues_ne_nil_iff (status : RepositoryStatus) :
    status.issues ≠ [] ↔ status.HasError := by
  simp only [issues, addIssue_ne_nil_iff, ne_eq, not_true_eq_false, false_or, HasError, or_assoc]

end CheckGitStatus
