import CheckGitStatus.FileSystem
import CheckGitStatus.Library.StackSearch

/-! # The directories that a scan reaches

Each program goes down from a directory that it enters to the listed real directories
that are not excluded, one in the order of a stack, the other in the order of the names
(`CheckGitStatus.ScanExpansion`). Whatever the order is, the directories below a root
form a tree (`CheckGitStatus.ScanExpansion.treeLike`), and a search visits those that a
scan is to inspect (`CheckGitStatus.ScanExpansion.inspected_iff`).
-/

namespace CheckGitStatus

open Library

/-- The directory is neither excluded nor a repository, so it is listed. -/
def isEntered (files : FileSystem) (directory : Path) : Bool :=
  !isExcludedScanDirectory directory && !files.hasMarker directory

/-- The directory is reported. -/
def isReported (files : FileSystem) (directory : Path) : Bool :=
  !isExcludedScanDirectory directory && files.hasMarker directory

theorem isEntered_iff {files : FileSystem} {directory : Path} :
    isEntered files directory = true ↔
      isExcludedScanDirectory directory = false ∧ files.hasMarker directory = false := by
  rw [isEntered, Bool.and_eq_true, Bool.not_eq_true', Bool.not_eq_true']

theorem isReported_iff {files : FileSystem} {directory : Path} :
    isReported files directory = true ↔
      isExcludedScanDirectory directory = false ∧ files.hasMarker directory = true := by
  rw [isReported, Bool.and_eq_true, Bool.not_eq_true']

/-- `expand` leads from a directory, if it is entered, to the listed real directories
that are not excluded, in any order and to each once. -/
structure ScanExpansion (files : FileSystem) (expand : Path → List Path) : Prop where
  mem_iff : ∀ {directory child}, child ∈ expand directory ↔
    isEntered files directory = true ∧ ∃ name, files.ListsDirectory directory name ∧
      child = joinPath directory name ∧ isExcludedScanDirectory child = false
  nodup : ∀ directory, (expand directory).Nodup

namespace ScanExpansion

variable {files : FileSystem} {expand : Path → List Path} (expansion : ScanExpansion files expand)
  {root directory : Path}
include expansion

theorem noTrailingSeparator_of_reaches (bare : NoTrailingSeparator root)
    (reached : StackSearch.Reaches expand root directory) : NoTrailingSeparator directory := by
  cases reached with
  | refl => exact bare
  | @tail parent child _ below =>
      obtain ⟨_, name, ⟨entry, inside, rfl, _⟩, rfl, _⟩ := expansion.mem_iff.mp below
      exact noTrailingSeparator_joinPath parent ((files.listing parent).names_valid entry inside)

theorem length_lt_of_mem {child : Path} (below : child ∈ expand directory) :
    directory.length < child.length := by
  obtain ⟨_, name, ⟨entry, inside, rfl, _⟩, rfl, _⟩ := expansion.mem_iff.mp below
  exact length_lt_joinPath directory ((files.listing directory).names_valid entry inside)

theorem length_le_of_reaches (reached : StackSearch.Reaches expand root directory) :
    root.length ≤ directory.length := by
  induction reached with
  | refl => exact Nat.le_refl _
  | tail _ below ih =>
      have longer := expansion.length_lt_of_mem below
      omega

/-- The directories below a root form a tree. -/
theorem treeLike (bare : NoTrailingSeparator root) : StackSearch.TreeLike expand root where
  children_nodup directory _ := expansion.nodup directory
  parent_unique first second child firstReached secondReached below other := by
    obtain ⟨_, name, ⟨entry, inside, rfl, _⟩, rfl, _⟩ := expansion.mem_iff.mp below
    obtain ⟨_, otherName, ⟨otherEntry, otherInside, rfl, _⟩, same, _⟩ := expansion.mem_iff.mp other
    exact (joinPath_inj (expansion.noTrailingSeparator_of_reaches bare firstReached)
      (expansion.noTrailingSeparator_of_reaches bare secondReached)
      ((files.listing first).names_valid entry inside)
      ((files.listing second).names_valid otherEntry otherInside) same).1
  root_free parent reached below := by
    have longer := expansion.length_lt_of_mem below
    have least := expansion.length_le_of_reaches reached
    omega

/-- Where no chain of listed directories is endless, neither is one of a scan. -/
theorem wellFounded (finite : files.Finite root) :
    Acc (fun child parent => child ∈ expand parent) root := by
  refine Subrelation.accessible (fun below => ?_) finite
  obtain ⟨_, name, listed, same, _⟩ := expansion.mem_iff.mp below
  exact ⟨name, listed, same⟩

/-- Every directory on a chain is reached. -/
theorem reaches_of_scanChain {names : List Text} (chain : files.ScanChain root names)
    (front : List Text) (isFront : front <+: names) :
    StackSearch.Reaches expand root (FileSystem.descend root front) := by
  induction front using List.reverseRecOn with
  | nil => exact .refl
  | append_singleton front name ih =>
      have shorter : front <+: names := (List.prefix_append front [name]).trans isFront
      have notAll : front ≠ names := by
        rintro rfl
        have long := isFront.length_le
        rw [List.length_append, List.length_singleton] at long
        omega
      refine (ih shorter).tail (expansion.mem_iff.mpr ⟨?_, name, ?_, ?_, ?_⟩)
      · exact isEntered_iff.mpr ⟨chain.included front shorter, chain.unmarked front shorter notAll⟩
      · exact chain.listed front name isFront
      · exact FileSystem.descend_concat root front name
      · exact chain.included _ isFront

/-- A search reaches the directories that the scan is to inspect, and excluded roots. -/
theorem inspected_iff :
    files.Inspected root directory ↔
      StackSearch.Reaches expand root directory ∧ isExcludedScanDirectory directory = false := by
  constructor
  · rintro ⟨names, rfl, chain⟩
    exact ⟨expansion.reaches_of_scanChain chain names List.prefix_rfl,
      chain.included names List.prefix_rfl⟩
  · rintro ⟨reached, included⟩
    induction reached with
    | refl =>
        refine ⟨[], rfl, ?_, ?_, ?_⟩
        · intro front isFront
          rw [List.prefix_nil.mp isFront]
          exact included
        · intro front name isFront
          exact absurd (List.prefix_nil.mp isFront) (List.append_ne_nil_of_right_ne_nil _ (by simp))
        · intro front isFront notAll
          exact absurd (List.prefix_nil.mp isFront) notAll
    | @tail parent child _ below ih =>
        obtain ⟨entered, name, listed, rfl, _⟩ := expansion.mem_iff.mp below
        obtain ⟨parentIncluded, plain⟩ := isEntered_iff.mp entered
        obtain ⟨names, rfl, chain⟩ := ih parentIncluded
        rw [← FileSystem.descend_concat] at included
        exact ⟨names ++ [name], (FileSystem.descend_concat root names name).symm,
          chain.concat plain listed included⟩

/-- The reported ones among the directories that a search reaches are the top-most
repositories. -/
theorem isTopRepository_iff :
    files.IsTopRepository root directory ↔
      StackSearch.Reaches expand root directory ∧ isReported files directory = true := by
  rw [FileSystem.IsTopRepository, expansion.inspected_iff, and_assoc, isReported_iff]

end ScanExpansion

end CheckGitStatus
