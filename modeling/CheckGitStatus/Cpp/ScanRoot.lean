import CheckGitStatus.Cpp.RootSpelling

/-! # The discovery from any root

The directories below a root form a tree under the path that keeps a separator as well
(`CheckGitStatus.Cpp.treeLike_lexicallyNormal`). So the discovery finds the top-most
repositories of whatever path `lexically_normal` makes of an accepted root
(`CheckGitStatus.Cpp.exists_findsTopRepositories`).
-/

namespace CheckGitStatus

open Library

namespace ScanExpansion

variable {files : FileSystem} {expand : Path → List Path} (expansion : ScanExpansion files expand)
  {directory : Path}
include expansion

/-- What is below a root with a separator at the end is longer and has none. -/
theorem reaches_separator {reached : Path}
    (reaches : StackSearch.Reaches expand (directory ++ [slash]) reached) :
    reached = directory ++ [slash] ∨
      NoTrailingSeparator reached ∧ (directory ++ [slash]).length < reached.length := by
  cases reaches with
  | refl => exact .inl rfl
  | @tail parent child above below =>
      have longer := expansion.length_lt_of_mem below
      have least := expansion.length_le_of_reaches above
      obtain ⟨_, name, ⟨entry, inside, rfl, _⟩, rfl, _⟩ := expansion.mem_iff.mp below
      have valid := (files.listing parent).names_valid entry inside
      exact .inr ⟨noTrailingSeparator_joinPath parent valid, Nat.lt_of_le_of_lt least longer⟩

/-- The directories below a root with a separator at the end form a tree. -/
theorem treeLike_separator (named : filename directory ≠ []) :
    StackSearch.TreeLike expand (directory ++ [slash]) where
  children_nodup parent _ := expansion.nodup parent
  parent_unique first second child firstReached secondReached below other := by
    obtain ⟨_, name, ⟨entry, inside, rfl, _⟩, rfl, _⟩ := expansion.mem_iff.mp below
    obtain ⟨_, otherName, ⟨otherEntry, otherInside, rfl, _⟩, same, _⟩ := expansion.mem_iff.mp other
    have valid := (files.listing first).names_valid entry inside
    have otherValid := (files.listing second).names_valid otherEntry otherInside
    have length : (directory ++ [slash]).length = directory.length + 1 := List.length_append
    rcases expansion.reaches_separator firstReached with rfl | ⟨firstBare, firstLong⟩ <;>
      rcases expansion.reaches_separator secondReached with rfl | ⟨secondBare, secondLong⟩
    · rfl
    · rw [Cpp.joinPath_separator named] at same
      obtain ⟨rfl, _⟩ := joinPath_inj (.inl named) secondBare valid otherValid same
      omega
    · rw [Cpp.joinPath_separator named] at same
      obtain ⟨rfl, _⟩ := joinPath_inj firstBare (.inl named) valid otherValid same
      omega
    · exact (joinPath_inj firstBare secondBare valid otherValid same).1
  root_free parent reached below := by
    have longer := expansion.length_lt_of_mem below
    have least := expansion.length_le_of_reaches reached
    omega

end ScanExpansion

namespace Cpp

variable {files : PosixFileSystem} {root path : Path}

/-- The root of a scan is a clean path, or one with a name and a separator behind it. -/
theorem lexicallyNormal_cases (rooted : path.head? = some slash) :
    lexicallyNormal path = cleanPath path ∨
      filename (cleanPath path) ≠ [] ∧ lexicallyNormal path = cleanPath path ++ [slash] := by
  rw [lexicallyNormal_eq rooted]
  split
  · rename_i separated
    have bare := (cleanPath_isClean rooted).noTrailingSeparator
    exact .inr ⟨bare.resolve_right separated.2, rfl⟩
  · exact .inl rfl

/-- From a normal root no directory is reached twice. -/
theorem treeLike_lexicallyNormal (files : FileSystem) (rooted : path.head? = some slash) :
    StackSearch.TreeLike (children files) (lexicallyNormal path) := by
  have expansion := children_scanExpansion files
  rcases lexicallyNormal_cases rooted with bare | ⟨named, separated⟩
  · rw [bare]
    exact expansion.treeLike (cleanPath_isClean rooted).noTrailingSeparator
  · rw [separated]
    exact expansion.treeLike_separator named

/-- The normal form of an accepted root is a directory. -/
theorem status_lexicallyNormal (rooted : path.head? = some slash)
    (accepted : files.status (cleanPath path) = .ok .directory) :
    files.status (lexicallyNormal path) = .ok .directory := by
  rcases lexicallyNormal_cases rooted with bare | ⟨_, separated⟩
  · rw [bare]
    exact accepted
  · rw [separated]
    exact files.status_separator _ accepted

theorem finite_lexicallyNormal (rooted : path.head? = some slash)
    (accepted : files.status (cleanPath path) = .ok .directory)
    (finite : files.Finite (cleanPath path)) : files.Finite (lexicallyNormal path) := by
  rcases lexicallyNormal_cases rooted with bare | ⟨named, separated⟩
  · rw [bare]
    exact finite
  · rw [separated]
    exact finite_separator named accepted finite

/-- A search of a tree visits what a scan is to report. -/
theorem resultOf_findsTopRepositories {files : FileSystem} {visits : List Path}
    (tree : StackSearch.TreeLike (children files) root)
    (worksOff : StackSearch.WorksOff (children files) [root] visits) :
    FindsTopRepositories files root (resultOf files visits) := by
  have expansion := children_scanExpansion files
  have reached := @StackSearch.mem_visited_iff _ _ _ _ worksOff.run
  have distinct := StackSearch.visited_nodup tree worksOff.run
  refine ⟨rfl, ?_, ?_, ?_⟩
  · apply sortByKey_strict
    exact (distinct.filter _).map fun _ _ same => same
  · intro directory
    rw [resultOf, (sortByKey_perm _ _).mem_iff, List.mem_filter, reached,
      expansion.isTopRepository_iff]
  · intro warning
    simp only [resultOf, List.mem_flatMap, reached, mem_directoryWarnings_iff, isEntered_iff,
      expansion.inspected_iff, and_assoc]

/-- The discovery from an accepted root ends and finds the top-most repositories, however
the root is spelled. -/
theorem exists_findsTopRepositories (resolved : absolute files.toFileSystem root = .ok path)
    (accepted : files.status (cleanPath path) = .ok .directory)
    (finite : files.Finite (cleanPath path)) :
    ∃ result bound, (∀ fuel, bound ≤ fuel →
        discoverRepositories files.toFileSystem fuel root = some result) ∧
      FindsTopRepositories files.toFileSystem (lexicallyNormal path) result := by
  have rooted := absolute_rooted resolved
  have expansion := children_scanExpansion files.toFileSystem
  obtain ⟨visits, worksOff⟩ := StackSearch.exists_worksOff
    (expansion.wellFounded (finite_lexicallyNormal rooted accepted finite))
  obtain ⟨bound, ends⟩ := discoverRepositories_of_worksOff resolved rfl
    (status_lexicallyNormal rooted accepted) worksOff
  exact ⟨_, bound, ends,
    resultOf_findsTopRepositories (treeLike_lexicallyNormal _ rooted) worksOff⟩

/-- Where the separator makes no difference, the repositories are those below the clean
path, under that path. -/
theorem exists_findsTopRepositories_cleanPath
    (resolved : absolute files.toFileSystem root = .ok path)
    (accepted : files.status (cleanPath path) = .ok .directory)
    (finite : files.Finite (cleanPath path))
    (spelled : lexicallyNormal path = cleanPath path ∨
      SeparatorIgnored files.toFileSystem (cleanPath path)) :
    ∃ result bound, (∀ fuel, bound ≤ fuel →
        discoverRepositories files.toFileSystem fuel root = some result) ∧
      FindsTopRepositories files.toFileSystem (cleanPath path) result := by
  have rooted := absolute_rooted resolved
  have found := exists_findsTopRepositories resolved accepted finite
  rcases lexicallyNormal_cases rooted with bare | ⟨named, separated⟩
  · rwa [bare] at found
  rcases spelled with bare | ignored
  · rwa [bare] at found
  obtain ⟨visits, separatedVisits, worksOff, separatedWorksOff, same⟩ :=
    exists_results_of_separated named accepted finite
  obtain ⟨bound, ends⟩ := discoverRepositories_of_worksOff resolved separated
    (files.status_separator _ accepted) separatedWorksOff
  rw [← same.mpr ignored] at ends
  have tree := (children_scanExpansion files.toFileSystem).treeLike
    (cleanPath_isClean rooted).noTrailingSeparator
  exact ⟨_, bound, ends, resultOf_findsTopRepositories tree worksOff⟩

end Cpp

end CheckGitStatus
