import CheckGitStatus.Cpp.ScanRoot
import CheckGitStatus.Go.ListingFailures

/-! # Where the two programs discover the same repositories

Both programs start from the same directory, the C++ program perhaps under a path that
ends in a separator. The Go program does not walk a root that is a link and drops what a
listing has produced before it fails. It finds the same repositories exactly if it finds
all that the C++ program finds (`CheckGitStatus.discoverRepositories_parity_iff`), and so
it does where nothing fails (`CheckGitStatus.exists_same_repositories`).
-/

namespace CheckGitStatus

open Library

variable {files : PosixFileSystem} {root path directory repository : Path} (quote : Text → Text)

/-! ## The root -/

/-- Both programs resolve a root to the same directory. -/
theorem Go.abs_of_absolute (resolved : Cpp.absolute files.toFileSystem root = .ok path) :
    Go.abs files.toFileSystem root = .ok (cleanPath path) := by
  unfold Cpp.absolute at resolved
  split at resolved
  · cases resolved
  · split at resolved
    · rename_i rooted
      cases resolved
      rw [Go.abs, if_pos rooted]
    · rename_i relative
      split at resolved
      · cases resolved
      · rename_i current found
        cases resolved
        have rooted := files.currentPath_rooted current found
        have nonempty : current ≠ [] := by
          rintro rfl
          cases rooted
        rw [Go.abs, if_neg relative, cleanPath_joinPath rooted]
        simp only [found, Go.join, ne_eq, nonempty, not_false_eq_true, ↓reduceIte]

/-! ## What is below the two paths of the root -/

/-- A separator behind the root does not change the paths below it. -/
theorem descend_separator (named : filename directory ≠ []) (name : Text) (rest : List Text) :
    FileSystem.descend (directory ++ [slash]) (name :: rest) =
      FileSystem.descend directory (name :: rest) := by
  rw [FileSystem.descend, List.foldl_cons, Cpp.joinPath_separator named]
  rfl

/-- What is inspected below a directory is inspected under its other path. -/
theorem inspected_separator (named : filename directory ≠ [])
    (accepted : files.status directory = .ok .directory)
    (inspected : files.Inspected directory repository) (below : repository ≠ directory) :
    files.Inspected (directory ++ [slash]) repository := by
  obtain ⟨names, rfl, chain⟩ := inspected
  cases names with
  | nil => exact absurd rfl below
  | cons name rest =>
      refine ⟨name :: rest, (descend_separator named name rest).symm, ?_, ?_, ?_⟩
      · intro front isFront
        cases front with
        | nil => exact Cpp.isExcludedScanDirectory_separator directory
        | cons first others =>
            rw [descend_separator named]
            exact chain.included _ isFront
      · intro front last isFront
        cases front with
        | nil =>
            have listed := chain.listed [] last isFront
            rw [FileSystem.ListsDirectory] at listed ⊢
            rw [show FileSystem.descend (directory ++ [slash]) [] = directory ++ [slash] from rfl,
              files.listing_separator directory accepted]
            exact listed
        | cons first others =>
            rw [descend_separator named]
            exact chain.listed _ last isFront
      · intro front isFront notAll
        cases front with
        | nil =>
            exact (Cpp.hasMarker_separator named).trans (chain.unmarked [] isFront notAll)
        | cons first others =>
            rw [descend_separator named]
            exact chain.unmarked _ isFront notAll

/-- What is inspected without the partial listings is inspected with them. -/
theorem inspected_of_withoutPartial {files : FileSystem}
    (inspected : (Go.withoutPartial files).Inspected directory repository) :
    files.Inspected directory repository := by
  obtain ⟨names, same, chain⟩ := inspected
  refine ⟨names, same, chain.included, fun front name isFront => ?_, chain.unmarked⟩
  exact Go.listsDirectory_of_withoutPartial (chain.listed front name isFront)

/-- No path below a directory ends in a separator. -/
theorem not_inspected_separator {files : FileSystem} (bare : NoTrailingSeparator directory)
    (named : filename directory ≠ []) : ¬ files.Inspected directory (directory ++ [slash]) := by
  have expansion := Cpp.children_scanExpansion files
  intro inspected
  rcases expansion.noTrailingSeparator_of_reaches bare (expansion.inspected_iff.mp inspected).1 with
    unnamed | isRoot
  · exact unnamed (Cpp.filename_separator directory)
  · cases List.append_eq_singleton_iff.mp isRoot with
    | inl both =>
        rw [both.1] at named
        exact named (by decide)
    | inr both => cases both.2

/-! ## The discoveries -/

/-- What the Go program discovers from an accepted root. -/
theorem Go.exists_result_of_accepted
    (resolved : Go.abs files.toFileSystem root = .ok directory)
    (accepted : files.status directory = .ok .directory) (finite : files.Finite directory) :
    ∃ result bound,
      (∀ fuel, bound ≤ fuel → Go.discoverRepositories quote files fuel root = some result) ∧
      result.2.2 = none ∧
      (result.1.Pairwise fun left right => pathText left < pathText right) ∧
      ∀ repository, repository ∈ result.1 ↔ ¬ files.IsLink directory ∧
        (Go.withoutPartial files.toFileSystem).IsTopRepository directory repository := by
  by_cases link : files.IsLink directory
  · refine ⟨([], [], none), 1, fun fuel enough => ?_, rfl, List.Pairwise.nil, fun repository => ?_⟩
    · obtain ⟨more, rfl⟩ := Nat.exists_eq_add_of_le' enough
      exact Go.discoverRepositories_of_isLink quote resolved accepted link more
    · exact iff_of_false List.not_mem_nil fun ⟨plain, _⟩ => plain link
  · obtain ⟨visits, bound, worksOff, ends⟩ :=
      Go.exists_visits_of_not_isLink quote resolved accepted link finite
    obtain ⟨top, -⟩ := Go.resultOf_findsReadable quote (Go.abs_isClean resolved) worksOff
    refine ⟨_, bound, ends, rfl, top.sorted, fun repository => ?_⟩
    rw [top.repositories, and_iff_right link]

/-- **When both programs discover the same repositories.** From an accepted root both
discoveries end without an error, and the lists are the same exactly if the root is no
link and all that the C++ program reports is top-most in the tree without the partial
listings, under the path that it is reported with. -/
theorem discoverRepositories_parity_iff
    (resolved : Cpp.absolute files.toFileSystem root = .ok path)
    (accepted : files.status (cleanPath path) = .ok .directory)
    (finite : files.Finite (cleanPath path)) :
    ∃ cppResult goResult bound,
      (∀ fuel, bound ≤ fuel →
        Cpp.discoverRepositories files.toFileSystem fuel root = some cppResult ∧
        Go.discoverRepositories quote files fuel root = some goResult) ∧
      cppResult.error = [] ∧ goResult.2.2 = none ∧
      (goResult.1 = cppResult.repositories ↔
        ∀ repository, files.IsTopRepository (Cpp.lexicallyNormal path) repository →
          ¬ files.IsLink (cleanPath path) ∧
            (Go.withoutPartial files.toFileSystem).IsTopRepository (cleanPath path)
              repository) := by
  have rooted := Cpp.absolute_rooted resolved
  have expansion := Cpp.children_scanExpansion files.toFileSystem
  obtain ⟨cppResult, cppBound, cppEnds, found⟩ :=
    Cpp.exists_findsTopRepositories resolved accepted finite
  obtain ⟨goResult, goBound, goEnds, noError, sorted, members⟩ :=
    Go.exists_result_of_accepted quote (Go.abs_of_absolute resolved) accepted finite
  refine ⟨cppResult, goResult, max cppBound goBound, fun fuel enough => ?_, found.noError, noError,
    fun same repository isTop => ?_, fun reaches => ?_⟩
  · rw [Nat.max_le] at enough
    exact ⟨cppEnds fuel enough.1, goEnds fuel enough.2⟩
  · rw [← found.repositories, ← same, members] at isTop
    exact isTop
  refine eq_of_strict sorted found.sorted fun repository => ?_
  rw [members, found.repositories]
  refine ⟨fun ⟨_, isTop⟩ => ?_, reaches repository⟩
  have inspected := inspected_of_withoutPartial isTop.1
  rcases Cpp.lexicallyNormal_cases rooted with bare | ⟨named, separated⟩
  · rw [bare]
    exact ⟨inspected, isTop.2⟩
  by_cases isRoot : repository = cleanPath path
  · -- a root that is a repository is reported with the separator
    subst isRoot
    have itself : files.IsTopRepository (Cpp.lexicallyNormal path) (Cpp.lexicallyNormal path) := by
      rw [separated]
      refine ⟨expansion.inspected_iff.mpr ⟨.refl, ?_⟩, ?_⟩
      · exact Cpp.isExcludedScanDirectory_separator _
      · exact (Cpp.hasMarker_separator named).trans isTop.2
    obtain ⟨-, reached, -⟩ := reaches _ itself
    rw [separated] at reached
    exact absurd reached
      (not_inspected_separator (cleanPath_isClean rooted).noTrailingSeparator named)
  · rw [separated]
    exact ⟨inspected_separator named accepted inspected isRoot, isTop.2⟩

/-- A listing that breaks off hides a repository from the Go program. -/
example : Cpp.discoverRepositories Go.partialTree.toFileSystem 5 (ascii "../t/") =
      some
        { repositories := [ascii "/t/a/kit", ascii "/t/b"]
          warnings := [ascii "walk \"/t/a\": readdirent /t/a: input/output error"] } ∧
    Go.discoverRepositories Go.plainQuote Go.partialTree 3 (ascii "../t/") =
      some ([ascii "/t/b"],
        [ascii "walk \"/t/a\": readdirent /t/a: input/output error"], none) := by decide

theorem discoverRepositories_parity_partialTree :
    ∃ cppResult goResult bound,
      (∀ fuel, bound ≤ fuel →
        Cpp.discoverRepositories Go.partialTree.toFileSystem fuel (ascii "../t/") =
          some cppResult ∧
        Go.discoverRepositories Go.plainQuote Go.partialTree fuel (ascii "../t/") =
          some goResult) ∧
      cppResult.error = [] ∧ goResult.2.2 = none ∧
      (goResult.1 = cppResult.repositories ↔
        ∀ repository,
          Go.partialTree.IsTopRepository (Cpp.lexicallyNormal (ascii "/t/../t/")) repository →
          ¬ Go.partialTree.IsLink (cleanPath (ascii "/t/../t/")) ∧
            (Go.withoutPartial Go.partialTree.toFileSystem).IsTopRepository
              (cleanPath (ascii "/t/../t/")) repository) :=
  discoverRepositories_parity_iff Go.plainQuote (by decide) (by decide) Go.partialTree_finite

/-! ## Without failures -/

/-- Nothing that a scan from this root reads fails, except that a path may not exist. -/
structure NothingFails (files : FileSystem) (root : Path) : Prop where
  listings : ∀ directory, files.Inspected root directory → files.hasMarker directory = false →
    (files.listing directory).failure = none
  markers : ∀ directory error, files.Inspected root directory →
    files.status (joinPath directory (ascii ".git")) = .error error → error.isNoSuchFile = true
  links : ∀ directory entry error, files.Inspected root directory →
    files.hasMarker directory = false → entry ∈ (files.listing directory).entries →
    entry.kind = .link (.error error) → error.isNoSuchFile = true

namespace NothingFails

variable {files : FileSystem} (nothing : NothingFails files root)
include nothing

/-- Where nothing fails the C++ program has nothing to warn of. -/
theorem not_cppFailure (inspected : files.Inspected root directory)
    (unmarked : files.hasMarker directory = false) (warning : Text) :
    ¬ Cpp.FailureMessage files directory warning := by
  intro failure
  cases failure with
  | marker error present failed =>
      rw [nothing.markers directory error inspected failed] at present
      cases present
  | entry entry error present listed failed =>
      rw [nothing.links directory entry error inspected unmarked listed failed] at present
      cases present
  | listing error failed =>
      rw [nothing.listings directory inspected unmarked] at failed
      cases failed

/-- Where nothing fails the Go program has nothing to warn of. -/
theorem not_goFailure (inspected : files.Inspected root directory)
    (unmarked : files.hasMarker directory = false) (warning : Text) :
    ¬ Go.FailureMessage quote files directory warning := by
  intro failure
  cases failure with
  | marker error present failed =>
      exact present (nothing.markers directory error inspected failed)
  | listing error failed =>
      rw [nothing.listings directory inspected unmarked] at failed
      cases failed

/-- Where no listing fails, the tree without the partial listings has the same directories. -/
theorem inspected_withoutPartial (inspected : files.Inspected root directory) :
    (Go.withoutPartial files).Inspected root directory := by
  have expansion := Cpp.children_scanExpansion files
  obtain ⟨names, same, chain⟩ := inspected
  refine ⟨names, same, chain.included, fun front name isFront => ?_, chain.unmarked⟩
  have shorter : front <+: names := (List.prefix_append front [name]).trans isFront
  have notAll : front ≠ names := by
    rintro rfl
    have long := isFront.length_le
    rw [List.length_append, List.length_singleton] at long
    omega
  have reached := expansion.inspected_iff.mpr
    ⟨expansion.reaches_of_scanChain chain front shorter, chain.included front shorter⟩
  have readable := nothing.listings _ reached (chain.unmarked front shorter notAll)
  rw [FileSystem.ListsDirectory, Go.withoutPartial_listing readable]
  exact chain.listed front name isFront

end NothingFails

/-- Where nothing fails, both programs discover the same repositories of a root that is no
link and whose separator, if it keeps one, makes no difference, and warn of nothing. -/
theorem exists_same_repositories
    (resolved : Cpp.absolute files.toFileSystem root = .ok path)
    (accepted : files.status (cleanPath path) = .ok .directory)
    (plain : ¬ files.IsLink (cleanPath path)) (finite : files.Finite (cleanPath path))
    (spelled : Cpp.lexicallyNormal path = cleanPath path ∨
      Cpp.SeparatorIgnored files.toFileSystem (cleanPath path))
    (nothing : NothingFails files.toFileSystem (cleanPath path)) :
    ∃ repositories bound,
      (∀ fuel, bound ≤ fuel →
        Cpp.discoverRepositories files.toFileSystem fuel root = some { repositories } ∧
        Go.discoverRepositories quote files fuel root = some (repositories, [], none)) ∧
      (repositories.Pairwise fun left right => pathText left < pathText right) ∧
      ∀ repository, repository ∈ repositories ↔
        files.IsTopRepository (cleanPath path) repository := by
  obtain ⟨cppResult, cppBound, cppEnds, found⟩ :=
    Cpp.exists_findsTopRepositories_cleanPath resolved accepted finite spelled
  obtain ⟨visits, goBound, worksOff, goEnds⟩ := Go.exists_visits_of_not_isLink quote
    (Go.abs_of_absolute resolved) accepted plain finite
  have readable := Go.resultOf_findsReadable quote
    (cleanPath_isClean (Cpp.absolute_rooted resolved)) worksOff
  have cppCalm : cppResult.warnings = [] := by
    refine List.eq_nil_iff_forall_not_mem.mpr fun warning listed => ?_
    obtain ⟨directory, inspected, unmarked, failure⟩ := (found.warnings warning).mp listed
    exact nothing.not_cppFailure inspected unmarked warning failure
  have goCalm : (Go.resultOf quote files.toFileSystem visits).2.1 = [] := by
    refine List.eq_nil_iff_forall_not_mem.mpr fun warning listed => ?_
    obtain ⟨directory, inspected, unmarked, failure⟩ := (readable.warnings warning).mp listed
    exact nothing.not_goFailure quote (inspected_of_withoutPartial inspected) unmarked warning
      failure
  have same : (Go.resultOf quote files.toFileSystem visits).1 = cppResult.repositories := by
    refine eq_of_strict readable.top.sorted found.sorted fun repository => ?_
    rw [readable.top.repositories, found.repositories]
    exact ⟨fun ⟨inspected, marked⟩ => ⟨inspected_of_withoutPartial inspected, marked⟩,
      fun ⟨inspected, marked⟩ => ⟨nothing.inspected_withoutPartial inspected, marked⟩⟩
  refine ⟨cppResult.repositories, max cppBound goBound, fun fuel enough => ?_, found.sorted,
    found.repositories⟩
  rw [Nat.max_le] at enough
  refine ⟨?_, ?_⟩
  · rw [cppEnds fuel enough.1, ← cppCalm, ← found.noError]
  · rw [goEnds fuel enough.2, ← same, ← goCalm]
    rfl

end CheckGitStatus
