import CheckGitStatus.Cpp.Discovery
import CheckGitStatus.Paths

/-! # The spelling of the scan root

`lexically_normal` cleans a path but keeps a separator at the end
(`CheckGitStatus.Cpp.lexicallyNormal_eq`), so that a directory is scanned under one of two
paths. With the separator it has no name, is not excluded and is reported under another
text. The two scans agree only for some directories
(`CheckGitStatus.Cpp.discoverRepositories_spelling_iff`).
-/

namespace CheckGitStatus.Cpp

open Library

/-! ## Normalised roots -/

/-- The path ends in a separator, or in a component that stands for a directory. -/
def keepsSeparator (path : Path) : Bool :=
  path.getLast? == some slash ||
    (components path).getLast?.any fun component => component == ascii "." || component == ascii ".."

theorem normalComponent_fst (state : List Text × Bool) (component : Text) :
    (normalComponent true state component).1 = resolveComponent true state.1 component := by
  obtain ⟨names, separator⟩ := state
  unfold normalComponent resolveComponent
  by_cases dot : component = ascii "."
  · simp only [dot, ↓reduceIte]
  by_cases dotdot : component = ascii ".."
  · subst dotdot
    cases names with
    | nil => simp only [dot, ↓reduceIte]
    | cons last rest =>
        by_cases kept : last = ascii ".."
        · simp only [dot, kept, ↓reduceIte]
        · simp only [dot, kept, ↓reduceIte]
  · simp only [dot, dotdot, ↓reduceIte]

theorem foldl_normalComponent_fst (rest : List Text) (state : List Text × Bool) :
    (rest.foldl (normalComponent true) state).1 = rest.foldl (resolveComponent true) state.1 := by
  induction rest generalizing state with
  | nil => rfl
  | cons component rest ih => rw [List.foldl_cons, ih, normalComponent_fst, List.foldl_cons]

/-- A separator follows the names exactly after a component that is no name. -/
theorem normalComponent_snd {names : List Text} (valid : ∀ name ∈ names, ValidName name)
    (separator : Bool) (component : Text) :
    (normalComponent true (names, separator) component).2 =
      (component == ascii "." || component == ascii "..") := by
  unfold normalComponent
  by_cases dot : component = ascii "."
  · simp only [dot, ↓reduceIte, BEq.rfl, Bool.true_or]
  by_cases dotdot : component = ascii ".."
  · rw [dotdot, BEq.rfl, Bool.or_true]
    cases names with
    | nil => rfl
    | cons last rest =>
        have kept : last ≠ ascii ".." := (valid last List.mem_cons_self).not_dotdot
        dsimp only
        rw [if_neg (by decide), if_pos rfl, if_neg kept]
  · rw [beq_eq_false_iff_ne.mpr dot, beq_eq_false_iff_ne.mpr dotdot]
    simp only [dot, dotdot, ↓reduceIte, Bool.or_self]

/-- Normalising remembers whether the last component was a dot or two. -/
theorem foldl_normalComponent_snd (path : Path) :
    ((components path).foldl (normalComponent true) ([], false)).2 =
      (components path).getLast?.any fun component =>
        component == ascii "." || component == ascii ".." := by
  have proper : ∀ component ∈ components path, component ≠ [] ∧ slash ∉ component :=
    fun _ => mem_components
  rcases List.eq_nil_or_concat' (components path) with empty | ⟨front, last, split⟩
  · rw [empty]
    rfl
  · rw [split] at proper ⊢
    rw [List.foldl_concat, List.getLast?_concat, Option.any_some]
    apply normalComponent_snd
    rw [foldl_normalComponent_fst]
    exact foldl_resolveComponent_valid (fun _ absent => absurd absent List.not_mem_nil)
      fun component inside => proper component (List.mem_append_left _ inside)

/-- A clean path is the root exactly if no name is left. -/
theorem cleanPath_eq_slash_iff {path : Path} (rooted : path.head? = some slash) :
    cleanPath path = [slash] ↔ resolvedNames path = [] := by
  rw [cleanPath_eq_descend rooted]
  constructor
  · intro isRoot
    rw [← components_descend (resolvedNames_valid path), isRoot]
    decide
  · intro none
    rw [none]
    rfl

/-- `lexically_normal` keeps a separator behind what is cleaned. -/
theorem lexicallyNormal_eq {path : Path} (rooted : path.head? = some slash) :
    lexicallyNormal path =
      if keepsSeparator path = true ∧ cleanPath path ≠ [slash] then cleanPath path ++ [slash]
      else cleanPath path := by
  have nonempty : path ≠ [] := by
    rintro rfl
    cases rooted
  have names : ((components path).foldl (normalComponent true) ([], false)).1.reverse =
      resolvedNames path := by
    rw [foldl_normalComponent_fst]
    rfl
  have separator := foldl_normalComponent_snd path
  have valid := resolvedNames_valid path
  have clean := cleanPath_eq_descend rooted
  rw [descend_eq_intercalate valid] at clean
  have noParent : ((components path).foldl (normalComponent true) ([], false)).1.head? ≠
      some (ascii "..") := by
    intro parent
    have inside := List.mem_reverse.mpr (List.mem_of_mem_head? (Option.mem_def.mpr parent))
    rw [names] at inside
    exact (valid _ inside).not_dotdot rfl
  have isRoot : ((components path).foldl (normalComponent true) ([], false)).1 ≠ [] ↔
      cleanPath path ≠ [slash] := by
    rw [ne_eq, ← List.reverse_eq_nil_iff, names, ← cleanPath_eq_slash_iff rooted]
  have ending : (((components path).foldl (normalComponent true) ([], false)).2 ||
        path.getLast? == some slash) = true ∧
      ((components path).foldl (normalComponent true) ([], false)).1 ≠ [] ∧
      ((components path).foldl (normalComponent true) ([], false)).1.head? ≠ some (ascii "..") ↔
        keepsSeparator path = true ∧ cleanPath path ≠ [slash] := by
    rw [isRoot, separator, Bool.or_comm, keepsSeparator]
    exact ⟨fun ⟨ends, notRoot, _⟩ => ⟨ends, notRoot⟩,
      fun ⟨ends, notRoot⟩ => ⟨ends, notRoot, noParent⟩⟩
  have isAbsolute : (path.head? == some slash) = true := by rw [rooted, BEq.rfl]
  have parts : (path.splitOn slash).filter (fun component => component ≠ []) = components path := rfl
  unfold lexicallyNormal
  simp only [nonempty, ↓reduceIte, isAbsolute, parts, names]
  rw [if_congr ending rfl rfl, clean]
  split
  · rfl
  · exact List.append_nil _

example : lexicallyNormal (ascii "/a/./b//../c/.") = ascii "/a/c/" := by decide

/-! ## The two paths of a directory -/

section Separated

variable {files : PosixFileSystem} {directory : Path}

/-- A path with a separator at its end has no file name. -/
theorem filename_separator (directory : Path) : filename (directory ++ [slash]) = [] := by
  rw [filename, List.rtakeWhile_concat_neg _ _ _ (by decide)]

/-- What is below a directory has the same path under both of its own. -/
theorem joinPath_separator (named : filename directory ≠ []) (name : Text) :
    joinPath (directory ++ [slash]) name = joinPath directory name := by
  have unnamed := filename_separator directory
  rw [joinPath, if_neg (not_not.mpr unnamed), joinPath, if_pos named, List.append_assoc]
  rfl

/-- So it is never excluded. -/
theorem isExcludedScanDirectory_separator (directory : Path) :
    isExcludedScanDirectory (directory ++ [slash]) = false := by
  rw [isExcludedScanDirectory, filename_separator]
  decide

theorem hasMarker_separator (named : filename directory ≠ []) :
    files.hasMarker (directory ++ [slash]) = files.hasMarker directory := by
  rw [FileSystem.hasMarker, FileSystem.hasMarker, joinPath_separator named]

/-- Without its separator a directory may be excluded. -/
theorem isEntered_separator (named : filename directory ≠ [])
    (included : isExcludedScanDirectory directory = false) :
    isEntered files.toFileSystem (directory ++ [slash]) =
      isEntered files.toFileSystem directory := by
  rw [isEntered, isEntered, isExcludedScanDirectory_separator, included, hasMarker_separator named]

theorem pushedPath_separator (named : filename directory ≠ []) :
    pushedPath (directory ++ [slash]) = pushedPath directory := by
  funext entry
  rw [pushedPath, pushedPath, joinPath_separator named]

theorem entryWarnings_separator (named : filename directory ≠ []) :
    entryWarnings (directory ++ [slash]) = entryWarnings directory := by
  funext entry
  rw [entryWarnings, entryWarnings, pushedPath_separator named, joinPath_separator named]

/-- The separator makes no difference to the directories below, unless the name is excluded. -/
theorem children_separator (named : filename directory ≠ [])
    (accepted : files.status directory = .ok .directory)
    (included : isExcludedScanDirectory directory = false) :
    children files.toFileSystem (directory ++ [slash]) = children files.toFileSystem directory := by
  rw [children, children, isEntered_separator named included, pushedPath_separator named,
    files.listing_separator directory accepted]

/-- The directories below a directory do not depend on its path. -/
theorem finite_separator (named : filename directory ≠ [])
    (accepted : files.status directory = .ok .directory) (finite : files.Finite directory) :
    files.Finite (directory ++ [slash]) := by
  refine .intro _ fun child ⟨name, ⟨entry, listed, sameName, real⟩, below⟩ => ?_
  rw [files.listing_separator directory accepted] at listed
  rw [joinPath_separator named] at below
  exact finite.inv ⟨name, ⟨entry, listed, sameName, real⟩, below⟩

end Separated

/-! ## Two spellings of one root -/

/-- A scan from this root has neither a repository nor a failure to report. -/
structure NothingFound (files : FileSystem) (root : Path) : Prop where
  repositories : ∀ directory, ¬ files.IsTopRepository root directory
  failures : ∀ directory warning, files.Inspected root directory →
    files.hasMarker directory = false → ¬ FailureMessage files directory warning

/-- The result of a scan is empty exactly if there is nothing to report. -/
theorem resultOf_eq_empty_iff {files : FileSystem} {root : Path} {visits : List Path}
    (worksOff : StackSearch.WorksOff (children files) [root] visits) :
    resultOf files visits = {} ↔ NothingFound files root := by
  have expansion := children_scanExpansion files
  have reached := @StackSearch.mem_visited_iff _ _ _ _ worksOff.run
  have noRepositories : sortByKey pathText (visits.filter (isReported files)) = [] ↔
      ∀ directory, ¬ files.IsTopRepository root directory := by
    rw [← List.length_eq_zero_iff, (sortByKey_perm pathText _).length_eq, List.length_eq_zero_iff,
      List.filter_eq_nil_iff]
    refine forall_congr' fun directory => ?_
    rw [expansion.isTopRepository_iff, reached, not_and]
  have noWarnings : visits.flatMap (directoryWarnings files) = [] ↔
      ∀ directory warning, files.Inspected root directory →
        files.hasMarker directory = false → ¬ FailureMessage files directory warning := by
    rw [List.flatMap_eq_nil_iff]
    refine forall_congr' fun directory => ?_
    rw [List.eq_nil_iff_forall_not_mem, reached, expansion.inspected_iff]
    simp only [mem_directoryWarnings_iff, isEntered_iff, not_and, and_imp]
    tauto
  constructor
  · intro empty
    exact ⟨noRepositories.mp (congrArg DiscoveryResult.repositories empty),
      noWarnings.mp (congrArg DiscoveryResult.warnings empty)⟩
  · intro nothing
    rw [resultOf, noRepositories.mpr nothing.repositories, noWarnings.mpr nothing.failures]

/-- What a scan from a directory reports does not depend on a separator at the end. -/
def SeparatorIgnored (files : FileSystem) (directory : Path) : Prop :=
  if isExcludedScanDirectory directory then NothingFound files (directory ++ [slash])
  else files.hasMarker directory = false ∧ (files.listing directory).failure = none

section Results

variable {files : PosixFileSystem} {directory : Path}

/-- A failed listing is reported under the path that was used. -/
theorem walkWarning_separator_iff (directory : Path) (failure : Option ErrorCode) :
    walkWarning directory failure = walkWarning (directory ++ [slash]) failure ↔ failure = none := by
  cases failure with
  | none => exact iff_of_true rfl rfl
  | some error =>
      refine iff_of_false ?_ (Option.some_ne_none error)
      intro same
      have lengths := congrArg (fun warnings => warnings.flatten.length) same
      simp only [walkWarning, pathMessage, pathText, List.flatten_cons, List.flatten_nil,
        List.length_append, List.length_singleton, List.append_nil] at lengths
      omega

/-- A repository is reported under the path that was used. -/
theorem resultOf_separator_of_marked (named : filename directory ≠ [])
    (included : isExcludedScanDirectory directory = false)
    (marked : files.hasMarker directory = true) :
    resultOf files.toFileSystem [directory] ≠ resultOf files.toFileSystem [directory ++ [slash]] := by
  have bareReported : isReported files.toFileSystem directory = true :=
    isReported_iff.mpr ⟨included, marked⟩
  have separatedReported : isReported files.toFileSystem (directory ++ [slash]) = true :=
    isReported_iff.mpr ⟨isExcludedScanDirectory_separator directory,
      (hasMarker_separator named).trans marked⟩
  intro same
  have repositories := congrArg DiscoveryResult.repositories same
  simp only [resultOf, List.filter_cons, bareReported, separatedReported, ↓reduceIte,
    List.filter_nil] at repositories
  have lengths := congrArg (fun paths => paths.flatten.length) repositories
  simp only [sortByKey, List.insertionSort, List.foldr, List.orderedInsert, List.flatten_cons,
    List.flatten_nil, List.append_nil, List.length_append, List.length_singleton] at lengths
  omega

/-- Of a directory that is listed under both paths only a failed listing tells which. -/
theorem resultOf_separator_iff_of_unmarked (named : filename directory ≠ [])
    (accepted : files.status directory = .ok .directory)
    (included : isExcludedScanDirectory directory = false)
    (unmarked : files.hasMarker directory = false) (below : List Path) :
    resultOf files.toFileSystem (directory :: below) =
        resultOf files.toFileSystem ((directory ++ [slash]) :: below) ↔
      (files.listing directory).failure = none := by
  have entered : isEntered files.toFileSystem directory = true :=
    isEntered_iff.mpr ⟨included, unmarked⟩
  have separatedEntered := (isEntered_separator named included).trans entered
  have notReported : isReported files.toFileSystem directory = false := by
    rw [isReported, unmarked, Bool.and_false]
  have separatedNotReported : isReported files.toFileSystem (directory ++ [slash]) = false := by
    rw [isReported, hasMarker_separator named, unmarked, Bool.and_false]
  rw [← walkWarning_separator_iff directory]
  simp only [resultOf, List.filter_cons, notReported, separatedNotReported, Bool.false_eq_true,
    ↓reduceIte, List.flatMap_cons, directoryWarnings, entered, separatedEntered, markerWarnings,
    joinPath_separator named, entryWarnings_separator named,
    files.listing_separator directory accepted, DiscoveryResult.mk.injEq, true_and, and_true,
    List.append_cancel_right_eq, List.append_cancel_left_eq]

/-- The search ends at a directory that is not entered. -/
theorem worksOff_of_not_entered {path : Path}
    (skipped : isEntered files.toFileSystem path = false) :
    StackSearch.WorksOff (children files.toFileSystem) [path] [path] := by
  have expanded : children files.toFileSystem path = [] := by
    rw [children, skipped, if_neg Bool.false_ne_true]
  apply StackSearch.WorksOff.node
  rw [expanded]
  exact .nil

/-- A directory that is scanned under both of its paths, with what the results
have in common. -/
theorem exists_results_of_separated (named : filename directory ≠ [])
    (accepted : files.status directory = .ok .directory) (finite : files.Finite directory) :
    ∃ visits separatedVisits,
      StackSearch.WorksOff (children files.toFileSystem) [directory] visits ∧
      StackSearch.WorksOff (children files.toFileSystem) [directory ++ [slash]] separatedVisits ∧
      (resultOf files.toFileSystem visits = resultOf files.toFileSystem separatedVisits ↔
        SeparatorIgnored files.toFileSystem directory) := by
  have expansion := children_scanExpansion files.toFileSystem
  unfold SeparatorIgnored
  by_cases included : isExcludedScanDirectory directory = false
  · rw [included, if_neg Bool.false_ne_true]
    by_cases unmarked : files.hasMarker directory = false
    · have listed : ∃ below, StackSearch.WorksOff (children files.toFileSystem)
          (children files.toFileSystem directory) below :=
        StackSearch.exists_worksOff_of_each fun child inside =>
          StackSearch.exists_worksOff ((expansion.wellFounded finite).inv inside)
      obtain ⟨below, worksOff⟩ := listed
      refine ⟨directory :: below, (directory ++ [slash]) :: below, worksOff.node, ?_, ?_⟩
      · apply StackSearch.WorksOff.node
        rw [children_separator named accepted included]
        exact worksOff
      · rw [resultOf_separator_iff_of_unmarked named accepted included unmarked]
        exact ⟨fun failure => ⟨unmarked, failure⟩, And.right⟩
    · rw [Bool.not_eq_false] at unmarked
      have skipped : isEntered files.toFileSystem directory = false := by
        rw [isEntered, unmarked, Bool.not_true, Bool.and_false]
      refine ⟨[directory], [directory ++ [slash]], worksOff_of_not_entered skipped,
        worksOff_of_not_entered ((isEntered_separator named included).trans skipped), ?_⟩
      refine iff_of_false (resultOf_separator_of_marked named included unmarked) ?_
      rintro ⟨plain, _⟩
      rw [unmarked] at plain
      cases plain
  · rw [Bool.not_eq_false] at included
    rw [included, if_pos rfl]
    obtain ⟨visits, worksOff⟩ := StackSearch.exists_worksOff
      (expansion.wellFounded (finite_separator named accepted finite))
    have skipped : isEntered files.toFileSystem directory = false := by
      rw [isEntered, included, Bool.not_true, Bool.false_and]
    have empty : resultOf files.toFileSystem [directory] = {} := by
      have notReported : isReported files.toFileSystem directory = false := by
        rw [isReported, included, Bool.not_true, Bool.false_and]
      simp only [resultOf, List.filter_cons, notReported, Bool.false_eq_true, ↓reduceIte,
        List.filter_nil, List.flatMap_cons, directoryWarnings, skipped, List.flatMap_nil,
        List.append_nil]
      rfl
    refine ⟨[directory], visits, worksOff_of_not_entered skipped, worksOff, ?_⟩
    rw [empty, eq_comm, resultOf_eq_empty_iff worksOff]

/-- Each spelling leads to the result of one of the two paths. -/
theorem discoverRepositories_of_spelling (accepted : files.status directory = .ok .directory)
    {visits separatedVisits : List Path}
    (worksOff : StackSearch.WorksOff (children files.toFileSystem) [directory] visits)
    (separated :
      StackSearch.WorksOff (children files.toFileSystem) [directory ++ [slash]] separatedVisits)
    (notRoot : directory ≠ [slash]) {root path : Path}
    (resolved : absolute files.toFileSystem root = .ok path) (denotes : cleanPath path = directory) :
    ∃ bound, ∀ fuel, bound ≤ fuel → discoverRepositories files.toFileSystem fuel root =
      some (resultOf files.toFileSystem
        (if keepsSeparator path = true then separatedVisits else visits)) := by
  have normal := lexicallyNormal_eq (absolute_rooted resolved)
  rw [denotes] at normal
  by_cases keeps : keepsSeparator path = true
  · rw [if_pos ⟨keeps, notRoot⟩] at normal
    rw [if_pos keeps]
    exact discoverRepositories_of_worksOff resolved normal
      (files.status_separator directory accepted) separated
  · rw [if_neg fun both => keeps both.1] at normal
    rw [if_neg keeps]
    exact discoverRepositories_of_worksOff resolved normal accepted worksOff

end Results

/-- Two spellings of one directory lead to the same result exactly if both or neither keep
a separator, or it makes no difference. -/
theorem discoverRepositories_spelling_iff {files : PosixFileSystem}
    {first second firstPath secondPath directory : Path}
    (firstResolved : absolute files.toFileSystem first = .ok firstPath)
    (secondResolved : absolute files.toFileSystem second = .ok secondPath)
    (firstDenotes : cleanPath firstPath = directory)
    (secondDenotes : cleanPath secondPath = directory)
    (accepted : files.status directory = .ok .directory) (finite : files.Finite directory) :
    ∃ firstResult secondResult bound,
      (∀ fuel, bound ≤ fuel →
        discoverRepositories files.toFileSystem fuel first = some firstResult ∧
        discoverRepositories files.toFileSystem fuel second = some secondResult) ∧
      (firstResult = secondResult ↔
        directory = [slash] ∨ keepsSeparator firstPath = keepsSeparator secondPath ∨
          SeparatorIgnored files.toFileSystem directory) := by
  have clean : IsClean directory := by
    rw [← firstDenotes]
    exact cleanPath_isClean (absolute_rooted firstResolved)
  by_cases isRoot : directory = [slash]
  · have normal : ∀ {root path}, absolute files.toFileSystem root = .ok path →
        cleanPath path = directory → lexicallyNormal path = directory := by
      intro root path resolved denotes
      rw [lexicallyNormal_eq (absolute_rooted resolved), denotes,
        if_neg fun both => both.2 isRoot]
    obtain ⟨visits, worksOff⟩ := StackSearch.exists_worksOff
      ((children_scanExpansion files.toFileSystem).wellFounded finite)
    obtain ⟨firstBound, firstEnds⟩ := discoverRepositories_of_worksOff firstResolved
      (normal firstResolved firstDenotes) accepted worksOff
    obtain ⟨secondBound, secondEnds⟩ := discoverRepositories_of_worksOff secondResolved
      (normal secondResolved secondDenotes) accepted worksOff
    refine ⟨resultOf files.toFileSystem visits, resultOf files.toFileSystem visits,
      max firstBound secondBound, fun fuel enough => ?_, iff_of_true rfl (.inl isRoot)⟩
    rw [Nat.max_le] at enough
    exact ⟨firstEnds fuel enough.1, secondEnds fuel enough.2⟩
  · have named : filename directory ≠ [] := clean.noTrailingSeparator.resolve_right isRoot
    obtain ⟨visits, separatedVisits, worksOff, separated, same⟩ :=
      exists_results_of_separated named accepted finite
    obtain ⟨firstBound, firstEnds⟩ := discoverRepositories_of_spelling accepted worksOff separated
      isRoot firstResolved firstDenotes
    obtain ⟨secondBound, secondEnds⟩ := discoverRepositories_of_spelling accepted worksOff
      separated isRoot secondResolved secondDenotes
    refine ⟨resultOf files.toFileSystem
          (if keepsSeparator firstPath = true then separatedVisits else visits),
        resultOf files.toFileSystem
          (if keepsSeparator secondPath = true then separatedVisits else visits),
        max firstBound secondBound, fun fuel enough => ?_, ?_⟩
    · rw [Nat.max_le] at enough
      exact ⟨firstEnds fuel enough.1, secondEnds fuel enough.2⟩
    · rw [← same]
      cases keepsSeparator firstPath <;> cases keepsSeparator secondPath
      · exact iff_of_true rfl (.inr (.inl rfl))
      · simp only [Bool.false_eq_true, ↓reduceIte, isRoot, false_or]
      · simp only [Bool.false_eq_true, Bool.true_eq_false, ↓reduceIte, isRoot, false_or]
        exact eq_comm
      · exact iff_of_true rfl (.inr (.inl rfl))

/-- The directory `/w` is the current one. In it is `build`, with the repository `lib`. -/
def buildRoot : PosixFileSystem :=
  .ofBare (ascii "/w") rfl
    (fun path =>
      if [[], ascii "/w", ascii "/w/build", ascii "/w/build/lib",
        ascii "/w/build/lib/.git"].contains path then .ok .directory
      else .error ⟨2, ascii "No such file or directory"⟩)
    (fun path =>
      if path = ascii "/w/build" then
        { entries := [⟨ascii "lib", .directory⟩]
          names_valid := by decide
          names_nodup := by decide }
      else .empty)

theorem buildRoot_finite : buildRoot.Finite (ascii "/w/build") := by
  refine .intro _ fun child ⟨name, ⟨entry, listed, sameName, _⟩, below⟩ => ?_
  have entries : (buildRoot.listing (ascii "/w/build")).entries = [⟨ascii "lib", .directory⟩] := rfl
  rw [entries, List.mem_singleton] at listed
  subst listed sameName below
  refine .intro _ fun child ⟨name, ⟨entry, listed, _⟩, _⟩ => ?_
  have leaf : (buildRoot.listing (joinPath (ascii "/w/build") (ascii "lib"))).entries = [] := rfl
  rw [leaf] at listed
  cases listed

/-- With a separator at the end, an excluded directory is scanned. -/
theorem discoverRepositories_buildRoot :
    cleanPath (ascii "/w/build") = ascii "/w/build" ∧
      cleanPath (ascii "/w/build/") = ascii "/w/build" ∧
      buildRoot.status (ascii "/w/build") = .ok .directory ∧
      buildRoot.Finite (ascii "/w/build") ∧
      discoverRepositories buildRoot.toFileSystem 3 (ascii "build") = some {} ∧
      discoverRepositories buildRoot.toFileSystem 3 (ascii "build/") =
        some { repositories := [ascii "/w/build/lib"] } :=
  ⟨by decide, by decide, by decide, buildRoot_finite, by decide, by decide⟩

/-- Two spellings of `build` without a separator. -/
theorem discoverRepositories_buildSpellings :
    ∃ firstResult secondResult bound,
      (∀ fuel, bound ≤ fuel →
        discoverRepositories buildRoot.toFileSystem fuel (ascii "build") = some firstResult ∧
        discoverRepositories buildRoot.toFileSystem fuel (ascii "../w/./build") =
          some secondResult) ∧
      (firstResult = secondResult ↔
        ascii "/w/build" = [slash] ∨
          keepsSeparator (ascii "/w/build") = keepsSeparator (ascii "/w/../w/./build") ∨
          SeparatorIgnored buildRoot.toFileSystem (ascii "/w/build")) :=
  discoverRepositories_spelling_iff (by decide) (by decide) (by decide) (by decide) (by decide)
    buildRoot_finite

end CheckGitStatus.Cpp
