import CheckGitStatus.Go.Discovery

/-! # Listings that fail in the Go program

When `os.ReadDir` fails after some entries, `filepath.WalkDir` hands the error to the
callback of `discoverRepositories`, which answers with `fs.SkipDir`, so that the entries
that have been read are dropped. The walk is the one of a tree without them
(`CheckGitStatus.Go.withoutPartial`): it finds exactly the top-most repositories of that
tree and warns of every failure of a directory that it lists
(`CheckGitStatus.Go.discoverRepositories_withoutPartial`).
-/

namespace CheckGitStatus.Go

open Library

/-- The tree in which the listings that fail have no entries. -/
def withoutPartial (files : FileSystem) : FileSystem where
  currentPath := files.currentPath
  status := files.status
  listing directory :=
    match (files.listing directory).failure with
    | none => files.listing directory
    | some error =>
        { entries := []
          failure := some error
          names_valid := noNames_valid
          names_nodup := noNames_nodup }

variable {files : FileSystem} {root directory : Path}

/-- A listing that succeeds is kept. -/
theorem withoutPartial_listing (readable : (files.listing directory).failure = none) :
    (withoutPartial files).listing directory = files.listing directory := by
  simp only [withoutPartial, readable]

/-- A listing that fails loses its entries. -/
theorem withoutPartial_entries {error : ErrorCode}
    (failed : (files.listing directory).failure = some error) :
    ((withoutPartial files).listing directory).entries = [] := by
  simp only [withoutPartial, failed]

/-- The same directories are entered. -/
theorem isEntered_withoutPartial (files : FileSystem) :
    isEntered (withoutPartial files) = isEntered files := rfl

/-- What is listed without the partial listings is listed with them. -/
theorem listsDirectory_of_withoutPartial {name : Text}
    (listed : (withoutPartial files).ListsDirectory directory name) :
    files.ListsDirectory directory name := by
  obtain ⟨entry, inside, named⟩ := listed
  cases failed : (files.listing directory).failure with
  | none =>
      rw [withoutPartial_listing failed] at inside
      exact ⟨entry, inside, named⟩
  | some error =>
      rw [withoutPartial_entries failed] at inside
      cases inside

theorem finite_withoutPartial (finite : files.Finite root) :
    (withoutPartial files).Finite root := by
  refine Subrelation.accessible (fun below => ?_) finite
  obtain ⟨name, listed, same⟩ := below
  exact ⟨name, listsDirectory_of_withoutPartial listed, same⟩

/-! ## The walk -/

variable (quote : Text → Text)

/-- The warning of a failed listing. -/
def walkWarnings (files : FileSystem) (directory : Path) : List Text :=
  if isEntered files directory then
    (files.listing directory).failure.toList.map (pathMessage quote (ascii "walk") directory)
  else []

/-- The warnings that the failures of one directory give rise to. -/
def directoryWarnings (files : FileSystem) (directory : Path) : List Text :=
  markerWarnings quote files directory ++ walkWarnings quote files directory

/-- The state after visits of directories, whose listings may fail. -/
def visitEach (files : FileSystem) (visits : List Path) (state : Discovery) : Discovery where
  repositories := state.repositories ++ visits.filter (isReported files)
  warnings := state.warnings ++ visits.flatMap (directoryWarnings quote files)

theorem visitEach_nil (state : Discovery) : visitEach quote files [] state = state := by
  simp only [visitEach, List.filter_nil, List.flatMap_nil, List.append_nil]

theorem visitEach_append (first second : List Path) (state : Discovery) :
    visitEach quote files (first ++ second) state =
      visitEach quote files second (visitEach quote files first state) := by
  simp only [visitEach, List.filter_append, List.flatMap_append, List.append_assoc]

/-- A visit without a failed listing. -/
theorem visitEach_singleton (state : Discovery)
    (none : walkWarnings quote files directory = []) :
    visitEach quote files [directory] state = visitAll quote files [directory] state := by
  simp only [visitEach, visitAll, List.flatMap_singleton, directoryWarnings, none, List.append_nil]

section Walk

variable (clean : IsClean directory) (fuel : Nat) (state : Discovery)
include clean

/-- A directory that is not gone through is visited alone. -/
theorem walkDir_of_not_isEntered (left : ¬ isEntered files directory = true) :
    walkDir files (scanCallback quote files) (fuel + 1) directory (directoryEntry directory) state =
      some (visitEach quote files [directory] state, none) := by
  have isDir : Entry.isDir (directoryEntry directory) = true := rfl
  have silent : walkWarnings quote files directory = [] := by
    rw [walkWarnings, if_neg left]
  rw [visitEach_singleton quote state silent]
  simp only [walkDir, scanCallback_directory quote clean, left, isDir, ↓reduceIte,
    Bool.false_eq_true]

/-- So is a directory whose listing fails, with a warning. -/
theorem walkDir_of_failure (entered : isEntered files directory = true) {error : ErrorCode}
    (failed : (files.listing directory).failure = some error) :
    walkDir files (scanCallback quote files) (fuel + 1) directory (directoryEntry directory) state =
      some (visitEach quote files [directory] state, none) := by
  have isDir : Entry.isDir (directoryEntry directory) = true := rfl
  have read : (readDir files directory).2 = some error := failed
  have warned : walkWarnings quote files directory =
      [pathMessage quote (ascii "walk") directory error] := by
    rw [walkWarnings, if_pos entered, failed]
    rfl
  simp only [walkDir, scanCallback_directory quote clean, entered, ↓reduceIte, isDir,
    Bool.not_true, Bool.false_eq_true, read]
  simp only [scanCallback, Option.any_some, isDir, ↓reduceIte, visitAll, visitEach,
    List.flatMap_singleton, directoryWarnings, warned, List.append_assoc]

/-- Any other one is visited, and then its entries are. -/
theorem walkDir_of_listing (entered : isEntered files directory = true)
    (listed : (files.listing directory).failure = none) {visits : List Path}
    (walks : ∀ state, walkEntries (walkDir files (scanCallback quote files) fuel) directory
      (readDir files directory).1 state = some (visitEach quote files visits state, none)) :
    walkDir files (scanCallback quote files) (fuel + 1) directory (directoryEntry directory) state =
      some (visitEach quote files (directory :: visits) state, none) := by
  have isDir : Entry.isDir (directoryEntry directory) = true := rfl
  have read : (readDir files directory).2 = none := listed
  have silent : walkWarnings quote files directory = [] := by
    rw [walkWarnings, if_pos entered, listed]
    rfl
  have split : directory :: visits = [directory] ++ visits := rfl
  rw [split, visitEach_append, visitEach_singleton quote state silent]
  simp only [walkDir, scanCallback_directory quote clean, entered, ↓reduceIte, isDir,
    Bool.not_true, Bool.false_eq_true, read]
  exact walks _

end Walk

/-- The walk from a directory is a depth-first search of the tree without the
partial listings. -/
theorem exists_walkDir_visitEach (clean : IsClean root)
    (finite : Acc (fun child parent => child ∈ walkChildren (withoutPartial files) parent) root) :
    ∃ visits bound, StackSearch.WorksOff (walkChildren (withoutPartial files)) [root] visits ∧
      ∀ fuel, bound ≤ fuel → ∀ state, walkDir files (scanCallback quote files) fuel root
        (directoryEntry root) state = some (visitEach quote files visits state, none) := by
  induction finite with
  | intro directory _ ih =>
      by_cases entered : isEntered files directory = true
      · have expanded : walkChildren (withoutPartial files) directory =
            (readDir (withoutPartial files) directory).1.filterMap (enteredPath directory) := by
          rw [walkChildren, isEntered_withoutPartial, if_pos entered]
        cases failed : (files.listing directory).failure with
        | some error =>
            have none : (readDir (withoutPartial files) directory).1 = [] := by
              rw [readDir, withoutPartial_entries failed]
              rfl
            rw [none, List.filterMap_nil] at expanded
            refine ⟨[directory], 1, .leaf expanded, fun fuel enough state => ?_⟩
            obtain ⟨more, rfl⟩ := Nat.exists_eq_add_of_le' enough
            exact walkDir_of_failure quote clean more state entered failed
        | none =>
            have read : readDir (withoutPartial files) directory = readDir files directory := by
              rw [readDir, readDir, withoutPartial_listing failed]
            rw [read] at expanded
            have valid : ∀ entry ∈ (readDir files directory).1, ValidName entry.name := by
              intro entry inside
              exact (files.listing directory).names_valid entry
                ((sortByKey_perm Entry.name _).mem_iff.mp inside)
            obtain ⟨visits, bound, worksOff, walks⟩ := exists_walkEntries_visits quote
                (visitEach_nil quote) (visitEach_append quote) clean valid <| by
              intro child below
              obtain ⟨entry, inside, chosen⟩ := List.mem_filterMap.mp below
              rw [← expanded] at below
              refine ih child below ?_
              rw [enteredPath, Option.ite_none_right_eq_some, Option.some.injEq] at chosen
              obtain ⟨_, rfl⟩ := chosen
              exact clean.joinPath (valid entry inside)
            rw [← expanded] at worksOff
            refine ⟨directory :: visits, bound + 1, worksOff.node, fun fuel enough state => ?_⟩
            obtain ⟨more, rfl⟩ := Nat.exists_eq_add_of_le' enough
            exact walkDir_of_listing quote clean (more + bound) state entered failed
              (walks (more + bound) (Nat.le_add_left bound more))
      · have expanded : walkChildren (withoutPartial files) directory = [] := by
          rw [walkChildren, isEntered_withoutPartial, if_neg entered]
        refine ⟨[directory], 1, .leaf expanded, fun fuel enough state => ?_⟩
        obtain ⟨more, rfl⟩ := Nat.exists_eq_add_of_le' enough
        exact walkDir_of_not_isEntered quote clean more state entered

/-! ## The whole discovery -/

/-- The messages of what fails in a directory. -/
inductive FailureMessage (files : FileSystem) (directory : Path) : Text → Prop where
  | marker (error : ErrorCode) : ¬ error.isNoSuchFile →
      files.status (joinPath directory (ascii ".git")) = .error error →
      FailureMessage files directory
        (pathMessage quote (ascii "inspect") (joinPath directory (ascii ".git")) error)
  | listing (error : ErrorCode) : (files.listing directory).failure = some error →
      FailureMessage files directory (pathMessage quote (ascii "walk") directory error)

theorem mem_markerWarnings_iff {warning : Text} :
    warning ∈ markerWarnings quote files directory ↔ isEntered files directory = true ∧
      ∃ error : ErrorCode, files.status (joinPath directory (ascii ".git")) = .error error ∧
        ¬ error.isNoSuchFile ∧
        warning =
          pathMessage quote (ascii "inspect") (joinPath directory (ascii ".git")) error := by
  rw [isEntered_iff, markerWarnings, FileSystem.hasMarker]
  cases files.status (joinPath directory (ascii ".git")) with
  | ok type => simp only [List.not_mem_nil, reduceCtorEq, false_and, exists_false, and_false]
  | error error =>
      cases excluded : CheckGitStatus.isExcludedScanDirectory directory <;>
        cases absent : error.isNoSuchFile <;>
          simp [absent]

theorem mem_walkWarnings_iff {warning : Text} :
    warning ∈ walkWarnings quote files directory ↔ isEntered files directory = true ∧
      ∃ error, (files.listing directory).failure = some error ∧
        warning = pathMessage quote (ascii "walk") directory error := by
  rw [walkWarnings]
  split
  · rename_i entered
    simp only [List.mem_map, Option.mem_toList, entered, true_and, eq_comm]
  · rename_i skipped
    simp only [List.not_mem_nil, skipped, Bool.false_eq_true, false_and]

theorem mem_directoryWarnings_iff {warning : Text} :
    warning ∈ directoryWarnings quote files directory ↔
      isEntered files directory = true ∧ FailureMessage quote files directory warning := by
  rw [directoryWarnings, List.mem_append, mem_markerWarnings_iff, mem_walkWarnings_iff,
    ← and_or_left]
  refine and_congr_right fun _ => ⟨?_, ?_⟩
  · rintro (⟨error, found, present, rfl⟩ | ⟨error, failed, rfl⟩)
    · exact .marker error present found
    · exact .listing error failed
  · rintro (⟨error, present, found⟩ | ⟨error, failed⟩)
    · exact .inl ⟨error, found, present, rfl⟩
    · exact .inr ⟨error, failed, rfl⟩

/-- The result of a discovery whose listings may fail: the top-most repositories of the
tree without the partial listings, in the order of their path texts, each once, and a
warning for every failure of a directory that is listed. -/
structure FindsReadable (files : FileSystem) (root : Path)
    (result : List Path × List Text × Option Text) : Prop where
  top : FindsTopRepositories (withoutPartial files) root result
  warnings : ∀ warning, warning ∈ result.2.1 ↔
    ∃ directory, (withoutPartial files).Inspected root directory ∧
      files.hasMarker directory = false ∧ FailureMessage quote files directory warning

/-- The result of a walk that visits these directories. -/
def resultOf (files : FileSystem) (visits : List Path) : List Path × List Text × Option Text :=
  (sortByKey pathText (visits.filter (isReported files)),
    visits.flatMap (directoryWarnings quote files), none)

/-- A walk of the tree without the partial listings finds what can be read. -/
theorem resultOf_findsReadable {visits : List Path} (clean : IsClean root)
    (worksOff : StackSearch.WorksOff (walkChildren (withoutPartial files)) [root] visits) :
    FindsReadable quote files root (resultOf quote files visits) := by
  have expansion := walkChildren_scanExpansion (withoutPartial files)
  have reached := @StackSearch.mem_visited_iff _ _ _ _ worksOff.run
  have distinct := StackSearch.visited_nodup (expansion.treeLike clean.noTrailingSeparator)
    worksOff.run
  refine ⟨⟨rfl, ?_, ?_⟩, ?_⟩
  · apply sortByKey_strict
    exact (distinct.filter _).map fun _ _ same => same
  · intro directory
    rw [resultOf, (sortByKey_perm _ _).mem_iff, List.mem_filter, reached,
      expansion.isTopRepository_iff]
    rfl
  · intro warning
    simp only [resultOf, List.mem_flatMap, reached, mem_directoryWarnings_iff, isEntered_iff,
      expansion.inspected_iff, and_assoc]

/-- The discovery from an accepted root that is no link is such a walk. -/
theorem exists_visits_of_not_isLink {files : PosixFileSystem} {root absRoot : Path}
    (resolved : abs files.toFileSystem root = .ok absRoot)
    (accepted : files.status absRoot = .ok .directory) (plain : ¬ files.IsLink absRoot)
    (finite : files.Finite absRoot) :
    ∃ visits bound,
      StackSearch.WorksOff (walkChildren (withoutPartial files.toFileSystem)) [absRoot] visits ∧
      ∀ fuel, bound ≤ fuel →
        discoverRepositories quote files fuel root =
          some (resultOf quote files.toFileSystem visits) := by
  have expansion := walkChildren_scanExpansion (withoutPartial files.toFileSystem)
  obtain ⟨visits, bound, worksOff, walks⟩ := exists_walkDir_visitEach quote (abs_isClean resolved)
    (expansion.wellFounded (finite_withoutPartial finite))
  have root_is : { name := base absRoot, kind := .directory } = directoryEntry absRoot := rfl
  refine ⟨visits, bound, worksOff, fun fuel enough => ?_⟩
  simp only [discoverRepositories, resolved, accepted, filepathWalkDir,
    files.symlinkStatus_eq_directory accepted plain, root_is, walks fuel enough, Option.map_some,
    visitEach, List.nil_append, resultOf]

/-- **Discovery under failures.** From an accepted root that is no link the discovery ends
without an error, whatever the listings do. -/
theorem discoverRepositories_withoutPartial {files : PosixFileSystem} {root absRoot : Path}
    (resolved : abs files.toFileSystem root = .ok absRoot)
    (accepted : files.status absRoot = .ok .directory) (plain : ¬ files.IsLink absRoot)
    (finite : files.Finite absRoot) :
    ∃ result bound,
      (∀ fuel, bound ≤ fuel → discoverRepositories quote files fuel root = some result) ∧
      FindsReadable quote files.toFileSystem absRoot result := by
  obtain ⟨visits, bound, worksOff, ends⟩ :=
    exists_visits_of_not_isLink quote resolved accepted plain finite
  exact ⟨_, bound, ends, resultOf_findsReadable quote (abs_isClean resolved) worksOff⟩

/-- The directory `/t` with the repository `b` and the directory `a`, whose listing breaks
off after the repository `kit`. -/
def partialTree : PosixFileSystem :=
  .ofBare (ascii "/t") rfl
    (fun path =>
      if [ascii "/t", ascii "/t/a", ascii "/t/a/kit", ascii "/t/a/kit/.git", ascii "/t/b",
        ascii "/t/b/.git"].contains path then .ok .directory
      else .error ⟨2, ascii "no such file or directory"⟩)
    (fun path =>
      if path = ascii "/t" then
        { entries := [⟨ascii "b", .directory⟩, ⟨ascii "a", .directory⟩]
          names_valid := by decide
          names_nodup := by decide }
      else if path = ascii "/t/a" then
        { entries := [⟨ascii "kit", .directory⟩]
          failure := some ⟨5, ascii "readdirent /t/a: input/output error"⟩
          names_valid := by decide
          names_nodup := by decide }
      else .empty)

example : discoverRepositories plainQuote partialTree 3 (ascii "../t") =
    some ([ascii "/t/b"],
      [ascii "walk \"/t/a\": readdirent /t/a: input/output error"], none) := by decide

theorem partialTree_finite : partialTree.Finite (ascii "/t") := by
  have leaf : ∀ path ∈ [ascii "/t/b", ascii "/t/a/kit"], partialTree.Finite path := by
    intro path listed
    refine .intro _ fun child ⟨name, ⟨entry, inside, _⟩, _⟩ => ?_
    have none : (partialTree.listing path).entries = [] := by
      simp only [List.mem_cons, List.not_mem_nil, or_false] at listed
      rcases listed with rfl | rfl <;> rfl
    rw [none] at inside
    cases inside
  have inner : partialTree.Finite (ascii "/t/a") := by
    refine .intro _ fun child ⟨name, ⟨entry, inside, sameName, _⟩, below⟩ => ?_
    have entries : (partialTree.listing (ascii "/t/a")).entries = [⟨ascii "kit", .directory⟩] := rfl
    rw [entries, List.mem_singleton] at inside
    subst inside sameName below
    exact leaf _ (by decide)
  refine .intro _ fun child ⟨name, ⟨entry, inside, sameName, _⟩, below⟩ => ?_
  have entries : (partialTree.listing (ascii "/t")).entries =
      [⟨ascii "b", .directory⟩, ⟨ascii "a", .directory⟩] := rfl
  rw [entries] at inside
  simp only [List.mem_cons, List.not_mem_nil, or_false] at inside
  rcases inside with rfl | rfl
  · subst sameName below
    exact leaf _ (by decide)
  · subst sameName below
    exact inner

theorem partialTree_real : ¬ partialTree.IsLink (ascii "/t") := by
  rintro ⟨target, found⟩
  have kind : partialTree.symlinkStatus (ascii "/t") = .ok .directory := rfl
  rw [kind] at found
  cases found

/-- The discovery of the tree finds what can be read. -/
theorem discoverRepositories_partialTree :
    ∃ result bound, (∀ fuel, bound ≤ fuel →
        discoverRepositories plainQuote partialTree fuel (ascii "/t") = some result) ∧
      FindsReadable plainQuote partialTree.toFileSystem (ascii "/t") result :=
  discoverRepositories_withoutPartial plainQuote (by decide) (by decide) partialTree_real
    partialTree_finite

end CheckGitStatus.Go
