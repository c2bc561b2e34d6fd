import CheckGitStatus.Library.Sorting
import CheckGitStatus.Scan

/-! # The discovery of the C++ program

`discover_repositories` of the POSIX build normalises the root and works off a stack of
directories. A directory with a `.git` is a repository and is not entered; of any other
one the listed real directories are pushed. Failures become warnings. The loop is a
depth-first search (`CheckGitStatus.Cpp.scanStep_scanOf`), so that it finds exactly the
top-most repositories (`CheckGitStatus.Cpp.discoverRepositories_topRepositories`).
-/

namespace CheckGitStatus.Cpp

open Library

/-! ## The root -/

/-- One component of a path that is being normalised: the names so far, last one first,
and whether a separator follows them. -/
def normalComponent (isAbsolute : Bool) (state : List Text × Bool) (component : Text) :
    List Text × Bool :=
  let (names, _) := state
  if component = ascii "." then (names, true)
  else if component = ascii ".." then
    match names with
    | [] => if isAbsolute then ([], true) else ([component], false)
    | last :: rest => if last = ascii ".." then (component :: names, false) else (rest, true)
  else (component :: names, false)

/-- `path::lexically_normal`. -/
def lexicallyNormal (path : Path) : Path :=
  if path = [] then []
  else
    let isAbsolute := path.head? == some slash
    let components := (path.splitOn slash).filter fun component => component ≠ []
    let (names, separator) := components.foldl (normalComponent isAbsolute) ([], false)
    let separator := separator || path.getLast? == some slash
    let body := [slash].intercalate names.reverse
    let ending := if separator ∧ names ≠ [] ∧ names.head? ≠ some (ascii "..") then [slash] else []
    if isAbsolute then slash :: body ++ ending
    else if names = [] then ascii "."
    else body ++ ending

/-- `fs::absolute`. -/
def absolute (files : FileSystem) (path : Path) : Except ErrorCode Path :=
  if path = [] then .error .invalidArgument
  else if path.head? = some slash then .ok path
  else
    match files.currentPath with
    | .error error => .error error
    | .ok current => .ok (joinPath current path)

/-- `fs::absolute` returns an absolute path. -/
theorem absolute_rooted {files : PosixFileSystem} {root path : Path}
    (resolved : absolute files.toFileSystem root = .ok path) : path.head? = some slash := by
  unfold absolute at resolved
  split at resolved
  · cases resolved
  · split at resolved
    · rename_i rooted
      cases resolved
      exact rooted
    · split at resolved
      · cases resolved
      · rename_i current found
        cases resolved
        have rooted := files.currentPath_rooted current found
        cases current with
        | nil => cases rooted
        | cons first rest =>
            unfold joinPath
            split
            · exact rooted
            · exact rooted

/-! ## The scan -/

/-- What `discover_repositories` returns; the error is empty unless the root is refused. -/
structure DiscoveryResult where
  repositories : List Path := []
  warnings : List Text := []
  error : Text := []
  deriving DecidableEq, Repr

/-- The stack, top first, and the result so far. -/
structure Scan where
  pending : List Path
  repositories : List Path := []
  warnings : List Text := []
  deriving DecidableEq, Repr

/-- `action "path": message`. -/
def pathMessage (action : Text) (path : Path) (error : ErrorCode) : Text :=
  action ++ ascii " \"" ++ pathText path ++ ascii "\": " ++ error.message

/-- `directory_entry::is_directory`, which follows links. -/
def EntryKind.isDirectory : EntryKind → Bool × Option ErrorCode
  | .directory => (true, none)
  | .file => (false, none)
  | .link (.ok target) => (target == .directory, none)
  | .link (.error error) => (false, some error)

/-- `is_symlink` of an entry, which does not follow a link. -/
def EntryKind.isSymlink : EntryKind → Bool
  | .link _ => true
  | _ => false

/-- `should_descend`, with what is left in the error code: a link is not entered, but its target
has been asked for. -/
def shouldDescend (kind : EntryKind) : Bool × Option ErrorCode :=
  let (directory, error) := EntryKind.isDirectory kind
  if !directory || error.isSome then (false, error) else (!EntryKind.isSymlink kind, none)

/-- A warning unless the path does not exist. -/
def inspectWarning (path : Path) : Option ErrorCode → List Text
  | none => []
  | some error => if error.isNoSuchFile then [] else [pathMessage (ascii "inspect") path error]

/-- The warning for a listing that fails or breaks off. -/
def walkWarning (path : Path) : Option ErrorCode → List Text
  | none => []
  | some error => [pathMessage (ascii "walk") path error]

/-- One turn of the loop over the entries. -/
def visitEntry (current : Path) (scan : Scan) (entry : Entry) : Scan :=
  let path := joinPath current entry.name
  let (descend, error) := shouldDescend entry.kind
  if descend && !isExcludedScanDirectory path then
    { scan with pending := path :: scan.pending }
  else { scan with warnings := scan.warnings ++ inspectWarning path error }

/-- The listing of a directory. It makes no difference whether an error comes from
opening the directory or from a later increment. -/
def listDirectory (files : FileSystem) (current : Path) (scan : Scan) : Scan :=
  let listing := files.listing current
  let scan := listing.entries.foldl (visitEntry current) scan
  { scan with warnings := scan.warnings ++ walkWarning current listing.failure }

/-- One turn of the loop over the stack, for the directory popped from it. -/
def visit (files : FileSystem) (current : Path) (scan : Scan) : Scan :=
  if isExcludedScanDirectory current then scan
  else
    let marker := joinPath current (ascii ".git")
    match files.status marker with
    | .ok .directory | .ok .regular =>
        { scan with repositories := scan.repositories ++ [current] }
    | .ok .other => listDirectory files current scan
    | .error error =>
        listDirectory files current
          { scan with warnings := scan.warnings ++ inspectWarning marker (some error) }

/-- One turn of the loop over `pending`, if there is anything left to take. -/
def scanStep (files : FileSystem) (scan : Scan) : Option Scan :=
  match scan.pending with
  | [] => none
  | current :: rest => some (visit files current { scan with pending := rest })

/-- The result, or nothing when the loop takes more than `fuel` turns. -/
def discoverRepositories (files : FileSystem) (fuel : Nat) (root : Path) :
    Option DiscoveryResult :=
  match absolute files root with
  | .error error => some { error := pathMessage (ascii "resolve scan root") root error }
  | .ok path =>
      let absoluteRoot := lexicallyNormal path
      match files.status absoluteRoot with
      | .error error => some { error := pathMessage (ascii "open scan root") absoluteRoot error }
      | .ok .directory =>
          (runLoop (scanStep files) fuel { pending := [absoluteRoot] }).map fun scan =>
            { repositories := sortByKey pathText scan.repositories, warnings := scan.warnings }
      | .ok _ =>
          some { error := ascii "scan root \"" ++ pathText absoluteRoot ++
            ascii "\" is not a directory" }

/-! ## One turn as the expansion of a node -/

/-- The path of an entry that is pushed. -/
def pushedPath (directory : Path) (entry : Entry) : Option Path :=
  let path := joinPath directory entry.name
  if (shouldDescend entry.kind).1 && !isExcludedScanDirectory path then some path else none

/-- The directories that are pushed for a directory, last one first. -/
def children (files : FileSystem) (directory : Path) : List Path :=
  if isEntered files directory then
    ((files.listing directory).entries.filterMap (pushedPath directory)).reverse
  else []

/-- The warning that an entry causes which is not pushed. -/
def entryWarnings (directory : Path) (entry : Entry) : List Text :=
  if (pushedPath directory entry).isSome then []
  else inspectWarning (joinPath directory entry.name) (shouldDescend entry.kind).2

/-- The warning for a `.git` whose status cannot be told. -/
def markerWarnings (files : FileSystem) (directory : Path) : List Text :=
  match files.status (joinPath directory (ascii ".git")) with
  | .ok _ => []
  | .error error => inspectWarning (joinPath directory (ascii ".git")) (some error)

/-- The warnings that the failures of one directory give rise to. -/
def directoryWarnings (files : FileSystem) (directory : Path) : List Text :=
  if isEntered files directory then
    markerWarnings files directory ++
    (files.listing directory).entries.flatMap (entryWarnings directory) ++
    walkWarning directory (files.listing directory).failure
  else []

theorem foldl_visitEntry (current : Path) (entries : List Entry) (scan : Scan) :
    entries.foldl (visitEntry current) scan =
      { pending := (entries.filterMap (pushedPath current)).reverse ++ scan.pending
        repositories := scan.repositories
        warnings := scan.warnings ++ entries.flatMap (entryWarnings current) } := by
  induction entries generalizing scan with
  | nil => simp only [List.foldl_nil, List.filterMap_nil, List.reverse_nil, List.nil_append,
      List.flatMap_nil, List.append_nil]
  | cons entry rest ih =>
      rw [List.foldl_cons, ih]
      by_cases pushed : ((shouldDescend entry.kind).1 &&
          !isExcludedScanDirectory (joinPath current entry.name)) = true
      · simp only [visitEntry, entryWarnings, pushedPath, pushed, ↓reduceIte, Option.isSome_some,
          List.filterMap_cons, List.reverse_cons, List.append_assoc, List.singleton_append,
          List.flatMap_cons, List.nil_append]
      · simp only [visitEntry, entryWarnings, pushedPath, pushed, Bool.false_eq_true, ↓reduceIte,
          Option.isSome_none, List.filterMap_cons, List.flatMap_cons, List.append_assoc]

/-- What a listing leaves in the state: directories pushed last to first, and the warnings. -/
theorem listDirectory_eq (files : FileSystem) (current : Path) (scan : Scan) :
    listDirectory files current scan =
      { pending := ((files.listing current).entries.filterMap (pushedPath current)).reverse ++
          scan.pending
        repositories := scan.repositories
        warnings := scan.warnings ++ (files.listing current).entries.flatMap (entryWarnings current)
          ++ walkWarning current (files.listing current).failure } := by
  simp only [listDirectory, foldl_visitEntry]

/-- What a turn does, for any status of the marker. -/
theorem visit_eq (files : FileSystem) (current : Path) (scan : Scan) :
    visit files current scan =
      { pending := children files current ++ scan.pending
        repositories := scan.repositories ++ if isReported files current then [current] else []
        warnings := scan.warnings ++ directoryWarnings files current } := by
  unfold visit children directoryWarnings markerWarnings isReported isEntered FileSystem.hasMarker
  cases isExcludedScanDirectory current with
  | true =>
      simp only [↓reduceIte, Bool.not_true, Bool.false_and, Bool.false_eq_true, List.nil_append,
        List.append_nil]
  | false =>
      simp only [Bool.false_eq_true, ↓reduceIte, Bool.not_false, Bool.true_and]
      cases files.status (joinPath current (ascii ".git")) with
      | error error =>
          simp only [listDirectory_eq, Bool.not_false, ↓reduceIte, Bool.false_eq_true,
            List.append_nil, List.append_assoc]
      | ok type =>
          cases type with
          | directory | regular =>
              simp only [Bool.not_true, Bool.false_eq_true, ↓reduceIte, List.nil_append,
                List.append_nil]
          | other =>
              simp only [listDirectory_eq, Bool.not_false, ↓reduceIte, Bool.false_eq_true,
                List.append_nil, List.append_assoc, List.nil_append]

/-- The scan at a stage of the search. -/
def scanOf (files : FileSystem) (search : StackSearch.Search Path) : Scan where
  pending := search.pending
  repositories := search.visited.filter (isReported files)
  warnings := search.visited.flatMap (directoryWarnings files)

/-- A turn of the loop is a step of the search that expands directories to children. -/
theorem scanStep_scanOf (files : FileSystem) (search : StackSearch.Search Path) :
    scanStep files (scanOf files search) =
      (StackSearch.step (children files) search).map (scanOf files) := by
  unfold scanStep StackSearch.step scanOf
  cases search.pending with
  | nil => rfl
  | cons current rest =>
      simp only [visit_eq, Option.map_some, List.filter_append, List.flatMap_append,
        List.flatMap_singleton, List.filter_cons, List.filter_nil]

/-- A run of the search is a run of the loop. -/
theorem scan_run_of_search (files : FileSystem) {first last : StackSearch.Search Path}
    (run : StackSearch.Run (children files) first last) :
    Relation.ReflTransGen (fun before after => scanStep files before = some after)
      (scanOf files first) (scanOf files last) := by
  induction run with
  | refl => exact .refl
  | @tail before after _ taken ih =>
      refine ih.tail ?_
      rw [scanStep_scanOf, taken]
      rfl

/-! ## The directories that the scan reaches -/

section Reached

variable {files : FileSystem} {directory : Path}

/-- Only a real directory is entered. -/
theorem shouldDescend_iff {kind : EntryKind} :
    (shouldDescend kind).1 = true ↔ kind = .directory := by
  cases kind with
  | directory => exact ⟨fun _ => rfl, fun _ => rfl⟩
  | file => simp only [shouldDescend, EntryKind.isDirectory, Bool.not_false, Bool.true_or,
      ↓reduceIte, Bool.false_eq_true, reduceCtorEq]
  | link target =>
      cases target with
      | error error => simp only [shouldDescend, EntryKind.isDirectory, Bool.not_false,
          Bool.true_or, ↓reduceIte, Bool.false_eq_true, reduceCtorEq]
      | ok type => cases type <;> simp [shouldDescend, EntryKind.isDirectory, EntryKind.isSymlink]

theorem pushedPath_eq_some_iff {entry : Entry} {child : Path} :
    pushedPath directory entry = some child ↔ entry.kind = .directory ∧
      child = joinPath directory entry.name ∧ isExcludedScanDirectory child = false := by
  unfold pushedPath
  rw [Option.ite_none_right_eq_some, Bool.and_eq_true, shouldDescend_iff, Bool.not_eq_true',
    Option.some.injEq]
  constructor
  · rintro ⟨⟨real, included⟩, rfl⟩
    exact ⟨real, rfl, included⟩
  · rintro ⟨real, rfl, included⟩
    exact ⟨⟨real, included⟩, rfl⟩

/-- The children of a directory are the real directories in its listing that are not
excluded, if the directory is entered at all. -/
theorem mem_children_iff {child : Path} :
    child ∈ children files directory ↔
      isEntered files directory = true ∧ ∃ name, files.ListsDirectory directory name ∧
        child = joinPath directory name ∧ isExcludedScanDirectory child = false := by
  unfold children
  split
  · rename_i entered
    simp only [List.mem_reverse, List.mem_filterMap, pushedPath_eq_some_iff, entered, true_and]
    constructor
    · rintro ⟨entry, inside, real, same, included⟩
      exact ⟨entry.name, ⟨entry, inside, rfl, real⟩, same, included⟩
    · rintro ⟨name, ⟨entry, inside, rfl, real⟩, same, included⟩
      exact ⟨entry, inside, real, same, included⟩
  · rename_i skipped
    simp only [List.not_mem_nil, skipped, Bool.false_eq_true, false_and]

theorem children_nodup (files : FileSystem) (directory : Path) :
    (children files directory).Nodup := by
  unfold children
  split
  · rw [List.nodup_reverse, List.Nodup, List.pairwise_filterMap]
    refine (List.pairwise_map.mp (files.listing directory).names_nodup).imp ?_
    intro first second differ firstPath firstPushed secondPath secondPushed same
    obtain ⟨_, rfl, _⟩ := pushedPath_eq_some_iff.mp firstPushed
    obtain ⟨_, rfl, _⟩ := pushedPath_eq_some_iff.mp secondPushed
    exact differ (joinPath_right_injective directory same)
  · exact List.nodup_nil

/-- The loop expands a directory as a scan is to. -/
theorem children_scanExpansion (files : FileSystem) : ScanExpansion files (children files) where
  mem_iff := mem_children_iff
  nodup := children_nodup files

/-! ## The warnings of one directory -/

/-- The failures that one directory shows, with their warnings: of its `.git`, of the
target of a link in it, of its listing. What does not exist is no failure. -/
inductive FailureMessage (files : FileSystem) (directory : Path) : Text → Prop where
  | marker (error : ErrorCode) (isFailure : error.isNoSuchFile = false)
      (failed : files.status (joinPath directory (ascii ".git")) = .error error) :
      FailureMessage files directory
        (pathMessage (ascii "inspect") (joinPath directory (ascii ".git")) error)
  | entry (entry : Entry) (error : ErrorCode) (isFailure : error.isNoSuchFile = false)
      (listed : entry ∈ (files.listing directory).entries)
      (failed : entry.kind = .link (.error error)) :
      FailureMessage files directory
        (pathMessage (ascii "inspect") (joinPath directory entry.name) error)
  | listing (error : ErrorCode) (failed : (files.listing directory).failure = some error) :
      FailureMessage files directory (pathMessage (ascii "walk") directory error)

theorem mem_inspectWarning_iff {path : Path} {error : Option ErrorCode} {warning : Text} :
    warning ∈ inspectWarning path error ↔ ∃ failure, error = some failure ∧
      failure.isNoSuchFile = false ∧ warning = pathMessage (ascii "inspect") path failure := by
  cases error with
  | none => simp only [inspectWarning, List.not_mem_nil, reduceCtorEq, false_and, exists_false]
  | some error =>
      cases absent : error.isNoSuchFile with
      | true => simp [inspectWarning, absent]
      | false => simp [inspectWarning, absent]

theorem mem_markerWarnings_iff {warning : Text} :
    warning ∈ markerWarnings files directory ↔
      ∃ error, files.status (joinPath directory (ascii ".git")) = .error error ∧
        error.isNoSuchFile = false ∧
        warning = pathMessage (ascii "inspect") (joinPath directory (ascii ".git")) error := by
  unfold markerWarnings
  cases files.status (joinPath directory (ascii ".git")) with
  | ok type => simp only [List.not_mem_nil, reduceCtorEq, false_and, exists_false]
  | error error =>
      simp only [mem_inspectWarning_iff, Option.some.injEq, exists_eq_left', Except.error.injEq]

theorem mem_entryWarnings_iff {entry : Entry} {warning : Text} :
    warning ∈ entryWarnings directory entry ↔ ∃ error, entry.kind = .link (.error error) ∧
      error.isNoSuchFile = false ∧
      warning = pathMessage (ascii "inspect") (joinPath directory entry.name) error := by
  unfold entryWarnings
  split
  · rename_i pushed
    obtain ⟨child, chosen⟩ := Option.isSome_iff_exists.mp pushed
    obtain ⟨real, _⟩ := pushedPath_eq_some_iff.mp chosen
    simp only [List.not_mem_nil, real, reduceCtorEq, false_and, exists_false]
  · rw [mem_inspectWarning_iff]
    have onlyLinks : ∀ error, (shouldDescend entry.kind).2 = some error ↔
        entry.kind = .link (.error error) := by
      intro error
      cases entry.kind with
      | directory | file => simp [shouldDescend, EntryKind.isDirectory]
      | link target => cases target with
        | error failure => simp [shouldDescend, EntryKind.isDirectory]
        | ok type => cases type <;> simp [shouldDescend, EntryKind.isDirectory]
    simp only [onlyLinks]

theorem mem_walkWarning_iff {path : Path} {error : Option ErrorCode} {warning : Text} :
    warning ∈ walkWarning path error ↔ ∃ failure, error = some failure ∧
      warning = pathMessage (ascii "walk") path failure := by
  cases error with
  | none => simp only [walkWarning, List.not_mem_nil, reduceCtorEq, false_and, exists_false]
  | some error => simp only [walkWarning, List.mem_singleton, Option.some.injEq, exists_eq_left']

/-- A directory gives rise to the warnings of its failures if it is entered, and to
none otherwise. -/
theorem mem_directoryWarnings_iff {warning : Text} :
    warning ∈ directoryWarnings files directory ↔
      isEntered files directory = true ∧ FailureMessage files directory warning := by
  unfold directoryWarnings
  split
  · rename_i entered
    rw [List.mem_append, List.mem_append, mem_markerWarnings_iff, List.mem_flatMap, mem_walkWarning_iff]
    simp only [mem_entryWarnings_iff, entered, true_and]
    constructor
    · rintro ((⟨error, failed, isFailure, rfl⟩ | ⟨entry, listed, error, failed, isFailure, rfl⟩) |
        ⟨error, failed, rfl⟩)
      · exact .marker error isFailure failed
      · exact .entry entry error isFailure listed failed
      · exact .listing error failed
    · intro shown
      cases shown with
      | marker error isFailure failed => exact .inl (.inl ⟨error, failed, isFailure, rfl⟩)
      | entry entry error isFailure listed failed =>
          exact .inl (.inr ⟨entry, listed, error, failed, isFailure, rfl⟩)
      | listing error failed => exact .inr ⟨error, failed, rfl⟩
  · rename_i skipped
    simp only [List.not_mem_nil, skipped, Bool.false_eq_true, false_and]

end Reached

/-! ## The whole discovery -/

/-- The result of a scan that visits these directories. -/
def resultOf (files : FileSystem) (visits : List Path) : DiscoveryResult where
  repositories := sortByKey pathText (visits.filter (isReported files))
  warnings := visits.flatMap (directoryWarnings files)

/-- The discovery from an accepted root ends once the search from it does. -/
theorem discoverRepositories_of_worksOff {files : FileSystem} {root path absoluteRoot : Path}
    (resolved : absolute files root = .ok path) (normal : lexicallyNormal path = absoluteRoot)
    (accepted : files.status absoluteRoot = .ok .directory) {visits : List Path}
    (worksOff : StackSearch.WorksOff (children files) [absoluteRoot] visits) :
    ∃ bound, ∀ fuel, bound ≤ fuel →
      discoverRepositories files fuel root = some (resultOf files visits) := by
  obtain ⟨bound, ends⟩ := runLoop_of_run _ (scan_run_of_search files worksOff.run) rfl
  refine ⟨bound, fun fuel enough => ?_⟩
  have loop : runLoop (scanStep files) fuel { pending := [absoluteRoot] } = _ := ends fuel enough
  simp only [discoverRepositories, resolved, normal, accepted, loop, Option.map_some, scanOf,
    resultOf]

/-- The result of a discovery that works: the top-most repositories in the order of their
path texts, each once, and a warning for every failure of a directory that the scan
lists. -/
structure FindsTopRepositories (files : FileSystem) (root : Path) (result : DiscoveryResult) :
    Prop where
  noError : result.error = []
  sorted : result.repositories.Pairwise fun left right => pathText left < pathText right
  repositories : ∀ directory, directory ∈ result.repositories ↔
    files.IsTopRepository root directory
  warnings : ∀ warning, warning ∈ result.warnings ↔ ∃ directory, files.Inspected root directory ∧
    files.hasMarker directory = false ∧ FailureMessage files directory warning

/-- For an accepted root that is absolute and normalised, with no trailing separator, the
discovery ends and finds the top-most repositories, whatever the order and the failures
of the listings. -/
theorem discoverRepositories_topRepositories {files : FileSystem} {root : Path}
    (isAbsolute : root.head? = some slash) (normal : lexicallyNormal root = root)
    (bare : NoTrailingSeparator root) (accepted : files.status root = .ok .directory)
    (finite : files.Finite root) :
    ∃ result bound, (∀ fuel, bound ≤ fuel → discoverRepositories files fuel root = some result) ∧
      FindsTopRepositories files root result := by
  have expansion := children_scanExpansion files
  obtain ⟨visits, worksOff⟩ := StackSearch.exists_worksOff (expansion.wellFounded finite)
  have reached := @StackSearch.mem_visited_iff _ _ _ _ worksOff.run
  have distinct := StackSearch.visited_nodup (expansion.treeLike bare) worksOff.run
  have resolved : absolute files root = .ok root := by
    have nonempty : root ≠ [] := by
      rintro rfl
      cases isAbsolute
    rw [absolute, if_neg nonempty, if_pos isAbsolute]
  obtain ⟨bound, ends⟩ := discoverRepositories_of_worksOff resolved normal accepted worksOff
  refine ⟨resultOf files visits, bound, ends, rfl, ?_, ?_, ?_⟩
  · apply sortByKey_strict
    exact (distinct.filter _).map fun _ _ same => same
  · intro directory
    rw [resultOf, (sortByKey_perm _ _).mem_iff, List.mem_filter, reached,
      expansion.isTopRepository_iff]
  · intro warning
    simp only [resultOf, List.mem_flatMap, reached, mem_directoryWarnings_iff, isEntered_iff,
      expansion.inspected_iff, and_assoc]

/-- The directories `a`, `b` and `build` below `/w`, and a link back to `/w`. `b` and `a/r`
are repositories; the `.git` of `a` cannot be inspected and its listing breaks off. -/
def brokenListing : FileSystem where
  currentPath := .ok (ascii "/w")
  status path :=
    if path ∈ [ascii "/w", ascii "/w/b/.git", ascii "/w/a/r/.git"] then .ok .directory
    else if path = ascii "/w/a/.git" then .error ⟨13, ascii "Permission denied"⟩
    else .error ⟨2, ascii "No such file or directory"⟩
  listing path :=
    if path = ascii "/w" then
      { entries := [⟨ascii "b", .directory⟩, ⟨ascii "build", .directory⟩,
          ⟨ascii "loop", .link (.ok .directory)⟩, ⟨ascii "a", .directory⟩]
        names_valid := by decide
        names_nodup := by decide }
    else if path = ascii "/w/a" then
      { entries := [⟨ascii "r", .directory⟩]
        failure := some ⟨5, ascii "Input/output error"⟩
        names_valid := by decide
        names_nodup := by decide }
    else
      { entries := []
        names_valid := by decide
        names_nodup := by decide }

example : discoverRepositories brokenListing 6 (ascii "/x/../w") = some
    { repositories := [ascii "/w/a/r", ascii "/w/b"]
      warnings := [ascii "inspect \"/w/a/.git\": Permission denied",
        ascii "walk \"/w/a\": Input/output error"] } := by decide

theorem brokenListing_finite : brokenListing.Finite (ascii "/w") := by
  -- two listings have entries, and every chain leaves them
  have leaf : ∀ path : Path, path ≠ ascii "/w" → path ≠ ascii "/w/a" →
      brokenListing.Finite path := by
    intro path notRoot notInner
    refine .intro path fun child ⟨name, ⟨entry, listed, _⟩, _⟩ => ?_
    have empty : (brokenListing.listing path).entries = [] := by
      simp only [brokenListing, notRoot, notInner, ↓reduceIte]
    rw [empty] at listed
    cases listed
  have inner : brokenListing.Finite (ascii "/w/a") := by
    refine .intro _ fun child ⟨name, ⟨entry, listed, sameName, _⟩, below⟩ => ?_
    have entries : (brokenListing.listing (ascii "/w/a")).entries = [⟨ascii "r", .directory⟩] := rfl
    rw [entries, List.mem_singleton] at listed
    subst listed sameName below
    exact leaf _ (by decide) (by decide)
  refine .intro _ fun child ⟨name, ⟨entry, listed, sameName, _⟩, below⟩ => ?_
  have entries : (brokenListing.listing (ascii "/w")).entries =
      [⟨ascii "b", .directory⟩, ⟨ascii "build", .directory⟩,
        ⟨ascii "loop", .link (.ok .directory)⟩, ⟨ascii "a", .directory⟩] := rfl
  rw [entries] at listed
  simp only [List.mem_cons, List.not_mem_nil, or_false] at listed
  rcases listed with rfl | rfl | rfl | rfl <;> subst sameName below
  · exact leaf _ (by decide) (by decide)
  · exact leaf _ (by decide) (by decide)
  · exact leaf _ (by decide) (by decide)
  · exact inner

theorem discoverRepositories_brokenListing :
    ∃ result bound, (∀ fuel, bound ≤ fuel →
      discoverRepositories brokenListing fuel (ascii "/w") = some result) ∧
      FindsTopRepositories brokenListing (ascii "/w") result :=
  discoverRepositories_topRepositories (by decide) (by decide) (.inl (by decide)) (by decide)
    brokenListing_finite

end CheckGitStatus.Cpp
