import CheckGitStatus.Cpp.WindowsPaths
import CheckGitStatus.FileSystem
import CheckGitStatus.Library.Sorting
import CheckGitStatus.Library.StackSearch

/-! # The discovery of the Windows build

The loop over the stack is that of the POSIX build, but a directory is asked for its
`.git` and listed through the Windows functions, under its extended path. Whatever has the
name `.git` counts, and what is a reparse point is not entered. From any accepted root the
loop finds exactly the top-most repositories
(`CheckGitStatus.Cpp.Windows.discoverRepositories_findsTop`).
-/

namespace CheckGitStatus.Cpp.Windows

open Library

/-! ## The system -/

/-- The integer type of error codes and of attributes. -/
abbrev Dword := UInt32

/-- `ERROR_FILE_NOT_FOUND`. -/
def errorFileNotFound : Dword := 2

/-- `ERROR_PATH_NOT_FOUND`. -/
def errorPathNotFound : Dword := 3

/-- `ERROR_NO_MORE_FILES`, with which a listing ends. -/
def errorNoMoreFiles : Dword := 18

/-- `ERROR_INVALID_PARAMETER`, with which an older system refuses large fetches. -/
def errorInvalidParameter : Dword := 87

/-- `FILE_ATTRIBUTE_DIRECTORY`. -/
def fileAttributeDirectory : Dword := 0x10

/-- `FILE_ATTRIBUTE_REPARSE_POINT`, which links and junctions have. -/
def fileAttributeReparsePoint : Dword := 0x400

/-- `WIN32_FIND_DATAW`. -/
structure FindData where
  fileName : WideText
  fileAttributes : Dword

/-- What a search handle produces: the first entry, those of `FindNextFileW`, and the
error that ends them. -/
structure FindHandle where
  first : FindData
  rest : List FindData
  ending : Dword
  names_valid : ∀ entry ∈ first :: rest, ValidName entry.fileName
  names_nodup : ((first :: rest).map FindData.fileName).Nodup

/-- What the Windows build asks of the system, and what it relies on there. -/
structure System where
  /-- `path::u8string`. -/
  u8string : WideText → Text
  /-- The message of an error of the system category. -/
  message : Dword → Text
  /-- `fs::absolute`, normalised. -/
  absoluteNormal : WideText → Except ErrorCode WideText
  absoluteNormal_isAbsolute : ∀ path absolutePath,
    absoluteNormal path = .ok absolutePath → IsAbsolute absolutePath
  status : WideText → Except ErrorCode FileType
  getFileAttributes : WideText → Except Dword Dword
  /-- `FindFirstFileExW` of a pattern, with the flag for large fetches or without. -/
  findFirstFile : WideText → Bool → Except Dword FindHandle

/-! ## The scan -/

/-- `is_excluded_scan_directory`. -/
def isExcludedScanDirectory (path : WideText) : Bool :=
  let name := filename path
  name == wide "node_modules" || name == wide "build"

/-- What was asked for does not exist. -/
def isNotFound (error : Dword) : Bool :=
  error == errorFileNotFound || error == errorPathNotFound

/-- `action "path": message`. -/
def pathMessage (system : System) (action : Text) (path : WideText) (message : Text) : Text :=
  action ++ ascii " \"" ++ system.u8string path ++ ascii "\": " ++ message

/-- `windows_git_marker_exists`: anything named `.git` counts, and only another error than that
there is none is reported. -/
def windowsGitMarkerExists (system : System) (marker : WideText) (warnings : List Text) :
    Bool × List Text :=
  match system.getFileAttributes (extendedWindowsPath marker) with
  | .ok _ => (true, warnings)
  | .error error =>
      if isNotFound error then (false, warnings)
      else
        (false, warnings ++
          [pathMessage system (ascii "inspect") marker (system.message error)])

/-- One turn of the loop over the entries. -/
def visitEntry (current : WideText) (pending : List WideText) (entry : FindData) :
    List WideText :=
  if entry.fileName ≠ wide "." ∧ entry.fileName ≠ wide ".." ∧
      entry.fileAttributes &&& fileAttributeDirectory ≠ 0 ∧
      entry.fileAttributes &&& fileAttributeReparsePoint = 0 then
    let child := join current entry.fileName
    if isExcludedScanDirectory child then pending else child :: pending
  else pending

/-- The search for the entries, again without the flag if the system does not know it. -/
def findEntries (system : System) (current : WideText) : Except Dword FindHandle :=
  let pattern := extendedWindowsPath (join current (wide "*"))
  match system.findFirstFile pattern true with
  | .ok handle => .ok handle
  | .error error =>
      if error = errorInvalidParameter then system.findFirstFile pattern false else .error error

/-- The stack, top first, and the warnings after a directory has been listed. -/
def appendWindowsDirectories (system : System) (current : WideText) (pending : List WideText)
    (warnings : List Text) : List WideText × List Text :=
  match findEntries system current with
  | .error error =>
      if isNotFound error then (pending, warnings)
      else
        (pending, warnings ++ [pathMessage system (ascii "walk") current (system.message error)])
  | .ok handle =>
      let pending := (handle.first :: handle.rest).foldl (visitEntry current) pending
      if handle.ending = errorNoMoreFiles ∨ isNotFound handle.ending then (pending, warnings)
      else
        (pending,
          warnings ++ [pathMessage system (ascii "walk") current (system.message handle.ending)])

/-- What `discover_repositories` returns, with the wide paths of this build. -/
structure DiscoveryResult where
  repositories : List WideText := []
  warnings : List Text := []
  error : Text := []
  deriving DecidableEq, Repr

/-- The stack, top first, and the result so far. -/
structure Scan where
  pending : List WideText
  repositories : List WideText := []
  warnings : List Text := []

/-- One turn of the loop over the stack, for the directory popped from it. -/
def visit (system : System) (current : WideText) (scan : Scan) : Scan :=
  if isExcludedScanDirectory current then scan
  else
    let (marked, warnings) :=
      windowsGitMarkerExists system (join current (wide ".git")) scan.warnings
    if marked then { scan with repositories := scan.repositories ++ [current], warnings }
    else
      let (pending, warnings) := appendWindowsDirectories system current scan.pending warnings
      { scan with pending, warnings }

/-- One turn of the loop over `pending`, if there is anything left to take. -/
def scanStep (system : System) (scan : Scan) : Option Scan :=
  match scan.pending with
  | [] => none
  | current :: rest => some (visit system current { scan with pending := rest })

/-- The result, or nothing when the loop takes more than `fuel` turns. -/
def discoverRepositories (system : System) (fuel : Nat) (root : WideText) :
    Option DiscoveryResult :=
  match system.absoluteNormal root with
  | .error error =>
      some { error := pathMessage system (ascii "resolve scan root") root error.message }
  | .ok absoluteRoot =>
      match system.status absoluteRoot with
      | .error error =>
          some { error := pathMessage system (ascii "open scan root") absoluteRoot error.message }
      | .ok .directory =>
          (runLoop (scanStep system) fuel { pending := [absoluteRoot] }).map fun scan =>
            { repositories := sortByKey system.u8string scan.repositories
              warnings := scan.warnings }
      | .ok _ =>
          some { error := ascii "scan root \"" ++ system.u8string absoluteRoot ++
            ascii "\" is not a directory" }

/-! ## What there is to find -/

namespace System

variable (system : System)

/-- There is something with the name `.git`. -/
def hasMarker (directory : WideText) : Bool :=
  (system.getFileAttributes (extendedWindowsPath (join directory (wide ".git")))).isOk

/-- The entries that the listing of a directory produces. -/
def entries (directory : WideText) : List FindData :=
  match findEntries system directory with
  | .ok handle => handle.first :: handle.rest
  | .error _ => []

end System

/-- A directory other than the listed one and the one above it, and no reparse point. -/
def FindData.isRealDirectory (entry : FindData) : Bool :=
  entry.fileName ≠ wide "." ∧ entry.fileName ≠ wide ".." ∧
    entry.fileAttributes &&& fileAttributeDirectory ≠ 0 ∧
    entry.fileAttributes &&& fileAttributeReparsePoint = 0

namespace System

variable (system : System)

/-- The listing of a directory produces a real directory with this name. -/
def ListsDirectory (directory name : WideText) : Prop :=
  ∃ entry ∈ system.entries directory, entry.fileName = name ∧ entry.isRealDirectory = true

/-- No chain of real directories from here on is endless. -/
def Finite (root : WideText) : Prop :=
  Acc (fun child parent => ∃ name, system.ListsDirectory parent name ∧
    child = join parent name) root

/-- The scan inspects this directory: neither it nor one above it is excluded, and above it
there is no repository. -/
inductive Inspected (root : WideText) : WideText → Prop where
  | root (included : isExcludedScanDirectory root = false) : Inspected root root
  | child {directory name : WideText} (above : Inspected root directory)
      (plain : system.hasMarker directory = false)
      (listed : system.ListsDirectory directory name)
      (included : isExcludedScanDirectory (join directory name) = false) :
      Inspected root (join directory name)

/-- A repository with no repository above it. -/
def IsTopRepository (root directory : WideText) : Prop :=
  system.Inspected root directory ∧ system.hasMarker directory = true

/-- The failures that one directory shows, with their warnings. What is not found is no
failure, nor is the end of a listing. -/
inductive FailureMessage (directory : WideText) : Text → Prop where
  | marker (error : Dword) (isFailure : isNotFound error = false)
      (failed : system.getFileAttributes
        (extendedWindowsPath (join directory (wide ".git"))) = .error error) :
      FailureMessage directory
        (pathMessage system (ascii "inspect") (join directory (wide ".git"))
          (system.message error))
  | opening (error : Dword) (isFailure : isNotFound error = false)
      (failed : findEntries system directory = .error error) :
      FailureMessage directory
        (pathMessage system (ascii "walk") directory (system.message error))
  | listing (handle : FindHandle) (found : findEntries system directory = .ok handle)
      (unfinished : handle.ending ≠ errorNoMoreFiles)
      (isFailure : isNotFound handle.ending = false) :
      FailureMessage directory
        (pathMessage system (ascii "walk") directory (system.message handle.ending))

end System

/-! ## One turn as the expansion of a node -/

section Turn

variable (system : System) (directory : WideText)

/-- The directory is neither excluded nor a repository, so it is listed. -/
def isEntered : Bool :=
  !isExcludedScanDirectory directory && !system.hasMarker directory

/-- The directory is reported. -/
def isReported : Bool :=
  !isExcludedScanDirectory directory && system.hasMarker directory

/-- The path of an entry that is pushed. -/
def pushedPath (entry : FindData) : Option WideText :=
  let path := join directory entry.fileName
  if entry.isRealDirectory && !isExcludedScanDirectory path then some path else none

/-- The directories that are pushed for a directory, last one first. -/
def children : List WideText :=
  if isEntered system directory then
    ((system.entries directory).filterMap (pushedPath directory)).reverse
  else []

/-- The warnings that the failures of one directory give rise to. -/
def directoryWarnings : List Text :=
  if isEntered system directory then
    (windowsGitMarkerExists system (join directory (wide ".git")) []).2 ++
      (appendWindowsDirectories system directory [] []).2
  else []

theorem foldl_visitEntry (entries : List FindData) (pending : List WideText) :
    entries.foldl (visitEntry directory) pending =
      (entries.filterMap (pushedPath directory)).reverse ++ pending := by
  induction entries generalizing pending with
  | nil => rfl
  | cons entry rest ih =>
      rw [List.foldl_cons, ih, visitEntry]
      by_cases real : entry.isRealDirectory = true
      · have tests := of_decide_eq_true real
        rw [if_pos tests]
        cases excluded : isExcludedScanDirectory (join directory entry.fileName) with
        | true => simp [pushedPath, real, excluded]
        | false => simp [pushedPath, real, excluded]
      · have tests : ¬ (entry.fileName ≠ wide "." ∧ entry.fileName ≠ wide ".." ∧
            entry.fileAttributes &&& fileAttributeDirectory ≠ 0 ∧
            entry.fileAttributes &&& fileAttributeReparsePoint = 0) :=
          fun all => real (decide_eq_true all)
        rw [if_neg tests]
        simp [pushedPath, real]

/-- The lookup of a marker adds its warnings to those before. -/
theorem windowsGitMarkerExists_eq (warnings : List Text) :
    windowsGitMarkerExists system (join directory (wide ".git")) warnings =
      (system.hasMarker directory, warnings ++
        (windowsGitMarkerExists system (join directory (wide ".git")) []).2) := by
  unfold windowsGitMarkerExists System.hasMarker
  cases system.getFileAttributes (extendedWindowsPath (join directory (wide ".git"))) with
  | ok attributes => exact congrArg _ (List.append_nil warnings).symm
  | error error =>
      by_cases absent : isNotFound error = true <;> simp [absent, Except.isOk, Except.toBool]

/-- What is found gives rise to no warning. -/
theorem windowsGitMarkerExists_of_hasMarker (marked : system.hasMarker directory = true) :
    (windowsGitMarkerExists system (join directory (wide ".git")) []).2 = [] := by
  unfold System.hasMarker at marked
  unfold windowsGitMarkerExists
  cases found : system.getFileAttributes
      (extendedWindowsPath (join directory (wide ".git"))) with
  | ok attributes => rfl
  | error error =>
      rw [found] at marked
      cases marked

/-- A listing pushes the real directories last to first and adds its warnings to
those before. -/
theorem appendWindowsDirectories_eq (pending : List WideText) (warnings : List Text) :
    appendWindowsDirectories system directory pending warnings =
      (((system.entries directory).filterMap (pushedPath directory)).reverse ++ pending,
        warnings ++ (appendWindowsDirectories system directory [] []).2) := by
  unfold appendWindowsDirectories System.entries
  cases findEntries system directory with
  | error error => by_cases absent : isNotFound error = true <;> simp [absent]
  | ok handle =>
      simp only [foldl_visitEntry]
      split <;> simp

/-- What a turn does, for any answers of the system. -/
theorem visit_eq (scan : Scan) :
    visit system directory scan =
      { pending := children system directory ++ scan.pending
        repositories :=
          scan.repositories ++ if isReported system directory then [directory] else []
        warnings := scan.warnings ++ directoryWarnings system directory } := by
  unfold visit children directoryWarnings isReported isEntered
  rw [windowsGitMarkerExists_eq]
  cases isExcludedScanDirectory directory with
  | true => simp
  | false =>
      cases marked : system.hasMarker directory with
      | true => simp [windowsGitMarkerExists_of_hasMarker system directory marked]
      | false => simp [appendWindowsDirectories_eq system directory scan.pending]

/-- The scan at a stage of the search. -/
def scanOf (search : StackSearch.Search WideText) : Scan where
  pending := search.pending
  repositories := search.visited.filter (isReported system)
  warnings := search.visited.flatMap (directoryWarnings system)

/-- A turn of the loop is a step of the search that expands directories to children. -/
theorem scanStep_scanOf (search : StackSearch.Search WideText) :
    scanStep system (scanOf system search) =
      (StackSearch.step (children system) search).map (scanOf system) := by
  unfold scanStep StackSearch.step scanOf
  cases search.pending with
  | nil => rfl
  | cons current rest =>
      simp only [visit_eq, Option.map_some, List.filter_append, List.flatMap_append,
        List.flatMap_singleton, List.filter_cons, List.filter_nil]

end Turn

/-! ## The directories that the scan reaches -/

section Reached

variable {system : System} {root directory : WideText}

theorem isEntered_iff : isEntered system directory = true ↔
    isExcludedScanDirectory directory = false ∧ system.hasMarker directory = false := by
  rw [isEntered, Bool.and_eq_true, Bool.not_eq_true', Bool.not_eq_true']

theorem isReported_iff : isReported system directory = true ↔
    isExcludedScanDirectory directory = false ∧ system.hasMarker directory = true := by
  rw [isReported, Bool.and_eq_true, Bool.not_eq_true']

theorem pushedPath_eq_some_iff {entry : FindData} {child : WideText} :
    pushedPath directory entry = some child ↔ entry.isRealDirectory = true ∧
      child = join directory entry.fileName ∧ isExcludedScanDirectory child = false := by
  unfold pushedPath
  rw [Option.ite_none_right_eq_some, Bool.and_eq_true, Bool.not_eq_true', Option.some.injEq]
  constructor
  · rintro ⟨⟨real, included⟩, rfl⟩
    exact ⟨real, rfl, included⟩
  · rintro ⟨real, rfl, included⟩
    exact ⟨⟨real, included⟩, rfl⟩

theorem mem_children_iff {child : WideText} :
    child ∈ children system directory ↔
      isEntered system directory = true ∧ ∃ name, system.ListsDirectory directory name ∧
        child = join directory name ∧ isExcludedScanDirectory child = false := by
  unfold children
  split
  · rename_i entered
    simp only [List.mem_reverse, List.mem_filterMap, pushedPath_eq_some_iff, entered, true_and]
    constructor
    · rintro ⟨entry, inside, real, same, included⟩
      exact ⟨entry.fileName, ⟨entry, inside, rfl, real⟩, same, included⟩
    · rintro ⟨name, ⟨entry, inside, rfl, real⟩, same, included⟩
      exact ⟨entry, inside, real, same, included⟩
  · rename_i skipped
    simp only [List.not_mem_nil, skipped, Bool.false_eq_true, false_and]

theorem System.entries_valid {entry : FindData} (inside : entry ∈ system.entries directory) :
    ValidName entry.fileName := by
  unfold System.entries at inside
  split at inside
  · rename_i handle _
    exact handle.names_valid entry inside
  · cases inside

theorem System.entries_nodup : ((system.entries directory).map FindData.fileName).Nodup := by
  unfold System.entries
  split
  · rename_i handle _
    exact handle.names_nodup
  · exact List.nodup_nil

theorem isAbsolute_of_reaches (isAbsolute : IsAbsolute root)
    (reached : StackSearch.Reaches (children system) root directory) : IsAbsolute directory := by
  induction reached with
  | refl => exact isAbsolute
  | tail _ below ih =>
      obtain ⟨_, name, _, rfl, _⟩ := mem_children_iff.mp below
      exact ih.join name

theorem children_nodup (isAbsolute : IsAbsolute directory) :
    (children system directory).Nodup := by
  unfold children
  split
  · rw [List.nodup_reverse, List.Nodup, List.pairwise_filterMap]
    refine (List.pairwise_map.mp System.entries_nodup).imp ?_
    intro first second differ firstPath firstPushed secondPath secondPushed same
    obtain ⟨_, rfl, _⟩ := pushedPath_eq_some_iff.mp firstPushed
    obtain ⟨_, rfl, _⟩ := pushedPath_eq_some_iff.mp secondPushed
    rw [join_eq isAbsolute, join_eq isAbsolute] at same
    exact differ (List.append_cancel_left same)
  · exact List.nodup_nil

theorem length_lt_of_mem {child : WideText} (below : child ∈ children system directory) :
    directory.length < child.length := by
  obtain ⟨_, name, ⟨entry, inside, rfl, _⟩, rfl, _⟩ := mem_children_iff.mp below
  exact length_lt_join directory (System.entries_valid inside)

/-- The root itself, or a longer path without a separator at its end. -/
def RootOrBelow (root directory : WideText) : Prop :=
  directory = root ∨
    root.length < directory.length ∧ directory.getLast?.any isSeparator = false

theorem RootOrBelow.join {name : WideText} (below : RootOrBelow root directory)
    (valid : ValidName name) : RootOrBelow root (join directory name) := by
  refine .inr ⟨?_, join_getLast? directory valid⟩
  have longer := length_lt_join directory valid
  rcases below with rfl | ⟨more, _⟩ <;> omega

theorem RootOrBelow.length_le (below : RootOrBelow root directory) :
    root.length ≤ directory.length := by
  rcases below with rfl | ⟨more, _⟩ <;> omega

theorem rootOrBelow_of_reaches
    (reached : StackSearch.Reaches (children system) root directory) :
    RootOrBelow root directory := by
  induction reached with
  | refl => exact .inl rfl
  | tail _ below ih =>
      obtain ⟨_, name, ⟨entry, inside, rfl, _⟩, rfl, _⟩ := mem_children_iff.mp below
      exact ih.join (System.entries_valid inside)

/-- Directories with one prefix are one directory. -/
theorem RootOrBelow.eq_of_directoryPrefix {other : WideText}
    (below : RootOrBelow root directory) (otherBelow : RootOrBelow root other)
    (same : directoryPrefix directory = directoryPrefix other) : directory = other := by
  have bare : ∀ path : WideText, path.getLast?.any isSeparator = false →
      directoryPrefix path = path ++ [WideChar.backslash] := by
    intro path literal
    rw [directoryPrefix, literal, if_neg Bool.false_ne_true]
  have most : ∀ path : WideText, (directoryPrefix path).length ≤ path.length + 1 := by
    intro path
    unfold directoryPrefix
    split
    · exact Nat.le_succ _
    · rw [List.length_append, List.length_singleton]
  have lengths := congrArg List.length same
  rcases below with rfl | ⟨longer, literal⟩
  · rcases otherBelow with rfl | ⟨otherLonger, otherLiteral⟩
    · rfl
    · -- the root would have a separator at its end and be the longer one
      have bound := most directory
      rw [bare other otherLiteral, List.length_append, List.length_singleton] at lengths
      omega
  · rcases otherBelow with rfl | ⟨otherLonger, otherLiteral⟩
    · have bound := most other
      rw [bare directory literal, List.length_append, List.length_singleton] at lengths
      omega
    · rw [bare directory literal, bare other otherLiteral] at same
      exact List.append_cancel_right same

/-- Below an absolute root a path has one parent and one name. -/
theorem RootOrBelow.join_inj {other name otherName : WideText} (isAbsolute : IsAbsolute directory)
    (otherAbsolute : IsAbsolute other) (below : RootOrBelow root directory)
    (otherBelow : RootOrBelow root other) (valid : ValidName name) (otherValid : ValidName otherName)
    (same : Windows.join directory name = Windows.join other otherName) :
    directory = other ∧ name = otherName := by
  obtain ⟨prefixes, names⟩ := Windows.join_inj isAbsolute otherAbsolute valid otherValid same
  exact ⟨below.eq_of_directoryPrefix otherBelow prefixes, names⟩

/-- The directories below an absolute root form a tree. -/
theorem treeLike (isAbsolute : IsAbsolute root) :
    StackSearch.TreeLike (children system) root where
  children_nodup directory reached := children_nodup (isAbsolute_of_reaches isAbsolute reached)
  parent_unique first second child firstReached secondReached below other := by
    obtain ⟨_, name, ⟨entry, inside, rfl, _⟩, rfl, _⟩ := mem_children_iff.mp below
    obtain ⟨_, otherName, ⟨otherEntry, otherInside, rfl, _⟩, same, _⟩ := mem_children_iff.mp other
    exact (RootOrBelow.join_inj (isAbsolute_of_reaches isAbsolute firstReached)
      (isAbsolute_of_reaches isAbsolute secondReached) (rootOrBelow_of_reaches firstReached)
      (rootOrBelow_of_reaches secondReached) (System.entries_valid inside)
      (System.entries_valid otherInside) same).1
  root_free parent reached below := by
    have longer := length_lt_of_mem below
    have least := (rootOrBelow_of_reaches reached).length_le
    omega

/-- In a finite tree the search goes down finitely often. -/
theorem wellFounded (finite : system.Finite root) :
    Acc (fun child parent => child ∈ children system parent) root := by
  refine Subrelation.accessible (fun below => ?_) finite
  obtain ⟨_, name, listed, same, _⟩ := mem_children_iff.mp below
  exact ⟨name, listed, same⟩

/-- A search reaches the directories that the scan inspects, and an excluded root. -/
theorem inspected_iff :
    system.Inspected root directory ↔
      StackSearch.Reaches (children system) root directory ∧
        isExcludedScanDirectory directory = false := by
  constructor
  · intro inspected
    induction inspected with
    | root included => exact ⟨.refl, included⟩
    | child _ plain listed included ih =>
        obtain ⟨reached, parentIncluded⟩ := ih
        refine ⟨reached.tail (mem_children_iff.mpr ⟨?_, _, listed, rfl, included⟩), included⟩
        exact isEntered_iff.mpr ⟨parentIncluded, plain⟩
  · rintro ⟨reached, included⟩
    induction reached with
    | refl => exact .root included
    | @tail parent child _ below ih =>
        obtain ⟨entered, name, listed, rfl, _⟩ := mem_children_iff.mp below
        obtain ⟨parentIncluded, plain⟩ := isEntered_iff.mp entered
        exact .child (ih parentIncluded) plain listed included

end Reached

/-! ## The warnings of one directory -/

section Warnings

variable {system : System} {directory : WideText} {warning : Text}

theorem mem_markerWarnings_iff :
    warning ∈ (windowsGitMarkerExists system (join directory (wide ".git")) []).2 ↔
      ∃ error, isNotFound error = false ∧ system.getFileAttributes
          (extendedWindowsPath (join directory (wide ".git"))) = .error error ∧
        warning = pathMessage system (ascii "inspect") (join directory (wide ".git"))
          (system.message error) := by
  unfold windowsGitMarkerExists
  cases system.getFileAttributes (extendedWindowsPath (join directory (wide ".git"))) with
  | ok attributes => simp
  | error error => by_cases absent : isNotFound error = true <;> simp [absent]

/-- The warnings of a listing that fails or breaks off. -/
theorem mem_listingWarnings_iff :
    warning ∈ (appendWindowsDirectories system directory [] []).2 ↔
      (∃ error, isNotFound error = false ∧ findEntries system directory = .error error ∧
        warning = pathMessage system (ascii "walk") directory (system.message error)) ∨
      ∃ handle, findEntries system directory = .ok handle ∧ handle.ending ≠ errorNoMoreFiles ∧
        isNotFound handle.ending = false ∧
        warning = pathMessage system (ascii "walk") directory (system.message handle.ending) := by
  unfold appendWindowsDirectories
  cases findEntries system directory with
  | error error => by_cases absent : isNotFound error = true <;> simp [absent]
  | ok handle =>
      by_cases ended : handle.ending = errorNoMoreFiles
      · simp [ended]
      · by_cases absent : isNotFound handle.ending = true <;> simp [ended, absent]

/-- A directory gives rise to the warnings of its failures if it is entered, and to
none otherwise. -/
theorem mem_directoryWarnings_iff :
    warning ∈ directoryWarnings system directory ↔
      isEntered system directory = true ∧ system.FailureMessage directory warning := by
  unfold directoryWarnings
  split
  · rename_i entered
    rw [List.mem_append, mem_markerWarnings_iff, mem_listingWarnings_iff, entered,
      eq_self_iff_true, true_and]
    constructor
    · rintro (⟨error, isFailure, failed, rfl⟩ | ⟨error, isFailure, failed, rfl⟩ |
        ⟨handle, found, unfinished, isFailure, rfl⟩)
      · exact .marker error isFailure failed
      · exact .opening error isFailure failed
      · exact .listing handle found unfinished isFailure
    · intro shown
      cases shown with
      | marker error isFailure failed => exact .inl ⟨error, isFailure, failed, rfl⟩
      | opening error isFailure failed => exact .inr (.inl ⟨error, isFailure, failed, rfl⟩)
      | listing handle found unfinished isFailure =>
          exact .inr (.inr ⟨handle, found, unfinished, isFailure, rfl⟩)
  · rename_i skipped
    simp only [List.not_mem_nil, skipped, Bool.false_eq_true, false_and]

end Warnings

/-! ## The whole discovery -/

/-- The top-most repositories in the order of their path texts, each once, and a warning
for every failure of a directory that the scan lists. -/
structure FindsTopRepositories (system : System) (root : WideText) (result : DiscoveryResult) :
    Prop where
  noError : result.error = []
  sorted : result.repositories.Pairwise fun left right =>
    system.u8string left ≤ system.u8string right
  nodup : result.repositories.Nodup
  repositories : ∀ directory, directory ∈ result.repositories ↔
    system.IsTopRepository root directory
  warnings : ∀ warning, warning ∈ result.warnings ↔ ∃ directory,
    system.Inspected root directory ∧ system.hasMarker directory = false ∧
      system.FailureMessage directory warning

/-- The result of a scan that visits these directories. -/
def resultOf (system : System) (visits : List WideText) : DiscoveryResult where
  repositories := sortByKey system.u8string (visits.filter (isReported system))
  warnings := visits.flatMap (directoryWarnings system)

section Discovery

variable {system : System} {root absoluteRoot : WideText}

/-- The discovery ends once the search does. -/
theorem discoverRepositories_of_worksOff
    (resolved : system.absoluteNormal root = .ok absoluteRoot)
    (accepted : system.status absoluteRoot = .ok .directory) {visits : List WideText}
    (worksOff : StackSearch.WorksOff (children system) [absoluteRoot] visits) :
    ∃ bound, ∀ fuel, bound ≤ fuel →
      discoverRepositories system fuel root = some (resultOf system visits) := by
  obtain ⟨bound, ends⟩ := worksOff.exists_runLoop (scanStep_scanOf system)
  refine ⟨bound, fun fuel enough => ?_⟩
  have loop : runLoop (scanStep system) fuel { pending := [absoluteRoot] } = _ := ends fuel enough
  simp only [discoverRepositories, resolved, accepted, loop, Option.map_some, scanOf, resultOf]

/-- The result is then as it should be. -/
theorem resultOf_findsTopRepositories (isAbsolute : IsAbsolute root) {visits : List WideText}
    (worksOff : StackSearch.WorksOff (children system) [root] visits) :
    FindsTopRepositories system root (resultOf system visits) := by
  have reached := @StackSearch.mem_visited_iff _ _ _ _ worksOff.run
  have distinct := StackSearch.visited_nodup (treeLike isAbsolute) worksOff.run
  refine ⟨rfl, sortByKey_pairwise _ _, ?_, ?_, ?_⟩
  · exact (sortByKey_perm _ _).nodup_iff.mpr (distinct.filter _)
  · intro directory
    rw [resultOf, (sortByKey_perm _ _).mem_iff, List.mem_filter, reached, isReported_iff,
      System.IsTopRepository, inspected_iff, and_assoc]
  · intro warning
    simp only [resultOf, List.mem_flatMap, reached, mem_directoryWarnings_iff, isEntered_iff,
      inspected_iff, and_assoc]

/-- **The Windows build finds the top-most repositories.** From any accepted root the
discovery ends and reports them, whatever the order and the failures of the listings. -/
theorem discoverRepositories_findsTop
    (resolved : system.absoluteNormal root = .ok absoluteRoot)
    (accepted : system.status absoluteRoot = .ok .directory)
    (finite : system.Finite absoluteRoot) :
    ∃ result bound,
      (∀ fuel, bound ≤ fuel → discoverRepositories system fuel root = some result) ∧
      FindsTopRepositories system absoluteRoot result := by
  have isAbsolute := system.absoluteNormal_isAbsolute root absoluteRoot resolved
  obtain ⟨visits, worksOff⟩ := StackSearch.exists_worksOff (wellFounded finite)
  obtain ⟨bound, ends⟩ := discoverRepositories_of_worksOff resolved accepted worksOff
  exact ⟨resultOf system visits, bound, ends, resultOf_findsTopRepositories isAbsolute worksOff⟩

end Discovery

/-- The directories `app`, a repository, and `shut`, which may not be read, and a junction,
below `C:\w`, on a system that does not know large fetches. -/
def shutSystem : System where
  u8string path := path.map UInt16.toUInt8
  message _ := ascii "Access is denied."
  absoluteNormal _ := .ok (wide "C:\\w")
  absoluteNormal_isAbsolute path absolutePath same := by
    cases same
    exact ⟨wide "C:", WideChar.backslash, wide "w", .drive 67 (by decide), by decide, by decide⟩
  status path :=
    if path = wide "C:\\w" then .ok .directory else .error ⟨2, ascii "File not found."⟩
  getFileAttributes path :=
    if path = wide "\\\\?\\C:\\w\\app\\.git" then .ok 0x20
    else if path = wide "\\\\?\\C:\\w\\shut\\.git" then .error 5
    else .error errorFileNotFound
  findFirstFile pattern large :=
    if large then .error errorInvalidParameter
    else if pattern = wide "\\\\?\\C:\\w\\*" then
      .ok
        { first := ⟨wide ".", 0x10⟩
          rest := [⟨wide "..", 0x10⟩, ⟨wide "app", 0x10⟩, ⟨wide "junction", 0x410⟩,
            ⟨wide "shut", 0x10⟩]
          ending := errorNoMoreFiles
          names_valid := by decide
          names_nodup := by simp [wide] }
    else .error 5

example : discoverRepositories shutSystem 4 (wide ".") = some
    { repositories := [wide "C:\\w\\app"]
      warnings := [ascii "inspect \"C:\\w\\shut\\.git\": Access is denied.",
        ascii "walk \"C:\\w\\shut\": Access is denied."] } := by decide

theorem shutSystem_finite : shutSystem.Finite (wide "C:\\w") := by
  have leaf : ∀ name ∈ [wide "app", wide "shut"],
      shutSystem.Finite (join (wide "C:\\w") name) := by
    intro name inside
    refine .intro _ fun child below => ?_
    obtain ⟨_, ⟨entry, listed, _⟩, _⟩ := below
    simp only [List.mem_cons, List.not_mem_nil, or_false] at inside
    rcases inside with rfl | rfl <;> cases listed
  refine .intro _ fun child below => ?_
  obtain ⟨_, ⟨entry, listed, rfl, real⟩, rfl⟩ := below
  have entries : shutSystem.entries (wide "C:\\w") = [⟨wide ".", 0x10⟩, ⟨wide "..", 0x10⟩,
      ⟨wide "app", 0x10⟩, ⟨wide "junction", 0x410⟩, ⟨wide "shut", 0x10⟩] := rfl
  rw [entries] at listed
  simp only [List.mem_cons, List.not_mem_nil, or_false] at listed
  rcases listed with rfl | rfl | rfl | rfl | rfl
  · exact absurd real (by decide)
  · exact absurd real (by decide)
  · exact leaf _ (by decide)
  · exact absurd real (by decide)
  · exact leaf _ (by decide)

theorem discoverRepositories_findsTop_shut :
    ∃ result bound, (∀ fuel, bound ≤ fuel →
      discoverRepositories shutSystem fuel (wide ".") = some result) ∧
      FindsTopRepositories shutSystem (wide "C:\\w") result :=
  discoverRepositories_findsTop rfl (by decide) shutSystem_finite

end CheckGitStatus.Cpp.Windows
