import CheckGitStatus.Cpp.ScanRoot
import CheckGitStatus.Cpp.WindowsDiscovery

/-! # Where the two builds discover the same repositories

On one tree the Windows build and the POSIX build go down the same names. The Windows
build takes whatever has the name `.git` for a repository, the POSIX build only what leads
to a directory or a file. So they report the same directories exactly if all that the
Windows build reports are repositories for the POSIX build
(`CheckGitStatus.discoverRepositories_builds_iff`).
-/

namespace CheckGitStatus

open Cpp (WideText)
open Cpp.Windows (System wide)

/-- One directory under its paths in the two builds: the same names lead to it. -/
inductive Twins (files : FileSystem) (name : Text → WideText) (root : Path)
    (wideRoot : WideText) : Path → WideText → Prop where
  | root : Twins files name root wideRoot root wideRoot
  | child {directory : Path} {wideDirectory : WideText} {child : Text}
      (above : Twins files name root wideRoot directory wideDirectory)
      (listed : files.ListsDirectory directory child) :
      Twins files name root wideRoot (joinPath directory child)
        (Cpp.Windows.join wideDirectory (name child))

/-- The system shows the tree of the file system, every name in its wide form. -/
structure Mirrors (files : FileSystem) (system : System) (name : Text → WideText) (root : Path)
    (wideRoot : WideText) : Prop where
  nodeModules : ∀ child, name child = wide "node_modules" ↔ child = ascii "node_modules"
  build : ∀ child, name child = wide "build" ↔ child = ascii "build"
  root_excluded : isExcludedScanDirectory root = Cpp.Windows.isExcludedScanDirectory wideRoot
  lists : ∀ {directory wideDirectory}, Twins files name root wideRoot directory wideDirectory →
    ∀ wideChild, system.ListsDirectory wideDirectory wideChild ↔
      ∃ child, files.ListsDirectory directory child ∧ wideChild = name child
  marker : ∀ {directory wideDirectory}, Twins files name root wideRoot directory wideDirectory →
    files.hasMarker directory = true → system.hasMarker wideDirectory = true

section Tree

variable {files : FileSystem} {system : System} {name : Text → WideText}
  {root directory : Path} {wideRoot wideDirectory : WideText}

/-! ## Going down one name -/

theorem FileSystem.ListsDirectory.valid {child : Text}
    (listed : files.ListsDirectory directory child) : ValidName child := by
  obtain ⟨entry, inside, rfl, _⟩ := listed
  exact (files.listing directory).names_valid entry inside

theorem Cpp.Windows.System.ListsDirectory.valid {child : WideText}
    (listed : system.ListsDirectory wideDirectory child) : Cpp.Windows.ValidName child := by
  obtain ⟨entry, inside, rfl, _⟩ := listed
  exact Cpp.Windows.System.entries_valid inside

/-- The POSIX build inspects a listed directory exactly if it enters the one above it. -/
theorem inspected_joinPath_iff (rootBare : NoTrailingSeparator root)
    (bare : NoTrailingSeparator directory) (longer : root.length ≤ directory.length)
    {child : Text} (listed : files.ListsDirectory directory child) :
    files.Inspected root (joinPath directory child) ↔ files.Inspected root directory ∧
      files.hasMarker directory = false ∧
        isExcludedScanDirectory (joinPath directory child) = false := by
  have expansion := Cpp.children_scanExpansion files
  constructor
  · intro inspected
    obtain ⟨reached, included⟩ := expansion.inspected_iff.mp inspected
    generalize same : joinPath directory child = path at reached included
    cases reached with
    | refl =>
        have more := length_lt_joinPath directory listed.valid
        rw [same] at more
        omega
    | @tail parent _ above below =>
        obtain ⟨entered, other, otherListed, rfl, _⟩ := expansion.mem_iff.mp below
        obtain ⟨parentIncluded, plain⟩ := isEntered_iff.mp entered
        obtain ⟨rfl, rfl⟩ := joinPath_inj bare
          (expansion.noTrailingSeparator_of_reaches rootBare above) listed.valid
          otherListed.valid same
        exact ⟨expansion.inspected_iff.mpr ⟨above, parentIncluded⟩, plain, included⟩
  · rintro ⟨inspected, plain, included⟩
    obtain ⟨reached, parentIncluded⟩ := expansion.inspected_iff.mp inspected
    refine expansion.inspected_iff.mpr ⟨reached.tail (expansion.mem_iff.mpr ?_), included⟩
    exact ⟨isEntered_iff.mpr ⟨parentIncluded, plain⟩, child, listed, rfl, included⟩

/-- So does the Windows build. -/
theorem Cpp.Windows.inspected_join_iff (isAbsolute : IsAbsolute wideRoot)
    (directoryAbsolute : IsAbsolute wideDirectory)
    (below : RootOrBelow wideRoot wideDirectory) {child : WideText}
    (listed : system.ListsDirectory wideDirectory child) :
    system.Inspected wideRoot (join wideDirectory child) ↔
      system.Inspected wideRoot wideDirectory ∧ system.hasMarker wideDirectory = false ∧
        Windows.isExcludedScanDirectory (join wideDirectory child) = false := by
  constructor
  · intro inspected
    generalize same : join wideDirectory child = path at inspected
    cases inspected with
    | root included =>
        have more := (below.join listed.valid).length_le
        have longer := length_lt_join wideDirectory listed.valid
        rw [same] at longer
        have least := below.length_le
        omega
    | @child parent other above plain otherListed included =>
        have reached := (inspected_iff.mp above).1
        obtain ⟨rfl, rfl⟩ := RootOrBelow.join_inj directoryAbsolute
          (isAbsolute_of_reaches isAbsolute reached) below (rootOrBelow_of_reaches reached)
          listed.valid otherListed.valid same
        exact ⟨above, plain, included⟩
  · rintro ⟨inspected, plain, included⟩
    exact .child inspected plain listed included

/-! ## Twins -/

/-- What is known of the two paths of one directory. -/
structure PathsOfTwins (root directory : Path) (wideRoot wideDirectory : WideText) : Prop where
  bare : NoTrailingSeparator directory
  longer : root.length ≤ directory.length
  isAbsolute : Cpp.Windows.IsAbsolute wideDirectory
  below : Cpp.Windows.RootOrBelow wideRoot wideDirectory

/-- The paths of twins are proper paths below the two roots. -/
theorem Mirrors.paths (mirrors : Mirrors files system name root wideRoot)
    (bare : NoTrailingSeparator root) (isAbsolute : Cpp.Windows.IsAbsolute wideRoot)
    (twins : Twins files name root wideRoot directory wideDirectory) :
    PathsOfTwins root directory wideRoot wideDirectory := by
  induction twins with
  | root => exact ⟨bare, Nat.le_refl _, isAbsolute, .inl rfl⟩
  | @child directory wideDirectory child above listed ih =>
      have wideListed := (mirrors.lists above (name child)).mpr ⟨child, listed, rfl⟩
      have more := length_lt_joinPath directory listed.valid
      have least := ih.longer
      exact ⟨noTrailingSeparator_joinPath directory listed.valid, by omega,
        ih.isAbsolute.join _, ih.below.join wideListed.valid⟩

/-- The two builds exclude the same names. -/
theorem Mirrors.excluded_child (mirrors : Mirrors files system name root wideRoot)
    (isAbsolute : Cpp.Windows.IsAbsolute wideDirectory) {child : Text}
    (valid : ValidName child) (wideValid : Cpp.Windows.ValidName (name child)) :
    isExcludedScanDirectory (joinPath directory child) =
      Cpp.Windows.isExcludedScanDirectory (Cpp.Windows.join wideDirectory (name child)) := by
  rw [isExcludedScanDirectory, Cpp.Windows.isExcludedScanDirectory,
    filename_joinPath directory valid, Cpp.Windows.filename_join isAbsolute wideValid,
    Bool.eq_iff_iff]
  simp only [Bool.or_eq_true, beq_iff_eq, mirrors.nodeModules, mirrors.build]

/-- Where every directory that the Windows build reports is a repository for the POSIX build,
the two inspect the same directories. -/
theorem Mirrors.inspected_iff (mirrors : Mirrors files system name root wideRoot)
    (bare : NoTrailingSeparator root) (isAbsolute : Cpp.Windows.IsAbsolute wideRoot)
    (accepted : ∀ directory wideDirectory,
      Twins files name root wideRoot directory wideDirectory →
        system.IsTopRepository wideRoot wideDirectory → files.hasMarker directory = true)
    (twins : Twins files name root wideRoot directory wideDirectory) :
    files.Inspected root directory ↔ system.Inspected wideRoot wideDirectory := by
  induction twins with
  | root =>
      rw [(Cpp.children_scanExpansion files).inspected_iff, Cpp.Windows.inspected_iff,
        mirrors.root_excluded]
      exact ⟨fun both => ⟨.refl, both.2⟩, fun both => ⟨.refl, both.2⟩⟩
  | @child directory wideDirectory child above listed ih =>
      have paths := mirrors.paths bare isAbsolute above
      have wideListed := (mirrors.lists above (name child)).mpr ⟨child, listed, rfl⟩
      rw [inspected_joinPath_iff bare paths.bare paths.longer listed,
        Cpp.Windows.inspected_join_iff isAbsolute paths.isAbsolute paths.below wideListed, ih,
        mirrors.excluded_child paths.isAbsolute listed.valid wideListed.valid]
      refine and_congr_right fun inspected => and_congr_left fun _ => ?_
      constructor
      · intro plain
        by_contra marked
        rw [accepted _ _ above ⟨inspected, (Bool.not_eq_false _).mp marked⟩] at plain
        cases plain
      · intro plain
        by_contra marked
        rw [mirrors.marker above ((Bool.not_eq_false _).mp marked)] at plain
        cases plain

/-- The builds report the same directories exactly if all that the Windows build reports
are repositories for the POSIX build. -/
theorem Mirrors.isTopRepository_iff (mirrors : Mirrors files system name root wideRoot)
    (bare : NoTrailingSeparator root) (isAbsolute : Cpp.Windows.IsAbsolute wideRoot) :
    (∀ directory wideDirectory, Twins files name root wideRoot directory wideDirectory →
      (files.IsTopRepository root directory ↔
        system.IsTopRepository wideRoot wideDirectory)) ↔
    ∀ directory wideDirectory, Twins files name root wideRoot directory wideDirectory →
      system.IsTopRepository wideRoot wideDirectory → files.hasMarker directory = true := by
  constructor
  · intro same directory wideDirectory twins reported
    exact ((same directory wideDirectory twins).mpr reported).2
  · intro accepted directory wideDirectory twins
    have inspected := mirrors.inspected_iff bare isAbsolute accepted twins
    constructor
    · rintro ⟨here, marked⟩
      exact ⟨inspected.mp here, mirrors.marker twins marked⟩
    · intro reported
      exact ⟨inspected.mpr reported.1, accepted directory wideDirectory twins reported⟩

/-- Whatever the POSIX build inspects has a twin. -/
theorem exists_twins_of_inspected (wideRoot : WideText) (name : Text → WideText)
    (inspected : files.Inspected root directory) :
    ∃ wideDirectory, Twins files name root wideRoot directory wideDirectory := by
  have expansion := Cpp.children_scanExpansion files
  have reached := (expansion.inspected_iff.mp inspected).1
  clear inspected
  induction reached with
  | refl => exact ⟨wideRoot, .root⟩
  | tail _ below ih =>
      obtain ⟨_, child, listed, rfl, _⟩ := expansion.mem_iff.mp below
      obtain ⟨wideDirectory, twins⟩ := ih
      exact ⟨_, .child twins listed⟩

/-- So has whatever the Windows build inspects. -/
theorem Mirrors.exists_twins (mirrors : Mirrors files system name root wideRoot)
    (inspected : system.Inspected wideRoot wideDirectory) :
    ∃ directory, Twins files name root wideRoot directory wideDirectory := by
  induction inspected with
  | root => exact ⟨root, .root⟩
  | child _ _ listed _ ih =>
      obtain ⟨directory, twins⟩ := ih
      obtain ⟨child, posixListed, rfl⟩ := (mirrors.lists twins _).mp listed
      exact ⟨_, .child twins posixListed⟩

/-- If the tree is finitely deep in one form, then also in the other. -/
theorem Mirrors.finite (mirrors : Mirrors files system name root wideRoot)
    (finite : files.Finite directory)
    (twins : Twins files name root wideRoot directory wideDirectory) :
    system.Finite wideDirectory := by
  induction finite generalizing wideDirectory with
  | intro directory _ ih =>
      refine .intro _ fun wideChild below => ?_
      obtain ⟨wideName, wideListed, rfl⟩ := below
      obtain ⟨child, listed, rfl⟩ := (mirrors.lists twins wideName).mp wideListed
      exact ih _ ⟨child, listed, rfl⟩ (.child twins listed)

end Tree

/-! ## The discoveries -/

/-- Two lists of directories of one tree are the same but for the form of the paths. -/
def SameRepositories (files : FileSystem) (name : Text → WideText) (root : Path)
    (wideRoot : WideText) (repositories : List Path) (wideRepositories : List WideText) : Prop :=
  ∀ directory wideDirectory, Twins files name root wideRoot directory wideDirectory →
    (directory ∈ repositories ↔ wideDirectory ∈ wideRepositories)

/-- **Where the two builds discover the same repositories.** Of one tree both builds report
only directories that have a path in the other one as well. They report the same ones
exactly if every directory that the Windows build reports is a repository for the POSIX
build. -/
theorem discoverRepositories_builds_iff {files : PosixFileSystem} {system : System}
    {name : Text → WideText} {root path : Path} {wideStart wideRoot : WideText}
    (resolved : Cpp.absolute files.toFileSystem root = .ok path)
    (accepted : files.status (cleanPath path) = .ok .directory)
    (finite : files.Finite (cleanPath path))
    (spelled : Cpp.lexicallyNormal path = cleanPath path ∨
      Cpp.SeparatorIgnored files.toFileSystem (cleanPath path))
    (wideResolved : system.absoluteNormal wideStart = .ok wideRoot)
    (wideAccepted : system.status wideRoot = .ok .directory)
    (mirrors : Mirrors files.toFileSystem system name (cleanPath path) wideRoot) :
    ∃ result wideResult bound,
      (∀ fuel, bound ≤ fuel →
        Cpp.discoverRepositories files.toFileSystem fuel root = some result ∧
        Cpp.Windows.discoverRepositories system fuel wideStart = some wideResult) ∧
      (∀ directory ∈ result.repositories, ∃ wideDirectory,
        Twins files.toFileSystem name (cleanPath path) wideRoot directory wideDirectory) ∧
      (∀ wideDirectory ∈ wideResult.repositories, ∃ directory,
        Twins files.toFileSystem name (cleanPath path) wideRoot directory wideDirectory) ∧
      (SameRepositories files.toFileSystem name (cleanPath path) wideRoot result.repositories
          wideResult.repositories ↔
        ∀ directory wideDirectory,
          Twins files.toFileSystem name (cleanPath path) wideRoot directory wideDirectory →
          wideDirectory ∈ wideResult.repositories → files.hasMarker directory = true) := by
  have bare : NoTrailingSeparator (cleanPath path) :=
    (cleanPath_isClean (Cpp.absolute_rooted resolved)).noTrailingSeparator
  have isAbsolute := system.absoluteNormal_isAbsolute wideStart wideRoot wideResolved
  obtain ⟨result, bound, ends, finds⟩ :=
    Cpp.exists_findsTopRepositories_cleanPath resolved accepted finite spelled
  obtain ⟨visits, worksOff⟩ := Library.StackSearch.exists_worksOff
    (Cpp.Windows.wellFounded (mirrors.finite finite .root))
  obtain ⟨wideBound, wideEnds⟩ :=
    Cpp.Windows.discoverRepositories_of_worksOff wideResolved wideAccepted worksOff
  have wideFinds := Cpp.Windows.resultOf_findsTopRepositories isAbsolute worksOff
  refine ⟨result, Cpp.Windows.resultOf system visits, max bound wideBound, ?_, ?_, ?_, ?_⟩
  · intro fuel enough
    exact ⟨ends fuel (le_trans (le_max_left _ _) enough),
      wideEnds fuel (le_trans (le_max_right _ _) enough)⟩
  · intro directory reported
    exact exists_twins_of_inspected wideRoot name ((finds.repositories directory).mp reported).1
  · intro wideDirectory reported
    exact mirrors.exists_twins ((wideFinds.repositories wideDirectory).mp reported).1
  · simp only [SameRepositories, finds.repositories, wideFinds.repositories]
    exact mirrors.isTopRepository_iff bare isAbsolute

/-- The directory `svc`, with a `.git` that leads nowhere, below `/s`. -/
def danglingTree : PosixFileSystem :=
  .ofBare (ascii "/s") rfl
    (fun path =>
      if [ascii "/s", ascii "/s/svc"].contains path then .ok .directory
      else if path = ascii "/s/svc/.git" then
        .ok (.link (.error ⟨2, ascii "No such file or directory"⟩))
      else .error ⟨2, ascii "No such file or directory"⟩)
    fun path =>
      if path = ascii "/s" then
        { entries := [⟨ascii "svc", .directory⟩]
          names_valid := by decide
          names_nodup := by decide }
      else .empty

/-- The same below `C:\s`. -/
def danglingSystem : System where
  u8string path := path.map UInt16.toUInt8
  message _ := []
  absoluteNormal _ := .ok (wide "C:\\s")
  absoluteNormal_isAbsolute path absolutePath same := by
    cases same
    exact ⟨wide "C:", Cpp.WideChar.backslash, wide "s", .drive 67 (by decide), by decide,
      by decide⟩
  status _ := .ok .directory
  getFileAttributes path :=
    if path = wide "\\\\?\\C:\\s\\svc\\.git" then .ok 0x400
    else .error Cpp.Windows.errorFileNotFound
  findFirstFile pattern _ :=
    if pattern = wide "\\\\?\\C:\\s\\*" then
      .ok
        { first := ⟨wide "svc", 0x10⟩
          rest := []
          ending := Cpp.Windows.errorNoMoreFiles
          names_valid := by decide
          names_nodup := List.nodup_singleton _ }
    else .error Cpp.Windows.errorFileNotFound

/-- An ASCII name in wide characters. -/
def widened (name : Text) : WideText :=
  name.map UInt8.toUInt16

/-- Widening tells names in ASCII apart. -/
theorem widened_eq_iff {name : Text} {literal : String}
    (same : wide literal = widened (ascii literal)) :
    widened name = wide literal ↔ name = ascii literal := by
  have injective : Function.Injective widened :=
    List.map_injective_iff.mpr fun _ _ => UInt8.toUInt16_inj.mp
  rw [same, injective.eq_iff]

/-- The tree has two directories. -/
theorem dangling_twins {directory : Path} {wideDirectory : WideText}
    (twins : Twins danglingTree.toFileSystem widened (ascii "/s") (wide "C:\\s") directory
      wideDirectory) :
    (directory = ascii "/s" ∧ wideDirectory = wide "C:\\s") ∨
      (directory = ascii "/s/svc" ∧ wideDirectory = wide "C:\\s\\svc") := by
  induction twins with
  | root => exact .inl ⟨rfl, rfl⟩
  | child _ listed ih =>
      obtain ⟨entry, inside, rfl, _⟩ := listed
      rcases ih with ⟨rfl, rfl⟩ | ⟨rfl, rfl⟩
      · have entries : (danglingTree.listing (ascii "/s")).entries =
            [⟨ascii "svc", .directory⟩] := rfl
        rw [entries] at inside
        rw [List.mem_singleton.mp inside]
        exact .inr ⟨rfl, rfl⟩
      · cases inside

theorem dangling_mirrors : Mirrors danglingTree.toFileSystem danglingSystem widened (ascii "/s")
    (wide "C:\\s") where
  nodeModules child := widened_eq_iff (by decide)
  build child := widened_eq_iff (by decide)
  root_excluded := by decide
  lists twins wideChild := by
    rcases dangling_twins twins with ⟨rfl, rfl⟩ | ⟨rfl, rfl⟩
    · have entries : (danglingTree.listing (ascii "/s")).entries =
          [⟨ascii "svc", .directory⟩] := rfl
      have wideEntries : danglingSystem.entries (wide "C:\\s") = [⟨wide "svc", 0x10⟩] := rfl
      rw [System.ListsDirectory, wideEntries]
      constructor
      · rintro ⟨entry, inside, rfl, _⟩
        rw [List.mem_singleton.mp inside]
        refine ⟨ascii "svc", ⟨⟨ascii "svc", .directory⟩, ?_, rfl, rfl⟩, rfl⟩
        rw [entries]
        exact List.mem_singleton_self _
      · rintro ⟨child, ⟨entry, inside, rfl, _⟩, rfl⟩
        rw [entries] at inside
        rw [List.mem_singleton.mp inside]
        exact ⟨⟨wide "svc", 0x10⟩, List.mem_singleton_self _, rfl, rfl⟩
    · constructor
      · rintro ⟨entry, inside, _⟩
        cases inside
      · rintro ⟨child, ⟨entry, inside, _⟩, _⟩
        cases inside
  marker twins marked := by
    rcases dangling_twins twins with ⟨rfl, rfl⟩ | ⟨rfl, rfl⟩
    · exact absurd marked (by decide)
    · exact absurd marked (by decide)

theorem dangling_finite : danglingTree.Finite (ascii "/s") := by
  refine .intro _ fun child below => ?_
  obtain ⟨_, ⟨entry, inside, rfl, _⟩, rfl⟩ := below
  have entries : (danglingTree.listing (ascii "/s")).entries =
      [⟨ascii "svc", .directory⟩] := rfl
  rw [entries] at inside
  rw [List.mem_singleton.mp inside]
  refine .intro _ fun deeper below => ?_
  obtain ⟨_, ⟨_, inside, _⟩, _⟩ := below
  cases inside

/-- On the tree with the dangling link the builds agree exactly if its marker
counts on POSIX. -/
theorem discoverRepositories_builds_dangling :
    ∃ result wideResult bound,
      (∀ fuel, bound ≤ fuel →
        Cpp.discoverRepositories danglingTree.toFileSystem fuel (ascii "/s") = some result ∧
        Cpp.Windows.discoverRepositories danglingSystem fuel (wide ".") = some wideResult) ∧
      (SameRepositories danglingTree.toFileSystem widened (ascii "/s") (wide "C:\\s")
          result.repositories wideResult.repositories ↔
        ∀ directory wideDirectory,
          Twins danglingTree.toFileSystem widened (ascii "/s") (wide "C:\\s") directory
            wideDirectory →
          wideDirectory ∈ wideResult.repositories →
            danglingTree.hasMarker directory = true) := by
  obtain ⟨result, wideResult, bound, ends, _, _, parity⟩ :=
    @discoverRepositories_builds_iff danglingTree danglingSystem widened (ascii "/s") (ascii "/s")
      (wide ".") (wide "C:\\s") rfl (by decide) dangling_finite (.inl (by decide)) rfl rfl
      dangling_mirrors
  exact ⟨result, wideResult, bound, ends, parity⟩

end CheckGitStatus
