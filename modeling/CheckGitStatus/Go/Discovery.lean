import CheckGitStatus.Library.Sorting
import CheckGitStatus.Paths
import CheckGitStatus.Scan

/-! # The discovery of the Go program

`discoverRepositories` makes the root absolute and hands it to `filepath.WalkDir`, which
calls back for the root, as `os.Lstat` describes it, and for every entry of every
directory that is not skipped. The message of an `ErrorCode` stands for the whole text of
the Go error. Below a root that is a real directory the walk visits what a scan is to
inspect (`CheckGitStatus.Go.exists_walkDir_visits`). A root that is a link is accepted but
not walked, so that its repositories are missed
(`CheckGitStatus.Go.discoverRepositories_complete_iff`).
-/

namespace CheckGitStatus.Go

open Library

/-! ## The standard library -/

/-- `filepath.Join` of two elements. -/
def join (path name : Path) : Path :=
  if path ≠ [] then cleanPath (path ++ slash :: name)
  else if name ≠ [] then cleanPath name
  else []

/-- `filepath.Abs`. -/
def abs (files : FileSystem) (path : Path) : Except ErrorCode Path :=
  if path.head? = some slash then .ok (cleanPath path)
  else
    match files.currentPath with
    | .error error => .error error
    | .ok current => .ok (join current path)

/-- `filepath.Base`. -/
def base (path : Path) : Text :=
  if path = [] then ascii "."
  else
    let stripped := path.rdropWhile fun byte => byte == slash
    if stripped = [] then [slash] else filename stripped

/-- `os.ReadDir`: the entries sorted by name that are read before an error. -/
def readDir (files : FileSystem) (path : Path) : List Entry × Option ErrorCode :=
  let listing := files.listing path
  (sortByKey Entry.name listing.entries, listing.failure)

/-- What a callback may return instead of nil. -/
inductive WalkSignal where
  | skipDir
  | failed (error : Text)
  deriving DecidableEq, Repr

/-- `IsDir` of an entry, which does not follow a link. -/
def Entry.isDir (entry : Entry) : Bool :=
  match entry.kind with
  | .directory => true
  | _ => false

section WalkDir

variable {σ : Type*}

/-- The path, the entry if there is one, and the error that the walk came upon. -/
abbrev WalkDirFunc (σ : Type*) := Path → Option Entry → Option ErrorCode → σ → σ × Option WalkSignal

/-- The loop of `walkDir` over the entries of a directory. -/
def walkEntries (walk : Path → Entry → σ → Option (σ × Option WalkSignal)) (path : Path) :
    List Entry → σ → Option (σ × Option WalkSignal)
  | [], state => some (state, none)
  | entry :: rest, state =>
      match walk (join path entry.name) entry state with
      | none => none
      | some (state, none) => walkEntries walk path rest state
      | some (state, some .skipDir) => some (state, none)
      | some (state, some (.failed error)) => some (state, some (.failed error))

/-- `walkDir`, or nothing when it goes down further than the fuel allows. -/
def walkDir (files : FileSystem) (callback : WalkDirFunc σ) :
    Nat → Path → Entry → σ → Option (σ × Option WalkSignal)
  | 0, _, _, _ => none
  | fuel + 1, path, entry, state =>
      match callback path (some entry) none state with
      | (state, some .skipDir) => some (state, if Entry.isDir entry then none else some .skipDir)
      | (state, some (.failed error)) => some (state, some (.failed error))
      | (state, none) =>
          if !Entry.isDir entry then some (state, none)
          else
            let (entries, error) := readDir files path
            let (state, signal) :=
              match error with
              | none => (state, none)
              | some error => callback path (some entry) (some error) state
            match signal with
            | some .skipDir => some (state, none)
            | some (.failed error) => some (state, some (.failed error))
            | none => walkEntries (walkDir files callback fuel) path entries state

/-- `filepath.WalkDir`: the state after the walk and its error. -/
def filepathWalkDir (files : PosixFileSystem) (fuel : Nat) (root : Path) (callback : WalkDirFunc σ)
    (state : σ) : Option (σ × Option Text) :=
  let result :=
    match files.symlinkStatus root with
    | .error error => some (callback root none (some error) state)
    | .ok kind => walkDir files.toFileSystem callback fuel root { name := base root, kind } state
  result.map fun (state, signal) =>
    match signal with
    | some (.failed error) => (state, some error)
    | _ => (state, none)

end WalkDir

/-! ## The scan -/

/-- The repositories and warnings collected so far. -/
structure Discovery where
  repositories : List Path := []
  warnings : List Text := []
  deriving DecidableEq, Repr

variable (quote : Text → Text)

/-- `isExcludedScanDirectory` of the Go program, which is given a name. -/
def isExcludedScanDirectory (name : Text) : Bool :=
  name == ascii "node_modules" || name == ascii "build"

/-- `action "path": message`. -/
def pathMessage (action : Text) (path : Path) (error : ErrorCode) : Text :=
  action ++ ascii " " ++ quote path ++ ascii ": " ++ error.message

/-- The function that `discoverRepositories` hands to `filepath.WalkDir`. -/
def scanCallback (files : FileSystem) : WalkDirFunc Discovery :=
  fun path entry walkError state =>
    match walkError with
    | some error =>
        ({ state with warnings := state.warnings ++ [pathMessage quote (ascii "walk") path error] },
          if entry.any Entry.isDir then some .skipDir else none)
    | none =>
        match entry with
        -- the walk hands over an entry or an error
        | none => (state, none)
        | some entry =>
            if !Entry.isDir entry then (state, none)
            else if isExcludedScanDirectory entry.name then (state, some .skipDir)
            else
              let gitMarker := join path (ascii ".git")
              match files.status gitMarker with
              | .ok .directory | .ok .regular =>
                  ({ state with repositories := state.repositories ++ [path] }, some .skipDir)
              | .ok .other => (state, none)
              | .error error =>
                  if error.isNoSuchFile then (state, none)
                  else
                    ({ state with warnings := state.warnings ++
                        [pathMessage quote (ascii "inspect") gitMarker error] }, none)

/-- The repositories, the warnings and the error, or nothing when the walk goes down
further than the fuel allows. -/
def discoverRepositories (files : PosixFileSystem) (fuel : Nat) (root : Path) :
    Option (List Path × List Text × Option Text) :=
  match abs files.toFileSystem root with
  | .error error => some ([], [], some (pathMessage quote (ascii "resolve scan root") root error))
  | .ok absRoot =>
      match files.status absRoot with
      | .error error =>
          some ([], [], some (pathMessage quote (ascii "open scan root") absRoot error))
      | .ok .directory =>
          (filepathWalkDir files fuel absRoot (scanCallback quote files.toFileSystem) {}).map
            fun (state, failure) =>
              match failure with
              | some error => ([], state.warnings, some (ascii "walk scan root " ++ quote absRoot ++
                  ascii ": " ++ error))
              | none => (sortByKey pathText state.repositories, state.warnings, none)
      | .ok _ =>
          some ([], [], some (ascii "scan root " ++ quote absRoot ++ ascii " is not a directory"))

/-! ## What the walk visits -/

section Visits

variable {files : FileSystem} {root directory : Path}

/-- The entry that the walk has for a directory. -/
def directoryEntry (directory : Path) : Entry where
  name := base directory
  kind := .directory

/-- The path of an entry that the walk goes down to and does not skip. -/
def enteredPath (directory : Path) (entry : Entry) : Option Path :=
  if Entry.isDir entry && !isExcludedScanDirectory entry.name then
    some (joinPath directory entry.name)
  else none

/-- The directories below a directory that the walk goes down to and does not skip. -/
def walkChildren (files : FileSystem) (directory : Path) : List Path :=
  if isEntered files directory then
    (readDir files directory).1.filterMap (enteredPath directory)
  else []

/-- The warning for a `.git` whose status cannot be told. -/
def markerWarnings (files : FileSystem) (directory : Path) : List Text :=
  match files.status (joinPath directory (ascii ".git")) with
  | .error error =>
      if CheckGitStatus.isExcludedScanDirectory directory || error.isNoSuchFile then []
      else [pathMessage quote (ascii "inspect") (joinPath directory (ascii ".git")) error]
  | .ok _ => []

/-- The state after visits of directories. -/
def visitAll (files : FileSystem) (visits : List Path) (state : Discovery) : Discovery where
  repositories := state.repositories ++ visits.filter (isReported files)
  warnings := state.warnings ++ visits.flatMap (markerWarnings quote files)

theorem visitAll_nil (state : Discovery) : visitAll quote files [] state = state := by
  simp only [visitAll, List.filter_nil, List.flatMap_nil, List.append_nil]

theorem visitAll_append (first second : List Path) (state : Discovery) :
    visitAll quote files (first ++ second) state =
      visitAll quote files second (visitAll quote files first state) := by
  simp only [visitAll, List.filter_append, List.flatMap_append, List.append_assoc]

/-- Joining a proper name to a clean directory leaves nothing to clean. -/
theorem join_eq (clean : IsClean directory) {name : Text} (valid : ValidName name) :
    join directory name = joinPath directory name := by
  have nonempty : directory ≠ [] := by
    rintro rfl
    rcases clean.noTrailingSeparator with named | isRoot
    · exact named (by decide)
    · cases isRoot
  rw [join, if_pos nonempty, clean.cleanPath_append valid]

theorem gitValid : ValidName (ascii ".git") := by decide

/-- The last name of a clean path. -/
theorem base_joinPath (clean : IsClean directory) {name : Text} (valid : ValidName name) :
    base (joinPath directory name) = name := by
  have bare := clean.noTrailingSeparator
  have named := filename_joinPath directory valid
  obtain ⟨front, last, split⟩ : ∃ front last, name = front ++ [last] :=
    (List.eq_nil_or_concat' name).resolve_left valid.nonempty
  have kept : (last == slash) = false := by
    rw [beq_eq_false_iff_ne]
    rintro rfl
    exact valid.no_slash (by rw [split]; exact List.mem_append_right _ List.mem_cons_self)
  have stripped : (joinPath directory name).rdropWhile (fun byte => byte == slash) =
      joinPath directory name := by
    rw [joinPath_eq bare, split, ← List.cons_append, ← List.append_assoc,
      List.rdropWhile_concat_neg _ _ _ (by rw [kept]; exact Bool.false_ne_true)]
  have nonempty : joinPath directory name ≠ [] := by
    rw [joinPath_eq bare]
    exact List.append_ne_nil_of_right_ne_nil _ (List.cons_ne_nil _ _)
  simp only [base, stripped, nonempty, ↓reduceIte, named]

/-- The programs exclude the same directories. -/
theorem isExcludedScanDirectory_base (clean : IsClean directory) :
    isExcludedScanDirectory (base directory) = CheckGitStatus.isExcludedScanDirectory directory := by
  obtain ⟨names, valid, rfl⟩ := clean
  rcases List.eq_nil_or_concat' names with rfl | ⟨front, last, rfl⟩
  · decide
  · have lastValid := valid last (List.mem_append_right _ List.mem_cons_self)
    have above : IsClean (FileSystem.descend [slash] front) :=
      ⟨front, fun name inside => valid name (List.mem_append_left _ inside), rfl⟩
    rw [FileSystem.descend_concat, base_joinPath above lastValid,
      CheckGitStatus.isExcludedScanDirectory, filename_joinPath _ lastValid]
    rfl

/-- What the function makes of a directory that it is called back for. -/
theorem scanCallback_directory (clean : IsClean directory) (state : Discovery) :
    scanCallback quote files directory (some (directoryEntry directory)) none state =
      (visitAll quote files [directory] state,
        if isEntered files directory then none else some .skipDir) := by
  have isDir : Entry.isDir (directoryEntry directory) = true := rfl
  have excluded : isExcludedScanDirectory (directoryEntry directory).name =
      CheckGitStatus.isExcludedScanDirectory directory := isExcludedScanDirectory_base clean
  unfold scanCallback visitAll markerWarnings isEntered isReported FileSystem.hasMarker
  rcases Bool.eq_false_or_eq_true (CheckGitStatus.isExcludedScanDirectory directory) with
    skipped | included
  · simp only [isDir, excluded, skipped, Bool.not_true, Bool.false_eq_true, ↓reduceIte,
      Bool.false_and, List.filter_cons, List.filter_nil, List.flatMap_singleton, Bool.true_or,
      List.append_nil]
    cases files.status (joinPath directory (ascii ".git")) <;> simp only [List.append_nil]
  · simp only [isDir, excluded, included, join_eq clean gitValid, Bool.not_true, Bool.not_false,
      Bool.false_eq_true, ↓reduceIte, Bool.true_and, List.filter_cons, List.filter_nil,
      List.flatMap_singleton, Bool.false_or]
    cases files.status (joinPath directory (ascii ".git")) with
    | error error =>
        by_cases absent : error.isNoSuchFile = true
        · simp only [absent, Bool.false_eq_true, Bool.not_false, ↓reduceIte, List.append_nil]
        · simp only [absent, Bool.false_eq_true, Bool.not_false, ↓reduceIte, List.append_nil]
    | ok type =>
        cases type <;>
          simp only [Bool.false_eq_true, ↓reduceIte, Bool.not_false, Bool.not_true, List.append_nil]

/-- An entry that is not gone down to, or is skipped, leaves the state as it is. -/
theorem walkDir_of_skipped {entry : Entry} (skipped : enteredPath directory entry = none)
    (path : Path) (fuel : Nat) (state : Discovery) :
    walkDir files (scanCallback quote files) (fuel + 1) path entry state = some (state, none) := by
  rw [enteredPath, ite_eq_right_iff] at skipped
  by_cases isDir : Entry.isDir entry = true
  · have excluded : isExcludedScanDirectory entry.name = true := by
      by_contra included
      rw [Bool.not_eq_true] at included
      have entered := skipped (by rw [isDir, included]; rfl)
      cases entered
    simp only [walkDir, scanCallback, isDir, excluded, Bool.not_true, Bool.false_eq_true,
      ↓reduceIte]
  · rw [Bool.not_eq_true] at isDir
    simp only [walkDir, scanCallback, isDir, Bool.not_false, ↓reduceIte]

/-- The loop over the entries of a directory visits what is below the entered ones,
whatever a visit does to the state. -/
theorem exists_walkEntries_visits {expand : Path → List Path}
    {visit : List Path → Discovery → Discovery} (visit_nil : ∀ state, visit [] state = state)
    (visit_append : ∀ first second state,
      visit (first ++ second) state = visit second (visit first state))
    (clean : IsClean directory) {entries : List Entry}
    (valid : ∀ entry ∈ entries, ValidName entry.name)
    (each : ∀ child ∈ entries.filterMap (enteredPath directory), ∃ visits bound,
      StackSearch.WorksOff expand [child] visits ∧
      ∀ fuel, bound ≤ fuel → ∀ state, walkDir files (scanCallback quote files) fuel child
        (directoryEntry child) state = some (visit visits state, none)) :
    ∃ visits bound,
      StackSearch.WorksOff expand (entries.filterMap (enteredPath directory)) visits ∧
      ∀ fuel, bound ≤ fuel → ∀ state,
        walkEntries (walkDir files (scanCallback quote files) fuel) directory entries state =
          some (visit visits state, none) := by
  induction entries with
  | nil =>
      refine ⟨[], 0, .nil, fun fuel _ state => ?_⟩
      rw [visit_nil, walkEntries]
  | cons entry rest ih =>
      have entryValid := valid entry List.mem_cons_self
      have restValid := fun other inside => valid other (List.mem_cons_of_mem entry inside)
      cases entered : enteredPath directory entry with
      | none =>
          rw [List.filterMap_cons_none entered] at each ⊢
          obtain ⟨visits, bound, worksOff, walks⟩ := ih restValid each
          refine ⟨visits, bound + 1, worksOff, fun fuel enough state => ?_⟩
          obtain ⟨more, rfl⟩ := Nat.exists_eq_add_of_le' enough
          rw [← Nat.add_assoc, walkEntries, walkDir_of_skipped quote entered]
          exact walks (more + bound + 1) (by omega) state
      | some child =>
          rw [List.filterMap_cons_some entered] at each ⊢
          obtain ⟨first, bound, worksOff, walks⟩ := each child List.mem_cons_self
          obtain ⟨later, boundRest, worksOffRest, walksRest⟩ :=
            ih restValid fun other inside => each other (List.mem_cons_of_mem _ inside)
          refine ⟨first ++ later, max bound boundRest, worksOff.append worksOffRest,
            fun fuel enough state => ?_⟩
          rw [enteredPath, Option.ite_none_right_eq_some, Bool.and_eq_true, Option.some.injEq]
            at entered
          obtain ⟨⟨isDir, _⟩, rfl⟩ := entered
          have sameEntry : entry = directoryEntry (joinPath directory entry.name) := by
            obtain ⟨name, kind⟩ := entry
            cases kind with
            | directory => rw [directoryEntry, base_joinPath clean entryValid]
            | file | link => cases isDir
          rw [Nat.max_le] at enough
          have walked := walks fuel enough.1 state
          rw [← sameEntry] at walked
          rw [walkEntries, join_eq clean entryValid, walked, visit_append]
          exact walksRest fuel enough.2 _

/-- The walk from a directory is a depth-first search, where no directory that is entered
fails to be read. -/
theorem exists_walkDir_visits (clean : IsClean root)
    (finite : Acc (fun child parent => child ∈ walkChildren files parent) root)
    (readable : ∀ directory, StackSearch.Reaches (walkChildren files) root directory →
      isEntered files directory = true → (files.listing directory).failure = none) :
    ∃ visits bound, StackSearch.WorksOff (walkChildren files) [root] visits ∧
      ∀ fuel, bound ≤ fuel → ∀ state, walkDir files (scanCallback quote files) fuel root
        (directoryEntry root) state = some (visitAll quote files visits state, none) := by
  induction finite with
  | intro directory _ ih =>
      have isDir : Entry.isDir (directoryEntry directory) = true := rfl
      by_cases entered : isEntered files directory = true
      · have expanded : walkChildren files directory =
            (readDir files directory).1.filterMap (enteredPath directory) := by
          rw [walkChildren, if_pos entered]
        have valid : ∀ entry ∈ (readDir files directory).1, ValidName entry.name := by
          intro entry inside
          exact (files.listing directory).names_valid entry
            ((sortByKey_perm Entry.name _).mem_iff.mp inside)
        obtain ⟨visits, bound, worksOff, walks⟩ := exists_walkEntries_visits quote
            (visitAll_nil quote) (visitAll_append quote) clean valid <| by
          intro child below
          obtain ⟨entry, inside, chosen⟩ := List.mem_filterMap.mp below
          rw [← expanded] at below
          refine ih child below ?_ fun other reached => readable other (.head below reached)
          rw [enteredPath, Option.ite_none_right_eq_some, Option.some.injEq] at chosen
          obtain ⟨_, rfl⟩ := chosen
          exact clean.joinPath (valid entry inside)
        rw [← expanded] at worksOff
        refine ⟨directory :: visits, bound + 1, worksOff.node, fun fuel enough state => ?_⟩
        obtain ⟨more, rfl⟩ := Nat.exists_eq_add_of_le' enough
        have noFailure : (readDir files directory).2 = none := readable directory .refl entered
        have split : directory :: visits = [directory] ++ visits := rfl
        rw [split, visitAll_append]
        simp only [walkDir, scanCallback_directory quote clean, entered, ↓reduceIte,
          isDir, Bool.not_true, Bool.false_eq_true, noFailure]
        exact walks (more + bound) (Nat.le_add_left bound more) _
      · have expanded : walkChildren files directory = [] := by
          rw [walkChildren, if_neg entered]
        have worksOff : StackSearch.WorksOff (walkChildren files) (walkChildren files directory) [] := by
          rw [expanded]
          exact .nil
        refine ⟨[directory], 1, worksOff.node, fun fuel enough state => ?_⟩
        obtain ⟨more, rfl⟩ := Nat.exists_eq_add_of_le' enough
        simp only [walkDir, scanCallback_directory quote clean, entered, isDir, ↓reduceIte,
          Bool.false_eq_true]

/-- The walk goes down as a scan is to. -/
theorem walkChildren_scanExpansion (files : FileSystem) :
    ScanExpansion files (walkChildren files) where
  mem_iff {directory child} := by
    have sorted : ∀ entry, entry ∈ (readDir files directory).1 ↔
        entry ∈ (files.listing directory).entries :=
      fun entry => (sortByKey_perm Entry.name _).mem_iff
    have excluded : ∀ {name}, ValidName name → (isExcludedScanDirectory name = false ↔
        CheckGitStatus.isExcludedScanDirectory (joinPath directory name) = false) := by
      intro name valid
      rw [CheckGitStatus.isExcludedScanDirectory, filename_joinPath directory valid]
      exact Iff.rfl
    unfold walkChildren
    split
    · rename_i entered
      simp only [List.mem_filterMap, enteredPath, Option.ite_none_right_eq_some, Bool.and_eq_true,
        Bool.not_eq_true', Option.some.injEq, sorted, entered, true_and]
      constructor
      · rintro ⟨⟨name, kind⟩, inside, ⟨isDir, included⟩, rfl⟩
        have valid := (files.listing directory).names_valid _ inside
        cases kind with
        | directory =>
            exact ⟨name, ⟨_, inside, rfl, rfl⟩, rfl, (excluded valid).mp included⟩
        | file | link => cases isDir
      · rintro ⟨name, ⟨⟨_, kind⟩, inside, rfl, rfl⟩, rfl, included⟩
        have valid := (files.listing directory).names_valid _ inside
        exact ⟨_, inside, ⟨rfl, (excluded valid).mpr included⟩, rfl⟩
    · rename_i skipped
      simp only [List.not_mem_nil, skipped, Bool.false_eq_true, false_and]
  nodup directory := by
    unfold walkChildren
    split
    · have distinct := ((sortByKey_perm Entry.name _).map Entry.name).nodup_iff.mpr
        (files.listing directory).names_nodup
      rw [List.Nodup, List.pairwise_filterMap]
      refine (List.pairwise_map.mp distinct).imp ?_
      intro first second differ firstPath firstEntered secondPath secondEntered same
      rw [enteredPath, Option.ite_none_right_eq_some, Option.some.injEq] at firstEntered secondEntered
      obtain ⟨_, rfl⟩ := firstEntered
      obtain ⟨_, rfl⟩ := secondEntered
      exact differ (joinPath_right_injective directory same)
    · exact List.nodup_nil

end Visits

/-! ## The whole discovery -/

/-- `filepath.Abs` returns a clean path. -/
theorem abs_isClean {files : PosixFileSystem} {root absRoot : Path}
    (resolved : abs files.toFileSystem root = .ok absRoot) : IsClean absRoot := by
  unfold abs at resolved
  split at resolved
  · rename_i rooted
    cases resolved
    exact cleanPath_isClean rooted
  · split at resolved
    · cases resolved
    · rename_i current found
      cases resolved
      have rooted := files.currentPath_rooted current found
      cases current with
      | nil => cases rooted
      | cons first rest =>
          rw [join, if_pos (List.cons_ne_nil first rest)]
          exact cleanPath_isClean rooted

/-- The result of a complete discovery: the top-most repositories in the order of their
path texts, each once. -/
structure FindsTopRepositories (files : FileSystem) (root : Path)
    (result : List Path × List Text × Option Text) : Prop where
  noError : result.2.2 = none
  sorted : result.1.Pairwise fun left right => pathText left < pathText right
  repositories : ∀ directory, directory ∈ result.1 ↔ files.IsTopRepository root directory

/-- An accepted root that is a link is not walked. -/
theorem discoverRepositories_of_isLink {files : PosixFileSystem} {root absRoot : Path}
    (resolved : abs files.toFileSystem root = .ok absRoot)
    (accepted : files.status absRoot = .ok .directory) (link : files.IsLink absRoot)
    (fuel : Nat) : discoverRepositories quote files (fuel + 1) root = some ([], [], none) := by
  obtain ⟨target, found⟩ := link
  have notDir : Entry.isDir { name := base absRoot, kind := .link target } = false := rfl
  simp only [discoverRepositories, resolved, accepted, filepathWalkDir, found, walkDir, scanCallback,
    notDir, Bool.not_false, ↓reduceIte, Option.map_some]
  rfl

/-- An accepted root that is a directory by itself is scanned completely. -/
theorem discoverRepositories_of_not_isLink {files : PosixFileSystem} {root absRoot : Path}
    (resolved : abs files.toFileSystem root = .ok absRoot)
    (accepted : files.status absRoot = .ok .directory) (finite : files.Finite absRoot)
    (readable : ∀ directory, files.Inspected absRoot directory →
      files.hasMarker directory = false → (files.listing directory).failure = none)
    (plain : ¬ files.IsLink absRoot) :
    ∃ result bound,
      (∀ fuel, bound ≤ fuel → discoverRepositories quote files fuel root = some result) ∧
      FindsTopRepositories files.toFileSystem absRoot result := by
  have expansion := walkChildren_scanExpansion files.toFileSystem
  have clean := abs_isClean resolved
  obtain ⟨visits, bound, worksOff, walks⟩ := exists_walkDir_visits quote clean
    (expansion.wellFounded finite) (fun directory reached entered => by
      obtain ⟨included, unmarked⟩ := isEntered_iff.mp entered
      exact readable directory (expansion.inspected_iff.mpr ⟨reached, included⟩) unmarked)
  have distinct := StackSearch.visited_nodup (expansion.treeLike clean.noTrailingSeparator)
    worksOff.run
  have root_is : { name := base absRoot, kind := .directory } = directoryEntry absRoot := rfl
  refine ⟨(sortByKey pathText (visits.filter (isReported files.toFileSystem)),
      visits.flatMap (markerWarnings quote files.toFileSystem), none), bound, ?_, rfl, ?_, ?_⟩
  · intro fuel enough
    simp only [discoverRepositories, resolved, accepted, filepathWalkDir,
      files.symlinkStatus_eq_directory accepted plain, root_is, walks fuel enough, Option.map_some,
      visitAll, List.nil_append]
  · apply sortByKey_strict
    exact (distinct.filter _).map fun _ _ same => same
  · intro directory
    rw [(sortByKey_perm _ _).mem_iff, List.mem_filter, StackSearch.mem_visited_iff worksOff.run,
      expansion.isTopRepository_iff]

/-- Without failures, the discovery from an accepted root is complete exactly if the root
is no link or has no repositories below it. -/
theorem discoverRepositories_complete_iff {files : PosixFileSystem} {root absRoot : Path}
    (resolved : abs files.toFileSystem root = .ok absRoot)
    (accepted : files.status absRoot = .ok .directory) (finite : files.Finite absRoot)
    (readable : ∀ directory, files.Inspected absRoot directory →
      files.hasMarker directory = false → (files.listing directory).failure = none) :
    ∃ result bound,
      (∀ fuel, bound ≤ fuel → discoverRepositories quote files fuel root = some result) ∧
      (FindsTopRepositories files.toFileSystem absRoot result ↔
        (files.IsLink absRoot → ∀ directory, ¬ files.IsTopRepository absRoot directory)) := by
  by_cases link : files.IsLink absRoot
  · refine ⟨([], [], none), 1, fun fuel enough => ?_, ?_⟩
    · obtain ⟨more, rfl⟩ := Nat.exists_eq_add_of_le' enough
      exact discoverRepositories_of_isLink quote resolved accepted link more
    · constructor
      · intro complete _ directory isTop
        exact List.not_mem_nil ((complete.repositories directory).mpr isTop)
      · intro noneBelow
        refine ⟨rfl, List.Pairwise.nil, fun directory => ?_⟩
        exact ⟨fun inside => absurd inside List.not_mem_nil,
          fun isTop => absurd isTop (noneBelow link directory)⟩
  · obtain ⟨result, bound, ends, complete⟩ :=
      discoverRepositories_of_not_isLink quote resolved accepted finite readable link
    exact ⟨result, bound, ends, fun _ linked => absurd linked link, fun _ => complete⟩

/-- The quoting of texts in which nothing needs an escape. -/
def plainQuote (text : Text) : Text :=
  ascii "\"" ++ text ++ ascii "\""

/-- The directory `/t` with the repository `repo`, and the link `/w` to it. -/
def linkedRoot : PosixFileSystem :=
  .ofBare (ascii "/") rfl
    (fun path =>
      if [[], ascii "/t", ascii "/t/repo", ascii "/t/repo/.git", ascii "/w/repo",
        ascii "/w/repo/.git"].contains path then .ok .directory
      else if path = ascii "/w" then .ok (.link (.ok .directory))
      else .error ⟨2, ascii "no such file or directory"⟩)
    (fun path =>
      if path = ascii "/t" ∨ path = ascii "/w" then
        { entries := [⟨ascii "repo", .directory⟩]
          names_valid := by decide
          names_nodup := by decide }
      else .empty)

example : discoverRepositories plainQuote linkedRoot 3 (ascii "t") =
    some ([ascii "/t/repo"], [], none) := by decide

theorem linkedRoot_readable (directory : Path) :
    (linkedRoot.listing directory).failure = none := by
  simp only [linkedRoot, PosixFileSystem.ofBare]
  split
  · rfl
  · rfl

theorem linkedRoot_finite {root : Path} (isRoot : root = ascii "/t" ∨ root = ascii "/w") :
    linkedRoot.Finite root := by
  have entries : (linkedRoot.listing root).entries = [⟨ascii "repo", .directory⟩] := by
    rcases isRoot with rfl | rfl <;> rfl
  have leaf : (linkedRoot.listing (joinPath root (ascii "repo"))).entries = [] := by
    rcases isRoot with rfl | rfl <;> rfl
  refine .intro _ fun child ⟨name, ⟨entry, listed, sameName, _⟩, below⟩ => ?_
  rw [entries, List.mem_singleton] at listed
  subst listed sameName below
  refine .intro _ fun child ⟨name, ⟨entry, listed, _⟩, _⟩ => ?_
  rw [leaf] at listed
  cases listed

/-- From the directory itself the walk misses nothing. -/
theorem discoverRepositories_realRoot :
    ∃ result bound, (∀ fuel, bound ≤ fuel →
        discoverRepositories plainQuote linkedRoot fuel (ascii "t") = some result) ∧
      (FindsTopRepositories linkedRoot.toFileSystem (ascii "/t") result ↔
        (linkedRoot.IsLink (ascii "/t") →
          ∀ directory, ¬ linkedRoot.IsTopRepository (ascii "/t") directory)) :=
  discoverRepositories_complete_iff plainQuote (by decide) (by decide) (linkedRoot_finite (.inl rfl))
    fun directory _ _ => linkedRoot_readable directory

/-- The root `/w` is accepted and has a repository below it, which is not found. -/
theorem discoverRepositories_linkedRoot :
    abs linkedRoot.toFileSystem (ascii "/w") = .ok (ascii "/w") ∧
      linkedRoot.status (ascii "/w") = .ok .directory ∧ linkedRoot.Finite (ascii "/w") ∧
      (∀ directory, (linkedRoot.listing directory).failure = none) ∧
      linkedRoot.IsTopRepository (ascii "/w") (ascii "/w/repo") ∧
      ∀ fuel, discoverRepositories plainQuote linkedRoot (fuel + 1) (ascii "/w") =
        some ([], [], none) := by
  have resolved : abs linkedRoot.toFileSystem (ascii "/w") = .ok (ascii "/w") := by decide
  have accepted : linkedRoot.status (ascii "/w") = .ok .directory := by decide
  refine ⟨resolved, accepted, linkedRoot_finite (.inr rfl), linkedRoot_readable, ?_, ?_⟩
  · rw [(walkChildren_scanExpansion linkedRoot.toFileSystem).isTopRepository_iff]
    exact ⟨.single (by decide), by decide⟩
  · exact discoverRepositories_of_isLink plainQuote resolved accepted ⟨.ok .directory, rfl⟩

end CheckGitStatus.Go
