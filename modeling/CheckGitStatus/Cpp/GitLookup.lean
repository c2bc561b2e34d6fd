import CheckGitStatus.Cpp.Discovery
import CheckGitStatus.Cpp.Pieces
import CheckGitStatus.Library.Folds

/-! # The lookup of git

`find_posix_git` cuts `PATH` at its colons with `find` and `substr` and takes the first
`git` that passes `access`. A directory that may be searched passes as well, while the
lookup on Windows asks for a regular file. The condition under which the lookup returns
the first program all the same is exact (`CheckGitStatus.Cpp.findPosixGit_findsGit_iff`).
-/

namespace CheckGitStatus.Cpp

open Library

/-- The value of `PATH`, a C string that is copied to a `std::string`. -/
structure PathValue extends BasicString Byte where
  no_zero : 0 ∉ text

/-- The byte that separates the directories of `PATH`. -/
def colon : Byte := 58

/-! ## The lookup -/

/-- A file system with the permissions of the user. -/
structure ProgramSystem extends PosixFileSystem where
  /-- The user may execute what the path leads to, or search it if it is a directory. -/
  mayExecute : Path → Bool

/-- `access` with `X_OK`. -/
def ProgramSystem.access (system : ProgramSystem) (path : Path) : Bool :=
  match system.status path with
  | .ok _ => system.mayExecute path
  | .error _ => false

/-- What is tried for an entry of `PATH`. -/
def gitCandidate (directory : Text) : Path :=
  if directory = [] then ascii "git" else joinPath directory (ascii "git")

/-- `fs::absolute` with its error ignored, in which case the path is empty. -/
def absoluteOrEmpty (files : FileSystem) (path : Path) : Path :=
  match absolute files path with
  | .ok absolutePath => absolutePath
  | .error _ => []

/-- What is returned for a path that passes `access`. -/
def foundGit (system : ProgramSystem) (candidate : Path) : Path :=
  lexicallyNormal (absoluteOrEmpty system.toFileSystem candidate)

/-- What a piece of `PATH` gives. -/
def gitIn (system : ProgramSystem) (directory : Text) : Option Path :=
  let candidate := gitCandidate directory
  if system.access candidate then some (foundGit system candidate) else none

/-- `find_posix_git`, for the value of `PATH` if it is set. -/
def findPosixGit (system : ProgramSystem) : Option PathValue → Option Path
  | none => none
  | some value => value.findPiece colon (gitIn system)

/-! ## The entries of `PATH` -/

/-- The names of git in the entries that colons separate. -/
def gitCandidates : Option PathValue → List Path
  | none => []
  | some value => (value.text.splitOn colon).map gitCandidate

/-- The pieces give what the first name that passes leads to. -/
theorem findSome?_gitIn (system : ProgramSystem) (pieces : List Text) :
    pieces.findSome? (gitIn system) =
      ((pieces.map gitCandidate).find? system.access).map (foundGit system) := by
  induction pieces with
  | nil => rfl
  | cons piece rest ih =>
      rw [List.findSome?_cons, List.map_cons, List.find?_cons, gitIn, ih]
      cases system.access (gitCandidate piece) <;> rfl

/-- The lookup takes the first candidate that passes `access`. -/
theorem findPosixGit_eq (system : ProgramSystem) (value : Option PathValue) :
    findPosixGit system value =
      ((gitCandidates value).find? system.access).map (foundGit system) := by
  cases value with
  | none => rfl
  | some value => rw [findPosixGit, BasicString.findPiece_eq, findSome?_gitIn, gitCandidates]

example : ((ascii ":/a::").splitOn colon).map gitCandidate =
    [ascii "git", ascii "/a/git", ascii "git", ascii "git"] := by decide

/-! ## The first program -/

/-- An executable regular file, with links followed. -/
structure ProgramSystem.IsProgram (system : ProgramSystem) (path : Path) : Prop where
  regular : system.status path = .ok .regular
  executable : system.mayExecute path = true

/-- The result is the first program among the candidates, as a normal absolute path. -/
structure FindsGit (system : ProgramSystem) (candidates : List Path) (result : Option Path) :
    Prop where
  nothing : (∀ candidate ∈ candidates, ¬ system.IsProgram candidate) → result = none
  first : ∀ program, IsFirst system.IsProgram candidates program →
    ∃ path, absolute system.toFileSystem program = .ok path ∧
      result = some (lexicallyNormal path)

/-- The first candidate that passes `access` has an absolute path, and either it is a
regular file or the first program has the same normal path. -/
def NoDecoyFirst (system : ProgramSystem) (candidates : List Path) : Prop :=
  ∀ tried, IsFirst (fun candidate => system.access candidate = true) candidates tried →
    ∃ path, absolute system.toFileSystem tried = .ok path ∧
      (system.status tried = .ok .regular ∨
        ∃ program other, IsFirst system.IsProgram candidates program ∧
          absolute system.toFileSystem program = .ok other ∧
          lexicallyNormal other = lexicallyNormal path)

/-- A program passes `access`. -/
theorem ProgramSystem.IsProgram.access {system : ProgramSystem} {path : Path}
    (program : system.IsProgram path) : system.access path = true := by
  rw [ProgramSystem.access, program.regular]
  exact program.executable

/-- A regular file that passes `access` is a program. -/
theorem ProgramSystem.isProgram_of_access {system : ProgramSystem} {path : Path}
    (passes : system.access path = true) (regular : system.status path = .ok .regular) :
    system.IsProgram path := by
  rw [ProgramSystem.access, regular] at passes
  exact ⟨regular, passes⟩

theorem lexicallyNormal_ne_nil {path : Path} (rooted : path.head? = some slash) :
    lexicallyNormal path ≠ [] := by
  have nonempty : path ≠ [] := by
    rintro rfl
    cases rooted
  have isAbsolute : (path.head? == some slash) = true := beq_iff_eq.mpr rooted
  simp only [lexicallyNormal, if_neg nonempty, isAbsolute, ↓reduceIte]
  exact List.cons_ne_nil slash _

/-- An absolute path that is found leads to a normal path that is not empty. -/
theorem foundGit_eq_iff {system : ProgramSystem} {tried other : Path}
    (rooted : other.head? = some slash) :
    foundGit system tried = lexicallyNormal other ↔
      ∃ path, absolute system.toFileSystem tried = .ok path ∧
        lexicallyNormal other = lexicallyNormal path := by
  unfold foundGit absoluteOrEmpty
  cases resolved : absolute system.toFileSystem tried with
  | ok path =>
      constructor
      · intro same
        exact ⟨path, rfl, same.symm⟩
      · rintro ⟨_, found, same⟩
        cases found
        exact same.symm
  | error error =>
      constructor
      · intro same
        exact absurd same.symm (lexicallyNormal_ne_nil rooted)
      · rintro ⟨_, found, _⟩
        cases found

/-- What the lookup returns when some candidate passes `access`. -/
theorem findPosixGit_of_isFirst {system : ProgramSystem} {value : Option PathValue} {tried : Path}
    (isFirst : IsFirst (fun candidate => system.access candidate = true) (gitCandidates value)
      tried) :
    findPosixGit system value = some (foundGit system tried) := by
  have found : (gitCandidates value).find? system.access = some tried := by
    simpa only [Bool.decide_eq_true] using isFirst_iff_find?.mp isFirst
  rw [findPosixGit_eq, found, Option.map_some]

/-- Without a candidate that passes `access`, the lookup finds nothing. -/
theorem findPosixGit_of_none {system : ProgramSystem} {value : Option PathValue}
    (none_passes : ∀ candidate ∈ gitCandidates value, ¬ system.access candidate = true) :
    findPosixGit system value = none := by
  rw [findPosixGit_eq, List.find?_eq_none.mpr none_passes, Option.map_none]

/-- If no decoy comes first, the path that is returned is that of the first program. -/
theorem NoDecoyFirst.exists_program {system : ProgramSystem} {candidates : List Path}
    (noDecoy : NoDecoyFirst system candidates) {tried : Path}
    (passes : IsFirst (fun candidate => system.access candidate = true) candidates tried) :
    ∃ program other, IsFirst system.IsProgram candidates program ∧
      absolute system.toFileSystem program = .ok other ∧
      foundGit system tried = lexicallyNormal other := by
  obtain ⟨path, resolved, honest⟩ := noDecoy tried passes
  rcases honest with regular | ⟨program, other, isFirst, found, same⟩
  · have isProgram := system.isProgram_of_access passes.matches_first regular
    exact ⟨tried, path, passes.of_imp (fun _ program => program.access) isProgram, resolved,
      (foundGit_eq_iff (absolute_rooted resolved)).mpr ⟨path, resolved, rfl⟩⟩
  · exact ⟨program, other, isFirst, found,
      (foundGit_eq_iff (absolute_rooted found)).mpr ⟨path, resolved, same⟩⟩

/-- Without a decoy in front the lookup finds git. -/
theorem findsGit_of_noDecoyFirst {system : ProgramSystem} {value : Option PathValue}
    (noDecoy : NoDecoyFirst system (gitCandidates value)) :
    FindsGit system (gitCandidates value) (findPosixGit system value) := by
  by_cases exists_passing : ∃ candidate ∈ gitCandidates value, system.access candidate = true
  · obtain ⟨candidate, inside, passing⟩ := exists_passing
    obtain ⟨tried, passes⟩ :
        ∃ tried, IsFirst (fun path => system.access path = true) (gitCandidates value) tried :=
      exists_isFirst inside passing
    obtain ⟨program, other, isFirst, resolved, same⟩ := noDecoy.exists_program passes
    refine ⟨fun none => absurd isFirst.matches_first (none program isFirst.mem), ?_⟩
    intro first firstProgram
    cases firstProgram.unique isFirst
    exact ⟨other, resolved, (findPosixGit_of_isFirst passes).trans (congrArg some same)⟩
  · have none_passes : ∀ candidate ∈ gitCandidates value, ¬ system.access candidate = true :=
      fun candidate inside passes => exists_passing ⟨candidate, inside, passes⟩
    refine ⟨fun _ => findPosixGit_of_none none_passes, ?_⟩
    intro program isFirst
    exact absurd isFirst.matches_first.access (none_passes program isFirst.mem)

/-- If the lookup finds git, there was no decoy in front. -/
theorem noDecoyFirst_of_findsGit {system : ProgramSystem} {value : Option PathValue}
    (finds : FindsGit system (gitCandidates value) (findPosixGit system value)) :
    NoDecoyFirst system (gitCandidates value) := by
  intro tried passes
  have result := findPosixGit_of_isFirst passes
  by_cases exists_program : ∃ candidate ∈ gitCandidates value, system.IsProgram candidate
  · obtain ⟨candidate, inside, isProgram⟩ := exists_program
    obtain ⟨program, isFirst⟩ := exists_isFirst inside isProgram
    obtain ⟨other, resolved, same⟩ := finds.first program isFirst
    rw [result, Option.some.injEq, foundGit_eq_iff (absolute_rooted resolved)] at same
    obtain ⟨path, found, samePath⟩ := same
    exact ⟨path, found, .inr ⟨program, other, isFirst, resolved, samePath⟩⟩
  · have missing := finds.nothing fun candidate inside isProgram =>
      exists_program ⟨candidate, inside, isProgram⟩
    rw [result] at missing
    cases missing

/-- The lookup returns the first program exactly if no decoy comes first. -/
theorem findPosixGit_findsGit_iff (system : ProgramSystem) (value : Option PathValue) :
    FindsGit system (gitCandidates value) (findPosixGit system value) ↔
      NoDecoyFirst system (gitCandidates value) :=
  ⟨noDecoyFirst_of_findsGit, findsGit_of_noDecoyFirst⟩

/-- A system with a directory `/a/git` that may be searched and a program `/b/git`. -/
def decoySystem : ProgramSystem where
  toPosixFileSystem := PosixFileSystem.ofBare (ascii "/home") rfl
    (fun path =>
      if path = ascii "/a/git" then .ok .directory
      else if path = ascii "/b/git" then .ok .file
      else .error { value := 2, message := ascii "No such file or directory" })
    fun _ => .empty
  mayExecute _ := true

/-- A `PATH` of two directories. -/
def decoyPath : PathValue where
  text := ascii "/a:/b"
  no_zero := by decide
  length_lt := by decide

/-- A directory that is named `git` is taken for git. -/
theorem decoyDirectory_not_findsGit :
    ¬ FindsGit decoySystem (gitCandidates (some decoyPath))
      (findPosixGit decoySystem (some decoyPath)) := by
  intro finds
  have program : IsFirst decoySystem.IsProgram (gitCandidates (some decoyPath))
      (ascii "/b/git") :=
    { matches_first := ⟨rfl, rfl⟩
      nothing_before := ⟨[ascii "/a/git"], [], by decide, by
        intro candidate inside isProgram
        rw [List.mem_singleton.mp inside] at isProgram
        cases isProgram.regular⟩ }
  obtain ⟨path, resolved, result⟩ := finds.first _ program
  have returned : findPosixGit decoySystem (some decoyPath) = some (ascii "/a/git") := by
    rw [findPosixGit_eq]
    decide
  rw [returned] at result
  cases resolved
  exact absurd result (by decide)

end CheckGitStatus.Cpp
