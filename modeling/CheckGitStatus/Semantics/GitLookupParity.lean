import CheckGitStatus.Cpp.RootSpelling
import CheckGitStatus.Go.LookPath

/-! # Where the two programs find the same git

Both programs go over `PATH`. What the Go program does not accept, a directory or a
relative entry, the C++ program takes for git if it comes first
(`CheckGitStatus.lookPath_parity_iff`).
-/

namespace CheckGitStatus

open Library

open Cpp (PathValue ProgramSystem colon gitCandidate gitCandidates findPosixGit foundGit)

/-- The names that the two programs make of an entry of `PATH` lead to one object, and so
does the absolute path that the C++ program returns. -/
structure LeadsToOne (system : ProgramSystem) (directory : Text) : Prop where
  status : system.status (Go.programPath directory) = system.status (gitCandidate directory)
  mayExecute : system.mayExecute (Go.programPath directory) =
    system.mayExecute (gitCandidate directory)
  resolved : ∃ path, Cpp.absolute system.toFileSystem (gitCandidate directory) = .ok path ∧
    system.status (Cpp.lexicallyNormal path) = system.status (gitCandidate directory)

/-- For an absolute entry both programs come to the same path. -/
theorem lexicallyNormal_gitCandidate {directory : Text}
    (rooted : directory.head? = some slash) :
    Cpp.lexicallyNormal (gitCandidate directory) = Go.programPath directory := by
  have nonempty : directory ≠ [] := by
    rintro rfl
    cases rooted
  have valid : ValidName (ascii "git") := ⟨by decide, by decide, by decide, by decide⟩
  have candidate : gitCandidate directory = joinPath directory (ascii "git") := if_neg nonempty
  have bare : Cpp.keepsSeparator (joinPath directory (ascii "git")) = false := by
    have last : (joinPath directory (ascii "git")).getLast? = some 116 := by
      unfold joinPath
      split
      · rw [List.getLast?_append_cons]
        rfl
      · rw [List.getLast?_append_of_ne_nil _ (by decide)]
        rfl
    have name : (components (joinPath directory (ascii "git"))).getLast? =
        some (ascii "git") := by
      rw [components_joinPath rooted, components_append, components_of_validName valid,
        List.getLast?_concat]
    rw [Cpp.keepsSeparator, last, name]
    decide
  rw [candidate, Cpp.lexicallyNormal_eq (joinPath_head? rooted _), bare,
    if_neg fun both => Bool.false_ne_true both.1, cleanPath_joinPath rooted, Go.programPath,
    if_neg nonempty, Go.join, if_pos nonempty]

theorem gitCandidate_head?_iff {directory : Text} :
    (gitCandidate directory).head? = some slash ↔ directory.head? = some slash := by
  unfold gitCandidate
  by_cases empty : directory = []
  · subst empty
    decide
  · rw [if_neg empty]
    unfold joinPath
    split <;> rw [List.head?_append_of_ne_nil _ empty]

namespace LeadsToOne

variable {system : ProgramSystem} {directory : Text} (one : LeadsToOne system directory)
include one

/-- The Go program accepts what passes `access` and is no directory. -/
theorem findExecutable_iff :
    Go.findExecutable system (Go.programPath directory) = true ↔
      system.access (gitCandidate directory) = true ∧
        system.status (gitCandidate directory) ≠ .ok .directory := by
  rw [Go.findExecutable, ProgramSystem.access, one.status, one.mayExecute]
  cases system.status (gitCandidate directory) with
  | error error => simp
  | ok type => cases type <;> simp

/-- The path that the C++ lookup returns leads to the candidate itself. -/
theorem foundGit_eq : ∃ path,
    Cpp.absolute system.toFileSystem (gitCandidate directory) = .ok path ∧
      foundGit system (gitCandidate directory) = Cpp.lexicallyNormal path ∧
      system.status (Cpp.lexicallyNormal path) = system.status (gitCandidate directory) := by
  obtain ⟨path, resolved, leads⟩ := one.resolved
  refine ⟨path, resolved, ?_, leads⟩
  rw [foundGit, Cpp.absoluteOrEmpty, resolved]

end LeadsToOne

section Lookup

variable {system : ProgramSystem} {value : PathValue}
  (one : ∀ directory ∈ value.text.splitOn colon, LeadsToOne system directory)
include one

/-- Without a candidate that passes `access` neither program finds anything. -/
theorem lookPath_ne_ok_of_none
    (nothing : ∀ directory ∈ value.text.splitOn colon,
      ¬ system.access (gitCandidate directory) = true) (path : Path) :
    Go.lookPath system (some value) ≠ .ok path := by
  intro found
  obtain ⟨_, directory, isFirst, _⟩ := Go.lookPath_eq_ok_iff.mp found
  have passes := (one directory isFirst.mem).findExecutable_iff.mp isFirst.matches_first
  exact nothing directory isFirst.mem passes.1

/-- What the Go program makes of the entry at which the C++ program stops. -/
theorem lookPath_eq_foundGit_iff {directory : Text}
    (isFirst : IsFirst (fun entry => system.access (gitCandidate entry) = true)
      (value.text.splitOn colon) directory) :
    Go.lookPath system (some value) = .ok (foundGit system (gitCandidate directory)) ↔
      (gitCandidate directory).head? = some slash ∧
        system.status (gitCandidate directory) ≠ .ok .directory := by
  obtain ⟨path, resolved, found, leads⟩ := (one directory isFirst.mem).foundGit_eq
  have first : system.status (gitCandidate directory) ≠ .ok .directory →
      IsFirst (fun entry => Go.findExecutable system (Go.programPath entry) = true)
        (value.text.splitOn colon) directory := by
    intro plain
    obtain ⟨front, back, split, before⟩ := isFirst.nothing_before
    refine ⟨(one directory isFirst.mem).findExecutable_iff.mpr ⟨isFirst.matches_first, plain⟩,
      front, back, split, fun entry inside executable => before entry inside ?_⟩
    have listed : entry ∈ value.text.splitOn colon := by
      rw [split]
      exact List.mem_append_left _ inside
    exact ((one entry listed).findExecutable_iff.mp executable).1
  rw [Go.lookPath_eq_ok_iff, found, gitCandidate_head?_iff]
  constructor
  · rintro ⟨_, other, otherFirst, rooted, same⟩
    have executable := (one other otherFirst.mem).findExecutable_iff.mp otherFirst.matches_first
    have plain : system.status (gitCandidate directory) ≠ .ok .directory := by
      rw [← leads, ← same, (one other otherFirst.mem).status]
      exact executable.2
    rw [otherFirst.unique (first plain)] at rooted
    exact ⟨rooted, plain⟩
  · rintro ⟨rooted, plain⟩
    refine ⟨?_, directory, first plain, rooted, ?_⟩
    · intro empty
      have inside := isFirst.mem
      rw [empty] at inside
      cases List.mem_singleton.mp inside
      cases rooted
    · have candidateRooted := gitCandidate_head?_iff.mpr rooted
      have nonempty : gitCandidate directory ≠ [] := by
        intro empty
        rw [empty] at candidateRooted
        cases candidateRooted
      rw [Cpp.absolute, if_neg nonempty, if_pos candidateRooted, Except.ok.injEq] at resolved
      rw [← resolved, lexicallyNormal_gitCandidate rooted]

end Lookup

/-- **When both programs find the same git.** The results are the same, also that there is
none, exactly if the first name that passes `access`, if there is one, is absolute and no
directory. -/
theorem lookPath_parity_iff {system : ProgramSystem} {value : Option PathValue}
    (one : ∀ path, value = some path → ∀ directory ∈ path.text.splitOn colon,
      LeadsToOne system directory) :
    (Go.lookPath system value).toOption = findPosixGit system value ↔
      ∀ tried, IsFirst (fun candidate => system.access candidate = true) (gitCandidates value)
        tried → tried.head? = some slash ∧ system.status tried ≠ .ok .directory := by
  cases value with
  | none =>
      refine iff_of_true rfl fun tried isFirst => ?_
      exact absurd isFirst.mem List.not_mem_nil
  | some value =>
      have consistent := one value rfl
      have toOption : ∀ path, (Go.lookPath system (some value)).toOption = some path ↔
          Go.lookPath system (some value) = .ok path := by
        intro path
        cases Go.lookPath system (some value) with
        | error error => exact iff_of_false nofun nofun
        | ok found => exact ⟨fun same => congrArg Except.ok (Option.some.inj same),
            fun same => congrArg some (Except.ok.inj same)⟩
      by_cases passing : ∃ directory ∈ value.text.splitOn colon,
          system.access (gitCandidate directory) = true
      · obtain ⟨entry, listed, passes⟩ := passing
        obtain ⟨directory, isFirst⟩ :
            ∃ directory, IsFirst (fun entry => system.access (gitCandidate entry) = true)
              (value.text.splitOn colon) directory := exists_isFirst listed passes
        have firstCandidate : IsFirst (fun candidate => system.access candidate = true)
            (gitCandidates (some value)) (gitCandidate directory) :=
          isFirst_map_iff.mpr ⟨directory, isFirst, rfl⟩
        rw [Cpp.findPosixGit_of_isFirst firstCandidate, toOption,
          lookPath_eq_foundGit_iff consistent isFirst]
        constructor
        · intro accepted tried triedFirst
          rw [triedFirst.unique firstCandidate]
          exact accepted
        · exact fun accepted => accepted _ firstCandidate
      · have nothing : ∀ directory ∈ value.text.splitOn colon,
            ¬ system.access (gitCandidate directory) = true :=
          fun directory listed passes => passing ⟨directory, listed, passes⟩
        have noCandidate : ∀ candidate ∈ gitCandidates (some value),
            ¬ system.access candidate = true := List.forall_mem_map.mpr nothing
        rw [Cpp.findPosixGit_of_none noCandidate]
        refine iff_of_true ?_ fun tried isFirst => ?_
        · rw [Option.eq_none_iff_forall_ne_some]
          exact fun path same => lookPath_ne_ok_of_none consistent nothing path
            ((toOption path).mp same)
        · exact absurd isFirst.matches_first (noCandidate tried isFirst.mem)

/-- A directory of the right name that comes before the program. -/
theorem lookPath_parity_decoy :
    (Go.lookPath Cpp.decoySystem (some Cpp.decoyPath)).toOption ≠
      findPosixGit Cpp.decoySystem (some Cpp.decoyPath) := by
  have entries : Cpp.decoyPath.text.splitOn colon = [ascii "/a", ascii "/b"] := by decide
  have one : ∀ path, some Cpp.decoyPath = some path → ∀ directory ∈ path.text.splitOn colon,
      LeadsToOne Cpp.decoySystem directory := by
    rintro path ⟨⟩ directory listed
    rw [entries] at listed
    simp only [List.mem_cons, List.not_mem_nil, or_false] at listed
    rcases listed with rfl | rfl
    · exact ⟨rfl, rfl, ascii "/a/git", rfl, rfl⟩
    · exact ⟨rfl, rfl, ascii "/b/git", rfl, rfl⟩
  have decoy : IsFirst (fun candidate => Cpp.decoySystem.access candidate = true)
      (gitCandidates (some Cpp.decoyPath)) (ascii "/a/git") :=
    ⟨rfl, [], [ascii "/b/git"], by decide, fun _ absent => absurd absent List.not_mem_nil⟩
  intro same
  exact ((lookPath_parity_iff one).mp same _ decoy).2 rfl

end CheckGitStatus
