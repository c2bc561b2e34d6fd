import CheckGitStatus.Cpp.GitLookup
import CheckGitStatus.Go.Discovery

/-! # Looking up git in the Go program

`exec.LookPath` goes over the entries of `PATH` as well. It passes over directories, tries
cleaned names, and refuses what it finds through an entry that is not absolute, without
looking further (`CheckGitStatus.Go.lookPath_eq_ok_iff`).
-/

namespace CheckGitStatus.Go

open Library

open Cpp (PathValue ProgramSystem colon)

/-- `filepath.SplitList`. -/
def splitList (path : Text) : List Text :=
  if path = [] then [] else path.splitOn colon

/-- The name that is tried for an entry. -/
def programPath (directory : Text) : Path :=
  join (if directory = [] then ascii "." else directory) (ascii "git")

/-- `findExecutable`, without its error. -/
def findExecutable (system : ProgramSystem) (file : Path) : Bool :=
  match system.status file with
  | .error _ => false
  | .ok .directory => false
  | .ok _ => system.mayExecute file

/-- The loop over the entries. -/
def lookPathIn (system : ProgramSystem) : List Text → Except Text Path
  | [] => .error (ascii "exec: \"git\": executable file not found in $PATH")
  | directory :: rest =>
      let path := programPath directory
      if findExecutable system path then
        if path.head? = some slash then .ok path
        else
          .error (ascii "exec: \"git\": cannot run executable found relative to current directory")
      else lookPathIn system rest

/-- `exec.LookPath` of `git`, given `PATH`, if it is set. -/
def lookPath (system : ProgramSystem) (value : Option PathValue) : Except Text Path :=
  lookPathIn system (splitList ((value.map fun path => path.text).getD []))

/-- The first entry that leads to an executable decides. -/
theorem lookPathIn_eq_ok_iff {system : ProgramSystem} {entries : List Text} {path : Path} :
    lookPathIn system entries = .ok path ↔
      path.head? = some slash ∧ ∃ directory,
        IsFirst (fun entry => findExecutable system (programPath entry) = true) entries directory ∧
          programPath directory = path := by
  induction entries with
  | nil =>
      refine iff_of_false nofun ?_
      rintro ⟨_, directory, isFirst, _⟩
      exact absurd isFirst.mem List.not_mem_nil
  | cons entry rest ih =>
      rw [lookPathIn]
      by_cases executable : findExecutable system (programPath entry) = true
      · have here : IsFirst (fun entry => findExecutable system (programPath entry) = true)
            (entry :: rest) entry :=
          ⟨executable, [], rest, rfl, fun _ absent => absurd absent List.not_mem_nil⟩
        rw [if_pos executable]
        constructor
        · intro found
          split at found
          · cases found
            exact ⟨‹_›, entry, here, rfl⟩
          · cases found
        · rintro ⟨rooted, directory, isFirst, rfl⟩
          rw [isFirst.unique here] at rooted ⊢
          rw [if_pos rooted]
      · rw [if_neg executable, ih]
        refine and_congr_right fun _ => exists_congr fun directory => and_congr_left fun _ => ?_
        symm
        apply isFirst_cons_iff
        exact executable

/-! ## The names that are tried -/

/-- Resolving a component adds no other name. -/
theorem mem_of_mem_resolveComponent {rooted : Bool} {names : List Text} {component name : Text}
    (inside : name ∈ resolveComponent rooted names component) :
    name ∈ names ∨ name = component := by
  unfold resolveComponent at inside
  split at inside
  · exact .inl inside
  · split at inside
    · split at inside
      · split at inside
        · exact .inl inside
        · exact .inr (List.mem_singleton.mp inside)
      · split at inside
        · exact (List.mem_cons.mp inside).symm
        · exact .inl (List.mem_cons_of_mem _ inside)
    · exact (List.mem_cons.mp inside).symm

/-- Cleaning adds no name. -/
theorem mem_of_mem_foldl_resolveComponent {rooted : Bool} {rest names : List Text} {name : Text}
    (inside : name ∈ rest.foldl (resolveComponent rooted) names) : name ∈ names ∨ name ∈ rest := by
  induction rest generalizing names with
  | nil => exact .inl inside
  | cons component rest ih =>
      rcases ih inside with kept | later
      · rcases mem_of_mem_resolveComponent kept with old | rfl
        · exact .inl old
        · exact .inr List.mem_cons_self
      · exact .inr (List.mem_cons_of_mem _ later)

/-- Cleaning does not lead from a relative path to one from the root. -/
theorem cleanPath_head?_iff {path : Path} :
    (cleanPath path).head? = some slash ↔ path.head? = some slash := by
  unfold cleanPath
  by_cases rooted : path.head? = some slash
  · simp only [rooted, BEq.rfl, ↓reduceIte, List.head?_cons]
  · have relative : (path.head? == some slash) = false := beq_eq_false_iff_ne.mpr rooted
    refine iff_of_false ?_ rooted
    simp only [relative, Bool.false_eq_true, ↓reduceIte]
    split_ifs with none
    · decide
    · obtain ⟨name, others, split⟩ := List.exists_cons_of_ne_nil none
      have inside : name ∈ (components path).foldl (resolveComponent false) [] := by
        rw [← List.mem_reverse, split]
        exact List.mem_cons_self
      obtain ⟨nonempty, noSlash⟩ := mem_components
        ((mem_of_mem_foldl_resolveComponent inside).resolve_left List.not_mem_nil)
      obtain ⟨first, rest, rfl⟩ := List.exists_cons_of_ne_nil nonempty
      rw [split]
      have front : ∀ names : List Text, ([slash].intercalate ((first :: rest) :: names)).head? =
          some first := by
        intro names
        cases names with
        | nil => rw [List.intercalate_singleton, List.head?_cons]
        | cons next names => rw [List.intercalate_cons_cons]; rfl
      rw [front, Option.some.injEq]
      rintro rfl
      exact noSlash List.mem_cons_self

/-- The name that is tried is absolute if the entry is. -/
theorem programPath_head?_iff {directory : Text} :
    (programPath directory).head? = some slash ↔ directory.head? = some slash := by
  unfold programPath join
  by_cases empty : directory = []
  · subst empty
    decide
  · rw [if_neg empty, if_pos empty, cleanPath_head?_iff, List.head?_append_of_ne_nil _ empty]

/-- A program is found exactly in the first directory that has it, if its path is absolute. -/
theorem lookPath_eq_ok_iff {system : ProgramSystem} {value : PathValue} {path : Path} :
    lookPath system (some value) = .ok path ↔
      value.text ≠ [] ∧ ∃ directory,
        IsFirst (fun entry => findExecutable system (programPath entry) = true)
          (value.text.splitOn colon) directory ∧
        directory.head? = some slash ∧ programPath directory = path := by
  have text : ((some value).map fun path : PathValue => path.text).getD [] = value.text := rfl
  rw [lookPath, text, lookPathIn_eq_ok_iff, splitList]
  by_cases empty : value.text = []
  · rw [if_pos empty]
    refine iff_of_false ?_ fun both => both.1 empty
    rintro ⟨_, directory, isFirst, _⟩
    exact absurd isFirst.mem List.not_mem_nil
  · rw [if_neg empty, and_iff_right empty]
    constructor
    · rintro ⟨rooted, directory, isFirst, rfl⟩
      exact ⟨directory, isFirst, programPath_head?_iff.mp rooted, rfl⟩
    · rintro ⟨directory, isFirst, rooted, rfl⟩
      exact ⟨programPath_head?_iff.mpr rooted, directory, isFirst, rfl⟩

end CheckGitStatus.Go
