import CheckGitStatus.Cpp.CommandLine
import CheckGitStatus.Text.Bytes

/-! # Paths of the Windows build

A `std::filesystem::path` of the Windows build holds wide characters. A path may begin
with the name of a drive or of a host, and both slashes separate. Below an absolute path
a name determines its path and is found again at its end
(`CheckGitStatus.Cpp.Windows.join_inj`).
-/

namespace CheckGitStatus.Cpp.Windows

open WideChar

/-- The characters of a wide literal, which the source writes in ASCII. -/
def wide (literal : String) : WideText :=
  literal.toList.map fun character => character.toNat.toUInt16

/-- Windows takes both slashes for separators. -/
def isSeparator (character : WideChar) : Bool :=
  character == backslash || character == 47

/-- The unit that ends the name of a drive. -/
def colon : WideChar := 58

/-- A letter that can name a drive. -/
def isLetter (character : WideChar) : Bool :=
  (65 ≤ character && character ≤ 90) || (97 ≤ character && character ≤ 122)

/-- The length of `path::root_name`: a letter and a colon, or two separators and the host
name after them. -/
def rootNameLength : WideText → Nat
  | first :: second :: rest =>
      if isLetter first ∧ second = colon then 2
      else if isSeparator first ∧ isSeparator second then
        let host := rest.takeWhile fun character => !isSeparator character
        if host = [] then 0 else 2 + host.length
      else 0
  | _ => 0

/-- `path::filename`: what follows the last separator after the root name. -/
def filename (path : WideText) : WideText :=
  (path.drop (rootNameLength path)).rtakeWhile fun character => !isSeparator character

/-- A separator is added to a path that does not end in one, and to a host name, but not
to the name of a drive. -/
def needsSeparator (path : WideText) : Bool :=
  if path.length = rootNameLength path then 3 ≤ path.length
  else !(path.getLast?.any isSeparator)

/-- `operator/` for a relative right side without a root name. -/
def join (path name : WideText) : WideText :=
  if needsSeparator path then path ++ backslash :: name else path ++ name

/-- `extended_windows_path`. -/
def extendedWindowsPath (path : WideText) : WideText :=
  if wide "\\\\?\\" <+: path then path
  else if wide "\\\\" <+: path then wide "\\\\?\\UNC\\" ++ path.drop 2
  else wide "\\\\?\\" ++ path

/-- A name in a directory: not empty, no separator and no colon in it. -/
structure ValidName (name : WideText) : Prop where
  nonempty : name ≠ []
  no_separator : ∀ character ∈ name, isSeparator character = false
  no_colon : colon ∉ name

instance (name : WideText) : Decidable (ValidName name) :=
  decidable_of_iff
    (name ≠ [] ∧ name.all (fun character => !isSeparator character) = true ∧ colon ∉ name) (by
      constructor
      · rintro ⟨nonempty, noSeparator, noColon⟩
        refine ⟨nonempty, fun character inside => ?_, noColon⟩
        have literal := List.all_eq_true.mp noSeparator character inside
        rwa [Bool.not_eq_true'] at literal
      · rintro ⟨nonempty, noSeparator, noColon⟩
        refine ⟨nonempty, List.all_eq_true.mpr fun character inside => ?_, noColon⟩
        rw [noSeparator character inside, Bool.not_false])

/-! ## Absolute paths -/

/-- The name of a drive or of a network host. -/
inductive IsRootName : WideText → Prop where
  | drive (letter : WideChar) (named : isLetter letter = true) : IsRootName [letter, colon]
  | host (first second : WideChar) (firstSeparates : isSeparator first = true)
      (secondSeparates : isSeparator second = true) (host : WideText) (nonempty : host ≠ [])
      (noSeparator : ∀ character ∈ host, isSeparator character = false) :
      IsRootName (first :: second :: host)

/-- `path::is_absolute`: a root name and a separator. -/
def IsAbsolute (path : WideText) : Prop :=
  ∃ name separator rest, IsRootName name ∧ isSeparator separator = true ∧
    path = name ++ separator :: rest

/-- A separator is no letter. -/
theorem not_isLetter_of_isSeparator {character : WideChar}
    (separates : isSeparator character = true) : isLetter character = false := by
  unfold isSeparator at separates
  rcases Bool.or_eq_true_iff.mp separates with same | same <;>
    rw [beq_iff_eq.mp same] <;> decide

/-- The root name ends where the root directory begins. -/
theorem rootNameLength_eq {name : WideText} (isRootName : IsRootName name)
    {separator : WideChar} (separates : isSeparator separator = true) (rest : WideText) :
    rootNameLength (name ++ separator :: rest) = name.length := by
  cases isRootName with
  | drive letter named =>
      simp only [List.cons_append, List.nil_append, rootNameLength, named, and_self, ↓reduceIte,
        List.length_cons, List.length_nil, Nat.zero_add, Nat.reduceAdd]
  | host first second firstSeparates secondSeparates host nonempty noSeparator =>
      have whole : (host ++ separator :: rest).takeWhile (fun character => !isSeparator character) =
          host := by
        rw [List.takeWhile_append_of_pos, List.takeWhile_cons, separates]
        · exact List.append_nil host
        · intro character inside
          rw [noSeparator character inside, Bool.not_false]
      simp only [List.cons_append, rootNameLength, not_isLetter_of_isSeparator firstSeparates,
        Bool.false_eq_true, false_and, ↓reduceIte, firstSeparates, secondSeparates, and_self,
        whole, nonempty, List.length_cons]
      omega

namespace IsAbsolute

variable {path : WideText} (isAbsolute : IsAbsolute path)
include isAbsolute

theorem append (suffix : WideText) : IsAbsolute (path ++ suffix) := by
  obtain ⟨name, separator, rest, isRootName, separates, rfl⟩ := isAbsolute
  exact ⟨name, separator, rest ++ suffix, isRootName, separates, by
    rw [List.append_assoc, List.cons_append]⟩

theorem join (name : WideText) : IsAbsolute (join path name) := by
  unfold Windows.join
  split
  · exact isAbsolute.append _
  · exact isAbsolute.append _

/-- Below an absolute path only its last character decides whether to separate. -/
theorem needsSeparator_eq : needsSeparator path = !(path.getLast?.any isSeparator) := by
  obtain ⟨name, separator, rest, isRootName, separates, rfl⟩ := isAbsolute
  have longer : (name ++ separator :: rest).length ≠
      rootNameLength (name ++ separator :: rest) := by
    rw [rootNameLength_eq isRootName separates, List.length_append, List.length_cons]
    omega
  rw [needsSeparator, if_neg longer]

/-- What follows a separator below an absolute path, with no separator in it, is
the filename. -/
theorem filename_of_separator {front name : WideText} {separator : WideChar}
    (split : path = front ++ [separator]) (separates : isSeparator separator = true)
    (noSeparator : ∀ character ∈ name, isSeparator character = false) :
    filename (path ++ name) = name := by
  obtain ⟨root, rootSeparator, rest, isRootName, rootSeparates, same⟩ := isAbsolute
  have last : (rootSeparator :: rest).getLast? = some separator := by
    have ends := congrArg List.getLast? (same.symm.trans split)
    rw [List.getLast?_append_of_ne_nil _ (List.cons_ne_nil _ _), List.getLast?_concat] at ends
    exact ends
  obtain ⟨before, whole⟩ := List.getLast?_eq_some_iff.mp last
  have literal : ∀ character ∈ name.reverse, (!isSeparator character) = true := by
    intro character inside
    rw [noSeparator character (List.mem_reverse.mp inside), Bool.not_false]
  rw [filename, same, List.append_assoc, List.cons_append, rootNameLength_eq isRootName rootSeparates,
    List.drop_left, ← List.cons_append, whole, List.rtakeWhile, List.reverse_append,
    List.takeWhile_append_of_pos literal, List.reverse_concat, List.takeWhile_cons, separates]
  simp only [Bool.not_true, Bool.false_eq_true, ↓reduceIte, List.append_nil, List.reverse_reverse]

end IsAbsolute

/-- What stands before the names below a directory. -/
def directoryPrefix (path : WideText) : WideText :=
  if path.getLast?.any isSeparator then path else path ++ [backslash]

/-- Joining a name to an absolute path puts it behind one separator. -/
theorem join_eq {path : WideText} (isAbsolute : IsAbsolute path) (name : WideText) :
    join path name = directoryPrefix path ++ name := by
  rw [join, directoryPrefix, isAbsolute.needsSeparator_eq]
  cases path.getLast?.any isSeparator with
  | true => rfl
  | false => rw [Bool.not_false, if_pos rfl, if_neg Bool.false_ne_true, List.append_assoc,
      List.singleton_append]

example : join (wide "C:\\") (wide ".git") = wide "C:\\.git" := by decide

/-- What a name is put behind ends with a separator. -/
theorem directoryPrefix_ends (path : WideText) : ∃ front separator,
    directoryPrefix path = front ++ [separator] ∧ isSeparator separator = true := by
  unfold directoryPrefix
  split
  · rename_i ends
    obtain ⟨separator, last, separates⟩ := (Option.any_eq_true _ _).mp ends
    obtain ⟨front, same⟩ := List.getLast?_eq_some_iff.mp last
    exact ⟨front, separator, same, separates⟩
  · exact ⟨path, backslash, rfl, by decide⟩

/-- A name that is joined is the file name. -/
theorem filename_join {path : WideText} (isAbsolute : IsAbsolute path) {name : WideText}
    (valid : ValidName name) : filename (join path name) = name := by
  obtain ⟨front, separator, split, separates⟩ := directoryPrefix_ends path
  have rooted : IsAbsolute (directoryPrefix path) := by
    unfold directoryPrefix
    split
    · exact isAbsolute
    · exact isAbsolute.append _
  rw [join_eq isAbsolute]
  exact rooted.filename_of_separator split separates valid.no_separator

theorem length_lt_join (path : WideText) {name : WideText} (valid : ValidName name) :
    path.length < (join path name).length := by
  have named := List.length_pos_iff.mpr valid.nonempty
  unfold join
  split
  · rw [List.length_append, List.length_cons]
    omega
  · rw [List.length_append]
    omega

/-- A path below a directory does not end in a separator. -/
theorem join_getLast? (path : WideText) {name : WideText} (valid : ValidName name) :
    (join path name).getLast?.any isSeparator = false := by
  obtain ⟨last, ends⟩ := Option.isSome_iff_exists.mp
    (List.getLast?_isSome.mpr valid.nonempty)
  have literal := valid.no_separator last (List.mem_of_getLast? ends)
  have same : (join path name).getLast? = some last := by
    unfold join
    split
    · rw [List.getLast?_append_cons, List.getLast?_cons_of_ne_nil valid.nonempty, ends]
    · rw [List.getLast?_append_of_ne_nil _ valid.nonempty, ends]
  rw [same, Option.any_some, literal]

/-- Of two directories that are not below each other, paths below them determine the
directory and the name. -/
theorem join_inj {left right : WideText} (leftAbsolute : IsAbsolute left)
    (rightAbsolute : IsAbsolute right) {leftName rightName : WideText}
    (leftValid : ValidName leftName) (rightValid : ValidName rightName)
    (same : join left leftName = join right rightName) :
    directoryPrefix left = directoryPrefix right ∧ leftName = rightName := by
  have names : leftName = rightName := by
    rw [← filename_join leftAbsolute leftValid, same, filename_join rightAbsolute rightValid]
  refine ⟨?_, names⟩
  rw [join_eq leftAbsolute, join_eq rightAbsolute, names] at same
  exact List.append_cancel_right same

end CheckGitStatus.Cpp.Windows
