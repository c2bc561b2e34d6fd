import CheckGitStatus.Cpp.Pieces
import CheckGitStatus.Cpp.WindowsPaths

/-! # Looking up git on Windows

`find_windows_git` cuts `PATH` at every semicolon and then takes quotes off the pieces. A
directory may therefore be quoted, but not to protect a semicolon in its name: such a
directory is never looked up, and what stands between its semicolons is
(`CheckGitStatus.Cpp.Windows.findWindowsGit_writtenPath`).
-/

namespace CheckGitStatus.Cpp.Windows

open WideChar (quote)

/-- The unit that separates the directories of `PATH`. -/
def semicolon : WideChar := 59

/-- An entry without the quotes around it. -/
def unquoted (entry : WideText) : WideText :=
  if 2 ≤ entry.length ∧ entry.head? = some quote ∧ entry.getLast? = some quote then
    entry.tail.dropLast
  else entry

/-- The file that is looked up in a directory; an empty directory is the current one. -/
def gitCandidate (directory : WideText) : WideText :=
  if directory = [] then wide "git.exe" else join directory (wide "git.exe")

/-- What the system says of candidates. -/
structure LookupSystem where
  isRegularFile : WideText → Bool
  /-- `fs::absolute`, normalised; empty after an error. -/
  absoluteNormal : WideText → WideText

/-- What a piece of `PATH` gives. -/
def gitExeIn (system : LookupSystem) (entry : WideText) : Option WideText :=
  let candidate := gitCandidate (unquoted entry)
  if system.isRegularFile candidate then some (system.absoluteNormal candidate) else none

/-- `find_windows_git`, given `PATH`, if it is set. -/
def findWindowsGit (system : LookupSystem) : Option (BasicString WideChar) → Option WideText
  | none => none
  | some path => path.findPiece semicolon (gitExeIn system)

/-! ## Paths that are written -/

/-- A directory to be written into `PATH`, between quotes or not. -/
structure PathEntry where
  directory : WideText
  quoted : Bool
  noQuote : quote ∉ directory
  protects : semicolon ∈ directory → quoted = true

/-- The entry as it is written in `PATH`. -/
def PathEntry.text (entry : PathEntry) : WideText :=
  if entry.quoted then quote :: (entry.directory ++ [quote]) else entry.directory

/-- `PATH` with these entries. -/
def writtenPath (entries : List PathEntry) : WideText :=
  [semicolon].intercalate (entries.map PathEntry.text)

/-- The directories in which an entry makes the program look. -/
def PathEntry.lookedUp (entry : PathEntry) : List WideText :=
  if semicolon ∈ entry.directory then (entry.directory.splitOn semicolon).tail.dropLast
  else [entry.directory]

/-- An entry without quotes is taken as it is. -/
theorem unquoted_of_noQuote {entry : WideText} (noQuote : quote ∉ entry) :
    unquoted entry = entry := by
  refine if_neg fun all => noQuote (List.mem_of_mem_head? ?_)
  exact Option.mem_def.mpr all.2.1

/-- The quotes of an entry are taken off. -/
theorem PathEntry.unquoted_text (entry : PathEntry) : unquoted entry.text = entry.directory := by
  unfold PathEntry.text
  split
  · have long : 2 ≤ (quote :: (entry.directory ++ [quote])).length := by
      rw [List.length_cons, List.length_append, List.length_singleton]
      omega
    have ends : (quote :: (entry.directory ++ [quote])).getLast? = some quote := by
      rw [← List.cons_append, List.getLast?_concat]
    rw [unquoted, if_pos ⟨long, rfl, ends⟩, List.tail_cons, List.dropLast_concat]
  · exact unquoted_of_noQuote entry.noQuote

/-- A piece with a quote on one side only keeps it. -/
theorem quote_mem_unquoted {piece : WideText} (noQuote : quote ∉ piece) :
    quote ∈ unquoted (quote :: piece) ∧ quote ∈ unquoted (piece ++ [quote]) := by
  constructor
  · have kept : unquoted (quote :: piece) = quote :: piece := by
      refine if_neg fun all => ?_
      obtain ⟨long, _, ends⟩ := all
      cases piece with
      | nil => exact absurd long (by decide)
      | cons first rest =>
          rw [List.getLast?_cons_cons] at ends
          exact noQuote (List.mem_of_getLast? ends)
    rw [kept]
    exact List.mem_cons_self
  · have kept : unquoted (piece ++ [quote]) = piece ++ [quote] := by
      refine if_neg fun all => ?_
      obtain ⟨long, begins, _⟩ := all
      cases piece with
      | nil => exact absurd long (by decide)
      | cons first rest =>
          rw [List.cons_append, List.head?_cons, Option.some.injEq] at begins
          exact noQuote (begins ▸ List.mem_cons_self)
    rw [kept]
    exact List.mem_append_right _ (List.mem_singleton_self quote)

/-- What is in a piece is in the text. -/
theorem mem_of_mem_splitOn {separator character : WideChar} {text piece : WideText}
    (isPiece : piece ∈ text.splitOn separator) (inside : character ∈ piece) :
    character ∈ text := by
  induction text generalizing piece with
  | nil =>
      rw [List.splitOn_nil, List.mem_singleton] at isPiece
      rw [isPiece] at inside
      cases inside
  | cons first rest ih =>
      rw [List.splitOn_cons_eq_if_modifyHead] at isPiece
      split at isPiece
      · rcases List.mem_cons.mp isPiece with rfl | later
        · cases inside
        · exact List.mem_cons_of_mem _ (ih later inside)
      · obtain ⟨head, tail, pieces⟩ := List.exists_cons_of_ne_nil
          (List.splitOn_ne_nil separator rest)
        rw [pieces, List.modifyHead_cons] at isPiece
        rcases List.mem_cons.mp isPiece with rfl | later
        · rcases List.mem_cons.mp inside with rfl | deeper
          · exact List.mem_cons_self
          · exact List.mem_cons_of_mem _ (ih (pieces ▸ List.mem_cons_self) deeper)
        · exact List.mem_cons_of_mem _ (ih (pieces ▸ List.mem_cons_of_mem _ later) inside)

/-- A quoted directory with semicolons is cut, with a quote on each of the outer pieces. -/
theorem PathEntry.splitOn_text {entry : PathEntry} (cut : semicolon ∈ entry.directory) :
    ∃ first last, quote ∉ first ∧ quote ∉ last ∧
      entry.text.splitOn semicolon =
        (quote :: first) :: (entry.lookedUp ++ [last ++ [quote]]) := by
  have noQuote := entry.noQuote
  have text : entry.text = quote :: (entry.directory ++ [quote]) := if_pos (entry.protects cut)
  have inner : entry.lookedUp = (entry.directory.splitOn semicolon).tail.dropLast := if_pos cut
  rw [text, inner]
  generalize entry.directory = directory at cut noQuote
  obtain ⟨first, rest, rfl, firstClean⟩ := List.eq_append_cons_of_mem cut
  have firstQuote : quote ∉ first := fun inside => noQuote (List.mem_append_left _ inside)
  have quotedClean : semicolon ∉ quote :: first := by
    rw [List.mem_cons, not_or]
    exact ⟨by decide, firstClean⟩
  have restQuote : quote ∉ rest := fun inside =>
    noQuote (List.mem_append_right _ (List.mem_cons_of_mem _ inside))
  rw [List.splitOn_append_cons_self_of_not_mem firstClean, List.tail_cons, List.append_assoc,
    List.cons_append, ← List.cons_append, List.splitOn_append_cons_self_of_not_mem quotedClean]
  have clean : ∀ last : WideText, semicolon ∉ last → semicolon ∉ last ++ [quote] := by
    intro last lastClean inside
    rcases List.mem_append.mp inside with before | ends
    · exact lastClean before
    · exact absurd (List.mem_singleton.mp ends) (by decide)
  by_cases more : semicolon ∈ rest
  · -- the last of the semicolons is the first from behind
    obtain ⟨behind, front, mirrored, behindClean⟩ :=
      List.eq_append_cons_of_mem (List.mem_reverse.mpr more)
    have split : rest = front.reverse ++ semicolon :: behind.reverse := by
      rw [← List.reverse_reverse rest, mirrored, List.reverse_append, List.reverse_cons,
        List.append_assoc, List.singleton_append]
    have lastClean : semicolon ∉ behind.reverse := fun inside =>
      behindClean (List.mem_reverse.mp inside)
    have lastQuote : quote ∉ behind.reverse := by
      intro inside
      rw [split] at restQuote
      exact restQuote (List.mem_append_right _ (List.mem_cons_of_mem _ inside))
    refine ⟨first, behind.reverse, firstQuote, lastQuote, ?_⟩
    rw [split, List.append_assoc, List.cons_append, List.splitOn_append_cons_self,
      List.splitOn_append_cons_self, List.splitOn_eq_singleton (clean _ lastClean),
      List.splitOn_eq_singleton lastClean, List.dropLast_concat]
  · refine ⟨first, rest, firstQuote, restQuote, ?_⟩
    rw [List.splitOn_eq_singleton (clean rest more), List.splitOn_eq_singleton more]
    rfl

/-- No piece that is looked up has a quote in it. -/
theorem PathEntry.lookedUp_noQuote {entry : PathEntry} {piece : WideText}
    (listed : piece ∈ entry.lookedUp) : quote ∉ piece := by
  unfold PathEntry.lookedUp at listed
  split at listed
  · exact fun inside => entry.noQuote
      (mem_of_mem_splitOn (List.mem_of_mem_tail (List.dropLast_subset _ listed)) inside)
  · rw [List.mem_singleton.mp listed]
    exact entry.noQuote

/-! ## What is found -/

section Lookup

variable {system : LookupSystem}

/-- The pieces give what the first candidate that is a file leads to. -/
theorem findSome?_gitExeIn (pieces : List WideText) :
    pieces.findSome? (gitExeIn system) =
      ((pieces.map fun piece => gitCandidate (unquoted piece)).find? system.isRegularFile).map
        system.absoluteNormal := by
  induction pieces with
  | nil => rfl
  | cons piece rest ih =>
      rw [List.findSome?_cons, List.map_cons, List.find?_cons, gitExeIn, ih]
      cases system.isRegularFile (gitCandidate (unquoted piece)) <;> rfl

/-- A quote in a directory is one in the candidate. -/
theorem quote_mem_gitCandidate {directory : WideText} (quoted : quote ∈ directory) :
    quote ∈ gitCandidate directory := by
  have nonempty : directory ≠ [] := List.ne_nil_of_mem quoted
  rw [gitCandidate, if_neg nonempty, join]
  split
  · exact List.mem_append_left _ quoted
  · exact List.mem_append_left _ quoted

variable (named : ∀ path, quote ∈ path → system.isRegularFile path = false)
include named

/-- The pieces of an entry lead to what the entry makes the program look up. -/
theorem PathEntry.find?_splitOn_text (entry : PathEntry) :
    ((entry.text.splitOn semicolon).map fun piece => gitCandidate (unquoted piece)).find?
        system.isRegularFile =
      (entry.lookedUp.map gitCandidate).find? system.isRegularFile := by
  by_cases cut : semicolon ∈ entry.directory
  · obtain ⟨first, last, firstClean, lastClean, pieces⟩ := PathEntry.splitOn_text cut
    have outer : ∀ piece, quote ∈ unquoted piece →
        ¬ system.isRegularFile (gitCandidate (unquoted piece)) = true := by
      intro piece quoted isFile
      rw [named _ (quote_mem_gitCandidate quoted)] at isFile
      cases isFile
    have inner : (entry.lookedUp.map fun piece => gitCandidate (unquoted piece)) =
        entry.lookedUp.map gitCandidate :=
      List.map_congr_left fun piece listed => by
        rw [unquoted_of_noQuote (PathEntry.lookedUp_noQuote listed)]
    rw [pieces, List.map_cons, List.map_append, inner,
      List.find?_cons_of_neg (outer _ (quote_mem_unquoted firstClean).1), List.find?_append,
      List.map_cons, List.find?_cons_of_neg (outer _ (quote_mem_unquoted lastClean).2),
      List.map_nil, List.find?_nil, Option.or_none]
  · have whole : semicolon ∉ entry.text := by
      unfold PathEntry.text
      split
      · rw [List.mem_cons, List.mem_append, List.mem_singleton]
        rintro (same | inside | same)
        · exact absurd same (by decide)
        · exact cut inside
        · exact absurd same (by decide)
      · exact cut
    rw [List.splitOn_eq_singleton whole, PathEntry.lookedUp, if_neg cut, List.map_singleton,
      List.map_singleton, entry.unquoted_text]

/-- The pieces of a written `PATH` lead to what its entries make the program look up. -/
theorem find?_splitOn_writtenPath {entries : List PathEntry} (nonempty : entries ≠ []) :
    (((writtenPath entries).splitOn semicolon).map fun piece =>
        gitCandidate (unquoted piece)).find? system.isRegularFile =
      ((entries.flatMap PathEntry.lookedUp).map gitCandidate).find? system.isRegularFile := by
  obtain ⟨entry, rest, rfl⟩ := List.exists_cons_of_ne_nil nonempty
  clear nonempty
  induction rest generalizing entry with
  | nil =>
      rw [writtenPath, List.map_singleton, List.intercalate_singleton, List.flatMap_singleton]
      exact PathEntry.find?_splitOn_text named entry
  | cons next rest ih =>
      have split : writtenPath (entry :: next :: rest) =
          entry.text ++ semicolon :: writtenPath (next :: rest) := by
        rw [writtenPath, List.map_cons, List.map_cons, List.intercalate_cons_cons,
          List.append_assoc]
        rfl
      have listed : (entry :: next :: rest).flatMap PathEntry.lookedUp =
          entry.lookedUp ++ (next :: rest).flatMap PathEntry.lookedUp := List.flatMap_cons
      rw [split, List.splitOn_append_cons_self, List.map_append, List.find?_append, ih,
        PathEntry.find?_splitOn_text named, listed, List.map_append, List.find?_append]

/-- **Where git is looked up.** Quotes in `PATH` make no difference, except that a
directory with semicolons, which is written between quotes, is passed over and what stands
between its semicolons is taken for directories. -/
theorem findWindowsGit_writtenPath {path : BasicString WideChar} {entries : List PathEntry}
    (nonempty : entries ≠ []) (written : path.text = writtenPath entries) :
    findWindowsGit system (some path) =
      (((entries.flatMap PathEntry.lookedUp).map gitCandidate).find? system.isRegularFile).map
        system.absoluteNormal := by
  rw [findWindowsGit, BasicString.findPiece_eq, written, findSome?_gitExeIn,
    find?_splitOn_writtenPath named nonempty]

end Lookup

/-- git is in one directory, which no entry of `PATH` names. -/
def strayLookup : LookupSystem where
  isRegularFile path := path == wide "y\\git.exe"
  absoluteNormal path := wide "C:\\w\\" ++ path

/-- A quoted directory with two semicolons. -/
def strayEntry : PathEntry where
  directory := wide "C:\\x;y;z"
  quoted := true
  noQuote := by decide
  protects _ := rfl

/-- The value with the stray directory. -/
def strayPath : BasicString WideChar where
  text := writtenPath [strayEntry]
  length_lt := by decide

theorem findWindowsGit_writtenPath_stray :
    findWindowsGit strayLookup (some strayPath) = some (wide "C:\\w\\y\\git.exe") := by
  have named : ∀ path, quote ∈ path → strayLookup.isRegularFile path = false := by
    intro path quoted
    refine beq_eq_false_iff_ne.mpr fun same => ?_
    rw [same] at quoted
    exact absurd quoted (by decide)
  have written : strayPath.text = writtenPath [strayEntry] := rfl
  rw [findWindowsGit_writtenPath named (List.cons_ne_nil strayEntry []) written]
  decide

end CheckGitStatus.Cpp.Windows
