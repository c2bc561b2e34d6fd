import CheckGitStatus.Cpp.Porcelain
import CheckGitStatus.Cpp.Process
import CheckGitStatus.Library.Interleaving
import CheckGitStatus.Text.Lines

/-! # Standard error of a successful command

The child writes both of its output streams to one pipe, so what `GitClient::check`
parses is an interleaving of standard output and standard error. The status is the
one of the standard output alone when standard error falls between the lines of
standard output and holds neither a fetch line nor a header, and no entry unless
standard output has one; a warning about a clean worktree always makes it dirty
(`CheckGitStatus.Cpp.check_ignores_standardError`).
-/

namespace CheckGitStatus.Cpp

open Library

/-- The two streams of a command and what the reader of their pipe sees. -/
structure Streams where
  standardOutput : Text
  standardError : Text
  captured : Text
  interleaved : Interleaving standardOutput standardError captured

namespace Streams

/-- The command writes to standard output only. -/
def quiet (standardOutput : Text) : Streams where
  standardOutput
  standardError := []
  captured := standardOutput
  interleaved := .of_left standardOutput

/-- With an empty standard error the reader sees standard output. -/
theorem captured_of_quiet (streams : Streams) (silent : streams.standardError = []) :
    streams.captured = streams.standardOutput := by
  have shared := streams.interleaved
  rw [silent] at shared
  exact shared.eq_left

end Streams

/-- The two commands of a check, run as `remote` and `status` say but for the
texts they write. -/
def gitCommands (binary path : Path) (remote status : Execution)
    (remoteStreams statusStreams : Streams) (arguments : List Text) : Execution :=
  if arguments = ExecGitRunner.commandArguments binary path remoteArguments then
    { remote with captured := remoteStreams.captured }
  else { status with captured := statusStreams.captured }

/-- A check over `ExecGitRunner`. -/
def checkCommands (binary path : Path) (timeout : Int) (readings : Readings)
    (remote status : Execution) (remoteStreams statusStreams : Streams) : RepositoryStatus :=
  check (ExecGitRunner.run binary
    (gitCommands binary path remote status remoteStreams statusStreams)) timeout path readings

/-- Both commands are started in time, end in time and report success. -/
structure BothSucceed (timeout : Int) (readings : Readings) (remote status : Execution) :
    Prop where
  prompt : readings.Prompt timeout
  remote : remote.Succeeds
    (remaining (readings.started + timeout * nanosecondsPerMillisecond) readings.remote.now)
  status : status.Succeeds
    (remaining (readings.started + timeout * nanosecondsPerMillisecond) readings.status.now)

/-- The status of two successful commands is read off the trimmed texts that reach the pipes. -/
theorem checkCommands_eq {binary path : Path} {timeout : Int} {readings : Readings}
    {remote status : Execution} (succeed : BothSucceed timeout readings remote status)
    (remoteStreams statusStreams : Streams) :
    checkCommands binary path timeout readings remote status remoteStreams statusStreams =
      readStatus (trim statusStreams.captured)
        (readRemotes (trim remoteStreams.captured) { path }) := by
  have other : ExecGitRunner.commandArguments binary path statusArguments ≠
      ExecGitRunner.commandArguments binary path remoteArguments := by
    intro same
    have lengths := congrArg List.length same
    simp only [ExecGitRunner.commandArguments, statusArguments, remoteArguments,
      List.length_append, List.length_cons, List.length_nil] at lengths
    omega
  have remoteRun : gitCommands binary path remote status remoteStreams statusStreams
      (ExecGitRunner.commandArguments binary path remoteArguments) =
        { remote with captured := remoteStreams.captured } := if_pos rfl
  have statusRun : gitCommands binary path remote status remoteStreams statusStreams
      (ExecGitRunner.commandArguments binary path statusArguments) =
        { status with captured := statusStreams.captured } := if_neg other
  obtain ⟨prompt, ⟨calm, piped, forked, running, waited, exited⟩,
    ⟨calm', piped', forked', running', waited', exited'⟩⟩ := succeed
  refine check_eq_of_results ?_ ?_
  · rw [runBeforeDeadline_eq prompt.remote prompt.remoteTime]
    rw [ExecGitRunner.run_of_succeeds]
    · rw [remoteRun]
    · rw [remoteRun]
      exact ⟨calm, piped, forked, running, waited, exited⟩
  · rw [runBeforeDeadline_eq prompt.status prompt.statusTime]
    rw [ExecGitRunner.run_of_succeeds]
    · rw [statusRun]
    · rw [statusRun]
      exact ⟨calm', piped', forked', running', waited', exited'⟩

/-! ## What a line of standard error is taken for -/

/-- What is seen of a line when white space is cut off its ends. -/
def CutTo (written seen : Text) : Prop :=
  ∃ front back : Text, (∀ byte ∈ front, isSpace byte = true) ∧
    (∀ byte ∈ back, isSpace byte = true) ∧ written = front ++ seen ++ back

/-- The first byte of a line that is not white space. -/
def firstVisible (line : Text) : Option Byte :=
  line.find? fun byte => !isSpace byte

namespace CutTo

/-- A line may be seen whole. -/
theorem refl (line : Text) : CutTo line line :=
  ⟨[], [], fun byte inside => absurd inside List.not_mem_nil,
    fun byte inside => absurd inside List.not_mem_nil, by rw [List.nil_append, List.append_nil]⟩

/-- The carriage return that a reader drops is white space at the end. -/
theorem dropCarriageReturn {written seen : Text} (cut : CutTo written seen) :
    CutTo written (dropCarriageReturn seen) := by
  obtain ⟨front, back, frontSpace, backSpace, split⟩ := cut
  obtain ⟨blank, space, kept⟩ := dropCarriageReturn_append_eq seen
  refine ⟨front, blank ++ back, frontSpace, ?_, ?_⟩
  · intro byte inside
    rcases List.mem_append.mp inside with early | late
    · exact space byte early
    · exact backSpace byte late
  · calc written = front ++ seen ++ back := split
      _ = front ++ (CheckGitStatus.dropCarriageReturn seen ++ blank) ++ back := by rw [← kept]
      _ = front ++ CheckGitStatus.dropCarriageReturn seen ++ (blank ++ back) := by
          simp only [List.append_assoc]

variable {written seen : Text}

/-- White space at the ends hides no visible byte. -/
theorem firstVisible_eq (cut : CutTo written seen) :
    firstVisible written = firstVisible seen := by
  obtain ⟨front, back, frontSpace, backSpace, rfl⟩ := cut
  have hidden : ∀ blank : Text, (∀ byte ∈ blank, isSpace byte = true) →
      blank.find? (fun byte => !isSpace byte) = none := by
    intro blank space
    rw [List.find?_eq_none]
    intro byte inside
    rw [space byte inside]
    exact Bool.false_ne_true
  simp only [firstVisible, List.find?_append, hidden front frontSpace, hidden back backSpace,
    Option.none_or, Option.or_none]

/-- White space at the ends adds no word. -/
theorem words_eq (cut : CutTo written seen) : words written = words seen := by
  obtain ⟨front, back, frontSpace, backSpace, rfl⟩ := cut
  rw [words_append_blank _ backSpace]
  induction front with
  | nil => rfl
  | cons byte rest ih =>
      rw [List.forall_mem_cons] at frontSpace
      rw [List.cons_append, words_cons _ frontSpace.1]
      exact ih frontSpace.2

/-- Nothing is seen of an empty line, and a first byte that is visible is seen. -/
theorem head?_eq (cut : CutTo written seen) (something : seen ≠ []) {first : Byte}
    (head : written.head? = some first) (visible : isSpace first = false) :
    seen.head? = some first := by
  obtain ⟨front, back, frontSpace, -, rfl⟩ := cut
  cases front with
  | nil =>
      cases seen with
      | nil => exact absurd rfl something
      | cons byte rest => exact head
  | cons byte rest =>
      cases head
      have hidden := frontSpace first List.mem_cons_self
      rw [visible] at hidden
      cases hidden

end CutTo

/-- White space aside, the line ends as a fetch line does. -/
def EndsInFetch (line : Text) : Prop :=
  ascii "(fetch)" <:+ line.rdropWhile isSpace

instance (line : Text) : Decidable (EndsInFetch line) :=
  inferInstanceAs (Decidable (_ <:+ _))

/-- White space aside, the line starts with `#`, and its second word is a key that
a check reads. -/
def IsHeader (line : Text) : Prop :=
  firstVisible line = some 35 ∧
    ∃ key ∈ (words line)[1]?,
      key ∈ [ascii "branch.head", ascii "branch.upstream", ascii "branch.ab"]

instance (line : Text) : Decidable (IsHeader line) :=
  inferInstanceAs (Decidable (_ ∧ _))

/-- The line is not empty and does not start with `#`. -/
def IsEntry (line : Text) : Prop :=
  line ≠ [] ∧ line.head? ≠ some 35

instance (line : Text) : Decidable (IsEntry line) :=
  inferInstanceAs (Decidable (_ ∧ _))

/-- White space aside, the line starts with some byte other than `#`. -/
def IsMessage (line : Text) : Prop :=
  ∃ byte ∈ firstVisible line, byte ≠ 35

section Lines

variable {written seen : Text}

/-- A line that does not end as a fetch line does is not seen as one. -/
theorem fetchLine_eq_none (cut : CutTo written seen) (noFetch : ¬ EndsInFetch written) :
    fetchLine seen = none := by
  obtain ⟨front, back, -, backSpace, rfl⟩ := cut.dropCarriageReturn
  cases marked : stripSuffix (ascii " (fetch)") (dropCarriageReturn seen) with
  | none => simp only [fetchLine, marked]
  | some before =>
      refine absurd ?_ noFetch
      have ends : ascii " (fetch)" <:+ dropCarriageReturn seen := by
        by_contra other
        rw [stripSuffix_eq_none other] at marked
        cases marked
      obtain ⟨start, split⟩ := ends
      have whole : front ++ dropCarriageReturn seen =
          (front ++ start ++ [32]) ++ ascii "(fetch)" := by
        rw [← split]
        simp only [List.append_assoc]
        rfl
      have kept : (ascii "(fetch)").rdropWhile isSpace = ascii "(fetch)" := by decide
      rw [EndsInFetch, rdropWhile_append_blank _ backSpace, whole,
        rdropWhile_append_of_ne_nil _ (by rw [kept]; decide), kept]
      exact List.suffix_append _ _

/-- A header with another key says nothing. -/
theorem headerLine_eq_other {fields : List Text}
    (unknown : ∀ key ∈ fields[1]?,
      key ∉ [ascii "branch.head", ascii "branch.upstream", ascii "branch.ab"]) :
    headerLine fields = .other := by
  match fields with
  | [] | [_] | [_, _] => rfl
  | _ :: key :: value :: _ =>
      have other := unknown key rfl
      simp only [List.mem_cons, List.not_mem_nil, or_false, not_or] at other
      simp only [headerLine, other.1, other.2.1, other.2.2, ↓reduceIte]

/-- A line that is no header is at most seen as an entry. -/
theorem statusLine_of_not_isHeader (cut : CutTo written seen) (noHeader : ¬ IsHeader written) :
    statusLine seen = .blank ∨ statusLine seen = .entry ∨ statusLine seen = .other := by
  have piece := cut.dropCarriageReturn
  simp only [statusLine]
  split
  · split
    · exact .inr (.inl rfl)
    · exact .inl rfl
  · rename_i hash
    obtain ⟨rest, shown⟩ := List.head?_eq_some_iff.mp (not_not.mp hash)
    refine .inr (.inr (headerLine_eq_other fun key second known => noHeader ⟨?_, key, ?_, known⟩))
    · rw [piece.firstVisible_eq, shown]
      rfl
    · rw [piece.words_eq]
      exact second

/-- Only a line that is an entry is seen as one. -/
theorem isEntry_of_statusLine (cut : CutTo written seen) (entry : statusLine seen = .entry) :
    IsEntry written := by
  have piece := cut.dropCarriageReturn
  simp only [statusLine] at entry
  split at entry
  · rename_i plain
    split at entry
    · rename_i something
      refine ⟨?_, fun hash => plain (piece.head?_eq something hash (by decide))⟩
      rintro rfl
      obtain ⟨front, back, -, -, split⟩ := piece
      rw [List.nil_eq, List.append_eq_nil_iff, List.append_eq_nil_iff] at split
      exact something split.1.2
    · cases entry
  · rcases headerLine_cases (words (dropCarriageReturn seen)) with
      ⟨_, kind⟩ | kind | ⟨_, kind⟩ | kind <;> rw [kind] at entry <;> cases entry

/-- A message is seen as an entry. -/
theorem statusLine_of_isMessage (cut : CutTo written seen) (message : IsMessage written) :
    statusLine seen = .entry := by
  obtain ⟨byte, first, other⟩ := message
  rw [cut.dropCarriageReturn.firstVisible_eq] at first
  have visible : isSpace byte = false := by
    simpa only [Bool.not_eq_true'] using List.find?_some first
  simp only [statusLine]
  cases shown : dropCarriageReturn seen with
  | nil =>
      rw [shown] at first
      cases first
  | cons head rest =>
      have plain : (head :: rest).head? ≠ some 35 := by
        intro hash
        cases hash
        rw [shown] at first
        exact other (Option.some.inj first).symm
      rw [if_pos plain, if_pos (List.cons_ne_nil head rest)]

end Lines

/-! ## Where the writes fall -/

/-- Standard error falls between the lines of standard output: but for carriage returns
at the ends of lines, what is read of the pipe is `output`, the lines that are read of
standard output alone, among `added`, which is what is seen of the lines of standard
error. -/
structure Streams.BetweenLines (streams : Streams) (output added : List Text) : Prop where
  kept : List.Forall₂ (fun line alone => dropCarriageReturn line = dropCarriageReturn alone)
    output (getlines (trim streams.standardOutput))
  merged : Interleaving output added (getlines (trim streams.captured))
  written : ∀ seen ∈ added, ∃ line ∈ getlines streams.standardError, CutTo line seen
  shown : ∀ line ∈ getlines streams.standardError, firstVisible line ≠ none →
    ∃ seen ∈ added, CutTo line seen

namespace Streams

/-- A silent standard error falls between the lines. -/
theorem betweenLines_of_silent (streams : Streams) (silent : streams.standardError = []) :
    streams.BetweenLines (getlines (trim streams.standardOutput)) [] where
  kept := List.forall₂_same.mpr fun _ _ => rfl
  merged := by
    rw [captured_of_quiet streams silent]
    exact .of_left _
  written := fun seen absent => absurd absent List.not_mem_nil
  shown := fun line inside => by
    rw [silent] at inside
    exact absurd inside List.not_mem_nil

/-- The streams of a command that writes both outputs in whole lines. -/
def lineByLine {output errors lines : List Text} (shared : Interleaving output errors lines) :
    Streams where
  standardOutput := LineEnding.lf.join output
  standardError := LineEnding.lf.join errors
  captured := LineEnding.lf.join lines
  interleaved := shared.flatMap fun line => line ++ LineEnding.lf.front ++ [lineFeed]

/-- What is read of whole lines that neither start nor end with white space. -/
theorem getlines_trim_joinLines {lines : List Text}
    (isLine : ∀ line ∈ lines, IsLine line ∧ line.rdropWhile isSpace = line) :
    getlines (trim (LineEnding.lf.join lines)) = lines := by
  rcases List.eq_nil_or_concat lines with rfl | ⟨front, last, rfl⟩
  · rfl
  rw [List.concat_eq_append] at isLine ⊢
  obtain ⟨isLast, ends⟩ := isLine last List.mem_concat_self
  have visible := isLast.rdropWhile_ne_nil
  rw [ends] at visible
  rw [trim_join_concat .lf fun line inside => (isLine line inside).1, ends,
    getlines_join_append .lf
      (fun line inside => (isLine line (List.mem_append_left _ inside)).1.clean)
      isLast.clean visible]
  simp only [LineEnding.front, List.append_nil, List.map_id']

/-- Writes of whole lines fall between the lines. -/
theorem betweenLines_lineByLine {output errors lines : List Text}
    (shared : Interleaving output errors lines)
    (isLine : ∀ line ∈ lines, IsLine line ∧ line.rdropWhile isSpace = line) :
    (lineByLine shared).BetweenLines output errors := by
  have isOutput : ∀ line ∈ output, IsLine line ∧ line.rdropWhile isSpace = line :=
    fun line inside => isLine line (shared.mem_iff.mpr (.inl inside))
  have isError : ∀ line ∈ errors, IsLine line ∧ line.rdropWhile isSpace = line :=
    fun line inside => isLine line (shared.mem_iff.mpr (.inr inside))
  have written : getlines (LineEnding.lf.join errors) = errors := by
    have split := splitOn_joinLines errors fun line inside => (isError line inside).1.clean
    simp only [LineEnding.join, LineEnding.front, List.append_nil, getlines, split,
      List.getLast?_concat, ↓reduceIte, List.dropLast_concat]
  refine ⟨?_, ?_, ?_, ?_⟩
  · simp only [lineByLine, getlines_trim_joinLines isOutput]
    exact List.forall₂_same.mpr fun _ _ => rfl
  · simp only [lineByLine, getlines_trim_joinLines isLine]
    exact shared
  · simp only [lineByLine, written]
    exact fun seen inside => ⟨seen, inside, .refl seen⟩
  · simp only [lineByLine, written]
    exact fun line inside _ => ⟨line, inside, .refl line⟩

variable {streams : Streams} {output added : List Text}

namespace BetweenLines

/-- A reader who drops carriage returns reads the kept lines as if they were alone. -/
theorem map_kept (between : streams.BetweenLines output added) {α : Type} {read : Text → α}
    (reads : ∀ line alone, dropCarriageReturn line = dropCarriageReturn alone →
      read line = read alone) :
    output.map read = (getlines (trim streams.standardOutput)).map read := by
  have related := List.rel_map (P := Eq) (fun _ _ same => reads _ _ same) between.kept
  rw [List.forall₂_eq_eq_eq] at related
  exact related

/-- When no line of standard error ends as a fetch line does, the remotes listed are those
of standard output. -/
theorem fetchLines_eq (between : streams.BetweenLines output added)
    (noFetch : ∀ line ∈ getlines streams.standardError, ¬ EndsInFetch line) :
    fetchLines (trim streams.captured) = fetchLines (trim streams.standardOutput) := by
  have silent : ∀ seen ∈ added, fetchLine seen = none := by
    intro seen inside
    obtain ⟨line, listed, cut⟩ := between.written seen inside
    exact fetchLine_eq_none cut (noFetch line listed)
  have reads : ∀ line alone : Text, dropCarriageReturn line = dropCarriageReturn alone →
      fetchLine line = fetchLine alone := by
    intro line alone same
    rw [fetchLine, same, fetchLine]
  have kept := between.map_kept reads
  calc fetchLines (trim streams.captured) = output.filterMap fetchLine :=
        between.merged.filterMap_eq_left silent
    _ = (output.map fetchLine).filterMap id := by rw [List.filterMap_map, Function.id_comp]
    _ = ((getlines (trim streams.standardOutput)).map fetchLine).filterMap id := by rw [kept]
    _ = fetchLines (trim streams.standardOutput) := by
        rw [List.filterMap_map, Function.id_comp, fetchLines]

/-- What is read of the status lines is what is read of standard output, among what is
read of the added lines. -/
theorem statusLines_interleaving (between : streams.BetweenLines output added) :
    Interleaving (statusLines (trim streams.standardOutput)) (added.map statusLine)
      (statusLines (trim streams.captured)) := by
  have reads : ∀ line alone : Text, dropCarriageReturn line = dropCarriageReturn alone →
      statusLine line = statusLine alone := by
    intro line alone same
    simp only [statusLine, same]
  rw [statusLines, ← between.map_kept reads]
  exact between.merged.map statusLine

/-- An entry is read of the pipe exactly when standard output or what is added has one. -/
theorem entry_mem_iff (between : streams.BetweenLines output added) :
    .entry ∈ statusLines (trim streams.captured) ↔
      .entry ∈ statusLines (trim streams.standardOutput) ∨ .entry ∈ added.map statusLine :=
  between.statusLines_interleaving.mem_iff

/-- When standard error holds no header, and no entry unless standard output has one, the
lines say what standard output says. -/
theorem sameReading (between : streams.BetweenLines output added)
    (noHeader : ∀ line ∈ getlines streams.standardError, ¬ IsHeader line)
    (noEntry : ∀ line ∈ getlines streams.standardError, IsEntry line →
      .entry ∈ statusLines (trim streams.standardOutput)) :
    StatusLine.SameReading (statusLines (trim streams.captured))
      (statusLines (trim streams.standardOutput)) := by
  refine .of_interleaving between.statusLines_interleaving ?_ ?_
  · intro line inside
    obtain ⟨seen, member, rfl⟩ := List.mem_map.mp inside
    obtain ⟨written, listed, cut⟩ := between.written seen member
    exact statusLine_of_not_isHeader cut (noHeader written listed)
  · intro inside
    obtain ⟨seen, member, entry⟩ := List.mem_map.mp inside
    obtain ⟨written, listed, cut⟩ := between.written seen member
    exact noEntry written listed (isEntry_of_statusLine cut entry)

end BetweenLines

end Streams

/-! ## The result -/

/-- The status is the one that silent standard errors would give, and `dirty` tells whether
standard output has an entry. -/
structure StandardErrorIgnored (binary path : Path) (timeout : Int) (readings : Readings)
    (remote status : Execution) (remoteStreams statusStreams : Streams) : Prop where
  same : checkCommands binary path timeout readings remote status remoteStreams statusStreams =
    checkCommands binary path timeout readings remote status
      (.quiet remoteStreams.standardOutput) (.quiet statusStreams.standardOutput)
  dirty : (checkCommands binary path timeout readings remote status remoteStreams
      statusStreams).dirty = true ↔ .entry ∈ statusLines (trim statusStreams.standardOutput)

/-- Standard error falls between the lines of standard output, without anything that looks
like a fetch line or a header. -/
structure PlainErrors (remoteStreams statusStreams : Streams) : Prop where
  remoteBetween : ∃ output added, remoteStreams.BetweenLines output added
  statusBetween : ∃ output added, statusStreams.BetweenLines output added
  noFetch : ∀ line ∈ getlines remoteStreams.standardError, ¬ EndsInFetch line
  noHeader : ∀ line ∈ getlines statusStreams.standardError, ¬ IsHeader line

/-- **When standard error does not matter.** After two successful commands whose standard
errors fall between the lines, without a fetch line or a header, standard error is ignored
if it holds no entry or standard output has one; and it is not ignored when it holds a
message about a worktree of which standard output has no entry. -/
theorem check_ignores_standardError {binary path : Path} {timeout : Int} {readings : Readings}
    {remote status : Execution} (succeed : BothSucceed timeout readings remote status)
    {remoteStreams statusStreams : Streams} (plain : PlainErrors remoteStreams statusStreams) :
    ((∀ line ∈ getlines statusStreams.standardError, IsEntry line →
        .entry ∈ statusLines (trim statusStreams.standardOutput)) →
      StandardErrorIgnored binary path timeout readings remote status remoteStreams
        statusStreams) ∧
    (StandardErrorIgnored binary path timeout readings remote status remoteStreams
        statusStreams →
      ∀ line ∈ getlines statusStreams.standardError, IsMessage line →
        .entry ∈ statusLines (trim statusStreams.standardOutput)) := by
  obtain ⟨_, _, statusBetween⟩ := plain.statusBetween
  obtain ⟨_, _, remoteBetween⟩ := plain.remoteBetween
  constructor
  · intro noEntry
    have lines := statusBetween.sameReading plain.noHeader noEntry
    have remotes : collectRemotes (trim remoteStreams.captured) =
        collectRemotes (trim remoteStreams.standardOutput) := by
      rw [collectRemotes_eq, collectRemotes_eq, remoteBetween.fetchLines_eq plain.noFetch]
    refine ⟨?_, ?_⟩
    · rw [checkCommands_eq succeed, checkCommands_eq succeed]
      simp only [Streams.quiet, readRemotes_eq, remotes]
      exact readStatus_eq_iff.mpr lines
    · rw [checkCommands_eq succeed, readStatus_eq]
      simp only [decide_eq_true_eq]
      exact lines.entry
  · intro ignored line listed message
    obtain ⟨seen, inside, cut⟩ := statusBetween.shown line listed <| by
      obtain ⟨byte, first, -⟩ := message
      rw [first]
      exact Option.some_ne_none byte
    rw [← ignored.dirty, checkCommands_eq succeed, readStatus_eq]
    simp only [decide_eq_true_eq]
    exact statusBetween.entry_mem_iff.mpr
      (.inr (List.mem_map.mpr ⟨seen, inside, statusLine_of_isMessage cut message⟩))

/-- A command that has ended with exit code 0 at the first look. -/
def finishedExecution : Execution where
  started := 0
  turns := []
  status := .exited 0
  captured := []

/-- Two commands that succeed at once. -/
theorem bothSucceed_finished :
    BothSucceed 15000 stillReadings finishedExecution finishedExecution :=
  ⟨⟨rfl, by decide, rfl, by decide⟩,
    ⟨rfl, rfl, rfl, fun _ absent => absurd absent List.not_mem_nil, rfl, rfl⟩,
    ⟨rfl, rfl, rfl, fun _ absent => absurd absent List.not_mem_nil, rfl, rfl⟩⟩

/-- Git warns between the header and the entry of a dirty worktree. -/
theorem warnedStatus : Interleaving
    [ascii "# branch.head main", ascii "? new"] [ascii "warning: could not open directory"]
    [ascii "# branch.head main", ascii "warning: could not open directory", ascii "? new"] :=
  .left (.right (.left .nil))

/-- A warning about a worktree that is dirty anyway does no harm. -/
theorem check_ignores_warning_of_dirty :
    StandardErrorIgnored (ascii "git") (ascii "repo") 15000 stillReadings finishedExecution
      finishedExecution (.quiet (ascii "origin\tx (fetch)\n")) (.lineByLine warnedStatus) := by
  have isLine : ∀ line ∈ [ascii "# branch.head main", ascii "warning: could not open directory",
      ascii "? new"], IsLine line ∧ line.rdropWhile isSpace = line := by
    simp only [List.forall_mem_cons]
    exact ⟨⟨⟨⟨35, rfl, rfl⟩, by decide⟩, by decide⟩, ⟨⟨⟨119, rfl, rfl⟩, by decide⟩, by decide⟩,
      ⟨⟨⟨63, rfl, rfl⟩, by decide⟩, by decide⟩, fun _ absent => absurd absent List.not_mem_nil⟩
  have plain : PlainErrors (.quiet (ascii "origin\tx (fetch)\n")) (.lineByLine warnedStatus) :=
    ⟨⟨_, _, Streams.betweenLines_of_silent _ rfl⟩,
      ⟨_, _, Streams.betweenLines_lineByLine warnedStatus isLine⟩, by decide, by decide⟩
  exact (check_ignores_standardError bothSucceed_finished plain).1 (by decide)

/-- The streams of a command that writes its output before its warnings. -/
def Streams.outputFirst (standardOutput standardError : Text) : Streams where
  standardOutput
  standardError
  captured := standardOutput ++ standardError
  interleaved := .append standardOutput standardError

/-- A warning on standard error makes a clean worktree dirty. -/
theorem check_standardError_dirty :
    ¬ StandardErrorIgnored (ascii "git") (ascii "repo") 15000 stillReadings finishedExecution
      finishedExecution (.quiet [])
      (.outputFirst (ascii "# branch.oid abcdef\n# branch.head main\n")
        (ascii "warning: could not open directory: Permission denied\n")) := by
  rintro ⟨-, dirty⟩
  revert dirty
  decide

end CheckGitStatus.Cpp
