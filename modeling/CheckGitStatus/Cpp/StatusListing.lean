import CheckGitStatus.Cpp.Porcelain
import CheckGitStatus.Cpp.Process
import CheckGitStatus.Text.Decimal
import CheckGitStatus.Text.Lines

/-! # Decoding the status of a worktree

`git status --porcelain=v2 --branch` writes headers for the commit and the head, two
more for an upstream branch, and a line for every changed path. A check decodes every
such output, however its lines are ended (`CheckGitStatus.Cpp.check_of_worktreeReport`).
-/

namespace CheckGitStatus

open Library

/-- The upstream branch of a head, and how many commits each is ahead of the other. -/
structure TrackedBranch where
  name : Text
  ahead : Nat
  behind : Nat
  name_word : IsWord name
  ahead_fits : ahead ≤ 2147483647

/-- The first byte of an entry for a changed, renamed, unmerged or untracked path. -/
def isEntryKind (byte : Byte) : Bool :=
  (ascii "12u?").contains byte

/-- What git says of a worktree. Only an attached head has an upstream branch. -/
structure WorktreeReport where
  oid : Text
  head : Text
  upstream : Option TrackedBranch
  entries : List Text
  oid_word : IsWord oid
  head_word : IsWord head
  detached_untracked : head = ascii "(detached)" → upstream = none
  entries_kind : ∀ entry ∈ entries, entry.head?.any isEntryKind = true
  entries_clean : ∀ entry ∈ entries, lineFeed ∉ entry

namespace TrackedBranch

variable (branch : TrackedBranch)

/-- The headers about the upstream branch. -/
def headers : List (List Text) :=
  [[ascii "branch.upstream", branch.name],
    [ascii "branch.ab", 43 :: decimal branch.ahead, 45 :: decimal branch.behind]]

end TrackedBranch

namespace WorktreeReport

variable (report : WorktreeReport)

/-- The fields of the headers. -/
def headers : List (List Text) :=
  [[ascii "branch.oid", report.oid], [ascii "branch.head", report.head]] ++
    (report.upstream.map TrackedBranch.headers).getD []

/-- A header line with single spaces between its fields. -/
def headerText (fields : List Text) : Text :=
  (ascii " ").intercalate (ascii "#" :: fields)

/-- The lines of the report: headers go first. -/
def lines : List Text :=
  report.headers.map headerText ++ report.entries

/-- The output of git for line feeds or carriage returns and line feeds. -/
def text (ending : LineEnding) : Text :=
  ending.join report.lines

/-- The number of unpushed commits that the headers hold. -/
def ahead : Int :=
  report.upstream.elim 0 fun branch => branch.ahead

/-- The state that the report stands for. -/
def upstreamState : UpstreamState :=
  if report.head = ascii "(detached)" then .detached
  else if report.upstream.isSome then .ok
  else .missing

end WorktreeReport

/-! ## The lines -/

theorem isSpace_of_isDigit {byte : Byte} (digit : isDigit byte = true) :
    Cpp.isSpace byte = false := by
  simp only [isDigit, Bool.and_eq_true, decide_eq_true_eq] at digit
  simp only [Cpp.isSpace, Bool.or_eq_false_iff, beq_eq_false_iff_ne, Bool.and_eq_false_imp,
    decide_eq_true_eq, decide_eq_false_iff_not]
  have low : 48 ≤ byte.toNat := UInt8.le_iff_toNat_le.mp digit.1
  refine ⟨?_, fun _ high => ?_⟩
  · rintro rfl
    exact absurd low (by decide)
  · have bounded : byte.toNat ≤ 13 := UInt8.le_iff_toNat_le.mp high
    omega

/-- An entry starts with something visible that is no hash. -/
theorem head?_of_isEntryKind {entry : Text} (isKind : entry.head?.any isEntryKind = true) :
    ∃ kind, entry.head? = some kind ∧ Cpp.isSpace kind = false ∧ kind ≠ 35 := by
  obtain ⟨kind, head, listed⟩ := (Option.any_eq_true _ _).mp isKind
  have every : (ascii "12u?").all (fun kind => !Cpp.isSpace kind && kind != 35) = true := rfl
  have kept := List.all_eq_true.mp every kind (List.contains_iff_mem.mp listed)
  rw [Bool.and_eq_true, Bool.not_eq_true', bne_iff_ne] at kept
  exact ⟨kind, head, kept⟩

/-- A sign and digits are a word. -/
theorem isWord_signed_decimal {sign : Byte} (visible : Cpp.isSpace sign = false) (value : Nat) :
    IsWord (sign :: decimal value) := by
  obtain ⟨-, -, -, -, -, digits⟩ := isNumber_parts (isNumber_decimal value)
  refine ⟨List.cons_ne_nil _ _, fun byte inside => ?_⟩
  rcases List.mem_cons.mp inside with rfl | later
  · exact visible
  · exact isSpace_of_isDigit (List.all_eq_true.mp digits byte later)

theorem TrackedBranch.headers_word (branch : TrackedBranch) :
    ∀ fields ∈ branch.headers, ∀ field ∈ fields, IsWord field := by
  have ahead : IsWord (43 :: decimal branch.ahead) := isWord_signed_decimal (by decide) _
  have behind : IsWord (45 :: decimal branch.behind) := isWord_signed_decimal (by decide) _
  simp only [TrackedBranch.headers, List.forall_mem_cons, List.not_mem_nil, false_implies,
    implies_true, and_true, branch.name_word, ahead, behind]
  decide

theorem WorktreeReport.headers_word (report : WorktreeReport) :
    ∀ fields ∈ report.headers, ∀ field ∈ fields, IsWord field := by
  intro fields inside
  rcases List.mem_append.mp inside with own | tracked
  · clear inside
    revert fields
    simp only [List.forall_mem_cons, List.not_mem_nil, false_implies, implies_true, and_true,
      report.oid_word, report.head_word]
    decide
  · cases upstream : report.upstream with
    | none =>
        rw [upstream] at tracked
        exact absurd tracked List.not_mem_nil
    | some branch =>
        rw [upstream] at tracked
        exact branch.headers_word fields tracked

/-- Words joined by spaces are on one line. -/
theorem lineFeed_not_mem_intercalate {listed : List Text}
    (isWord : ∀ word ∈ listed, IsWord word) :
    lineFeed ∉ (ascii " ").intercalate listed := by
  refine not_mem_intercalate (by decide) fun word inside held => ?_
  have solid := (isWord word inside).solid lineFeed held
  exact absurd solid (by decide)

namespace WorktreeReport

theorem headerText_head? (fields : List Text) : (headerText fields).head? = some 35 := by
  cases fields <;> rfl

theorem headerFields_word {fields : List Text} (isWord : ∀ field ∈ fields, IsWord field) :
    ∀ field ∈ ascii "#" :: fields, IsWord field := by
  intro field inside
  rcases List.mem_cons.mp inside with rfl | later
  · decide
  · exact isWord field later

/-- Every line of a report is a line. -/
theorem isLine_of_mem_lines (report : WorktreeReport) : ∀ line ∈ report.lines, IsLine line := by
  intro line inside
  rcases List.mem_append.mp inside with header | entry
  · obtain ⟨fields, listed, rfl⟩ := List.mem_map.mp header
    have isWord := report.headers_word fields listed
    exact ⟨⟨35, headerText_head? fields, by decide⟩,
      lineFeed_not_mem_intercalate (headerFields_word isWord)⟩
  · obtain ⟨kind, head, visible, -⟩ := head?_of_isEntryKind (report.entries_kind line entry)
    exact ⟨⟨kind, head, visible⟩, report.entries_clean line entry⟩

end WorktreeReport

namespace Cpp

/-- What a line says does not depend on white space at its end. -/
theorem statusLine_eq_of_seenAs {written piece : Text} (seen : SeenAs written piece)
    (isLine : IsLine written) : statusLine piece = statusLine written := by
  have own : SeenAs written written := SeenAs.refl written
  obtain ⟨first, head, visible⟩ := isLine.visible
  have pieceHead := seen.head?_eq head visible
  have ownHead := own.head?_eq head visible
  have pieceNonempty : dropCarriageReturn piece ≠ [] := by
    intro empty
    rw [empty] at pieceHead
    cases pieceHead
  have ownNonempty : dropCarriageReturn written ≠ [] := by
    intro empty
    rw [empty] at ownHead
    cases ownHead
  simp only [statusLine, pieceHead, ownHead, pieceNonempty, ownNonempty, ne_eq,
    not_false_eq_true, ↓reduceIte, seen.words_eq, own.words_eq]

/-- The lines that the program reads say what the written lines say. -/
theorem statusLines_trim_join (ending : LineEnding) {lines : List Text}
    (isLine : ∀ line ∈ lines, IsLine line) :
    statusLines (trim (ending.join lines)) = lines.map statusLine := by
  apply map_getlines_trim_join ending isLine
  intro line inside piece seen
  exact statusLine_eq_of_seenAs seen (isLine line inside)

/-- A header line is read by its fields. -/
theorem statusLine_headerText {fields : List Text} (isWord : ∀ field ∈ fields, IsWord field) :
    statusLine (WorktreeReport.headerText fields) = headerLine (ascii "#" :: fields) := by
  have own : SeenAs _ _ := SeenAs.refl (WorktreeReport.headerText fields)
  have head := own.head?_eq (WorktreeReport.headerText_head? fields) (by decide)
  have split := words_intercalate (WorktreeReport.headerFields_word isWord)
  rw [← WorktreeReport.headerText] at split
  simp only [statusLine, head, own.words_eq, split, ne_eq, not_true_eq_false, ↓reduceIte]

/-- A line that starts as an entry is one. -/
theorem statusLine_of_isEntryKind {entry : Text} (isKind : entry.head?.any isEntryKind = true) :
    statusLine entry = .entry := by
  obtain ⟨kind, head, visible, other⟩ := head?_of_isEntryKind isKind
  have kept := (SeenAs.refl entry).head?_eq head visible
  have nonempty : dropCarriageReturn entry ≠ [] := by
    intro empty
    rw [empty] at kept
    cases kept
  simp only [statusLine, kept, ne_eq, Option.some.injEq, other, not_false_eq_true, ↓reduceIte,
    nonempty]

/-- A written count is read back. -/
theorem aheadCount_decimal {count : Nat} (fits : count ≤ 2147483647) :
    aheadCount (43 :: decimal count) = some (count : Int) := by
  have value := digitsValue_decimal count
  have read := fromChars_of_isNumber (isNumber_decimal count) (by rw [value]; exact fits)
  simp only [aheadCount, List.head?_cons, List.tail_cons, ↓reduceIte, read, value]

/-- What the output of git says, line by line. -/
theorem statusLines_text (report : WorktreeReport) (ending : LineEnding) :
    statusLines (trim (report.text ending)) =
      [.other, .head (report.head == ascii "(detached)")] ++
        report.upstream.elim [] (fun branch => [.upstream, .ahead branch.ahead]) ++
        report.entries.map fun _ => .entry := by
  have headers : (report.headers.map WorktreeReport.headerText).map statusLine =
      report.headers.map fun fields => headerLine (ascii "#" :: fields) := by
    rw [List.map_map]
    exact List.map_congr_left fun fields inside =>
      statusLine_headerText (report.headers_word fields inside)
  have entries : report.entries.map statusLine = report.entries.map fun _ => .entry :=
    List.map_congr_left fun entry inside =>
      statusLine_of_isEntryKind (report.entries_kind entry inside)
  rw [WorktreeReport.text, statusLines_trim_join ending report.isLine_of_mem_lines,
    WorktreeReport.lines, List.map_append, headers, entries]
  congr 1
  rw [WorktreeReport.headers, List.map_append]
  congr 1
  cases report.upstream with
  | none => rfl
  | some branch =>
      have count : headerLine [ascii "#", ascii "branch.ab", 43 :: decimal branch.ahead,
          45 :: decimal branch.behind] = .ahead branch.ahead := by
        have others : ascii "branch.ab" ≠ ascii "branch.head" ∧
            ascii "branch.ab" ≠ ascii "branch.upstream" := by decide
        simp only [headerLine, others, ↓reduceIte, aheadCount_decimal branch.ahead_fits,
          Option.elim_some]
      simp only [Option.map_some, Option.getD_some, TrackedBranch.headers, List.map_cons,
        List.map_nil, count, Option.elim_some]
      rfl

/-- There is an entry among the lines exactly when the report has one. -/
theorem entry_mem_statusLines_text_iff (report : WorktreeReport) (ending : LineEnding) :
    .entry ∈ statusLines (trim (report.text ending)) ↔ report.entries ≠ [] := by
  rw [statusLines_text, List.mem_append, List.mem_map]
  constructor
  · rintro (header | ⟨entry, inside, -⟩)
    · exfalso
      revert header
      cases report.upstream <;>
        simp only [Option.elim_none, Option.elim_some, List.mem_append, List.mem_cons,
          List.not_mem_nil, reduceCtorEq, or_self, false_implies]
    · exact List.ne_nil_of_mem inside
  · intro nonempty
    obtain ⟨entry, inside⟩ := List.exists_mem_of_ne_nil _ nonempty
    exact .inr ⟨entry, inside, rfl⟩

/-- The count that is read is that of the report. -/
theorem lastCount_statusLines_text (report : WorktreeReport) (ending : LineEnding) :
    StatusLine.lastCount (statusLines (trim (report.text ending))) = report.ahead := by
  rw [statusLines_text, StatusLine.lastCount, lastMatch_append_of_none, WorktreeReport.ahead]
  · cases report.upstream <;> rfl
  · exact List.forall_mem_map.mpr fun _ _ => rfl

/-- The state that is read is that of the report. -/
theorem upstreamState_statusLines_text (report : WorktreeReport) (ending : LineEnding) :
    StatusLine.upstreamState (statusLines (trim (report.text ending))) =
      report.upstreamState := by
  have head : StatusLine.detached (statusLines (trim (report.text ending))) =
      (report.head == ascii "(detached)") := by
    rw [statusLines_text, StatusLine.detached, lastMatch_append_of_none]
    · cases report.upstream <;> rfl
    · exact List.forall_mem_map.mpr fun _ _ => rfl
  have tracked : .upstream ∈ statusLines (trim (report.text ending)) ↔
      report.upstream.isSome = true := by
    rw [statusLines_text]
    cases report.upstream <;>
      simp only [Option.elim_none, Option.elim_some, List.mem_append, List.mem_cons, List.mem_map,
        List.not_mem_nil, reduceCtorEq, and_false, exists_false, or_false, or_self, or_true,
        Option.isSome_none, Option.isSome_some, Bool.false_eq_true]
  rw [StatusLine.upstreamState, head, WorktreeReport.upstreamState]
  simp only [tracked, beq_iff_eq]

/-- **Every worktree report is decoded.** A check whose status command succeeds with
the report of a worktree has no worktree or upstream error, is dirty exactly when the
report has an entry, and has the count and the upstream state of the report. -/
theorem check_of_worktreeReport {runner : GitRunner} {timeout : Int} {path : Path}
    {readings : Readings} {report : WorktreeReport} {ending : LineEnding}
    (result : runBeforeDeadline runner path statusArguments
      (readings.started + timeout * nanosecondsPerMillisecond) timeout readings.status =
        completedResult (report.text ending) 0) :
    (check runner timeout path readings).worktreeError = none ∧
      (check runner timeout path readings).upstreamError = none ∧
      ((check runner timeout path readings).dirty = true ↔ report.entries ≠ []) ∧
      (check runner timeout path readings).ahead = report.ahead ∧
      (check runner timeout path readings).upstreamState = report.upstreamState := by
  obtain ⟨before, worktree, upstream, checked⟩ := check_eq_of_status_result result
  rw [checked, readStatus_eq]
  refine ⟨worktree, upstream, ?_⟩
  simp only [decide_eq_true_eq, entry_mem_statusLines_text_iff, lastCount_statusLines_text,
    upstreamState_statusLines_text, and_self]

/-- A branch with an upstream and two entries, one of which looks like a header and
ends with a carriage return. -/
def mainReport : WorktreeReport where
  oid := ascii "1234567"
  head := ascii "main"
  upstream := some
    { name := ascii "origin/main"
      ahead := 12
      behind := 3
      name_word := by decide
      ahead_fits := by decide }
  entries := [ascii "? # branch.ab +7 -0", ascii "1 .M N... a\r"]
  oid_word := by decide
  head_word := by decide
  detached_untracked := by decide
  entries_kind := by decide
  entries_clean := by decide

/-- The twelve commits of the report are read back. -/
theorem mainReport_decoded :
    (check (fun _ _ _ => completedResult (mainReport.text .crlf) 0) 15000 (ascii "repo")
      stillReadings).ahead = 12 := by
  have result : runBeforeDeadline (fun _ _ _ => completedResult (mainReport.text .crlf) 0)
      (ascii "repo") statusArguments
      (stillReadings.started + 15000 * nanosecondsPerMillisecond) 15000 stillReadings.status =
        completedResult (mainReport.text .crlf) 0 := by
    apply runBeforeDeadline_eq <;> decide
  obtain ⟨-, -, -, ahead, -⟩ := check_of_worktreeReport result
  exact ahead

end Cpp

end CheckGitStatus
