import CheckGitStatus.Cpp.Report
import CheckGitStatus.Go.Report
import CheckGitStatus.Text.Utf8
import Mathlib.Algebra.BigOperators.Group.List.Basic
import Mathlib.Data.List.Dedup

/-! # The check warnings of both programs

The Go program joins the label and the message of an issue to one text and cuts it again,
where the C++ program keeps them apart. Labels have no colon, so that the cut gives back
what was joined. Both programs then wrap the words of a message, but the Go program takes
white space outside ASCII for a separator, too. The texts are the same exactly when no
message has such white space (`CheckGitStatus.sameWarnings_iff`).
-/

namespace CheckGitStatus

/-! ## Issues -/

/-- The messages of the checks that failed, once for every check. -/
def RepositoryStatus.errorMessages (status : RepositoryStatus) : List Text :=
  [status.remoteError, status.worktreeError, status.upstreamError].reduceOption

/-- An issue keeps its message when another check is added to it. -/
theorem map_message_modify (issues : List Issue) (index : Nat) (checks : Issue → List Text) :
    (issues.modify index fun issue => { issue with checks := checks issue }).map Issue.message =
      issues.map Issue.message := by
  apply List.ext_getElem?
  intro position
  rw [List.getElem?_map, List.getElem?_map, List.getElem?_modify]
  cases issues[position]? with
  | none => rfl
  | some issue =>
      simp only [Option.map_some]
      split <;> rfl

/-- A message is added once. -/
theorem map_message_addIssue (issues : List Issue) (check message : Text) :
    (addIssue issues check (some message)).map Issue.message =
      if message ∈ issues.map Issue.message then issues.map Issue.message
      else issues.map Issue.message ++ [message] := by
  rw [addIssue]
  cases found : issues.findIdx? fun issue => issue.message == message with
  | none =>
      have absent : message ∉ issues.map Issue.message := by
        rintro listed
        obtain ⟨issue, inside, same⟩ := List.mem_map.mp listed
        have other := List.findIdx?_eq_none_iff.mp found issue inside
        rw [same, BEq.rfl] at other
        cases other
      rw [if_neg absent]
      exact List.map_append
  | some index =>
      obtain ⟨below, same, _⟩ := List.findIdx?_eq_some_iff_getElem.mp found
      have present : message ∈ issues.map Issue.message :=
        List.mem_map.mpr ⟨_, List.getElem_mem below, beq_iff_eq.mp same⟩
      rw [if_pos present]
      exact map_message_modify issues index _

/-- The issues of a status have distinct messages, those of the checks that failed. -/
structure OneIssueEach (issues : List Issue) (messages : List Text) : Prop where
  distinct : (issues.map Issue.message).Nodup
  covered : ∀ message, message ∈ issues.map Issue.message ↔ message ∈ messages

/-- Adding an error keeps one issue for each message. -/
theorem OneIssueEach.addIssue {issues : List Issue} {messages : List Text}
    (one : OneIssueEach issues messages) (check : Text) (error : Option Text) :
    OneIssueEach (addIssue issues check error) (messages ++ error.toList) := by
  cases error with
  | none =>
      rw [Option.toList_none, List.append_nil]
      exact one
  | some message =>
      obtain ⟨distinct, covered⟩ := one
      constructor
      · rw [map_message_addIssue]
        split
        · exact distinct
        · rename_i absent
          exact distinct.append (List.nodup_singleton message)
            (List.disjoint_singleton.mpr absent)
      · intro other
        rw [map_message_addIssue, Option.toList_some, List.mem_append, List.mem_singleton,
          ← covered]
        split
        · rename_i present
          constructor
          · exact .inl
          · rintro (listed | rfl)
            · exact listed
            · exact present
        · rw [List.mem_append, List.mem_singleton]

/-- A status has one issue for each of its messages. -/
theorem RepositoryStatus.issues_oneIssueEach (status : RepositoryStatus) :
    OneIssueEach status.issues status.errorMessages := by
  have start : OneIssueEach [] [] := ⟨List.nodup_nil, fun _ => Iff.rfl⟩
  have all := ((start.addIssue (ascii "remote") status.remoteError).addIssue
    (ascii "worktree") status.worktreeError).addIssue (ascii "upstream") status.upstreamError
  have messages : status.errorMessages =
      [] ++ status.remoteError.toList ++ status.worktreeError.toList ++
        status.upstreamError.toList := by
    unfold RepositoryStatus.errorMessages
    cases status.remoteError <;> cases status.worktreeError <;> cases status.upstreamError <;> rfl
  rw [messages]
  exact all

/-- There is one issue for every distinct message. -/
theorem RepositoryStatus.length_issues (status : RepositoryStatus) :
    status.issues.length = status.errorMessages.dedup.length := by
  obtain ⟨distinct, covered⟩ := status.issues_oneIssueEach
  have perm : (status.issues.map Issue.message).Perm status.errorMessages.dedup := by
    rw [List.perm_ext_iff_of_nodup distinct (List.nodup_dedup _)]
    intro message
    rw [covered, List.mem_dedup]
  rw [← perm.length_eq, List.length_map]

/-! ## Labels -/

/-- The checks of an issue are named by texts with a property. -/
def ChecksNamed (named : Text → Prop) (issues : List Issue) : Prop :=
  ∀ issue ∈ issues, ∀ check ∈ issue.checks, named check

/-- Adding an error of a named check keeps all checks named. -/
theorem ChecksNamed.addIssue {named : Text → Prop} {issues : List Issue}
    (all : ChecksNamed named issues) (check : Text) (isNamed : named check)
    (error : Option Text) : ChecksNamed named (addIssue issues check error) := by
  cases error with
  | none => exact all
  | some message =>
      rw [CheckGitStatus.addIssue]
      cases issues.findIdx? fun issue => issue.message == message with
      | none =>
          intro issue inside
          rcases List.mem_append.mp inside with before | last
          · exact all issue before
          · rw [List.mem_singleton.mp last, List.forall_mem_singleton]
            exact isNamed
      | some index =>
          intro issue inside
          obtain ⟨position, found⟩ := List.mem_iff_getElem?.mp inside
          rw [List.getElem?_modify] at found
          obtain ⟨old, listed, changed⟩ := Option.map_eq_some_iff.mp found
          have before := all old (List.mem_iff_getElem?.mpr ⟨position, listed⟩)
          split at changed
          · rw [← changed]
            intro other part
            rcases List.mem_append.mp part with earlier | last
            · exact before other earlier
            · rw [List.mem_singleton.mp last]
              exact isNamed
          · rw [← changed]
            exact before

/-- A label has no colon if its checks have none. -/
theorem colon_not_mem_checksLabel {checks : List Text} (clean : ∀ check ∈ checks, (58 : Byte) ∉ check) :
    (58 : Byte) ∉ checksLabel checks := by
  unfold checksLabel
  split
  · decide
  · rw [List.forall_mem_singleton] at clean
    rw [List.mem_append, not_or]
    exact ⟨clean, by decide⟩
  · rw [List.mem_append, not_or]
    exact ⟨not_mem_intercalate (by decide) clean, by decide⟩

/-- No label holds a colon, so that a printed issue is cut behind its label. -/
theorem RepositoryStatus.colon_not_mem_label {status : RepositoryStatus} {issue : Issue}
    (inside : issue ∈ status.issues) : (58 : Byte) ∉ issue.label := by
  have start : ChecksNamed (fun check => (58 : Byte) ∉ check) [] :=
    fun _ inside => absurd inside List.not_mem_nil
  have all := ((start.addIssue (ascii "remote") (by decide) status.remoteError).addIssue
    (ascii "worktree") (by decide) status.worktreeError).addIssue
    (ascii "upstream") (by decide) status.upstreamError
  exact colon_not_mem_checksLabel (all issue inside)

namespace Go

/-- A text without the first byte of a separator ends at it. -/
theorem cut_append {first : Byte} {rest before : Text} (clean : first ∉ before) (after : Text) :
    cut (first :: rest) (before ++ (first :: rest) ++ after) = some (before, after) := by
  induction before with
  | nil =>
      have here : (first :: rest).isPrefixOf (first :: (rest ++ after)) = true :=
        List.isPrefixOf_iff_prefix.mpr (List.prefix_append (first :: rest) after)
      rw [List.nil_append, List.cons_append, cut, if_pos here, ← List.cons_append, List.drop_left]
  | cons byte before ih =>
      rw [List.mem_cons, not_or] at clean
      have other : ¬ (first :: rest).isPrefixOf
          (byte :: (before ++ (first :: rest) ++ after)) = true := by
        rw [List.isPrefixOf_iff_prefix, List.cons_prefix_cons]
        exact fun same => clean.1 same.1
      rw [List.cons_append, List.cons_append, cut, if_neg other, ih clean.2]
      rfl

/-- Cutting an issue gives back its label and its message. -/
theorem map_cut_issues (status : RepositoryStatus) :
    (issues status).map (cut (ascii ": ")) =
      status.issues.map fun issue => some (issue.label, issue.message) := by
  rw [issues_eq, List.map_map]
  refine List.map_congr_left fun issue inside => ?_
  exact cut_append (status.colon_not_mem_label inside) issue.message

end Go

/-! ## The bytes that are written -/

namespace Report

section Wrapping

variable {width : Text → Nat} {visible : Byte → Bool} {indent maxWidth : Nat}

/-- Two measures that agree on the words wrap them alike. -/
theorem writeWrapped_congr {left right : Text → Nat} {words : List Text}
    (same : ∀ word ∈ words, left word = right word) (indent maxWidth : Nat) :
    writeWrapped left words indent maxWidth = writeWrapped right words indent maxWidth := by
  have steps : ∀ state : Wrapping, words.foldl (wrapWord left indent maxWidth) state =
      words.foldl (wrapWord right indent maxWidth) state := by
    intro state
    refine List.foldl_ext _ _ state fun state word inside => ?_
    simp only [wrapWord, same word inside]
  simp only [writeWrapped, steps]

theorem countP_spaces (space : visible 32 = false) (count : Nat) :
    (List.replicate count (32 : Byte)).countP visible = 0 := by
  rw [List.countP_replicate, space, if_neg Bool.false_ne_true]

/-- One turn of the loop adds the bytes of its word, and spaces. -/
theorem countP_wrapWord (space : visible 32 = false) (lineEnd : visible 10 = false)
    (state : Wrapping) (word : Text) :
    (wrapWord width indent maxWidth state word).written.countP visible +
        (wrapWord width indent maxWidth state word).line.countP visible =
      state.written.countP visible + state.line.countP visible + word.countP visible := by
  have noSpace : (ascii " ").countP visible = 0 := countP_spaces space 1
  have noLine : (ascii "\n").countP visible = 0 := by
    change [10].countP visible = 0
    rw [List.countP_singleton, lineEnd, if_neg Bool.false_ne_true]
  simp only [wrapWord]
  generalize (if indent < state.lineWidth then 1 else 0) = separator
  have between : (if 0 < separator then ascii " " else []).countP visible = 0 := by
    split
    · exact noSpace
    · exact List.countP_nil
  split
  · simp only [List.countP_append, noLine, countP_spaces space]
    omega
  · simp only [List.countP_append, between]
    omega

/-- Wrapping keeps the visible bytes of the words, and adds none. -/
theorem countP_foldl_wrapWord (space : visible 32 = false) (lineEnd : visible 10 = false)
    (words : List Text) (state : Wrapping) :
    (words.foldl (wrapWord width indent maxWidth) state).written.countP visible +
        (words.foldl (wrapWord width indent maxWidth) state).line.countP visible =
      state.written.countP visible + state.line.countP visible + words.flatten.countP visible := by
  induction words generalizing state with
  | nil => rfl
  | cons word rest ih =>
      rw [List.foldl_cons, ih, countP_wrapWord space lineEnd, List.flatten_cons,
        List.countP_append, Nat.add_assoc]

/-- A line is at least as wide as the indent and the last word. -/
theorem le_lineWidth_wrapWord (maxWidth : Nat) {state : Wrapping}
    (indented : indent ≤ state.lineWidth) (word : Text) :
    indent + width word ≤ (wrapWord width indent maxWidth state word).lineWidth := by
  simp only [wrapWord]
  generalize (if indent < state.lineWidth then 1 else 0) = separator
  split
  · exact Nat.le_refl _
  · dsimp only
    omega

/-- The line that is being filled has a width after the first word that has one. -/
theorem indent_lt_foldl_wrapWord {words : List Text} (positive : ∀ word ∈ words, 0 < width word)
    {state : Wrapping} (indented : indent ≤ state.lineWidth)
    (filled : indent < state.lineWidth ∨ words ≠ []) :
    indent < (words.foldl (wrapWord width indent maxWidth) state).lineWidth := by
  induction words generalizing state with
  | nil => exact filled.resolve_right fun nonempty => nonempty rfl
  | cons word rest ih =>
      rw [List.forall_mem_cons] at positive
      have wide : indent + width word ≤ (wrapWord width indent maxWidth state word).lineWidth :=
        le_lineWidth_wrapWord maxWidth indented word
      exact ih positive.2 (by omega) (.inl (by omega))

/-- Words that have a width are all written. -/
theorem countP_writeWrapped (space : visible 32 = false) (lineEnd : visible 10 = false)
    {words : List Text} (positive : ∀ word ∈ words, 0 < width word) (indent maxWidth : Nat) :
    (writeWrapped width words indent maxWidth).countP visible = words.flatten.countP visible := by
  have noLine : (ascii "\n").countP visible = 0 := by
    change [10].countP visible = 0
    rw [List.countP_singleton, lineEnd, if_neg Bool.false_ne_true]
  have counted := @countP_foldl_wrapWord width visible indent maxWidth space lineEnd words
    { line := List.replicate indent 32, lineWidth := indent }
  rw [List.countP_nil, countP_spaces space, Nat.zero_add] at counted
  cases words with
  | nil => simp only [writeWrapped, List.foldl_nil, Nat.lt_irrefl, ↓reduceIte, List.flatten_nil]
  | cons word rest =>
      have filled := @indent_lt_foldl_wrapWord width indent maxWidth (word :: rest) positive
        { line := List.replicate indent 32, lineWidth := indent } (Nat.le_refl indent)
        (.inr (List.cons_ne_nil word rest))
      simp only [writeWrapped, filled, ↓reduceIte, List.countP_append, noLine]
      exact counted

end Wrapping

section Warnings

variable {visible : Byte → Bool} (issueTexts : RepositoryStatus → List Text)

/-- How many bytes of some kind the warnings of a status have, if those that both
programs write around them are not counted. -/
def statusBytes (visible : Byte → Bool) (status : RepositoryStatus) : Nat :=
  (if issueTexts status = [] then 0 else (pathText status.path).countP visible) +
    (issueTexts status).flatten.countP visible

theorem countP_writeStatusIssues (plain : ∀ byte < 0x80, visible byte = false)
    (state : CheckWarnings) (status : RepositoryStatus) :
    (writeStatusIssues issueTexts state status).written.countP visible =
      state.written.countP visible + statusBytes issueTexts visible status := by
  have silent : ∀ text : Text, text.all (fun byte => decide (byte < 0x80)) = true →
      text.countP visible = 0 := by
    intro text all
    rw [List.countP_eq_zero]
    intro byte inside
    rw [plain byte (of_decide_eq_true (List.all_eq_true.mp all byte inside))]
    exact Bool.false_ne_true
  have blank : (if state.wroteStatus then ascii "\n" else []).countP visible = 0 := by
    split
    · exact silent _ rfl
    · rfl
  unfold writeStatusIssues statusBytes
  split
  · rename_i none
    rw [none, List.flatten_nil, List.countP_nil]
    rfl
  · simp only [List.countP_append, blank, silent (ascii "warning: ") rfl,
      silent (ascii "\n") rfl, Nat.add_zero, Nat.add_assoc]

theorem countP_writeCheckWarnings (plain : ∀ byte < 0x80, visible byte = false)
    (statuses : List RepositoryStatus) :
    (writeCheckWarnings issueTexts statuses).1.countP visible =
      (statuses.map (statusBytes issueTexts visible)).sum := by
  have counted : ∀ state : CheckWarnings,
      (statuses.foldl (writeStatusIssues issueTexts) state).written.countP visible =
        state.written.countP visible + (statuses.map (statusBytes issueTexts visible)).sum := by
    induction statuses with
    | nil => exact fun _ => rfl
    | cons status rest ih =>
        intro state
        rw [List.foldl_cons, ih, countP_writeStatusIssues issueTexts plain, List.map_cons,
          List.sum_cons, Nat.add_assoc]
  have whole := counted {}
  rw [List.countP_nil, Nat.zero_add] at whole
  exact whole

/-- Issues that are written alike for every status give the same warnings. -/
theorem writeCheckWarnings_congr {left right : RepositoryStatus → List Text}
    {statuses : List RepositoryStatus} (same : ∀ status ∈ statuses, left status = right status) :
    writeCheckWarnings left statuses = writeCheckWarnings right statuses := by
  have steps : ∀ state : CheckWarnings, statuses.foldl (writeStatusIssues left) state =
      statuses.foldl (writeStatusIssues right) state := by
    intro state
    refine List.foldl_ext _ _ state fun state status inside => ?_
    simp only [writeStatusIssues, same status inside]
  simp only [writeCheckWarnings, steps]

end Warnings

end Report

/-! ## One message -/

/-- A byte outside ASCII. -/
def isHigh (byte : Byte) : Bool :=
  0x80 ≤ byte

theorem isHigh_of_ascii : ∀ byte < (0x80 : Byte), isHigh byte = false := by
  intro byte small
  exact decide_eq_false (UInt8.not_le.mpr small)

namespace Cpp

/-- The mask tells the continuation bytes. -/
theorem and_mask_ne (byte : Byte) :
    (byte &&& 0xc0 != 0x80) = !(decide ((0x80 : Byte) ≤ byte) && decide (byte ≤ (0xBF : Byte))) := by
  have masked : ∀ top < 4, ∀ rest < 64, (UInt8.ofNat (64 * top + rest) &&& 0xc0 != 0x80) =
      !(decide ((0x80 : Byte) ≤ UInt8.ofNat (64 * top + rest)) &&
        decide (UInt8.ofNat (64 * top + rest) ≤ (0xBF : Byte))) := by
    decide
  have small := byte.toNat_lt
  have same := masked (byte.toNat / 64) (by omega) (byte.toNat % 64) (Nat.mod_lt _ (by decide))
  rw [Nat.div_add_mod, UInt8.ofNat_toNat] at same
  exact same

/-- Every character has one byte that is no continuation byte. -/
theorem utf8Width_encodeChar (character : Char) :
    utf8Width (String.utf8EncodeChar character) = 1 := by
  rcases encodeChar_cases character with ⟨plain, bytes⟩ | ⟨_, lead, tail, bytes, led, rest⟩
  · have small : ¬ (0x80 : Byte) ≤ UInt8.ofNat character.toNat := by
      rw [UInt8.le_iff_toNat_le, toNat_ofNat_of_lt (by omega)]
      exact Nat.not_le.mpr plain
    rw [bytes, utf8Width, List.countP_singleton, and_mask_ne, decide_eq_false small]
    rfl
  · have high : ¬ lead ≤ (0xBF : Byte) :=
      UInt8.not_le.mpr (UInt8.lt_of_lt_of_le (by decide) led)
    have none : tail.countP (fun byte => byte &&& 0xc0 != 0x80) = 0 := by
      rw [List.countP_eq_zero]
      intro byte inside
      rw [and_mask_ne, rest byte inside]
      exact Bool.false_ne_true
    rw [bytes, utf8Width, List.countP_cons, none, and_mask_ne, decide_eq_false high, Bool.and_false]
    rfl

/-- The width of a text in UTF-8 is the number of its characters. -/
theorem utf8Width_encode (characters : List Char) :
    utf8Width (encode characters) = characters.length := by
  induction characters with
  | nil => rfl
  | cons character rest ih =>
      rw [encode_cons, utf8Width_append, utf8Width_encodeChar, ih, List.length_cons, Nat.add_comm]

/-- Words in UTF-8 have a width, the same in both programs. -/
theorem utf8Width_of_isUtf8 {word : Text} (valid : IsUtf8 word) :
    utf8Width word = Go.runeCount word ∧ (word ≠ [] → 0 < utf8Width word) := by
  obtain ⟨characters, rfl⟩ := valid
  rw [utf8Width_encode, Go.runeCount_encode]
  refine ⟨rfl, fun nonempty => ?_⟩
  cases characters with
  | nil => exact absurd rfl nonempty
  | cons character rest => exact Nat.zero_lt_succ _

/-- The C++ program writes every byte of a message that is not ASCII. -/
theorem countP_writeWrapped {message : Text} (valid : IsUtf8 message) (indent maxWidth : Nat) :
    (writeWrapped message indent maxWidth).countP isHigh = message.countP isHigh := by
  have positive : ∀ word ∈ words message, 0 < utf8Width word := by
    intro word inside
    exact (utf8Width_of_isUtf8 (isUtf8_of_mem_words valid inside)).2
      (of_decide_eq_true (List.mem_filter.mp inside).2)
  have kept : ∀ byte : Byte, (isHigh byte && !isSpace byte) = isHigh byte := by
    intro byte
    cases high : isHigh byte with
    | false => rfl
    | true => rw [Go.isSpace_of_not_ascii (of_decide_eq_true high)]; rfl
  rw [writeWrapped, Report.countP_writeWrapped (by decide) (by decide) positive, words,
    List.flatten_filter_ne_nil, flatten_splitOnP, List.countP_filter]
  exact congrArg (fun counts => message.countP counts) (funext kept)

end Cpp

namespace Go

/-- The Go program leaves out the bytes of white space. -/
theorem countP_writeWrappedWarning (message : Text) (indent maxWidth : Nat) :
    (writeWrappedWarning message indent maxWidth).countP isHigh =
      ((markSpaces message).filter fun mark => !mark.2).countP fun mark => isHigh mark.1 := by
  have positive : ∀ word ∈ fields message, 0 < runeCount word := by
    intro word inside
    obtain ⟨field, listed, rfl⟩ := List.mem_map.mp inside
    have nonempty := of_decide_eq_true (List.mem_filter.mp listed).2
    cases field with
    | nil => exact absurd rfl nonempty
    | cons first rest =>
        rw [List.map_cons, runeCount, runeCountFrom]
        omega
  rw [writeWrappedWarning, Report.countP_writeWrapped (by decide) (by decide) positive, fields,
    ← List.map_flatten, List.flatten_filter_ne_nil, flatten_splitOnP, List.countP_map]
  rfl

end Go

/-- The bytes of a message that the Go program takes for white space and the C++
program does not. -/
def hiddenBytes (message : Text) : Nat :=
  ((Go.markSpaces message).filter Prod.snd).countP fun mark => isHigh mark.1

/-- No high byte of a message is lost exactly if it has no white space outside ASCII. -/
theorem hiddenBytes_eq_zero_iff {message : Text} (valid : IsUtf8 message) :
    hiddenBytes message = 0 ↔ OnlyAsciiSpace message := by
  constructor
  · intro none front character back whole space
    by_contra large
    rcases encodeChar_cases character with ⟨plain, _⟩ | ⟨_, lead, tail, bytes, led, _⟩
    · exact large plain
    · have marked : (lead, true) ∈ Go.markSpaces message := by
        rw [whole, Go.markSpaces_encode, List.mem_flatMap]
        refine ⟨character, List.mem_append_right _ List.mem_cons_self, ?_⟩
        rw [bytes, List.map_cons, space]
        exact List.mem_cons_self
      have hidden := List.countP_eq_zero.mp none (lead, true)
        (List.mem_filter.mpr ⟨marked, rfl⟩)
      exact hidden (decide_eq_true (UInt8.le_trans (by decide) led))
  · intro plain
    rw [hiddenBytes, List.countP_eq_zero, Go.markSpaces_of_onlyAsciiSpace valid plain]
    intro mark inside
    obtain ⟨listed, space⟩ := List.mem_filter.mp inside
    obtain ⟨byte, _, rfl⟩ := List.mem_map.mp listed
    intro high
    rw [Go.isSpace_of_not_ascii (of_decide_eq_true high)] at space
    cases space

/-- The Go program writes fewer bytes outside ASCII by those that it takes for white space. -/
theorem countP_wrapped {message : Text} (valid : IsUtf8 message) (indent maxWidth : Nat) :
    (Cpp.writeWrapped message indent maxWidth).countP isHigh =
      hiddenBytes message + (Go.writeWrappedWarning message indent maxWidth).countP isHigh := by
  have split := List.countP_eq_countP_filter_add (Go.markSpaces message)
    (fun mark => isHigh mark.1) Prod.snd
  rw [Cpp.countP_writeWrapped valid, Go.countP_writeWrappedWarning, hiddenBytes]
  conv_lhs => rw [← Go.markSpaces_map_fst message, List.countP_map]
  exact split

/-- Messages without white space outside ASCII are wrapped alike. -/
theorem writeWrapped_eq_of_onlyAsciiSpace {message : Text} (valid : IsUtf8 message)
    (plain : OnlyAsciiSpace message) (indent maxWidth : Nat) :
    Cpp.writeWrapped message indent maxWidth = Go.writeWrappedWarning message indent maxWidth := by
  rw [Cpp.writeWrapped, Go.writeWrappedWarning,
    Go.fields_of_markSpaces (Go.markSpaces_of_onlyAsciiSpace valid plain)]
  refine Report.writeWrapped_congr (fun word inside => ?_) indent maxWidth
  exact (Cpp.utf8Width_of_isUtf8 (isUtf8_of_mem_words valid inside)).1

/-! ## All statuses -/

/-- The Go program prints each issue with its label and its wrapped message. -/
theorem Go.map_writeIssue_issues (status : RepositoryStatus) :
    (Go.issues status).map Go.writeIssue = status.issues.map fun issue =>
      ascii "  " ++ issue.label ++ ascii ":\n" ++ Go.writeWrappedWarning issue.message 4 100 := by
  rw [Go.issues_eq, List.map_map]
  refine List.map_congr_left fun issue inside => ?_
  have recovered : Go.cut (ascii ": ") (issue.label ++ ascii ": " ++ issue.message) =
      some (issue.label, issue.message) :=
    Go.cut_append (status.colon_not_mem_label inside) issue.message
  simp only [Function.comp_apply, Go.writeIssue, recovered]

/-- The message of an issue is an error of the status. -/
theorem RepositoryStatus.mem_errorMessages_of_mem_issues {status : RepositoryStatus} {issue : Issue}
    (inside : issue ∈ status.issues) : issue.message ∈ status.errorMessages :=
  (status.issues_oneIssueEach.covered _).mp (List.mem_map_of_mem inside)

/-- The C++ program writes more bytes for a status by those that are hidden in its issues. -/
theorem statusBytes_eq {status : RepositoryStatus}
    (valid : ∀ message ∈ status.errorMessages, IsUtf8 message) :
    Report.statusBytes (fun status => status.issues.map Cpp.writeIssue) isHigh status =
      (status.issues.map fun issue => hiddenBytes issue.message).sum +
        Report.statusBytes (fun status => (Go.issues status).map Go.writeIssue) isHigh status := by
  have each : status.issues.map (List.countP isHigh ∘ Cpp.writeIssue) =
      status.issues.map fun issue => hiddenBytes issue.message +
        (ascii "  " ++ issue.label ++ ascii ":\n" ++
          Go.writeWrappedWarning issue.message 4 100).countP isHigh := by
    refine List.map_congr_left fun issue inside => ?_
    have wrapped := countP_wrapped (valid _ (status.mem_errorMessages_of_mem_issues inside)) 4 100
    simp only [Function.comp_apply, Cpp.writeIssue, List.countP_append, wrapped]
    omega
  simp only [Report.statusBytes, Go.map_writeIssue_issues, List.map_eq_nil_iff,
    List.countP_flatten, List.map_map]
  rw [each, List.sum_map_add, Nat.add_left_comm]
  rfl

/-- Both programs write the same warnings and count the distinct messages of every status,
and cutting the issues of the Go program gives their labels and messages. -/
structure SameWarnings (statuses : List RepositoryStatus) : Prop where
  written : Cpp.writeCheckWarnings statuses = Go.writeCheckWarnings statuses
  counted : (Cpp.writeCheckWarnings statuses).2 =
    (statuses.map fun status => status.errorMessages.dedup.length).sum
  recovered : ∀ status ∈ statuses, (Go.issues status).map (Go.cut (ascii ": ")) =
    status.issues.map fun issue => some (issue.label, issue.message)

/-- The number of issues is that of the different messages of each status. -/
theorem writeCheckWarnings_counted (statuses : List RepositoryStatus) :
    (Cpp.writeCheckWarnings statuses).2 =
      (statuses.map fun status => status.errorMessages.dedup.length).sum := by
  simp only [Cpp.writeCheckWarnings, Report.writeCheckWarnings_count, List.length_map,
    RepositoryStatus.length_issues]

/-- The same warnings hide no bytes. -/
theorem hiddenBytes_eq_zero_of_written {statuses : List RepositoryStatus}
    (valid : ∀ status ∈ statuses, ∀ message ∈ status.errorMessages, IsUtf8 message)
    (written : Cpp.writeCheckWarnings statuses = Go.writeCheckWarnings statuses) :
    ∀ status ∈ statuses, ∀ issue ∈ status.issues, hiddenBytes issue.message = 0 := by
  have bytes := congrArg (fun result => List.countP isHigh result.1) written
  simp only [Cpp.writeCheckWarnings, Go.writeCheckWarnings,
    Report.countP_writeCheckWarnings _ isHigh_of_ascii] at bytes
  rw [List.map_congr_left fun status inside => statusBytes_eq (valid status inside),
    List.sum_map_add, Nat.add_eq_right, List.sum_eq_zero_iff_forall_eq_nat] at bytes
  intro status inside
  have none := bytes _ (List.mem_map_of_mem inside)
  rw [List.sum_eq_zero_iff_forall_eq_nat] at none
  exact fun issue listed => none _ (List.mem_map_of_mem listed)

/-- For messages in UTF-8 both programs write the same check warnings exactly when no
message has white space outside ASCII. -/
theorem sameWarnings_iff {statuses : List RepositoryStatus}
    (valid : ∀ status ∈ statuses, ∀ message ∈ status.errorMessages, IsUtf8 message) :
    SameWarnings statuses ↔
      ∀ status ∈ statuses, ∀ message ∈ status.errorMessages, OnlyAsciiSpace message := by
  constructor
  · intro same status inside message listed
    obtain ⟨issue, raised, rfl⟩ :=
      List.mem_map.mp ((status.issues_oneIssueEach.covered message).mpr listed)
    exact (hiddenBytes_eq_zero_iff (valid status inside _ listed)).mp
      (hiddenBytes_eq_zero_of_written valid same.written status inside issue raised)
  · intro plain
    refine ⟨?_, writeCheckWarnings_counted statuses, fun status _ => Go.map_cut_issues status⟩
    refine Report.writeCheckWarnings_congr fun status inside => ?_
    rw [Go.map_writeIssue_issues]
    refine List.map_congr_left fun issue raised => ?_
    have listed := status.mem_errorMessages_of_mem_issues raised
    rw [Cpp.writeIssue, writeWrapped_eq_of_onlyAsciiSpace (valid status inside _ listed)
      (plain status inside _ listed)]

/-- A status whose three checks fail, two of them with one message. -/
def failedStatus : RepositoryStatus where
  path := ascii "/w/lib"
  remoteError := some (encode "fatal: no café\n".toList)
  worktreeError := some (ascii "interrupted")
  upstreamState := .error
  upstreamError := some (ascii "interrupted")

theorem failedStatus_sameWarnings : SameWarnings [failedStatus] := by
  have messages : ∀ status ∈ [failedStatus], ∀ message ∈ status.errorMessages,
      IsUtf8 message ∧ hiddenBytes message = 0 := by
    rw [List.forall_mem_singleton]
    change ∀ message ∈ [_, _, _], _
    simp only [List.forall_mem_cons]
    exact ⟨⟨⟨_, rfl⟩, by decide⟩, ⟨⟨"interrupted".toList, by decide⟩, by decide⟩,
      ⟨⟨"interrupted".toList, by decide⟩, by decide⟩, fun _ none => absurd none List.not_mem_nil⟩
  refine (sameWarnings_iff fun status inside message listed =>
    (messages status inside message listed).1).mpr fun status inside message listed => ?_
  obtain ⟨valid, none⟩ := messages status inside message listed
  exact (hiddenBytes_eq_zero_iff valid).mp none

/-- The letter a, a no-break space and the letter b. -/
def noBreakSpaceMessage : Text :=
  [97, 0xC2, 0xA0, 98]

/-- The Go program writes two words, and the C++ program writes one. -/
theorem noBreakSpaceMessage_not_sameWarnings :
    IsUtf8 noBreakSpaceMessage ∧
      ¬ SameWarnings [{ path := ascii "/w", remoteError := some noBreakSpaceMessage }] := by
  refine ⟨⟨"a\u00a0b".toList, by decide⟩, fun same => ?_⟩
  exact absurd same.written (by decide)

end CheckGitStatus
