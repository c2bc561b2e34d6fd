import Mathlib.Data.List.Infix
import CheckGitStatus.Semantics.UnpushedCount

/-! # Where the two programs agree

Both programs read the outputs of the same two commands. They select the same remote
unless a fetch line has no name, which only the C++ program accepts, and they see the
same worktree entries. Their headers may differ: the Go program splits at Unicode
white space and stops at a count that it cannot read, where the C++ program goes on.
`CheckGitStatus.check_parity_iff` is the exact condition for equal statuses when no header
has white space outside ASCII, and counts written as git writes them meet it
(`CheckGitStatus.countsAlike_of_plus`).
-/

namespace CheckGitStatus

open Library

/-- Two statuses that show the same and need attention alike. -/
structure SameStatus (left right : RepositoryStatus) : Prop where
  hasRemote : left.hasRemote = right.hasRemote
  remoteName : left.remoteName = right.remoteName
  remoteUrl : left.remoteUrl = right.remoteUrl
  dirty : left.dirty = right.dirty
  upstreamState : left.upstreamState = right.upstreamState
  ahead : left.ahead = right.ahead
  upstreamError : left.upstreamError.isSome = right.upstreamError.isSome
  needsAttention : left.needsAttention = right.needsAttention

/-! ## The remotes -/

/-- A remote with a name. -/
def isNamed (remote : Text × Text) : Bool :=
  remote.1 ≠ []

/-- The Go program drops the fetch lines without a name. -/
theorem goFetchLine_eq (line : Text) :
    Go.fetchLine line = (Cpp.fetchLine line).filter isNamed := by
  unfold Go.fetchLine Cpp.fetchLine Go.trimCarriageReturn
  cases stripSuffix (ascii " (fetch)") (dropCarriageReturn line) with
  | none => rfl
  | some line =>
      dsimp only
      by_cases blankless : line.dropWhile (fun byte => !isBlank byte) = []
      · simp only [blankless, ↓reduceIte, Option.filter_none]
      by_cases bare : (line.dropWhile fun byte => !isBlank byte).dropWhile isBlank = []
      · simp only [blankless, bare, or_true, ↓reduceIte, Option.filter_none]
      by_cases nameless : line.takeWhile (fun byte => !isBlank byte) = []
      · simp only [blankless, bare, nameless, true_or, ↓reduceIte, Option.filter_some, isNamed,
          ne_eq, not_true_eq_false, decide_false, Bool.false_eq_true]
      · simp only [blankless, bare, nameless, or_self, ↓reduceIte, Option.filter_some, isNamed,
          ne_eq, not_false_eq_true, decide_true]

/-- The Go program sees the fetch lines that have a name. -/
theorem goFetchLines_eq (output : Text) :
    Go.fetchLines output = (Cpp.fetchLines output).filter isNamed := by
  rw [Cpp.fetchLines, filterMap_getlines Cpp.fetchLine (by decide), List.filter_filterMap,
    Go.fetchLines, Go.splitLines]
  congr 1
  funext line
  exact goFetchLine_eq line

/-- Dropping the nameless remotes does not change what is found under a name. -/
theorem find?_filter_isNamed {listed : List (Text × Text)} {name : Text} (named : name ≠ []) :
    (listed.filter isNamed).find? (fun remote => remote.1 == name) =
      listed.find? fun remote => remote.1 == name := by
  rw [List.find?_filter]
  congr 1
  funext remote
  by_cases same : remote.1 = name
  · simp only [isNamed, same, ne_eq, named, not_false_eq_true, decide_true, BEq.rfl, and_self]
  · simp only [beq_eq_false_iff_ne.mpr same, Bool.false_eq_true, and_false, decide_false]

/-- A list without nameless remotes, or with an `origin`, prefers the same remote when
the nameless ones are dropped. Otherwise it prefers a nameless one. -/
theorem isPreferred_isNamed_iff {listed : List (Text × Text)} :
    (∀ name url, IsPreferred listed name url ↔ IsPreferred (listed.filter isNamed) name url) ↔
      ascii "origin" ∈ listed.map Prod.fst ∨ [] ∉ listed.map Prod.fst := by
  have originNamed : ascii "origin" ≠ [] := by decide
  constructor
  · intro same
    by_contra! neither
    obtain ⟨noOrigin, nameless⟩ := neither
    obtain ⟨remote, found⟩ := Option.isSome_iff_exists.mp
      (List.isSome_find?.trans (any_key_iff.mpr nameless))
    have unnamed : remote.1 = [] := by simpa using List.find?_some found
    have preferred : IsPreferred listed [] remote.2 := by
      refine ⟨?_, .inr ⟨noOrigin, fun other _ => List.nil_le other⟩⟩
      rw [found, ← unnamed]
    have inside := List.mem_of_find?_eq_some ((same [] remote.2).mp preferred).first
    have isNamed := (List.mem_filter.mp inside).2
    cases isNamed
  · rintro (origin | allNamed) name url
    · have originLater : ascii "origin" ∈ (listed.filter isNamed).map Prod.fst := by
        rw [← any_key_iff, ← List.isSome_find?, find?_filter_isNamed originNamed,
          List.isSome_find?, any_key_iff]
        exact origin
      constructor
      · rintro ⟨first, named | ⟨noOrigin, _⟩⟩
        · subst named
          exact ⟨(find?_filter_isNamed originNamed).trans first, .inl rfl⟩
        · exact absurd origin noOrigin
      · rintro ⟨first, named | ⟨noOrigin, _⟩⟩
        · subst named
          exact ⟨(find?_filter_isNamed originNamed).symm.trans first, .inl rfl⟩
        · exact absurd originLater noOrigin
    · have whole : listed.filter isNamed = listed := by
        apply List.filter_eq_self.mpr
        intro remote inside
        have named : remote.1 ≠ [] := fun nameless =>
          allNamed (nameless ▸ List.mem_map_of_mem inside)
        simp only [isNamed, ne_eq, named, not_false_eq_true, decide_true]
      rw [whole]

/-- The programs select the same remote exactly when `origin` has a fetch line or
every fetch line has a name. -/
theorem selectRemote_parity_iff {output : Text} :
    Cpp.selectRemote (Cpp.collectRemotes output) = Go.selectRemote (Go.collectRemotes output) ↔
      ascii "origin" ∈ (Cpp.fetchLines output).map Prod.fst ∨
        [] ∉ (Cpp.fetchLines output).map Prod.fst := by
  rw [← isPreferred_isNamed_iff, ← goFetchLines_eq]
  simp only [← Cpp.selectRemote_collectRemotes_iff, ← Go.selectRemote_collectRemotes_iff]
  constructor
  · intro same name url
    rw [same]
  · intro same
    exact Option.ext fun remote => same remote.1 remote.2

/-! ## The worktree -/

/-- The C++ program takes a line for an entry if it is not empty and has no `#` in front. -/
theorem cppStatusLine_eq_entry_iff {line : Text} :
    Cpp.statusLine line = .entry ↔
      dropCarriageReturn line ≠ [] ∧ (dropCarriageReturn line).head? ≠ some 35 := by
  have header : ∀ fields, Cpp.headerLine fields ≠ .entry := by
    intro fields
    rcases Cpp.headerLine_cases fields with ⟨_, kind⟩ | kind | ⟨_, kind⟩ | kind <;>
      rw [kind] <;> exact StatusLine.noConfusion
  simp only [Cpp.statusLine]
  by_cases hash : (dropCarriageReturn line).head? = some 35
  · simp only [hash, ne_eq, not_true_eq_false, ↓reduceIte, header, and_false]
  by_cases blank : dropCarriageReturn line = []
  · simp only [blank, List.head?_nil, ne_eq, reduceCtorEq, not_false_eq_true, not_true_eq_false,
      ↓reduceIte, false_and]
  · simp only [hash, blank, ne_eq, not_false_eq_true, ↓reduceIte, and_self]

/-- So does the Go program. -/
theorem goStatusLine_eq_entry_iff {line : Text} :
    Go.statusLine line = .entry ↔
      dropCarriageReturn line ≠ [] ∧ (dropCarriageReturn line).head? ≠ some 35 := by
  have header : ∀ fields, Go.headerLine fields ≠ .entry := by
    intro fields
    rcases Go.headerLine_cases fields with ⟨_, kind⟩ | kind | ⟨_, kind⟩ | ⟨_, kind⟩ | kind <;>
      rw [kind] <;> exact StatusLine.noConfusion
  simp only [Go.statusLine, Go.trimCarriageReturn]
  by_cases hash : (dropCarriageReturn line).head? = some 35
  · have nonempty : dropCarriageReturn line ≠ [] := by
      intro blank
      rw [blank] at hash
      cases hash
    simp only [hash, nonempty, ne_eq, not_true_eq_false, ↓reduceIte, header, and_false]
  by_cases blank : dropCarriageReturn line = []
  · simp only [blank, ne_eq, not_true_eq_false, ↓reduceIte, reduceCtorEq, false_and]
  · simp only [hash, blank, ne_eq, not_false_eq_true, ↓reduceIte, and_self]

/-- Both programs see the same worktree entries. -/
theorem entry_mem_statusLines_iff {output : Text} :
    .entry ∈ Cpp.statusLines output ↔ .entry ∈ Go.statusLines output := by
  simp only [Cpp.statusLines, Go.statusLines, Go.splitLines, List.mem_map,
    cppStatusLine_eq_entry_iff, goStatusLine_eq_entry_iff]
  constructor
  · rintro ⟨line, inside, entry⟩
    exact ⟨line, mem_splitOn_of_mem_getlines inside, entry⟩
  · rintro ⟨line, inside, entry⟩
    refine ⟨line, mem_getlines_of_mem_splitOn inside ?_, entry⟩
    rintro rfl
    exact entry.1 rfl

/-! ## Plain headers -/

/-- No header line has white space outside ASCII. -/
def PlainHeaders (output : Text) : Prop :=
  ∀ line ∈ output.splitOn lineFeed, (dropCarriageReturn line).head? = some 35 →
    Go.NoWideSpace (dropCarriageReturn line)

instance (output : Text) : Decidable (PlainHeaders output) :=
  inferInstanceAs (Decidable (∀ line ∈ output.splitOn lineFeed, _))

/-- Headers in ASCII are plain. -/
theorem plainHeaders_of_ascii {output : Text}
    (ascii : output.all (fun byte => decide (byte < 0x80)) = true) : PlainHeaders output := by
  intro line listed _ back suffix _ byte first
  have inLine : byte ∈ line := by
    obtain ⟨blank, -, whole⟩ := dropCarriageReturn_append_eq line
    rw [whole]
    exact List.mem_append_left _
      (((List.mem_tails _ _).mp suffix).mem (List.mem_of_mem_head? first))
  have inOutput : byte ∈ (output.splitOn lineFeed).flatten :=
    List.mem_flatten.mpr ⟨line, listed, inLine⟩
  rw [List.splitOn, flatten_splitOnP] at inOutput
  exact of_decide_eq_true (List.all_eq_true.mp ascii byte (List.mem_filter.mp inOutput).1)

/-- The values of the headers of a count, in order. -/
def countValues (split : Text → List Text) (output : Text) : List Text :=
  (output.splitOn lineFeed).filterMap (headerValue split (ascii "branch.ab"))

/-- The Go program can read every value as a count, and the last one, unless the C++ program
can read it too, is the count that it has read before, or zero if there is none. -/
structure CountsAlike (values : List Text) : Prop where
  readable : ∀ value ∈ values, Go.aheadCount value ≠ none
  carried : ∀ (front : List Text) (value : Text), values = front ++ [value] →
    Cpp.aheadCount value = none →
    Go.aheadCount value = some ((lastMatch Cpp.aheadCount front).getD 0)

/-- A number that `std::from_chars` reads to its end is the one that `strconv.Atoi` reads. -/
theorem fromChars_eq_atoi {field : Text} {left right : Int}
    (read : Cpp.fromChars field = some (left, [])) (parsed : Go.atoi field = some right) :
    left = right := by
  -- only `strconv.Atoi` takes a plus sign
  have unsigned : field.head? ≠ some 43 := by
    intro plus
    obtain ⟨rest, rfl⟩ := List.head?_eq_some_iff.mp plus
    unfold Cpp.fromChars at read
    simp only [List.head?_cons] at read
    cases read
  have body : (if field.head? = some 45 ∨ field.head? = some 43 then field.tail else field) =
      if field.head? == some 45 then field.tail else field := by
    simp only [unsigned, or_false, beq_iff_eq]
  simp only [Cpp.fromChars] at read
  simp only [Go.atoi, body] at parsed
  generalize (field.head? == some 45) = negative at read parsed
  generalize (if negative = true then field.tail else field) = digits at read parsed
  have filled : digits.takeWhile isDigit = digits := by
    rw [List.takeWhile_eq_self_iff, ← List.dropWhile_eq_nil_iff]
    by_cases none : digits.takeWhile isDigit = []
    · rw [if_pos none] at read
      cases read
    · rw [if_neg none] at read
      cases negative <;> simp only [Bool.false_eq_true, ↓reduceIte, Option.ite_none_left_eq_some,
        Option.some.injEq, Prod.mk.injEq] at read <;> exact read.2.2
  rw [filled] at read
  cases negative <;> simp only [Bool.false_eq_true, ↓reduceIte, Option.ite_none_left_eq_some,
    Option.some.injEq, Prod.mk.injEq] at read parsed <;> rw [← read.2.2.1, ← parsed.2.2]

/-- A value that both programs can read is the same count to both. -/
theorem aheadCount_eq {value : Text} {left right : Int} (cpp : Cpp.aheadCount value = some left)
    (go : Go.aheadCount value = some right) : left = right := by
  unfold Cpp.aheadCount at cpp
  split at cpp
  · rename_i plus
    obtain ⟨field, rfl⟩ := List.head?_eq_some_iff.mp plus
    rw [List.tail_cons] at cpp
    split at cpp
    · rename_i ahead read
      cases cpp
      rw [Go.aheadCount, Go.trimPrefix, if_pos plus, List.tail_cons] at go
      split at go
      · cases go
      rename_i count parsed
      split at go
      · cases go
      cases go
      exact fromChars_eq_atoi read parsed
    · cases cpp
  · cases cpp

/-- Headers without white space outside ASCII have the same values for both programs. -/
theorem headerValue_of_plain {line : Text}
    (plain : (dropCarriageReturn line).head? = some 35 →
      Go.NoWideSpace (dropCarriageReturn line)) (key : Text) :
    headerValue Go.fields key line = headerValue Cpp.words key line := by
  unfold headerValue
  split
  · rename_i hash
    rw [Go.fields_of_noWideSpace (plain hash)]
  · rfl

/-- Values that the Go program can read leave the same count in both programs exactly when
they are alike. -/
theorem countsAlike_iff {values : List Text} : CountsAlike values ↔
    (∀ value ∈ values, Go.aheadCount value ≠ none) ∧
      (lastMatch Cpp.aheadCount values).getD 0 = (lastMatch Go.aheadCount values).getD 0 := by
  have last : ∀ (front : List Text) (value : Text), Go.aheadCount value ≠ none →
      ((lastMatch Cpp.aheadCount (front ++ [value])).getD 0 =
          (lastMatch Go.aheadCount (front ++ [value])).getD 0 ↔
        (Cpp.aheadCount value = none →
          Go.aheadCount value = some ((lastMatch Cpp.aheadCount front).getD 0))) := by
    intro front value readable
    obtain ⟨count, go⟩ := Option.ne_none_iff_exists'.mp readable
    rw [lastMatch_append, lastMatch_append, lastMatch_cons, lastMatch_cons, go]
    cases cpp : Cpp.aheadCount value with
    | none =>
        simp only [lastMatch_nil, Option.none_or, Option.some_or, Option.getD_some,
          Option.some.injEq, true_implies]
        exact eq_comm
    | some other =>
        simp only [lastMatch_nil, Option.none_or, Option.some_or, Option.getD_some, reduceCtorEq,
          false_implies, iff_true]
        exact aheadCount_eq cpp go
  constructor
  · rintro ⟨readable, carried⟩
    refine ⟨readable, ?_⟩
    rcases List.eq_nil_or_concat values with rfl | ⟨front, value, split⟩
    · rfl
    · rw [List.concat_eq_append] at split
      subst split
      exact (last front value (readable value List.mem_concat_self)).mpr (carried front value rfl)
  · rintro ⟨readable, same⟩
    refine ⟨readable, ?_⟩
    rintro front value rfl
    exact (last front value (readable value List.mem_concat_self)).mp same

/-- Counts that are written as a plus sign and a number of both programs' integers are alike. -/
theorem countsAlike_of_plus {values : List Text}
    (plus : ∀ value ∈ values, ∃ digits, value = 43 :: digits ∧ isNumber digits = true ∧
      digitsValue digits ≤ 2147483647) : CountsAlike values := by
  refine ⟨fun value inside => ?_, ?_⟩
  · obtain ⟨digits, rfl, number, fits⟩ := plus value inside
    rw [Go.aheadCount_of_isNumber number (fits.trans (by decide))]
    exact Option.some_ne_none _
  · rintro front value rfl missed
    obtain ⟨digits, rfl, number, fits⟩ := plus value List.mem_concat_self
    rw [Cpp.aheadCount_of_isNumber number fits] at missed
    cases missed

/-- **Plain headers lead to the same state and count exactly when the counts are alike.** -/
theorem sameHeaders_iff_of_plain {output : Text} (plain : PlainHeaders output) :
    ((Go.statusLines output).all StatusLine.readable = true ∧
      StatusLine.SameHeaders (Cpp.statusLines output) (Go.statusLines output)) ↔
    CountsAlike (countValues Cpp.words output) := by
  have value : ∀ key, ∀ line ∈ output.splitOn lineFeed,
      headerValue Go.fields key line = headerValue Cpp.words key line :=
    fun key line inside => headerValue_of_plain (plain line inside) key
  have values : countValues Go.fields output = countValues Cpp.words output :=
    List.filterMap_congr (value (ascii "branch.ab"))
  obtain ⟨cppState, cppCount⟩ := Cpp.statusLines_eq output
  have state : StatusLine.upstreamState (Cpp.statusLines output) =
      StatusLine.upstreamState (Go.statusLines output) := by
    rw [cppState, StatusLine.upstreamState_eq_iff]
    constructor
    · rw [Bool.eq_iff_iff, Cpp.readsHeaders.detached_iff, Go.statusLines,
        Go.readsHeaders.detached_iff, Go.splitLines, lastMatch, lastMatch,
        List.filterMap_congr (value (ascii "branch.head"))]
    · intro _
      rw [Cpp.readsHeaders.upstream_mem_iff, Go.statusLines, Go.readsHeaders.upstream_mem_iff]
      exact exists_congr fun line => and_congr_right fun inside => by
        rw [value (ascii "branch.upstream") line inside]
  have goCount : StatusLine.lastCount (Go.statusLines output) =
      (lastMatch Go.aheadCount (countValues Cpp.words output)).getD 0 := by
    rw [← values]
    exact Go.readsHeaders.lastCount_eq _
  rw [Cpp.readsHeaders.lastCount_eq] at cppCount
  have readable : (Go.statusLines output).all StatusLine.readable = true ↔
      ∀ value ∈ countValues Cpp.words output, Go.aheadCount value ≠ none := by
    rw [← values]
    exact Go.statusLines_readable_iff
  rw [countsAlike_iff]
  refine and_congr readable ⟨fun same => ?_, fun same => ?_⟩
  · exact cppCount.symm.trans (same.count.trans goCount)
  · obtain ⟨head, upstream⟩ := StatusLine.upstreamState_eq_iff.mp state
    exact ⟨head, upstream, cppCount.trans (same.trans goCount.symm)⟩

/-! ## Both commands together -/

/-- Statuses filled in from lists of lines, over the selected remotes, are the same
exactly when the remotes and the headers are. -/
theorem sameStatus_iff {path : Path} {leftRemote rightRemote : Option (Text × Text)}
    {left right : List StatusLine} (entries : .entry ∈ left ↔ .entry ∈ right) :
    SameStatus
      { RepositoryStatus.withRemote { path } leftRemote with
        dirty := decide (.entry ∈ left)
        ahead := StatusLine.lastCount left
        upstreamState := StatusLine.upstreamState left }
      { RepositoryStatus.withRemote { path } rightRemote with
        dirty := decide (.entry ∈ right)
        ahead := StatusLine.lastCount right
        upstreamState := StatusLine.upstreamState right } ↔
      leftRemote = rightRemote ∧ StatusLine.SameHeaders left right := by
  have bare : RepositoryStatus.hasRemote { path } = false := rfl
  constructor
  · intro same
    obtain ⟨head, upstream⟩ := StatusLine.upstreamState_eq_iff.mp same.upstreamState
    refine ⟨?_, ⟨head, upstream, same.ahead⟩⟩
    apply (RepositoryStatus.withRemote_fields_iff bare).mp
    exact ⟨same.hasRemote, same.remoteName, same.remoteUrl⟩
  · rintro ⟨rfl, ⟨head, upstream, count⟩⟩
    have state := StatusLine.upstreamState_eq_iff.mpr ⟨head, upstream⟩
    rw [state, count, decide_eq_decide.mpr entries]
    exact ⟨rfl, rfl, rfl, rfl, rfl, rfl, rfl, rfl⟩

/-- **When the programs compute the same status.** After two successful commands with
the same outputs, of which no header has white space outside ASCII, the statuses agree
exactly when `origin` has a fetch line or every fetch line has a name, and the counts are
alike. Whatever the headers, equal statuses take the first, and that the Go program can
read every count. -/
theorem check_parity_iff {cppRunner : Cpp.GitRunner} {timeout : Int} {path : Path}
    {readings : Cpp.Readings} {goRunner : Go.GitRunner} {remoteOutput statusOutput : Text}
    (quote : Text → Text)
    (cppRemote : Cpp.runBeforeDeadline cppRunner path Cpp.remoteArguments
      (readings.started + timeout * Cpp.nanosecondsPerMillisecond) timeout readings.remote =
        { output := remoteOutput, exitCode := 0 })
    (cppStatus : Cpp.runBeforeDeadline cppRunner path Cpp.statusArguments
      (readings.started + timeout * Cpp.nanosecondsPerMillisecond) timeout readings.status =
        { output := statusOutput, exitCode := 0 })
    (goRemote : goRunner path Go.remoteArguments = .ok remoteOutput)
    (goStatus : goRunner path Go.statusArguments = .ok statusOutput) :
    (PlainHeaders statusOutput →
      (SameStatus (Cpp.check cppRunner timeout path readings) (Go.check quote goRunner path) ↔
        (ascii "origin" ∈ (Cpp.fetchLines remoteOutput).map Prod.fst ∨
          [] ∉ (Cpp.fetchLines remoteOutput).map Prod.fst) ∧
        CountsAlike (countValues Cpp.words statusOutput))) ∧
    (SameStatus (Cpp.check cppRunner timeout path readings) (Go.check quote goRunner path) →
      (ascii "origin" ∈ (Cpp.fetchLines remoteOutput).map Prod.fst ∨
        [] ∉ (Cpp.fetchLines remoteOutput).map Prod.fst) ∧
      ∀ value ∈ countValues Go.fields statusOutput, Go.aheadCount value ≠ none) := by
  have parts : SameStatus (Cpp.check cppRunner timeout path readings)
        (Go.check quote goRunner path) ↔
      (ascii "origin" ∈ (Cpp.fetchLines remoteOutput).map Prod.fst ∨
        [] ∉ (Cpp.fetchLines remoteOutput).map Prod.fst) ∧
      (Go.statusLines statusOutput).all StatusLine.readable = true ∧
      StatusLine.SameHeaders (Cpp.statusLines statusOutput) (Go.statusLines statusOutput) := by
    rw [Cpp.check_eq_of_results cppRemote cppStatus, Cpp.readStatus_eq, Cpp.readRemotes_eq,
      Go.check, Go.checkRemote_of_result goRemote, ← selectRemote_parity_iff]
    by_cases readable : (Go.statusLines statusOutput).all StatusLine.readable = true
    · rw [Go.checkStatus_of_readable goStatus readable, sameStatus_iff entry_mem_statusLines_iff]
      simp only [readable, true_and]
    · obtain ⟨scan, error, checked⟩ := Go.checkStatus_of_unreadable quote
        (RepositoryStatus.withRemote { path } (Go.selectRemote (Go.collectRemotes remoteOutput)))
        goStatus readable
      rw [checked]
      constructor
      · intro same
        exact absurd same.upstreamState (StatusLine.upstreamState_ne_error _)
      · rintro ⟨_, every, _⟩
        exact absurd every readable
  refine ⟨fun plain => ?_, fun same => ?_⟩
  · rw [parts, sameHeaders_iff_of_plain plain]
  · obtain ⟨remotes, readable, -⟩ := parts.mp same
    exact ⟨remotes, Go.statusLines_readable_iff.mp readable⟩

/-- The listing of one remote. -/
def originListing : Text :=
  ascii "origin\thttps://host/repo.git (fetch)\norigin\thttps://host/repo.git (push)"

/-- The listing of a branch with one commit to push and a new file. -/
def oneAheadListing : Text :=
  ascii "# branch.head main\n# branch.upstream origin/main\n# branch.ab +1 -0\n? new"

/-- Both programs report the commit and the file. -/
theorem oneAhead_sameStatus :
    SameStatus
      (Cpp.check (Cpp.scriptedRunner originListing oneAheadListing) 15000 (ascii "repo")
        Cpp.stillReadings)
      (Go.check id (Go.scriptedRunner originListing oneAheadListing) (ascii "repo")) := by
  have cppRemote : Cpp.runBeforeDeadline (Cpp.scriptedRunner originListing oneAheadListing)
      (ascii "repo") Cpp.remoteArguments
      (Cpp.stillReadings.started + 15000 * Cpp.nanosecondsPerMillisecond) 15000
      Cpp.stillReadings.remote = { output := originListing, exitCode := 0 } := by decide
  have cppStatus : Cpp.runBeforeDeadline (Cpp.scriptedRunner originListing oneAheadListing)
      (ascii "repo") Cpp.statusArguments
      (Cpp.stillReadings.started + 15000 * Cpp.nanosecondsPerMillisecond) 15000
      Cpp.stillReadings.status = { output := oneAheadListing, exitCode := 0 } := by decide
  have goRemote : Go.scriptedRunner originListing oneAheadListing (ascii "repo")
      Go.remoteArguments = .ok originListing := by decide
  have goStatus : Go.scriptedRunner originListing oneAheadListing (ascii "repo")
      Go.statusArguments = .ok oneAheadListing := by decide
  refine ((check_parity_iff id cppRemote cppStatus goRemote goStatus).1
    (plainHeaders_of_ascii (by decide))).mpr ⟨by decide, countsAlike_of_plus ?_⟩
  have values : countValues Cpp.words oneAheadListing = [ascii "+1"] := by decide
  rw [values, List.forall_mem_singleton]
  exact ⟨ascii "1", rfl, by decide, by decide⟩

/-- The listing of a branch whose name starts with `(detached)` and a no-break space. -/
def noBreakSpaceListing : Text :=
  ascii "# branch.oid abcdef\n# branch.head (detached)" ++ [0xC2, 0xA0] ++ ascii "x"

/-- The Go program takes the no-break space for the end of the name and the head
for detached. -/
theorem noBreakSpace_not_sameStatus :
    ¬ SameStatus
      (Cpp.check (Cpp.scriptedRunner [] noBreakSpaceListing) 15000 (ascii "repo")
        Cpp.stillReadings)
      (Go.check id (Go.scriptedRunner [] noBreakSpaceListing) (ascii "repo")) := by
  intro same
  exact absurd same.upstreamState (by decide)

end CheckGitStatus
