import CheckGitStatus.Go.GitClient
import CheckGitStatus.Porcelain

/-! # What the loops of the Go program read

The Go loops are related to their lines as the C++ loops are. The loop over
`git status` stops at a count that it cannot read
(`CheckGitStatus.Go.readStatusLines_eq`), which the C++ loop never does.
-/

namespace CheckGitStatus.Go

open Library

/-! ## The status lines -/

/-- What the program takes the fields of a header for. -/
def headerLine (fields : List Text) : StatusLine :=
  match fields with
  | _ :: key :: value :: _ =>
      if key = ascii "branch.head" then .head (value == ascii "(detached)")
      else if key = ascii "branch.upstream" then .upstream
      else if key = ascii "branch.ab" then (aheadCount value).elim (.unreadable value) .ahead
      else .other
  | _ => .other

/-- What the program takes a line of the status output for. -/
def statusLine (line : Text) : StatusLine :=
  let line := trimCarriageReturn line
  if line = [] then .blank
  else if line.head? ≠ some 35 then .entry
  else headerLine (fields line)

/-- What the program makes of the lines of a status output. -/
def statusLines (output : Text) : List StatusLine :=
  (splitLines output).map statusLine

/-- What a header can be taken for. -/
theorem headerLine_cases (fields : List Text) :
    (∃ detached, headerLine fields = .head detached) ∨ headerLine fields = .upstream ∨
      (∃ count, headerLine fields = .ahead count) ∨
      (∃ field, headerLine fields = .unreadable field) ∨ headerLine fields = .other := by
  unfold headerLine
  split
  · rename_i value _
    split_ifs
    · exact .inl ⟨_, rfl⟩
    · exact .inr (.inl rfl)
    · cases aheadCount value with
      | none => exact .inr (.inr (.inr (.inl ⟨value, rfl⟩)))
      | some count => exact .inr (.inr (.inl ⟨count, rfl⟩))
    · exact .inr (.inr (.inr (.inr rfl)))
  · exact .inr (.inr (.inr (.inr rfl)))

/-- The program tells the kinds of headers by their keys. -/
theorem readsFields : ReadsFields aheadCount headerLine := by
  refine .of_keys (fun fields short => ?_) (fun _ _ _ => rfl) (fun _ _ _ => rfl)
    (fun hash value rest => ⟨.unreadable value, rfl, rfl, nofun, rfl⟩)
    fun hash key value rest noHead noUpstream noAhead => ?_
  · match fields with
    | [] | [_] | [_, _] => rfl
  · simp only [headerLine, noHead, noUpstream, noAhead, ↓reduceIte]

/-- A line that starts with `#` is what its fields say. -/
theorem statusLine_of_hash {line : Text} (hash : (dropCarriageReturn line).head? = some 35) :
    statusLine line = headerLine (fields (dropCarriageReturn line)) := by
  have nonempty : dropCarriageReturn line ≠ [] := by
    intro empty
    rw [empty] at hash
    cases hash
  simp only [statusLine, trimCarriageReturn, nonempty, hash, ne_eq, not_true_eq_false, ↓reduceIte]

/-- Any other line is blank or an entry. -/
theorem statusLine_of_plain {line : Text} (plain : (dropCarriageReturn line).head? ≠ some 35) :
    statusLine line = .blank ∨ statusLine line = .entry := by
  simp only [statusLine, trimCarriageReturn]
  by_cases blank : dropCarriageReturn line = []
  · exact .inl (if_pos blank)
  · exact .inr ((if_neg blank).trans (if_pos plain))

/-- The Go program reads headers by their fields. -/
theorem readsHeaders : ReadsHeaders fields aheadCount statusLine :=
  readsFields.readsHeaders (fun _ => statusLine_of_hash) fun _ => statusLine_of_plain

/-- A line ends the loop exactly when it is a header whose count cannot be read. -/
theorem statusLine_readable_iff {line : Text} : (statusLine line).readable = true ↔
    ∀ value ∈ headerValue fields (ascii "branch.ab") line, aheadCount value ≠ none := by
  unfold headerValue
  split
  · rename_i hash
    rw [statusLine_of_hash hash]
    generalize fields (dropCarriageReturn line) = found
    match found with
    | [] | [_] | [_, _] => exact iff_of_true rfl nofun
    | _ :: key :: value :: _ =>
        unfold headerLine headerField
        by_cases head : key = ascii "branch.head"
        · subst head
          exact iff_of_true rfl nofun
        by_cases upstream : key = ascii "branch.upstream"
        · subst upstream
          exact iff_of_true rfl nofun
        by_cases count : key = ascii "branch.ab"
        · subst count
          simp only [↓reduceIte, Option.mem_def, Option.some.injEq, forall_eq']
          cases aheadCount value with
          | none => exact iff_of_false nofun fun readable => readable rfl
          | some ahead => exact iff_of_true rfl nofun
        · simp only [head, upstream, count, ↓reduceIte]
          exact iff_of_true rfl nofun
  · rename_i plain
    rcases statusLine_of_plain plain with kind | kind <;> rw [kind] <;> exact iff_of_true rfl nofun

/-- Every count can be read exactly when the value of every header of a count can. -/
theorem statusLines_readable_iff {output : Text} :
    (statusLines output).all StatusLine.readable = true ↔
      ∀ value ∈ (splitLines output).filterMap (headerValue fields (ascii "branch.ab")),
        aheadCount value ≠ none := by
  simp only [statusLines, List.all_map, List.all_eq_true, Function.comp_apply,
    statusLine_readable_iff, List.mem_filterMap, forall_exists_index, and_imp]
  exact ⟨fun every value line inside => every line inside value,
    fun every line inside value => every value line inside⟩

/-- One turn of the loop has the effect of the line it reads. -/
theorem readStatusLine_eq (scan : StatusScan) (line : Text) :
    readStatusLine scan line =
      match statusLine line with
      | .unreadable field => .error (scan, field)
      | read => .ok (scan.read read) := by
  have header : ∀ fields : List Text, readHeader fields scan =
      match headerLine fields with
      | .unreadable field => .error (scan, field)
      | read => .ok (scan.read read) := by
    intro fields
    match fields with
    | [] | [_] | [_, _] => rfl
    | _ :: key :: value :: _ =>
        unfold readHeader headerLine
        by_cases head : key = ascii "branch.head"
        · simp only [if_pos head, StatusScan.read]
        by_cases upstream : key = ascii "branch.upstream"
        · simp only [if_neg head, if_pos upstream, StatusScan.read]
        by_cases count : key = ascii "branch.ab"
        · simp only [if_neg head, if_neg upstream, if_pos count]
          cases aheadCount value <;> rfl
        · simp only [if_neg head, if_neg upstream, if_neg count, StatusScan.read]
  unfold readStatusLine statusLine
  by_cases blank : trimCarriageReturn line = []
  · simp only [if_pos blank, StatusScan.read]
  by_cases entry : (trimCarriageReturn line).head? ≠ some 35
  · simp only [if_neg blank, if_pos entry, StatusScan.read]
  · simp only [if_neg blank, if_neg entry]
    exact header _

/-- The loop ends with what the lines say if every count can be read, and with an
error otherwise. -/
theorem readStatusLines_eq (lines : List Text) (scan : StatusScan) :
    if (lines.map statusLine).all StatusLine.readable then
      readStatusLines lines scan = .ok ((lines.map statusLine).foldl StatusScan.read scan)
    else ∃ stopped, readStatusLines lines scan = .error stopped := by
  induction lines generalizing scan with
  | nil => simp only [List.map_nil, List.all_nil, ↓reduceIte, readStatusLines, List.foldl_nil]
  | cons line rest ih =>
      simp only [List.map_cons, List.all_cons, List.foldl_cons, readStatusLines,
        readStatusLine_eq]
      cases kind : statusLine line with
      | unreadable field =>
          simp only [StatusLine.readable, Bool.false_and, Bool.false_eq_true, ↓reduceIte]
          exact ⟨(scan, field), rfl⟩
      | blank | entry | head | upstream | ahead | other =>
          simp only [StatusLine.readable, Bool.true_and]
          exact ih _

/-- When every count can be read, the status is what the lines say. -/
theorem checkStatus_of_readable {quote : Text → Text} {runner : GitRunner} {path : Path}
    {status : RepositoryStatus} {output : Text}
    (result : runner path statusArguments = .ok output)
    (readable : (statusLines output).all StatusLine.readable = true) :
    checkStatus quote runner path status =
      { status with
        dirty := decide (.entry ∈ statusLines output)
        ahead := StatusLine.lastCount (statusLines output)
        upstreamState := StatusLine.upstreamState (statusLines output) } := by
  have loop := readStatusLines_eq (splitLines output) {}
  rw [← statusLines, if_pos readable, StatusScan.foldl_read_eq_ofLines] at loop
  simp only [checkStatus, result, loop, StatusScan.ofLines, StatusLine.upstreamState,
    decide_eq_true_eq]

/-- A count that cannot be read is reported as an upstream error. -/
theorem checkStatus_of_unreadable (quote : Text → Text) {runner : GitRunner} {path : Path}
    (status : RepositoryStatus) {output : Text}
    (result : runner path statusArguments = .ok output)
    (unreadable : ¬ (statusLines output).all StatusLine.readable = true) :
    ∃ (scan : StatusScan) (error : Text), checkStatus quote runner path status =
      { status with
        dirty := scan.dirty
        ahead := scan.ahead
        upstreamState := .error
        upstreamError := some error } := by
  have loop := readStatusLines_eq (splitLines output) {}
  rw [← statusLines, if_neg unreadable] at loop
  obtain ⟨⟨scan, field⟩, stopped⟩ := loop
  refine ⟨scan, ascii "parse ahead count " ++ quote field, ?_⟩
  simp only [checkStatus, result, stopped]

/-- The remote check fills in nothing else. -/
theorem checkRemote_upstreamError (runner : GitRunner) (path : Path)
    (status : RepositoryStatus) :
    (checkRemote runner path status).upstreamError = status.upstreamError := by
  unfold checkRemote
  split
  · rfl
  · split <;> rfl

/-! ## The fetch lines -/

/-- A listing of remotes fills in the remote that is selected from it. -/
theorem checkRemote_of_result {runner : GitRunner} {path : Path} {output : Text}
    (result : runner path remoteArguments = .ok output) (status : RepositoryStatus) :
    checkRemote runner path status =
      status.withRemote (selectRemote (collectRemotes output)) := by
  simp only [checkRemote, result]
  cases selectRemote (collectRemotes output) <;> rfl

/-- The name and URL pairs in the fetch lines of a listing. -/
def fetchLines (output : Text) : List (Text × Text) :=
  (splitLines output).filterMap fetchLine

/-- The loop keeps the first fetch line of every name. -/
theorem collectRemotes_eq (output : Text) :
    collectRemotes output = firstEntries (fetchLines output) := by
  rw [collectRemotes, firstEntries, fetchLines, List.foldl_filterMap]
  congr 1
  funext remoteURLs line
  cases fetchLine line <;> rfl

/-- Sorting the names and then looking for `origin` selects the preferred remote. -/
theorem selectRemote_isPreferred {remoteURLs : List (Text × Text)} {name url : Text}
    (selected : selectRemote remoteURLs = some (name, url)) : IsPreferred remoteURLs name url := by
  have perm := sortByKey_perm id (remoteURLs.map Prod.fst)
  have ordered := sortByKey_pairwise id (remoteURLs.map Prod.fst)
  simp only [selectRemote] at selected
  split at selected
  · cases selected
  · rename_i least rest sorted
    rw [sorted] at perm ordered
    have found := List.find?_some selected
    by_cases origin : (remoteURLs.any fun remote => remote.1 == ascii "origin") = true
    · simp only [origin, ↓reduceIte] at selected found
      have named : name = ascii "origin" := by simpa using found
      exact ⟨named ▸ selected, .inl named⟩
    · simp only [origin, Bool.false_eq_true, ↓reduceIte] at selected found
      have named : name = least := by simpa using found
      refine ⟨named ▸ selected, .inr ⟨mt any_key_iff.mpr origin, ?_⟩⟩
      intro other inside
      rcases List.mem_cons.mp (perm.mem_iff.mpr inside) with rfl | later
      · exact Std.le_of_eq named
      · exact named ▸ List.rel_of_pairwise_cons ordered later

/-- Something is selected from a listing that is not empty. -/
theorem selectRemote_eq_none_iff {remoteURLs : List (Text × Text)} :
    selectRemote remoteURLs = none ↔ remoteURLs = [] := by
  have perm := sortByKey_perm id (remoteURLs.map Prod.fst)
  constructor
  · intro selected
    simp only [selectRemote] at selected
    split at selected
    · rename_i sorted
      rw [sorted] at perm
      exact List.map_eq_nil_iff.mp perm.nil_eq.symm
    · rename_i least rest sorted
      rw [sorted] at perm
      exfalso
      have absent := List.find?_eq_none.mp selected
      by_cases origin : (remoteURLs.any fun remote => remote.1 == ascii "origin") = true
      · obtain ⟨remote, inside, named⟩ := List.any_eq_true.mp origin
        simp only [origin, ↓reduceIte] at absent
        exact absent remote inside named
      · obtain ⟨remote, inside, named⟩ := List.mem_map.mp (perm.mem_iff.mp List.mem_cons_self)
        simp only [origin, Bool.false_eq_true, ↓reduceIte] at absent
        exact absent remote inside (beq_iff_eq.mpr named)
  · rintro rfl
    rfl

/-- The remote that the program selects from a listing is the preferred one among
its fetch lines. -/
theorem selectRemote_collectRemotes_iff {output name url : Text} :
    selectRemote (collectRemotes output) = some (name, url) ↔
      IsPreferred (fetchLines output) name url := by
  rw [← isPreferred_firstEntries_iff, ← collectRemotes_eq]
  refine ⟨selectRemote_isPreferred, fun preferred => ?_⟩
  cases selected : selectRemote (collectRemotes output) with
  | none =>
      have inside := List.mem_of_find?_eq_some preferred.first
      rw [selectRemote_eq_none_iff.mp selected] at inside
      exact absurd inside List.not_mem_nil
  | some remote => exact congrArg some ((selectRemote_isPreferred selected).unique preferred)

/-- After a successful first command the status has a remote exactly when its output
has a fetch line. -/
theorem check_hasRemote_iff {runner : GitRunner} {path : Path} {output : Text}
    (quote : Text → Text) (result : runner path remoteArguments = .ok output) :
    (check quote runner path).hasRemote = true ↔ fetchLines output ≠ [] := by
  have kept : (check quote runner path).hasRemote =
      (checkRemote runner path { path }).hasRemote := by
    unfold check checkStatus
    split
    · rfl
    · split <;> rfl
  have bare : RepositoryStatus.hasRemote { path } = false := rfl
  rw [kept, checkRemote_of_result result, RepositoryStatus.withRemote_hasRemote bare,
    Option.isSome_iff_ne_none, ne_eq, selectRemote_eq_none_iff, collectRemotes_eq,
    firstEntries_eq_nil_iff]

end CheckGitStatus.Go
