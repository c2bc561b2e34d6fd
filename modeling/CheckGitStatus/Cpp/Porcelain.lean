import CheckGitStatus.Cpp.GitClient
import CheckGitStatus.Porcelain

/-! # What the loops of the C++ program read

Each loop of `GitClient::check` is related to the lines it runs over: the loop
over `git status` reads every line as one `StatusLine`
(`CheckGitStatus.Cpp.scanStatus_eq`), and the remote that is selected from the
listing is the preferred one among its fetch lines
(`CheckGitStatus.Cpp.selectRemote_collectRemotes_iff`).
-/

namespace CheckGitStatus.Cpp

open Library

/-! ## The status lines -/

/-- What the program takes the fields of a header for. -/
def headerLine (fields : List Text) : StatusLine :=
  match fields with
  | _ :: key :: value :: _ =>
      if key = ascii "branch.head" then .head (value == ascii "(detached)")
      else if key = ascii "branch.upstream" then .upstream
      else if key = ascii "branch.ab" then (aheadCount value).elim .other .ahead
      else .other
  | _ => .other

/-- What the program takes a line of the status output for. -/
def statusLine (line : Text) : StatusLine :=
  let line := dropCarriageReturn line
  if line.head? ≠ some 35 then
    if line ≠ [] then .entry else .blank
  else headerLine (words line)

/-- What the program makes of the lines of a status output. -/
def statusLines (output : Text) : List StatusLine :=
  (getlines output).map statusLine

/-- What a header can be taken for. -/
theorem headerLine_cases (fields : List Text) :
    (∃ detached, headerLine fields = .head detached) ∨ headerLine fields = .upstream ∨
      (∃ count, headerLine fields = .ahead count) ∨ headerLine fields = .other := by
  unfold headerLine
  split
  · rename_i value _
    split_ifs
    · exact .inl ⟨_, rfl⟩
    · exact .inr (.inl rfl)
    · cases Cpp.aheadCount value with
      | none => exact .inr (.inr (.inr rfl))
      | some count => exact .inr (.inr (.inl ⟨count, rfl⟩))
    · exact .inr (.inr (.inr rfl))
  · exact .inr (.inr (.inr rfl))

/-- The program tells the kinds of headers by their keys. -/
theorem readsFields : ReadsFields aheadCount headerLine := by
  refine .of_keys (fun fields short => ?_) (fun _ _ _ => rfl) (fun _ _ _ => rfl)
    (fun hash value rest => ⟨.other, rfl, rfl, nofun, rfl⟩)
    fun hash key value rest noHead noUpstream noAhead => ?_
  · match fields with
    | [] | [_] | [_, _] => rfl
  · simp only [headerLine, noHead, noUpstream, noAhead, ↓reduceIte]

/-- The C++ program reads headers by their fields. -/
theorem readsHeaders : ReadsHeaders words aheadCount statusLine := by
  refine readsFields.readsHeaders (fun line hash => ?_) (fun line plain => ?_)
  · simp only [statusLine, hash, ne_eq, not_true_eq_false, ↓reduceIte]
  · simp only [statusLine, if_pos plain]
    by_cases blank : dropCarriageReturn line ≠ []
    · exact .inr (if_pos blank)
    · exact .inl (if_neg blank)

/-- A header line changes the variables as its kind says. -/
theorem readHeader_eq (fields : List Text) (scan : StatusScan) :
    readHeader fields scan = scan.read (headerLine fields) := by
  match fields with
  | [] | [_] | [_, _] => rfl
  | _ :: key :: value :: _ =>
      unfold readHeader headerLine
      by_cases head : key = ascii "branch.head"
      · simp only [if_pos head, StatusScan.read]
      by_cases upstream : key = ascii "branch.upstream"
      · simp only [if_neg head, if_pos upstream, StatusScan.read]
      by_cases count : key = ascii "branch.ab"
      · simp only [if_neg head, if_neg upstream, if_pos count]
        cases aheadCount value <;> rfl
      · simp only [if_neg head, if_neg upstream, if_neg count, StatusScan.read]

/-- One turn of the loop has the effect of the line it reads. -/
theorem readStatusLine_eq (scan : StatusScan) (line : Text) :
    readStatusLine scan line = scan.read (statusLine line) := by
  simp only [readStatusLine, statusLine]
  split
  · split <;> rfl
  · exact readHeader_eq _ scan

/-- The loop ends with what the lines say. -/
theorem scanStatus_eq (output : Text) :
    scanStatus output = StatusScan.ofLines (statusLines output) := by
  rw [← StatusScan.foldl_read_eq_ofLines, scanStatus, statusLines, List.foldl_map]
  congr 1
  funext scan line
  exact readStatusLine_eq scan line

/-- The status that is read off the lines. -/
theorem readStatus_eq (output : Text) (status : RepositoryStatus) :
    readStatus output status =
      { status with
        dirty := decide (.entry ∈ statusLines output)
        ahead := StatusLine.lastCount (statusLines output)
        upstreamState := StatusLine.upstreamState (statusLines output) } := by
  simp only [readStatus, scanStatus_eq, StatusScan.ofLines, StatusLine.upstreamState,
    decide_eq_true_eq]

/-- Two outputs read over the same remotes give one status exactly when their lines
say the same. -/
theorem readStatus_eq_iff {left right : Text} {status : RepositoryStatus} :
    readStatus left status = readStatus right status ↔
      StatusLine.SameReading (statusLines left) (statusLines right) := by
  simp only [readStatus_eq, RepositoryStatus.mk.injEq, true_and, and_true, decide_eq_decide,
    StatusLine.upstreamState_eq_iff]
  constructor
  · rintro ⟨entry, ⟨head, upstream⟩, count⟩
    exact ⟨⟨head, upstream, count⟩, entry⟩
  · rintro ⟨⟨head, upstream, count⟩, entry⟩
    exact ⟨entry, ⟨head, upstream⟩, count⟩

/-! ## The fetch lines -/

/-- A listing of remotes fills in the remote that is selected from it. -/
theorem readRemotes_eq (output : Text) (status : RepositoryStatus) :
    readRemotes output status = status.withRemote (selectRemote (collectRemotes output)) := by
  unfold readRemotes
  cases selectRemote (collectRemotes output) <;> rfl

/-- The name and URL pairs in the fetch lines of a listing. -/
def fetchLines (output : Text) : List (Text × Text) :=
  (getlines output).filterMap fetchLine

/-- A line with the other marker is passed over. -/
theorem fetchLine_push (front : Text) : fetchLine (front ++ ascii " (push)") = none := by
  have ending : front ++ ascii " (push)" = (front ++ ascii " (push") ++ [41] := by
    rw [List.append_assoc]
    rfl
  have other : ¬ (ascii " (fet" ++ 99 :: ascii "h)") <:+
      ((front ++ ascii " (pu") ++ 115 :: ascii "h)") :=
    not_suffix_of_ne (by decide) (ascii "h)")
  have marked : (front ++ ascii " (push") ++ [41] =
      (front ++ ascii " (pu") ++ 115 :: ascii "h)" := by
    simp only [List.append_assoc]
    rfl
  have missed : stripSuffix (ascii " (fetch)") ((front ++ ascii " (pu") ++ 115 :: ascii "h)") =
      none := stripSuffix_eq_none other
  rw [ending, fetchLine, dropCarriageReturn_concat (by decide), marked, missed]

/-- A line with the marker is split at its first blanks. -/
theorem fetchLine_fetch {name : Text} (clean : ∀ byte ∈ name, isBlank byte = false) (url : Text) :
    fetchLine (name ++ 9 :: (url ++ ascii " (fetch)")) =
      if url.dropWhile isBlank = [] then none else some (name, url.dropWhile isBlank) := by
  have ending : name ++ 9 :: (url ++ ascii " (fetch)") =
      (name ++ 9 :: (url ++ ascii " (fetch")) ++ [41] := by
    simp only [List.append_assoc, List.cons_append]
    rfl
  have marked : (name ++ 9 :: (url ++ ascii " (fetch")) ++ [41] =
      (name ++ 9 :: url) ++ ascii " (fetch)" := by
    simp only [List.append_assoc, List.cons_append]
    rfl
  have tab : (9 :: url).dropWhile isBlank = url.dropWhile isBlank := rfl
  rw [ending, fetchLine, dropCarriageReturn_concat (by decide), marked, stripSuffix_append]
  simp only [takeWhile_name clean, dropWhile_name clean, tab, reduceCtorEq, ↓reduceIte]

/-- The loop keeps the first fetch line of every name. -/
theorem collectRemotes_eq (output : Text) :
    collectRemotes output = firstEntries (fetchLines output) := by
  rw [collectRemotes, firstEntries, fetchLines, List.foldl_filterMap]
  congr 1
  funext remotes line
  cases fetchLine line <;> rfl

/-- The order of the map, as the order of names and then of URLs. -/
theorem not_pairBefore_iff {left right : Text × Text} :
    pairBefore right left = false ↔
      left.1 ≤ right.1 ∧ (right.1 = left.1 → left.2 ≤ right.2) := by
  simp only [pairBefore, Bool.or_eq_false_iff, decide_eq_false_iff_not, Std.not_lt,
    Bool.and_eq_false_imp, beq_iff_eq]

theorem pairBefore_total : Std.Total fun left right => pairBefore right left = false := by
  refine ⟨fun left right => ?_⟩
  simp only [not_pairBefore_iff]
  by_cases same : left.1 = right.1
  · rcases Std.le_total (a := left.2) (b := right.2) with le | le
    · exact .inl ⟨Std.le_of_eq same, fun _ => le⟩
    · exact .inr ⟨Std.le_of_eq same.symm, fun _ => le⟩
  · rcases Std.le_total (a := left.1) (b := right.1) with le | le
    · exact .inl ⟨le, fun equal => absurd equal.symm same⟩
    · exact .inr ⟨le, fun equal => absurd equal same⟩

theorem pairBefore_trans :
    IsTrans (Text × Text) fun left right => pairBefore right left = false := by
  refine ⟨fun first second third => ?_⟩
  simp only [not_pairBefore_iff]
  rintro ⟨name, url⟩ ⟨nextName, nextUrl⟩
  refine ⟨Std.le_trans name nextName, fun same => ?_⟩
  have middle : second.1 = first.1 := Std.le_antisymm (same ▸ nextName) name
  exact Std.le_trans (url middle) (nextUrl (same.trans middle.symm))

/-- Sorting the pairs puts the smallest name first. -/
theorem head_sorted_le {remotes : List (Text × Text)} {first : Text × Text}
    (head : (remotes.insertionSort fun left right => pairBefore right left = false).head? =
      some first) : first ∈ remotes ∧ ∀ other ∈ remotes.map Prod.fst, first.1 ≤ other := by
  have perm := List.perm_insertionSort (fun left right => pairBefore right left = false) remotes
  have total := pairBefore_total
  have trans := pairBefore_trans
  have ordered := List.pairwise_insertionSort
    (fun left right => pairBefore right left = false) remotes
  cases sorted : remotes.insertionSort fun left right => pairBefore right left = false with
  | nil =>
      rw [sorted] at head
      cases head
  | cons least rest =>
      rw [sorted] at head perm ordered
      cases head
      refine ⟨perm.mem_iff.mp List.mem_cons_self, ?_⟩
      rintro other inside
      obtain ⟨remote, listed, rfl⟩ := List.mem_map.mp inside
      rcases List.mem_cons.mp (perm.mem_iff.mpr listed) with rfl | later
      · exact Std.le_refl _
      · exact (not_pairBefore_iff.mp (List.rel_of_pairwise_cons ordered later)).1

/-- Sorting and then looking for `origin` selects the preferred remote. -/
theorem selectRemote_eq_some_iff {remotes : List (Text × Text)}
    (distinct : (remotes.map Prod.fst).Nodup) {name url : Text} :
    selectRemote remotes = some (name, url) ↔ IsPreferred remotes name url := by
  have sound : ∀ {name url : Text}, selectRemote remotes = some (name, url) →
      IsPreferred remotes name url := by
    intro name url selected
    have perm := List.perm_insertionSort (fun left right => pairBefore right left = false) remotes
    simp only [selectRemote] at selected
    split at selected
    · rename_i origin found
      cases selected
      have named : name = ascii "origin" := by simpa using List.find?_some found
      have inside := perm.mem_iff.mp (List.mem_of_find?_eq_some found)
      exact ⟨find?_eq_some_of_mem distinct inside, .inl named⟩
    · rename_i absent
      obtain ⟨inside, least⟩ := head_sorted_le selected
      refine ⟨find?_eq_some_of_mem distinct inside, .inr ⟨?_, least⟩⟩
      intro listed
      obtain ⟨remote, member, named⟩ := List.mem_map.mp listed
      have other := List.find?_eq_none.mp absent remote (perm.mem_iff.mpr member)
      exact other (beq_iff_eq.mpr named)
  refine ⟨sound, fun preferred => ?_⟩
  have inside := List.mem_of_find?_eq_some preferred.first
  cases selected : selectRemote remotes with
  | none =>
      have perm := List.perm_insertionSort (fun left right => pairBefore right left = false) remotes
      simp only [selectRemote] at selected
      split at selected
      · cases selected
      · rw [List.head?_eq_none_iff] at selected
        rw [selected] at perm
        exact absurd (perm.mem_iff.mpr inside) List.not_mem_nil
  | some other => exact congrArg some ((sound selected).unique preferred)

/-- The remote that the program selects from a listing is the preferred one among
its fetch lines. -/
theorem selectRemote_collectRemotes_iff {output name url : Text} :
    selectRemote (collectRemotes output) = some (name, url) ↔
      IsPreferred (fetchLines output) name url := by
  rw [collectRemotes_eq, selectRemote_eq_some_iff (firstEntries_nodup _),
    isPreferred_firstEntries_iff]

/-- No remote is selected exactly when there is no fetch line. -/
theorem selectRemote_collectRemotes_eq_none_iff {output : Text} :
    selectRemote (collectRemotes output) = none ↔ fetchLines output = [] := by
  rw [collectRemotes_eq, ← @firstEntries_eq_nil_iff _ _ _ _ (fetchLines output)]
  have perm := List.perm_insertionSort (fun left right => pairBefore right left = false)
    (firstEntries (fetchLines output))
  constructor
  · intro selected
    simp only [selectRemote] at selected
    split at selected
    · cases selected
    · rw [List.head?_eq_none_iff] at selected
      rw [selected] at perm
      exact perm.nil_eq.symm
  · intro empty
    simp only [empty, selectRemote, List.insertionSort_nil, List.find?_nil, List.head?_nil]

/-- After a successful first command the status has a remote exactly when its output
has a fetch line. -/
theorem check_hasRemote_iff {runner : GitRunner} {timeout : Int} {path : Path}
    {readings : Readings} {output : Text}
    (result : runBeforeDeadline runner path remoteArguments
      (readings.started + timeout * nanosecondsPerMillisecond) timeout readings.remote =
        { output, exitCode := 0 }) :
    (check runner timeout path readings).hasRemote = true ↔ fetchLines output ≠ [] := by
  have read : remoteStatus { output, exitCode := 0 } path = readRemotes output { path } := rfl
  have bare : RepositoryStatus.hasRemote { path } = false := rfl
  rw [check_eq, result, (worktreeStatus_remote _ _).1, read, readRemotes_eq,
    RepositoryStatus.withRemote_hasRemote bare, Option.isSome_iff_ne_none, ne_eq,
    selectRemote_collectRemotes_eq_none_iff]

end CheckGitStatus.Cpp
