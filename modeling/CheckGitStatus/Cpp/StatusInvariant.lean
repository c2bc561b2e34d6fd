import CheckGitStatus.Cpp.Porcelain
import CheckGitStatus.Text.Decimal

/-! # What holds of every status that a check returns

The two loops of `GitClient::check` fill in the fields of a status from arbitrary output.
A line that starts with a blank gives a remote without a name, and after the plus sign of
a count `std::from_chars` takes a minus sign. These are the only ways to break the
invariant of a status (`CheckGitStatus.Cpp.check_statusInvariant_iff`).
-/

namespace CheckGitStatus.Cpp

open Library

/-- The status of a repository is consistent in itself. -/
structure StatusInvariant (path : Path) (status : RepositoryStatus) : Prop where
  path_eq : status.path = path
  remote_failed : status.remoteError.isSome = true → status.hasRemote = false
  named : status.hasRemote = true ↔ status.remoteName ≠ []
  located : status.hasRemote = true ↔ status.remoteUrl ≠ []
  ahead_nonneg : 0 ≤ status.ahead
  upstream_failed : status.upstreamState = .error ↔ status.upstreamError.isSome = true
  worktree_failed : status.upstreamError.isSome = true ↔ status.worktreeError.isSome = true
  failed_clean : status.worktreeError.isSome = true → status.dirty = false ∧ status.ahead = 0

/-- The count in a header is written with a minus sign after the plus sign. -/
def IsNegativeCount (field : Text) : Prop :=
  ∃ digits, field = 43 :: 45 :: digits ∧ isNumber digits = true ∧ 0 < digitsValue digits ∧
    digitsValue digits ≤ 2147483648

/-- The field of a `branch.ab` header that holds the count. -/
def countField (line : Text) : Option Text :=
  let line := dropCarriageReturn line
  match words line with
  | _ :: key :: value :: _ =>
      if line.head? = some 35 ∧ key = ascii "branch.ab" then some value else none
  | _ => none

/-- The last count of an output that can be read is negative. -/
def EndsNegative (output : Text) : Prop :=
  ∃ front line back field, getlines output = front ++ line :: back ∧
    countField line = some field ∧ IsNegativeCount field ∧
    ∀ later ∈ back, ∀ field ∈ countField later, aheadCount field = none

/-- A listing in which a fetch line starts with a blank, and none is one of `origin`. -/
structure ListsNameless (output : Text) : Prop where
  nameless : [] ∈ (fetchLines output).map Prod.fst
  no_origin : ascii "origin" ∉ (fetchLines output).map Prod.fst

/-! ## The remote -/

theorem fetchLine_url_ne_nil {line name url : Text} (found : fetchLine line = some (name, url)) :
    url ≠ [] := by
  unfold fetchLine at found
  split at found
  · cases found
  · dsimp only at found
    split_ifs at found with _ empty
    cases found
    exact empty

/-- The preferred remote has a URL, and it has no name exactly in a nameless listing. -/
theorem preferred_name_eq_nil_iff {output name url : Text}
    (preferred : IsPreferred (fetchLines output) name url) :
    name = [] ↔ ListsNameless output := by
  have listed := List.mem_of_find?_eq_some preferred.first
  have inside : name ∈ (fetchLines output).map Prod.fst := List.mem_map.mpr ⟨_, listed, rfl⟩
  constructor
  · rintro rfl
    refine ⟨inside, ?_⟩
    rcases preferred.chosen with origin | ⟨noOrigin, _⟩
    · exact absurd origin (by decide)
    · exact noOrigin
  · rintro ⟨nameless, noOrigin⟩
    rcases preferred.chosen with origin | ⟨_, least⟩
    · exact absurd (origin ▸ inside) noOrigin
    · exact Std.le_antisymm (least [] nameless) (List.nil_le name)

/-- What the first command leaves behind, but for the name. -/
structure RemoteInvariant (path : Path) (status : RepositoryStatus) : Prop where
  path_eq : status.path = path
  remote_failed : status.remoteError.isSome = true → status.hasRemote = false
  located : status.hasRemote = true ↔ status.remoteUrl ≠ []
  fresh : status.dirty = false ∧ status.ahead = 0 ∧ status.worktreeError = none ∧
    status.upstreamError = none

/-- The first command leaves the fields of the remote consistent. -/
theorem remoteStatus_remoteInvariant (remotes : CommandResult) (path : Path) :
    RemoteInvariant path (remoteStatus remotes path) := by
  unfold remoteStatus
  cases remotes.ok with
  | false =>
      rw [if_neg Bool.false_ne_true]
      exact ⟨rfl, fun _ => rfl, iff_of_false Bool.false_ne_true (· rfl), rfl, rfl, rfl, rfl⟩
  | true =>
      rw [if_pos rfl, readRemotes_eq]
      cases selected : selectRemote (collectRemotes remotes.output) with
      | none =>
          exact ⟨rfl, fun _ => rfl, iff_of_false Bool.false_ne_true (· rfl), rfl, rfl, rfl, rfl⟩
      | some remote =>
          obtain ⟨name, url⟩ := remote
          have preferred := selectRemote_collectRemotes_iff.mp selected
          obtain ⟨line, _, found⟩ := List.mem_filterMap.mp (List.mem_of_find?_eq_some preferred.first)
          exact ⟨rfl, fun failed => absurd failed Bool.false_ne_true,
            iff_of_true rfl (fetchLine_url_ne_nil found), rfl, rfl, rfl, rfl⟩

/-- The remote has a name exactly if it is not selected from a nameless listing. -/
theorem remoteStatus_named_iff (remotes : CommandResult) (path : Path) :
    ((remoteStatus remotes path).hasRemote = true ↔ (remoteStatus remotes path).remoteName ≠ []) ↔
      (remotes.ok = true → ¬ ListsNameless remotes.output) := by
  unfold remoteStatus
  cases remotes.ok with
  | false =>
      rw [if_neg Bool.false_ne_true]
      exact iff_of_true (iff_of_false Bool.false_ne_true (· rfl)) fun ok => absurd ok Bool.false_ne_true
  | true =>
      rw [if_pos rfl, readRemotes_eq]
      cases selected : selectRemote (collectRemotes remotes.output) with
      | none =>
          have noLine := selectRemote_collectRemotes_eq_none_iff.mp selected
          refine iff_of_true (iff_of_false Bool.false_ne_true (· rfl)) fun _ nameless => ?_
          have inside := nameless.nameless
          rw [noLine] at inside
          exact absurd inside List.not_mem_nil
      | some remote =>
          obtain ⟨name, url⟩ := remote
          rw [← preferred_name_eq_nil_iff (selectRemote_collectRemotes_iff.mp selected)]
          have selects : (RepositoryStatus.withRemote { path } (some (name, url))).hasRemote = true :=
            rfl
          simp only [selects, true_iff, true_implies]
          rfl

/-! ## The worktree -/

/-- `std::from_chars` reads a negative number off a minus sign and digits. -/
theorem fromChars_neg_iff {text : Text} {value : Int} (negative : value < 0) :
    fromChars text = some (value, []) ↔ ∃ digits, text = 45 :: digits ∧ isNumber digits = true ∧
      value = -(digitsValue digits : Int) ∧ digitsValue digits ≤ 2147483648 := by
  constructor
  · intro converted
    cases sign : text.head? == some 45 with
    | false =>
        simp only [fromChars, sign, Bool.false_eq_true, ↓reduceIte] at converted
        split_ifs at converted
        obtain ⟨unsigned, -⟩ := Prod.mk.inj (Option.some.inj converted)
        omega
    | true =>
        obtain ⟨digits, rfl⟩ := List.head?_eq_some_iff.mp (beq_iff_eq.mp sign)
        simp only [fromChars, sign, ↓reduceIte, List.tail_cons] at converted
        split_ifs at converted with empty range
        obtain ⟨signed, rest⟩ := Prod.mk.inj (Option.some.inj converted)
        have all := List.dropWhile_eq_nil_iff.mp rest
        have taken : digits.takeWhile isDigit = digits := List.takeWhile_eq_self_iff.mpr all
        rw [taken] at empty range signed
        have number : isNumber digits = true := by
          rw [isNumber, Bool.and_eq_true, decide_eq_true_eq]
          exact ⟨empty, List.all_eq_true.mpr all⟩
        exact ⟨digits, rfl, number, signed.symm, by omega⟩
  · rintro ⟨digits, rfl, number, rfl, bounded⟩
    obtain ⟨nonempty, -, -, taken, rest, -⟩ := isNumber_parts number
    have range : ¬ (-(digitsValue digits : Int) < -2147483648 ∨
        2147483647 < -(digitsValue digits : Int)) := by omega
    simp only [fromChars, List.head?_cons, BEq.rfl, ↓reduceIte, List.tail_cons, taken, nonempty,
      range, rest]

/-- A count is negative if it is written so. -/
theorem aheadCount_neg_iff {field : Text} :
    (∃ count < 0, aheadCount field = some count) ↔ IsNegativeCount field := by
  constructor
  · rintro ⟨count, negative, read⟩
    unfold aheadCount at read
    split_ifs at read with plus
    obtain ⟨tail, rfl⟩ := List.head?_eq_some_iff.mp plus
    split at read
    · rename_i value converted
      cases read
      obtain ⟨digits, rfl, number, rfl, bounded⟩ := (fromChars_neg_iff negative).mp converted
      exact ⟨digits, rfl, number, by omega, bounded⟩
    · cases read
  · rintro ⟨digits, rfl, number, positive, bounded⟩
    have negative : -(digitsValue digits : Int) < 0 := by omega
    refine ⟨_, negative, ?_⟩
    have converted := (fromChars_neg_iff negative).mpr ⟨digits, rfl, number, rfl, bounded⟩
    simp only [aheadCount, List.head?_cons, ↓reduceIte, List.tail_cons, converted]

/-- Only the count of a `branch.ab` header is read as one. -/
theorem ahead?_statusLine (line : Text) :
    (statusLine line).ahead? = (countField line).bind aheadCount := by
  simp only [statusLine, countField]
  generalize dropCarriageReturn line = line
  by_cases header : line.head? = some 35
  · simp only [header, ne_eq, not_true_eq_false, ↓reduceIte, true_and]
    rcases words line with _ | ⟨_, _ | ⟨key, _ | ⟨value, _⟩⟩⟩
    · rfl
    · rfl
    · rfl
    · by_cases count : key = ascii "branch.ab"
      · have noHead : ¬ key = ascii "branch.head" := by rw [count]; decide
        have noUpstream : ¬ key = ascii "branch.upstream" := by rw [count]; decide
        simp only [headerLine, if_neg noHead, if_neg noUpstream, if_pos count, Option.bind_some]
        cases aheadCount value <;> rfl
      · simp only [headerLine, count, ↓reduceIte, Option.bind_none]
        split_ifs <;> rfl
  · simp only [header, ne_eq, not_false_eq_true, ↓reduceIte, false_and]
    -- an entry or a blank line, whatever its words are
    rcases words line with _ | ⟨_, _ | ⟨_, _ | ⟨_, _⟩⟩⟩ <;> split <;> rfl

/-- The count is negative exactly if the last readable header has a negative one. -/
theorem lastCount_neg_iff (output : Text) :
    StatusLine.lastCount (statusLines output) < 0 ↔ EndsNegative output := by
  have lines : lastMatch StatusLine.ahead? (statusLines output) =
      lastMatch (fun line => (countField line).bind aheadCount) (getlines output) := by
    rw [statusLines, lastMatch_map]
    simp only [ahead?_statusLine]
  rw [StatusLine.lastCount, lines]
  constructor
  · intro negative
    cases last : lastMatch (fun line => (countField line).bind aheadCount) (getlines output) with
    | none =>
        rw [last] at negative
        exact absurd negative (Int.lt_irrefl 0)
    | some count =>
        rw [last, Option.getD_some] at negative
        obtain ⟨front, line, back, split, matched, silent⟩ := (lastMatch_eq_some_iff _).mp last
        obtain ⟨field, named, read⟩ := Option.bind_eq_some_iff.mp matched
        refine ⟨front, line, back, field, split, named,
          aheadCount_neg_iff.mp ⟨count, negative, read⟩, fun later inside other held => ?_⟩
        have unread := silent later inside
        rw [held, Option.bind_some] at unread
        exact unread
  · rintro ⟨front, line, back, field, split, named, written, silent⟩
    obtain ⟨count, negative, read⟩ := aheadCount_neg_iff.mpr written
    have last := (lastMatch_eq_some_iff fun line => (countField line).bind aheadCount).mpr
      ⟨front, line, back, split, by rw [named, Option.bind_some, read], fun later inside => by
        cases held : countField later with
        | none => rfl
        | some other => exact silent later inside other held⟩
    rw [last]
    exact negative

/-- The second command keeps the invariant of the first one and adds its own, unless it
reads a negative count. -/
theorem worktreeStatus_statusInvariant_iff {path : Path} {status : RepositoryStatus}
    (remote : RemoteInvariant path status) (worktree : CommandResult) :
    StatusInvariant path (worktreeStatus worktree status) ↔
      (status.hasRemote = true ↔ status.remoteName ≠ []) ∧
        (worktree.ok = true → ¬ EndsNegative worktree.output) := by
  rw [← lastCount_neg_iff, Int.not_lt]
  obtain ⟨dirty, ahead, worktreeError, upstreamError⟩ := remote.fresh
  cases done : worktree.ok with
  | false =>
      rw [worktreeStatus, done, if_neg Bool.false_ne_true]
      constructor
      · exact fun invariant => ⟨invariant.named, fun ok => absurd ok Bool.false_ne_true⟩
      · rintro ⟨named, -⟩
        exact ⟨remote.path_eq, remote.remote_failed, named, remote.located, ahead.ge,
          iff_of_true rfl rfl, iff_of_true rfl rfl, fun _ => ⟨dirty, ahead⟩⟩
  | true =>
      have noError := StatusLine.upstreamState_ne_error (statusLines worktree.output)
      have worktreeNone : ¬ status.worktreeError.isSome = true := by
        rw [worktreeError]
        exact Bool.false_ne_true
      have upstreamNone : ¬ status.upstreamError.isSome = true := by
        rw [upstreamError]
        exact Bool.false_ne_true
      rw [worktreeStatus, done, if_pos rfl, readStatus_eq]
      constructor
      · exact fun invariant => ⟨invariant.named, fun _ => invariant.ahead_nonneg⟩
      · rintro ⟨named, counted⟩
        exact ⟨remote.path_eq, remote.remote_failed, named, remote.located, counted rfl,
          iff_of_false noError upstreamNone, iff_of_false upstreamNone worktreeNone,
          fun failed => absurd failed worktreeNone⟩

/-! ## The check -/

/-- **The invariant of a checked status.** It holds exactly if the first command does not
succeed with a nameless listing and the second one does not succeed with an output whose
last count is negative. -/
theorem check_statusInvariant_iff (runner : GitRunner) (timeout : Int) (path : Path)
    (readings : Readings) :
    let deadline := readings.started + timeout * nanosecondsPerMillisecond
    let remotes := runBeforeDeadline runner path remoteArguments deadline timeout readings.remote
    let worktree := runBeforeDeadline runner path statusArguments deadline timeout readings.status
    StatusInvariant path (check runner timeout path readings) ↔
      (remotes.ok = true → ¬ ListsNameless remotes.output) ∧
        (worktree.ok = true → ¬ EndsNegative worktree.output) := by
  intro deadline remotes worktree
  rw [check_eq, worktreeStatus_statusInvariant_iff (remoteStatus_remoteInvariant remotes path),
    remoteStatus_named_iff]

/-- A count with a minus sign after the plus sign breaks the invariant, and so does a
fetch line without a name. -/
theorem check_breaks_statusInvariant :
    ¬ StatusInvariant (ascii "/r") (check
        (scriptedRunner [] (ascii "# branch.head main\n# branch.ab +-5 -0")) 1000 (ascii "/r")
        stillReadings) ∧
      ¬ StatusInvariant (ascii "/r") (check
        (scriptedRunner (ascii "fork\tgit@host:r (push)\n git@host:r (fetch)") []) 1000
        (ascii "/r") stillReadings) := by
  constructor
  · intro invariant
    exact absurd invariant.ahead_nonneg (by decide)
  · intro invariant
    exact absurd (invariant.named.mp (by decide)) (by decide)

end CheckGitStatus.Cpp
