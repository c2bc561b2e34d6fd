import CheckGitStatus.Library.Folds
import CheckGitStatus.Library.Interleaving
import CheckGitStatus.Library.Sorting
import CheckGitStatus.Status

/-! # What the two listings say, independently of a program's loops

A line of `git status --porcelain=v2 --branch` is blank, a worktree entry or a
header, and a header matters only as one of three kinds. A list of such lines
determines a status: there is an entry or not, the last head header decides
whether the head is detached, any upstream header counts, and the last count is
the one that stays (`CheckGitStatus.StatusScan.ofLines`).

Of the remotes that a listing names, the preferred one is `origin` or else the
smallest name, with the first URL listed for it (`CheckGitStatus.IsPreferred`).
-/

namespace CheckGitStatus

open Library

/-- What a line of the status output says to a reader. -/
inductive StatusLine where
  | blank
  | entry
  | head (detached : Bool)
  | upstream
  | ahead (count : Int)
  | unreadable (count : Text)
  | other
  deriving DecidableEq, Repr

namespace StatusLine

/-- Whether the head is detached, if the line tells. -/
def head? : StatusLine → Option Bool
  | .head detached => some detached
  | _ => none

/-- The count of the line, if it has one that the program reads. -/
def ahead? : StatusLine → Option Int
  | .ahead count => some count
  | _ => none

/-- The line does not hold a count that cannot be read. -/
def readable : StatusLine → Bool
  | .unreadable _ => false
  | _ => true

/-- The last head header names a detached head. -/
def detached (lines : List StatusLine) : Bool :=
  (lastMatch head? lines).getD false

/-- The last count, or the zero that a status starts with. -/
def lastCount (lines : List StatusLine) : Int :=
  (lastMatch ahead? lines).getD 0

/-- The upstream state that the lines amount to. -/
def upstreamState (lines : List StatusLine) : UpstreamState :=
  if detached lines then .detached
  else if .upstream ∈ lines then .ok
  else .missing

/-- Two lists whose headers lead to the same upstream state and count. -/
structure SameHeaders (left right : List StatusLine) : Prop where
  head : detached left = detached right
  upstream : detached right = false → (.upstream ∈ left ↔ .upstream ∈ right)
  count : lastCount left = lastCount right

/-- Two lists of lines that lead to the same status. -/
structure SameReading (left right : List StatusLine) : Prop extends SameHeaders left right where
  entry : .entry ∈ left ↔ .entry ∈ right

/-- Lines that say nothing, put among others, change at most whether there is an entry. -/
theorem SameReading.of_interleaving {output added lines : List StatusLine}
    (shared : Interleaving output added lines)
    (silent : ∀ line ∈ added, line = .blank ∨ line = .entry ∨ line = .other)
    (entry : .entry ∈ added → .entry ∈ output) : SameReading lines output := by
  have passed : ∀ {α : Type} {select : StatusLine → Option α}, select .blank = none →
      select .entry = none → select .other = none →
      lastMatch select lines = lastMatch select output := by
    intro α select blank entry other
    rw [lastMatch, lastMatch, shared.filterMap_eq_left]
    intro line inside
    rcases silent line inside with rfl | rfl | rfl
    · exact blank
    · exact entry
    · exact other
  have noUpstream : .upstream ∉ added := by
    intro inside
    rcases silent _ inside with kind | kind | kind <;> cases kind
  refine ⟨⟨?_, fun _ => ?_, ?_⟩, ?_⟩
  · rw [detached, detached, passed rfl rfl rfl]
  · rw [shared.mem_iff, or_iff_left noUpstream]
  · rw [lastCount, lastCount, passed rfl rfl rfl]
  · rw [shared.mem_iff, or_iff_left_of_imp entry]

/-- The upstream states of two lists agree exactly when the heads agree and, for
an attached head, the upstream headers do. -/
theorem upstreamState_eq_iff {left right : List StatusLine} :
    upstreamState left = upstreamState right ↔
      detached left = detached right ∧
        (detached right = false → (.upstream ∈ left ↔ .upstream ∈ right)) := by
  unfold upstreamState
  cases leftHead : detached left <;> cases rightHead : detached right
  · by_cases leftTracked : .upstream ∈ left <;> by_cases rightTracked : .upstream ∈ right <;>
      simp only [leftTracked, rightTracked, Bool.false_eq_true, ↓reduceIte, reduceCtorEq,
        true_implies, iff_true, iff_false, not_true_eq_false, true_and]
  · by_cases tracked : .upstream ∈ left <;>
      simp only [tracked, Bool.false_eq_true, ↓reduceIte, reduceCtorEq, false_and]
  · by_cases tracked : .upstream ∈ right <;>
      simp only [tracked, Bool.false_eq_true, Bool.true_eq_false, ↓reduceIte, reduceCtorEq,
        false_and]
  · simp only [↓reduceIte, Bool.true_eq_false, false_implies, and_self]

/-- The state is `ok` exactly for an attached head with an upstream header. -/
theorem upstreamState_eq_ok_iff {lines : List StatusLine} :
    upstreamState lines = .ok ↔ detached lines = false ∧ .upstream ∈ lines := by
  unfold upstreamState
  cases detached lines with
  | true => simp only [↓reduceIte, reduceCtorEq, Bool.true_eq_false, false_and]
  | false =>
      by_cases tracked : .upstream ∈ lines <;>
        simp only [tracked, Bool.false_eq_true, ↓reduceIte, reduceCtorEq, and_true, and_false]

/-- Lines that are read leave no error. -/
theorem upstreamState_ne_error (lines : List StatusLine) : upstreamState lines ≠ .error := by
  unfold upstreamState
  split
  · exact UpstreamState.noConfusion
  · split
    · exact UpstreamState.noConfusion
    · exact UpstreamState.noConfusion

end StatusLine

/-! ## Header lines -/

/-- The third of the fields of a header, if the second is the key. -/
def headerField (key : Text) : List Text → Option Text
  | _ :: found :: value :: _ => if found = key then some value else none
  | _ => none

/-- The value in a header with this key, a line that starts with `#`. -/
def headerValue (split : Text → List Text) (key line : Text) : Option Text :=
  if (dropCarriageReturn line).head? = some 35 then
    headerField key (split (dropCarriageReturn line))
  else none

/-- The fields of a header are taken for one of the three kinds that matter exactly when
the key is that of the kind. -/
structure ReadsFields (readCount : Text → Option Int) (ofFields : List Text → StatusLine) :
    Prop where
  head : ∀ fields, (ofFields fields).head? =
    (headerField (ascii "branch.head") fields).map fun value => value == ascii "(detached)"
  upstream : ∀ fields, ofFields fields = .upstream ↔
    headerField (ascii "branch.upstream") fields ≠ none
  ahead : ∀ fields, (ofFields fields).ahead? =
    (headerField (ascii "branch.ab") fields).bind readCount

/-- It is enough to say what each key leads to. -/
theorem ReadsFields.of_keys {readCount : Text → Option Int} {ofFields : List Text → StatusLine}
    (short : ∀ fields, fields.length < 3 → ofFields fields = .other)
    (head : ∀ hash value rest, ofFields (hash :: ascii "branch.head" :: value :: rest) =
      .head (value == ascii "(detached)"))
    (upstream : ∀ hash value rest,
      ofFields (hash :: ascii "branch.upstream" :: value :: rest) = .upstream)
    (ahead : ∀ hash value rest, ∃ missing, StatusLine.ahead? missing = none ∧
      StatusLine.head? missing = none ∧ missing ≠ .upstream ∧
      ofFields (hash :: ascii "branch.ab" :: value :: rest) =
        (readCount value).elim missing .ahead)
    (other : ∀ hash key value rest, key ≠ ascii "branch.head" → key ≠ ascii "branch.upstream" →
      key ≠ ascii "branch.ab" → ofFields (hash :: key :: value :: rest) = .other) :
    ReadsFields readCount ofFields := by
  have cases : ∀ fields, (ofFields fields).head? =
        ((headerField (ascii "branch.head") fields).map fun value =>
          value == ascii "(detached)") ∧
      (ofFields fields = .upstream ↔ headerField (ascii "branch.upstream") fields ≠ none) ∧
      (ofFields fields).ahead? =
        (headerField (ascii "branch.ab") fields).bind readCount := by
    intro fields
    match fields with
    | [] | [_] | [_, _] =>
        rw [short _ (by simp)]
        exact ⟨rfl, iff_of_false nofun fun some => some rfl, rfl⟩
    | hash :: key :: value :: rest =>
        unfold headerField
        by_cases isHead : key = ascii "branch.head"
        · subst isHead
          rw [head]
          exact ⟨rfl, iff_of_false nofun fun some => some rfl, rfl⟩
        by_cases isUpstream : key = ascii "branch.upstream"
        · subst isUpstream
          rw [upstream]
          exact ⟨rfl, iff_of_true rfl nofun, rfl⟩
        by_cases isAhead : key = ascii "branch.ab"
        · subst isAhead
          obtain ⟨missing, noAhead, noHead, noUpstream, read⟩ := ahead hash value rest
          rw [read]
          simp only [↓reduceIte, Option.bind_some]
          cases readCount value with
          | none => exact ⟨noHead, iff_of_false noUpstream fun some => some rfl, noAhead⟩
          | some ahead => exact ⟨rfl, iff_of_false nofun fun some => some rfl, rfl⟩
        · rw [other hash key value rest isHead isUpstream isAhead]
          simp only [isHead, isUpstream, isAhead, ↓reduceIte]
          exact ⟨rfl, iff_of_false nofun fun some => some rfl, rfl⟩
  exact ⟨fun fields => (cases fields).1, fun fields => (cases fields).2.1,
    fun fields => (cases fields).2.2⟩

/-- The lines are of the three kinds that matter exactly when they are headers with one of
the three keys, for a program's way to split fields and to read a count. -/
structure ReadsHeaders (split : Text → List Text) (readCount : Text → Option Int)
    (kind : Text → StatusLine) : Prop where
  head : ∀ line, (kind line).head? =
    (headerValue split (ascii "branch.head") line).map fun value => value == ascii "(detached)"
  upstream : ∀ line, kind line = .upstream ↔
    headerValue split (ascii "branch.upstream") line ≠ none
  ahead : ∀ line, (kind line).ahead? =
    (headerValue split (ascii "branch.ab") line).bind readCount

/-- A program that takes the lines with `#` for what their fields say reads the headers. -/
theorem ReadsFields.readsHeaders {split : Text → List Text} {readCount : Text → Option Int}
    {ofFields : List Text → StatusLine} {kind : Text → StatusLine}
    (reads : ReadsFields readCount ofFields)
    (hash : ∀ line, (dropCarriageReturn line).head? = some 35 →
      kind line = ofFields (split (dropCarriageReturn line)))
    (plain : ∀ line, (dropCarriageReturn line).head? ≠ some 35 →
      kind line = .blank ∨ kind line = .entry) : ReadsHeaders split readCount kind := by
  have silent : ∀ line, (dropCarriageReturn line).head? ≠ some 35 →
      (kind line).head? = none ∧ kind line ≠ .upstream ∧ (kind line).ahead? = none := by
    intro line other
    rcases plain line other with kind | kind <;> rw [kind] <;> exact ⟨rfl, nofun, rfl⟩
  refine ⟨fun line => ?_, fun line => ?_, fun line => ?_⟩ <;> unfold headerValue <;> split
  · rename_i marked
    rw [hash line marked, reads.head]
  · rename_i other
    exact (silent line other).1
  · rename_i marked
    rw [hash line marked, reads.upstream]
  · rename_i other
    exact iff_of_false (silent line other).2.1 fun none => none rfl
  · rename_i marked
    rw [hash line marked, reads.ahead]
  · rename_i other
    exact (silent line other).2.2

namespace ReadsHeaders

variable {split : Text → List Text} {readCount : Text → Option Int} {kind : Text → StatusLine}
  (reads : ReadsHeaders split readCount kind) (lines : List Text)
include reads

/-- The head is detached exactly when the last header that names it says so. -/
theorem detached_iff : StatusLine.detached (lines.map kind) = true ↔
    lastMatch (headerValue split (ascii "branch.head")) lines = some (ascii "(detached)") := by
  simp only [StatusLine.detached, lastMatch_map, reads.head, lastMatch_map_image]
  cases lastMatch (headerValue split (ascii "branch.head")) lines with
  | none => simp only [Option.map_none, Option.getD_none, Bool.false_eq_true, reduceCtorEq]
  | some value => simp only [Option.map_some, Option.getD_some, beq_iff_eq, Option.some.injEq]

/-- An upstream is named exactly if some line is a header of it. -/
theorem upstream_mem_iff : .upstream ∈ lines.map kind ↔
    ∃ line ∈ lines, headerValue split (ascii "branch.upstream") line ≠ none := by
  simp only [List.mem_map, reads.upstream]

/-- The count that stays is the last that can be read among the values of its headers. -/
theorem lastCount_eq : StatusLine.lastCount (lines.map kind) =
    (lastMatch readCount
      (lines.filterMap (headerValue split (ascii "branch.ab")))).getD 0 := by
  simp only [StatusLine.lastCount, lastMatch_map, reads.ahead, lastMatch_bind]

end ReadsHeaders

namespace StatusScan

/-- The effect of one line. -/
def read (scan : StatusScan) : StatusLine → StatusScan
  | .entry => { scan with dirty := true }
  | .head detached => { scan with detached }
  | .upstream => { scan with hasUpstream := true }
  | .ahead count => { scan with ahead := count }
  | _ => scan

/-- The variables of the loop after all lines. -/
def ofLines (lines : List StatusLine) : StatusScan where
  dirty := decide (.entry ∈ lines)
  detached := StatusLine.detached lines
  hasUpstream := decide (.upstream ∈ lines)
  ahead := StatusLine.lastCount lines

/-- Reading lines one after the other overwrites each variable with the last line
that concerns it. -/
theorem foldl_read (lines : List StatusLine) (scan : StatusScan) :
    lines.foldl read scan =
      { dirty := scan.dirty || decide (.entry ∈ lines)
        detached := (lastMatch StatusLine.head? lines).getD scan.detached
        hasUpstream := scan.hasUpstream || decide (.upstream ∈ lines)
        ahead := (lastMatch StatusLine.ahead? lines).getD scan.ahead } := by
  induction lines generalizing scan with
  | nil => simp only [List.foldl_nil, List.not_mem_nil, decide_false, Bool.or_false,
      lastMatch_nil, Option.getD_none]
  | cons line rest ih =>
      rw [List.foldl_cons, ih]
      cases line with
      | head detached =>
          cases later : lastMatch StatusLine.head? rest <;>
            simp only [read, lastMatch_cons, later, StatusLine.head?, StatusLine.ahead?,
              Option.or_none, Option.none_or, Option.some_or, Option.getD_some, Option.getD_none,
              List.mem_cons, reduceCtorEq, false_or]
      | ahead count =>
          cases later : lastMatch StatusLine.ahead? rest <;>
            simp only [read, lastMatch_cons, later, StatusLine.head?, StatusLine.ahead?,
              Option.or_none, Option.none_or, Option.some_or, Option.getD_some, Option.getD_none,
              List.mem_cons, reduceCtorEq, false_or]
      | entry | upstream | blank | unreadable | other =>
          simp only [read, lastMatch_cons, StatusLine.head?, StatusLine.ahead?, Option.or_none,
            List.mem_cons, reduceCtorEq, false_or, true_or, decide_true, Bool.true_or,
            Bool.or_true]

/-- A loop that starts from a fresh status ends with what its lines say. -/
theorem foldl_read_eq_ofLines (lines : List StatusLine) :
    lines.foldl read {} = ofLines lines := by
  simp only [foldl_read, ofLines, Bool.false_or, StatusLine.detached, StatusLine.lastCount]

end StatusScan

/-! ## The preferred remote -/

/-- `name` and `url` are the preferred remote of a list of name and URL pairs. -/
structure IsPreferred (listed : List (Text × Text)) (name url : Text) : Prop where
  first : listed.find? (fun remote => remote.1 == name) = some (name, url)
  chosen : name = ascii "origin" ∨
    ascii "origin" ∉ listed.map Prod.fst ∧ ∀ other ∈ listed.map Prod.fst, name ≤ other

/-- A list prefers at most one remote. -/
theorem IsPreferred.unique {listed : List (Text × Text)} {name url otherName otherUrl : Text}
    (left : IsPreferred listed name url) (right : IsPreferred listed otherName otherUrl) :
    (name, url) = (otherName, otherUrl) := by
  have leftMem : name ∈ listed.map Prod.fst :=
    List.mem_map_of_mem (f := Prod.fst) (List.mem_of_find?_eq_some left.first)
  have rightMem : otherName ∈ listed.map Prod.fst :=
    List.mem_map_of_mem (f := Prod.fst) (List.mem_of_find?_eq_some right.first)
  have same : name = otherName := by
    rcases left.chosen with origin | ⟨noOrigin, least⟩
    · rcases right.chosen with other | ⟨noOrigin, _⟩
      · exact origin.trans other.symm
      · exact absurd (origin ▸ leftMem) noOrigin
    · rcases right.chosen with origin | ⟨_, otherLeast⟩
      · exact absurd (origin ▸ rightMem) noOrigin
      · exact Std.le_antisymm (least otherName rightMem) (otherLeast name leftMem)
  subst same
  exact Option.some.inj (left.first.symm.trans right.first)

/-- A status with the remote that was selected, if any was. -/
def RepositoryStatus.withRemote (status : RepositoryStatus) :
    Option (Text × Text) → RepositoryStatus
  | none => status
  | some (name, url) => { status with hasRemote := true, remoteName := name, remoteUrl := url }

/-- There is a remote exactly if one is selected. -/
theorem RepositoryStatus.withRemote_hasRemote {status : RepositoryStatus}
    (bare : status.hasRemote = false) (selected : Option (Text × Text)) :
    (status.withRemote selected).hasRemote = selected.isSome := by
  cases selected with
  | none => exact bare
  | some remote => rfl

/-- The three fields tell which remote was selected, over a status without one. -/
theorem RepositoryStatus.withRemote_fields_iff {status : RepositoryStatus}
    (bare : status.hasRemote = false) {left right : Option (Text × Text)} :
    ((status.withRemote left).hasRemote = (status.withRemote right).hasRemote ∧
      (status.withRemote left).remoteName = (status.withRemote right).remoteName ∧
      (status.withRemote left).remoteUrl = (status.withRemote right).remoteUrl) ↔
      left = right := by
  constructor
  · rintro ⟨has, name, url⟩
    cases left with
    | none =>
        cases right with
        | none => rfl
        | some remote =>
            change status.hasRemote = true at has
            rw [bare] at has
            cases has
    | some remote =>
        cases right with
        | none =>
            change true = status.hasRemote at has
            rw [bare] at has
            cases has
        | some other => exact congrArg some (Prod.ext name url)
  · rintro rfl
    exact ⟨rfl, rfl, rfl⟩

/-- Keeping only the first entry of every name does not change the preference. -/
theorem isPreferred_firstEntries_iff {listed : List (Text × Text)} {name url : Text} :
    IsPreferred (firstEntries listed) name url ↔ IsPreferred listed name url := by
  constructor
  · rintro ⟨first, chosen⟩
    rw [find?_firstEntries] at first
    simp only [mem_keys_firstEntries_iff] at chosen
    exact ⟨first, chosen⟩
  · rintro ⟨first, chosen⟩
    refine ⟨?_, ?_⟩
    · rw [find?_firstEntries]
      exact first
    · simpa only [mem_keys_firstEntries_iff] using chosen

end CheckGitStatus
