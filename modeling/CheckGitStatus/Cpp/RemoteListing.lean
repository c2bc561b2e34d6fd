import CheckGitStatus.Cpp.Porcelain
import CheckGitStatus.Cpp.Process
import CheckGitStatus.Text.Lines

/-! # Decoding the remotes of a repository

`git remote -v` writes a line for the URL that a remote is fetched from and lines for
the URLs that it is pushed to. Whatever the order of the lines is and however they are
ended, a check finds the preferred remote and its URL
(`CheckGitStatus.Cpp.check_of_remoteListing`).
-/

namespace CheckGitStatus

/-- The remotes of a repository: names and the URLs that they are fetched from. -/
structure RemoteSet where
  remotes : List (Text × Text)
  nonempty : remotes ≠ []
  distinct : (remotes.map Prod.fst).Nodup
  names : ∀ remote ∈ remotes, IsWord remote.1
  urls_nonempty : ∀ remote ∈ remotes, remote.2 ≠ []
  urls_clean : ∀ remote ∈ remotes, lineFeed ∉ remote.2 ∧ carriageReturn ∉ remote.2
  urls_visible : ∀ remote ∈ remotes, remote.2.head?.any isBlank = false

/-- A line of the listing. -/
inductive RemoteLine where
  | fetch (name url : Text)
  | push (name url : Text)
  deriving DecidableEq, Repr

namespace RemoteLine

/-- The line as git prints it. -/
def text : RemoteLine → Text
  | .fetch name url => name ++ 9 :: (url ++ ascii " (fetch)")
  | .push name url => name ++ 9 :: (url ++ ascii " (push)")

/-- The name of the remote. -/
def name : RemoteLine → Text
  | .fetch name _ => name
  | .push name _ => name

/-- The URL of the line. -/
def url : RemoteLine → Text
  | .fetch _ url => url
  | .push _ url => url

/-- The name and the URL of a fetch line. -/
def fetched? : RemoteLine → Option (Text × Text)
  | .fetch name url => some (name, url)
  | .push _ _ => none

end RemoteLine

/-- An arrangement of one fetch line for every remote and any number of push lines. -/
structure RemoteListing (set : RemoteSet) where
  lines : List RemoteLine
  fetched : (lines.filterMap RemoteLine.fetched?).Perm set.remotes
  pushed_name : ∀ name url, .push name url ∈ lines → name ∈ set.remotes.map Prod.fst
  pushed_clean : ∀ name url, .push name url ∈ lines → lineFeed ∉ url ∧ carriageReturn ∉ url

namespace RemoteSet

variable (set : RemoteSet)

/-- `origin` is preferred, and without it the smallest name. -/
structure Prefers (name url : Text) : Prop where
  listed : (name, url) ∈ set.remotes
  chosen : name = ascii "origin" ∨
    ascii "origin" ∉ set.remotes.map Prod.fst ∧ ∀ other ∈ set.remotes.map Prod.fst, name ≤ other

variable {set}

/-- The preferred remote of a set is preferred among its fetch lines. -/
theorem Prefers.isPreferred {name url : Text} (prefers : set.Prefers name url) :
    IsPreferred set.remotes name url :=
  ⟨Library.find?_eq_some_of_mem set.distinct prefers.listed, prefers.chosen⟩

/-- A list of the same remotes has the same preference. -/
theorem prefers_of_perm {listed : List (Text × Text)} (same : listed.Perm set.remotes)
    {name url : Text} (preferred : IsPreferred listed name url) : set.Prefers name url := by
  have names : ∀ other : Text, other ∈ listed.map Prod.fst ↔ other ∈ set.remotes.map Prod.fst :=
    fun other => (same.map Prod.fst).mem_iff
  refine ⟨same.mem_iff.mp (List.mem_of_find?_eq_some preferred.first), ?_⟩
  simpa only [names] using preferred.chosen

end RemoteSet

namespace RemoteListing

variable {set : RemoteSet} (listing : RemoteListing set)

/-- The output of git for line feeds or carriage returns and line feeds. -/
def text (ending : LineEnding) : Text :=
  ending.join (listing.lines.map RemoteLine.text)

theorem fetch_mem {name url : Text} (inside : .fetch name url ∈ listing.lines) :
    (name, url) ∈ set.remotes :=
  listing.fetched.mem_iff.mp (List.mem_filterMap.mpr ⟨.fetch name url, inside, rfl⟩)

theorem name_word {line : RemoteLine} (inside : line ∈ listing.lines) : IsWord line.name := by
  cases line with
  | fetch name url => exact set.names (name, url) (listing.fetch_mem inside)
  | push name url =>
      obtain ⟨remote, listed, rfl⟩ := List.mem_map.mp (listing.pushed_name name url inside)
      exact set.names remote listed

theorem url_clean {line : RemoteLine} (inside : line ∈ listing.lines) : lineFeed ∉ line.url := by
  cases line with
  | fetch name url => exact (set.urls_clean (name, url) (listing.fetch_mem inside)).1
  | push name url => exact (listing.pushed_clean name url inside).1

end RemoteListing

/-- A line is its name, a tab, its URL and one of the two markers. -/
theorem RemoteLine.text_eq (line : RemoteLine) :
    ∃ marker : Text, lineFeed ∉ marker ∧
      line.text = (line.name ++ 9 :: (line.url ++ marker)) ++ [41] := by
  cases line with
  | fetch name url =>
      refine ⟨ascii " (fetch", by decide, ?_⟩
      simp only [text, RemoteLine.name, RemoteLine.url, List.append_assoc, List.cons_append]
      rfl
  | push name url =>
      refine ⟨ascii " (push", by decide, ?_⟩
      simp only [text, RemoteLine.name, RemoteLine.url, List.append_assoc, List.cons_append]
      rfl

/-- Every line of a listing is a line. -/
theorem RemoteListing.isLine_of_mem_lines {set : RemoteSet} (listing : RemoteListing set) :
    ∀ line ∈ listing.lines.map RemoteLine.text, IsLine line := by
  intro line inside
  obtain ⟨written, listed, rfl⟩ := List.mem_map.mp inside
  obtain ⟨marker, unbroken, text⟩ := written.text_eq
  have word := listing.name_word listed
  have clean := listing.url_clean listed
  obtain ⟨first, rest, name⟩ := List.exists_cons_of_ne_nil word.nonempty
  have solid : lineFeed ∉ written.name := by
    intro inside
    exact absurd (word.solid lineFeed inside) (by decide)
  refine ⟨⟨first, ?_, ?_⟩, ?_⟩
  · rw [text, name]
    rfl
  · exact word.solid first (by rw [name]; exact List.mem_cons_self)
  · rw [text]
    simp only [List.mem_append, List.mem_cons, solid, clean, unbroken, List.not_mem_nil, or_false,
      false_or, not_or]
    decide

namespace Cpp

open Library

/-- A line that does not end with white space is read as it was written. -/
theorem fetchLine_eq_of_seenAs {line : RemoteLine} {piece : Text}
    (seen : SeenAs line.text piece) : fetchLine piece = fetchLine line.text := by
  obtain ⟨marker, -, text⟩ := line.text_eq
  have own : SeenAs line.text line.text := SeenAs.refl line.text
  rw [text] at seen own
  have visible : isSpace 41 = false := by decide
  rw [text]
  simp only [fetchLine, seen.eq_of_visible visible, own.eq_of_visible visible]

/-- A line is read as what it lists. -/
theorem fetchLine_text {set : RemoteSet} (listing : RemoteListing set) {line : RemoteLine}
    (inside : line ∈ listing.lines) : fetchLine line.text = line.fetched? := by
  have word := listing.name_word inside
  cases line with
  | fetch name url =>
      have listed := listing.fetch_mem inside
      have clean : ∀ byte ∈ name, isBlank byte = false := by
        intro byte part
        have solid := word.solid byte part
        simp only [isSpace, Bool.or_eq_false_iff, beq_eq_false_iff_ne] at solid
        simp only [isBlank, Bool.or_eq_false_iff, beq_eq_false_iff_ne]
        refine ⟨solid.1, ?_⟩
        rintro rfl
        exact absurd solid.2 (by decide)
      have whole : url.dropWhile isBlank = url := by
        have start := set.urls_visible (name, url) listed
        cases url with
        | nil => rfl
        | cons first rest =>
            rw [List.head?_cons, Option.any_some] at start
            rw [List.dropWhile_cons_of_neg]
            rw [start]
            exact Bool.false_ne_true
      rw [RemoteLine.text, fetchLine_fetch clean, whole, if_neg (set.urls_nonempty _ listed)]
      rfl
  | push name url =>
      have marked : RemoteLine.text (.push name url) = (name ++ 9 :: url) ++ ascii " (push)" := by
        simp only [RemoteLine.text, List.append_assoc, List.cons_append]
      rw [marked, fetchLine_push]
      rfl

/-- The fetch lines that the program finds are those of the listing. -/
theorem fetchLines_text {set : RemoteSet} (listing : RemoteListing set) (ending : LineEnding) :
    fetchLines (trim (listing.text ending)) = listing.lines.filterMap RemoteLine.fetched? := by
  have read : (getlines (trim (listing.text ending))).map fetchLine =
      (listing.lines.map RemoteLine.text).map fetchLine := by
    apply map_getlines_trim_join ending listing.isLine_of_mem_lines
    intro line inside piece seen
    obtain ⟨written, -, rfl⟩ := List.mem_map.mp inside
    exact fetchLine_eq_of_seenAs seen
  have mapped : ∀ pieces : List Text,
      pieces.filterMap fetchLine = (pieces.map fetchLine).filterMap id := by
    intro pieces
    rw [List.filterMap_map, Function.id_comp]
  rw [fetchLines, mapped, read, ← mapped, List.filterMap_map]
  exact List.filterMap_congr fun line inside => fetchLine_text listing inside

/-- The program selects the preferred remote of the listing. -/
theorem selectRemote_text {set : RemoteSet} (listing : RemoteListing set) (ending : LineEnding) :
    ∃ name url, set.Prefers name url ∧
      selectRemote (collectRemotes (trim (listing.text ending))) = some (name, url) := by
  have fetched := fetchLines_text listing ending
  cases selected : selectRemote (collectRemotes (trim (listing.text ending))) with
  | none =>
      have none := selectRemote_collectRemotes_eq_none_iff.mp selected
      rw [fetched] at none
      have empty := listing.fetched
      rw [none] at empty
      exact absurd empty.nil_eq.symm set.nonempty
  | some remote =>
      obtain ⟨name, url⟩ := remote
      have preferred := selectRemote_collectRemotes_iff.mp selected
      rw [fetched] at preferred
      exact ⟨name, url, RemoteSet.prefers_of_perm listing.fetched preferred, rfl⟩

/-- A check whose first command succeeds with a listing reports the remote that is preferred. -/
theorem check_selects {runner : GitRunner} {timeout : Int} {path : Path} {readings : Readings}
    {set : RemoteSet} {listing : RemoteListing set} {ending : LineEnding}
    (result : runBeforeDeadline runner path remoteArguments
      (readings.started + timeout * nanosecondsPerMillisecond) timeout readings.remote =
        completedResult (listing.text ending) 0) :
    (check runner timeout path readings).hasRemote = true ∧
      set.Prefers (check runner timeout path readings).remoteName
        (check runner timeout path readings).remoteUrl := by
  obtain ⟨name, url, prefers, selected⟩ := selectRemote_text listing ending
  have read : remoteStatus (completedResult (listing.text ending) 0) path =
      readRemotes (trim (listing.text ending)) { path } := rfl
  rw [check_eq, result]
  generalize runBeforeDeadline runner path statusArguments _ timeout readings.status = worktree
  obtain ⟨seen, named, located⟩ := worktreeStatus_remote worktree
    (remoteStatus (completedResult (listing.text ending) 0) path)
  rw [seen, named, located, read, readRemotes_eq, selected]
  exact ⟨rfl, prefers⟩

/-- **The preferred remote is found in every listing.** A check whose first command
succeeds with a listing of some remotes reports `origin`, or without it the smallest
name, with the URL of that remote. Any other listing of these remotes leads to the same
name and URL. -/
theorem check_of_remoteListing {runner : GitRunner} {timeout : Int} {path : Path}
    {readings : Readings} {set : RemoteSet} {listing : RemoteListing set} {ending : LineEnding}
    (result : runBeforeDeadline runner path remoteArguments
      (readings.started + timeout * nanosecondsPerMillisecond) timeout readings.remote =
        completedResult (listing.text ending) 0) :
    (check runner timeout path readings).hasRemote = true ∧
      set.Prefers (check runner timeout path readings).remoteName
        (check runner timeout path readings).remoteUrl ∧
      ∀ (otherRunner : GitRunner) (otherReadings : Readings) (other : RemoteListing set)
        (otherEnding : LineEnding),
        runBeforeDeadline otherRunner path remoteArguments
            (otherReadings.started + timeout * nanosecondsPerMillisecond) timeout
            otherReadings.remote = completedResult (other.text otherEnding) 0 →
          (check otherRunner timeout path otherReadings).remoteName =
              (check runner timeout path readings).remoteName ∧
            (check otherRunner timeout path otherReadings).remoteUrl =
              (check runner timeout path readings).remoteUrl := by
  obtain ⟨seen, prefers⟩ := check_selects result
  refine ⟨seen, prefers, ?_⟩
  intro otherRunner otherReadings other otherEnding otherResult
  obtain ⟨-, otherPrefers⟩ := check_selects otherResult
  exact Prod.ext_iff.mp (otherPrefers.isPreferred.unique prefers.isPreferred)

/-- Two remotes, one with a blank and a marker in its URL. -/
def forkedRemotes : RemoteSet where
  remotes := [(ascii "fork", ascii "a (fetch) b "), (ascii "backup", ascii "c (push)")]
  nonempty := List.cons_ne_nil _ _
  distinct := by decide
  names := by decide
  urls_nonempty := by decide
  urls_clean := by decide
  urls_visible := by decide

/-- A listing of two remotes in an order of its own. -/
def forkedListing : RemoteListing forkedRemotes where
  lines := [.push (ascii "fork") (ascii "d"), .fetch (ascii "backup") (ascii "c (push)"),
    .fetch (ascii "fork") (ascii "a (fetch) b "), .push (ascii "backup") (ascii "c")]
  fetched := by decide
  pushed_name := by
    simp only [List.mem_cons, RemoteLine.push.injEq, reduceCtorEq, List.not_mem_nil, or_false,
      false_or]
    rintro name url (⟨rfl, rfl⟩ | ⟨rfl, rfl⟩) <;> decide
  pushed_clean := by
    simp only [List.mem_cons, RemoteLine.push.injEq, reduceCtorEq, List.not_mem_nil, or_false,
      false_or]
    rintro name url (⟨rfl, rfl⟩ | ⟨rfl, rfl⟩) <;> decide

/-- Of the two remotes without `origin` the smaller name is preferred. -/
theorem forkedListing_prefers_backup :
    forkedRemotes.Prefers
      (check (fun _ _ _ => completedResult (forkedListing.text .crlf) 0) 15000 (ascii "repo")
        stillReadings).remoteName
      (check (fun _ _ _ => completedResult (forkedListing.text .crlf) 0) 15000 (ascii "repo")
        stillReadings).remoteUrl := by
  have result : runBeforeDeadline (fun _ _ _ => completedResult (forkedListing.text .crlf) 0)
      (ascii "repo") remoteArguments
      (stillReadings.started + 15000 * nanosecondsPerMillisecond) 15000 stillReadings.remote =
        completedResult (forkedListing.text .crlf) 0 := by
    apply runBeforeDeadline_eq <;> decide
  obtain ⟨-, prefers, -⟩ := check_of_remoteListing result
  exact prefers

end Cpp

end CheckGitStatus
