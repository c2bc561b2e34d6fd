import CheckGitStatus.Cpp.Process
import CheckGitStatus.Semantics.Parity

/-! # When a configured remote is seen

`git remote -v` lists the fetch URL of every remote and then its push URLs, and it
puts the filter of a partial-clone remote after the fetch marker. Both programs look
for lines that end with the marker. They see that some remote is configured exactly
when the fetch line of some remote ends there and has a URL that is not blank
(`CheckGitStatus.hasRemote_of_listing_iff`).
-/

namespace CheckGitStatus

open Library

/-- A configured remote as git lists it. -/
structure ListedRemote where
  name : Text
  url : Text
  filter : Option Text
  pushUrls : List Text
  name_clean : ∀ byte ∈ name, isBlank byte = false ∧ byte ≠ lineFeed
  url_nonempty : url ≠ []
  url_clean : lineFeed ∉ url
  filter_clean : ∀ spec ∈ filter, lineFeed ∉ spec
  pushUrls_nonempty : pushUrls ≠ []
  pushUrls_clean : ∀ url ∈ pushUrls, lineFeed ∉ url

namespace ListedRemote

/-- What follows the name in the fetch line. -/
def fetchEnd (remote : ListedRemote) : Text :=
  9 :: (remote.url ++ ascii " (fetch)" ++
    match remote.filter with
    | none => []
    | some spec => ascii " [" ++ spec ++ ascii "]")

/-- The push line of one of its URLs. -/
def pushLine (remote : ListedRemote) (url : Text) : Text :=
  remote.name ++ 9 :: (url ++ ascii " (push)")

/-- Its push lines. -/
def pushLines (remote : ListedRemote) : List Text :=
  remote.pushUrls.map remote.pushLine

/-- Its lines: the fetch line and then the push lines. -/
def lines (remote : ListedRemote) : List Text :=
  (remote.name ++ remote.fetchEnd) :: remote.pushLines

/-- The fetch line ends with the marker and its URL is not blank. -/
def Recognized (remote : ListedRemote) : Prop :=
  remote.filter = none ∧ ∃ byte ∈ remote.url, isBlank byte = false

instance (remote : ListedRemote) : Decidable remote.Recognized :=
  inferInstanceAs (Decidable (_ ∧ _))

theorem fetchEnd_clean (remote : ListedRemote) : lineFeed ∉ remote.fetchEnd := by
  unfold fetchEnd
  cases filtered : remote.filter with
  | none =>
      simp only [List.append_nil, List.mem_cons, List.mem_append, remote.url_clean, false_or]
      decide
  | some spec =>
      have clean := remote.filter_clean spec (by rw [filtered]; rfl)
      simp only [List.mem_cons, List.mem_append, remote.url_clean, clean, false_or, or_false]
      decide

/-- A name stays on its line. -/
theorem name_no_lineFeed (remote : ListedRemote) : lineFeed ∉ remote.name := by
  intro inside
  exact (remote.name_clean lineFeed inside).2 rfl

theorem lines_clean (remote : ListedRemote) : ∀ line ∈ remote.lines, lineFeed ∉ line := by
  intro line inside
  rcases List.mem_cons.mp inside with rfl | push
  · simp only [List.mem_append, remote.name_no_lineFeed, remote.fetchEnd_clean, or_self,
      not_false_eq_true]
  · obtain ⟨url, listed, rfl⟩ := List.mem_map.mp push
    have clean := remote.pushUrls_clean url listed
    simp only [pushLine, List.mem_append, List.mem_cons, remote.name_no_lineFeed, clean, false_or]
    decide

/-- The last line of a remote ends with a parenthesis. -/
theorem pushLines_eq_concat (remote : ListedRemote) :
    ∃ front last, remote.pushLines = front ++ [last ++ [41]] := by
  rcases List.eq_nil_or_concat remote.pushUrls with none | ⟨urls, url, split⟩
  · exact absurd none remote.pushUrls_nonempty
  · refine ⟨urls.map remote.pushLine, remote.name ++ 9 :: (url ++ ascii " (push"), ?_⟩
    rw [pushLines, split, List.concat_eq_append, List.map_append, List.map_singleton, pushLine]
    simp only [List.append_assoc, List.cons_append, List.append_cancel_left_eq]
    rfl

end ListedRemote

/-- The output of `git remote -v`. -/
def remoteListing (remotes : List ListedRemote) : Text :=
  (remotes.flatMap ListedRemote.lines).flatMap fun line => line ++ [lineFeed]

/-! ## Fetch lines and push lines -/

/-- A line that ends with a bracket is no fetch line. -/
theorem cppFetchLine_bracket (front : Text) : Cpp.fetchLine (front ++ [93]) = none := by
  have other : ¬ (ascii " (fetch" ++ 41 :: []) <:+ front ++ 93 :: [] :=
    not_suffix_of_ne (by decide) []
  have missed : stripSuffix (ascii " (fetch)") (front ++ [93]) = none :=
    stripSuffix_eq_none other
  rw [Cpp.fetchLine, dropCarriageReturn_concat (by decide), missed]

/-- A line that ends with the marker is a fetch line if something follows its first blanks. -/
theorem cppFetchLine_mark (front : Text) : Cpp.fetchLine (front ++ ascii " (fetch)") =
    if (front.dropWhile fun byte => !isBlank byte).dropWhile isBlank = [] then none
    else some (front.takeWhile fun byte => !isBlank byte,
      (front.dropWhile fun byte => !isBlank byte).dropWhile isBlank) := by
  have ending : front ++ ascii " (fetch)" = (front ++ ascii " (fetch") ++ [41] := by
    rw [List.append_assoc]
    rfl
  rw [Cpp.fetchLine, ending, dropCarriageReturn_concat (by decide), ← ending, stripSuffix_append]
  by_cases bare : front.dropWhile (fun byte => !isBlank byte) = []
  · simp only [bare, List.dropWhile_nil, ↓reduceIte]
  · simp only [bare, ↓reduceIte]

/-- A fetch line is recognized whatever name without blanks it starts with. -/
theorem cppFetchLine_fetchEnd (remote : ListedRemote) {name : Text}
    (clean : ∀ byte ∈ name, isBlank byte = false) :
    Cpp.fetchLine (name ++ remote.fetchEnd) =
      if remote.Recognized then some (name, remote.url.dropWhile isBlank) else none := by
  cases filtered : remote.filter with
  | some spec =>
      have whole : name ++ remote.fetchEnd =
          (name ++ 9 :: (remote.url ++ ascii " (fetch)" ++ (ascii " [" ++ spec))) ++ [93] := by
        simp only [ListedRemote.fetchEnd, filtered, List.append_assoc, List.cons_append]
        rfl
      rw [whole, cppFetchLine_bracket]
      simp only [ListedRemote.Recognized, filtered, reduceCtorEq, false_and, ↓reduceIte]
  | none =>
      have plain : name ++ remote.fetchEnd = name ++ 9 :: (remote.url ++ ascii " (fetch)") := by
        simp only [ListedRemote.fetchEnd, filtered, List.append_nil]
      rw [plain, Cpp.fetchLine_fetch clean]
      by_cases blank : remote.url.dropWhile isBlank = []
      · have every := List.dropWhile_eq_nil_iff.mp blank
        have unseen : ¬ remote.Recognized := by
          rintro ⟨-, byte, inside, visible⟩
          rw [every byte inside] at visible
          cases visible
        simp only [blank, unseen, ↓reduceIte]
      · have seen : remote.Recognized := by
          refine ⟨filtered, ?_⟩
          by_contra! every
          apply blank
          rw [List.dropWhile_eq_nil_iff]
          intro byte inside
          exact Bool.not_eq_false _ |>.mp (every byte inside)
        simp only [blank, seen, ↓reduceIte]

/-- A push line is no fetch line, whatever the URL. -/
theorem cppFetchLine_pushLine (remote : ListedRemote) (url : Text) :
    Cpp.fetchLine (remote.pushLine url) = none := by
  have marked : remote.pushLine url = (remote.name ++ 9 :: url) ++ ascii " (push)" := by
    simp only [ListedRemote.pushLine, List.append_assoc, List.cons_append]
  rw [marked, Cpp.fetchLine_push]

/-! ## Trimming -/

/-- A text without the white space that it starts with, to the C++ program. -/
def Cpp.trimStart (text : Text) : Text :=
  text.dropWhile Cpp.isSpace

/-- A text without the white space that it starts with, to the Go program. -/
def Go.trimStart (text : Text) : Text :=
  ((Go.markSpaces text).dropWhile Prod.snd).map Prod.fst

/-- How a program trims: white space at the start is dropped, up to an ASCII byte that is
not, and a text that ends with a parenthesis and a line feed loses the line feed. -/
structure Trims (trimStart trim : Text → Text) : Prop where
  append : ∀ (front : Text) {byte : Byte} (back : Text), byte < 0x80 →
    trimStart (front ++ byte :: back) =
      if trimStart front = [] then trimStart (byte :: back) else trimStart front ++ byte :: back
  skip : ∀ {byte : Byte} (back : Text), Cpp.isSpace byte = true → byte < 0x80 →
    trimStart (byte :: back) = trimStart back
  stop : ∀ {byte : Byte} (back : Text), Cpp.isSpace byte = false → byte < 0x80 →
    trimStart (byte :: back) = byte :: back
  first : ∀ (text : Text), ∀ byte ∈ (trimStart text).head?, isBlank byte = false
  part : ∀ text byte, byte ∈ trimStart text → byte ∈ text
  ending : ∀ front : Text, trim (front ++ [41, lineFeed]) ++ [lineFeed] =
    trimStart (front ++ [41, lineFeed])

/-- A blank is white space. -/
theorem isSpace_of_isBlank {byte : Byte} (blank : isBlank byte = true) :
    Cpp.isSpace byte = true ∧ byte < 0x80 := by
  simp only [isBlank, Bool.or_eq_true, beq_iff_eq] at blank
  rcases blank with rfl | rfl
  · decide
  · decide

theorem cpp_trims : Trims Cpp.trimStart Cpp.trim where
  append front byte back _ := by
    rw [Cpp.trimStart, List.dropWhile_append]
    simp only [List.isEmpty_iff]
    rfl
  skip back space _ := List.dropWhile_cons_of_pos space
  stop back visible _ := List.dropWhile_cons_of_neg (by rw [visible]; exact Bool.false_ne_true)
  first text byte head := by
    have kept := List.head?_dropWhile_not Cpp.isSpace text
    rw [← Cpp.trimStart, Option.mem_def.mp head] at kept
    change Cpp.isSpace byte = false at kept
    by_contra blank
    rw [(isSpace_of_isBlank ((Bool.not_eq_false _).mp blank)).1] at kept
    cases kept
  part text byte inside := (List.dropWhile_sublist _).subset inside
  ending front := dropBothEnds front (by decide) (by decide)

theorem go_trims : Trims Go.trimStart Go.trimSpace where
  append front byte back plain := by
    simp only [Go.trimStart, Go.markSpaces_append plain, List.dropWhile_append, List.isEmpty_iff,
      List.map_eq_nil_iff]
    split
    · rfl
    · rw [List.map_append, Go.markSpaces_map_fst]
  skip back space plain := by
    rw [Go.trimStart, Go.markSpaces_cons plain, List.dropWhile_cons_of_pos, Go.trimStart]
    exact space
  stop back visible plain := by
    rw [Go.trimStart, Go.markSpaces_cons plain, List.dropWhile_cons_of_neg, List.map_cons,
      Go.markSpaces_map_fst]
    rw [visible]
    exact Bool.false_ne_true
  first text byte head := by
    have kept := List.head?_dropWhile_not Prod.snd (Go.markSpaces text)
    rw [Go.trimStart, List.head?_map, Option.mem_def, Option.map_eq_some_iff] at head
    obtain ⟨⟨_, space⟩, first, rfl⟩ := head
    have inside := (List.dropWhile_sublist _).subset (List.mem_of_mem_head? first)
    rw [first] at kept
    change space = false at kept
    by_contra blank
    obtain ⟨isSpace, plain⟩ := isSpace_of_isBlank ((Bool.not_eq_false _).mp blank)
    rw [Go.mark_of_ascii inside plain, isSpace] at kept
    cases kept
  part text byte inside := by
    obtain ⟨mark, later, rfl⟩ := List.mem_map.mp inside
    rw [← Go.markSpaces_map_fst text]
    exact List.mem_map_of_mem ((List.dropWhile_sublist _).subset later)
  ending front := by
    have marked : Go.markSpaces (front ++ [41, lineFeed]) =
        Go.markSpaces front ++ [(41, false), (lineFeed, true)] := by
      rw [Go.markSpaces_append (by decide)]
      rfl
    have trimmed := congrArg (List.map Prod.fst)
      (@dropBothEnds _ Prod.snd (Go.markSpaces front) ((41 : Byte), false) (lineFeed, true) rfl rfl)
    rw [List.map_append] at trimmed
    rw [Go.trimSpace, Go.trimStart, marked]
    exact trimmed

/-! ## The lines of a trimmed listing -/

namespace ListedRemote

/-- The fetch marker with what follows it. -/
def fetchMark (remote : ListedRemote) : Text :=
  ascii "(fetch)" ++
    match remote.filter with
    | none => []
    | some spec => ascii " [" ++ spec ++ ascii "]"

theorem fetchEnd_eq (remote : ListedRemote) :
    remote.fetchEnd = 9 :: (remote.url ++ 32 :: remote.fetchMark) := by
  simp only [fetchEnd, fetchMark, List.append_assoc]
  rfl

/-- What is left of the fetch line at the start of a listing: a name that is white space is
lost with the tab and the white space that the URL starts with. -/
def firstSeen (trimStart : Text → Text) (remote : ListedRemote) : Text :=
  if trimStart remote.name ≠ [] then trimStart remote.name ++ remote.fetchEnd
  else if trimStart remote.url ≠ [] then trimStart remote.url ++ 32 :: remote.fetchMark
  else remote.fetchMark

/-- The fetch line at the start of a listing is recognized: it ends with the marker, and its
URL is not blank or, if the name is white space, has a blank and then something else after
its first visible byte. -/
def FirstRecognized (trimStart : Text → Text) (remote : ListedRemote) : Prop :=
  remote.filter = none ∧
    if trimStart remote.name ≠ [] then ∃ byte ∈ remote.url, isBlank byte = false
    else ((trimStart remote.url).dropWhile fun byte => !isBlank byte).dropWhile isBlank ≠ []

instance (trimStart : Text → Text) (remote : ListedRemote) :
    Decidable (remote.FirstRecognized trimStart) :=
  inferInstanceAs (Decidable (_ ∧ ite _ _ _))

end ListedRemote

/-- A listing ends with a parenthesis and a line feed. -/
theorem remoteListing_eq_concat (first : ListedRemote) (rest : List ListedRemote) :
    ∃ front, remoteListing (first :: rest) = front ++ [41, lineFeed] := by
  have ending : ∃ front last,
      (first :: rest).flatMap ListedRemote.lines = front ++ [last ++ [41]] := by
    rcases List.eq_nil_or_concat (first :: rest) with none | ⟨before, remote, split⟩
    · exact absurd none (List.cons_ne_nil _ _)
    · obtain ⟨front, last, lines⟩ := remote.pushLines_eq_concat
      refine ⟨before.flatMap ListedRemote.lines ++ (remote.name ++ remote.fetchEnd) :: front,
        last, ?_⟩
      rw [split, List.concat_eq_append, List.flatMap_append, List.flatMap_singleton,
        ListedRemote.lines, lines]
      simp only [List.append_assoc, List.cons_append]
  obtain ⟨front, last, lines⟩ := ending
  refine ⟨(front.flatMap fun line => line ++ [lineFeed]) ++ last, ?_⟩
  rw [remoteListing, lines, List.flatMap_append, List.flatMap_singleton]
  simp only [List.append_assoc]
  rfl

section Trimmed

variable {trimStart trim : Text → Text} (trims : Trims trimStart trim)
include trims

/-- Trimming the start of a listing leaves what is left of the first line. -/
theorem Trims.trimStart_line (remote : ListedRemote) (tail : Text) :
    trimStart (remote.name ++ remote.fetchEnd ++ tail) =
      remote.firstSeen trimStart ++ tail := by
  have whole : remote.name ++ remote.fetchEnd ++ tail =
      remote.name ++ 9 :: (remote.url ++ 32 :: (remote.fetchMark ++ tail)) := by
    simp only [remote.fetchEnd_eq, List.append_assoc, List.cons_append]
  rw [whole, trims.append _ _ (by decide), ListedRemote.firstSeen]
  by_cases unseen : trimStart remote.name = []
  · rw [if_pos unseen, if_neg (not_not.mpr unseen), trims.skip _ (by decide) (by decide),
      trims.append _ _ (by decide)]
    by_cases blank : trimStart remote.url = []
    · rw [if_pos blank, if_neg (not_not.mpr blank), trims.skip _ (by decide) (by decide)]
      exact trims.stop _ (by decide) (by decide)
    · rw [if_neg blank, if_pos blank]
      simp only [List.append_assoc, List.cons_append]
  · rw [if_neg unseen, if_pos unseen, remote.fetchEnd_eq]
    simp only [List.append_assoc, List.cons_append]

theorem Trims.firstSeen_clean (remote : ListedRemote) :
    lineFeed ∉ remote.firstSeen trimStart := by
  have ends := remote.fetchEnd_clean
  have mark : lineFeed ∉ remote.fetchMark := by
    intro inside
    apply ends
    rw [remote.fetchEnd_eq]
    exact List.mem_cons_of_mem _ (List.mem_append_right _ (List.mem_cons_of_mem _ inside))
  unfold ListedRemote.firstSeen
  split
  · rw [List.mem_append, not_or]
    exact ⟨fun inside => remote.name_no_lineFeed (trims.part _ _ inside), ends⟩
  · split
    · rw [List.mem_append, List.mem_cons, not_or, not_or]
      exact ⟨fun inside => remote.url_clean (trims.part _ _ inside), by decide, mark⟩
    · exact mark

/-- The lines of a trimmed listing are those of the listing but for the first. -/
theorem Trims.splitOn_listing (first : ListedRemote) (rest : List ListedRemote) :
    (trim (remoteListing (first :: rest))).splitOn lineFeed =
      first.firstSeen trimStart :: (first.pushLines ++ rest.flatMap ListedRemote.lines) := by
  have clean : ∀ line ∈ first.firstSeen trimStart ::
      (first.pushLines ++ rest.flatMap ListedRemote.lines), lineFeed ∉ line := by
    intro line inside
    rcases List.mem_cons.mp inside with rfl | later
    · exact trims.firstSeen_clean first
    rcases List.mem_append.mp later with push | other
    · exact first.lines_clean line (List.mem_cons_of_mem _ push)
    · obtain ⟨remote, _, own⟩ := List.mem_flatMap.mp other
      exact remote.lines_clean line own
  obtain ⟨front, ending⟩ := remoteListing_eq_concat first rest
  have trimmed : trim (remoteListing (first :: rest)) ++ [lineFeed] =
      (first.firstSeen trimStart :: (first.pushLines ++ rest.flatMap ListedRemote.lines)).flatMap
        fun line => line ++ [lineFeed] := by
    have whole : remoteListing (first :: rest) = first.name ++ first.fetchEnd ++ lineFeed ::
        (first.pushLines ++ rest.flatMap ListedRemote.lines).flatMap
          fun line => line ++ [lineFeed] := by
      simp only [remoteListing, List.flatMap_cons, ListedRemote.lines, List.cons_append,
        List.append_assoc, List.nil_append]
    rw [ending, trims.ending, ← ending, whole, trims.trimStart_line, List.flatMap_cons]
    simp only [List.append_assoc, List.cons_append, List.nil_append]
  have lines := splitOn_joinLines _ clean
  rw [← trimmed, List.splitOn_append_cons_self] at lines
  exact List.append_cancel_right lines

end Trimmed

/-! ## The remotes that are seen -/

/-- A fetch line with its name in front is accepted exactly if the remote is recognized. -/
theorem isSome_cppFetchLine_fetchEnd {remote : ListedRemote} {name : Text}
    (clean : ∀ byte ∈ name, isBlank byte = false) :
    (Cpp.fetchLine (name ++ remote.fetchEnd)).isSome = true ↔ remote.Recognized := by
  rw [cppFetchLine_fetchEnd remote clean]
  split_ifs with recognized
  · exact iff_of_true rfl recognized
  · exact iff_of_false Bool.false_ne_true recognized

/-- A line that ends with a filter is no fetch line. -/
theorem cppFetchLine_fetchMark_of_filter {remote : ListedRemote} {spec : Text}
    (filtered : remote.filter = some spec) (front : Text) :
    Cpp.fetchLine (front ++ remote.fetchMark) = none := by
  have whole : front ++ remote.fetchMark =
      (front ++ (ascii "(fetch)" ++ (ascii " [" ++ spec))) ++ [93] := by
    simp only [ListedRemote.fetchMark, filtered, List.append_assoc]
    rfl
  rw [whole, cppFetchLine_bracket]

/-- A URL without a name in front of it is a fetch line exactly if it is cut at a blank, and
then its first part is taken for the name. -/
theorem cppFetchLine_url {trimStart trim : Text → Text} (trims : Trims trimStart trim)
    {url : Text} (left : trimStart url ≠ []) :
    ((Cpp.fetchLine (trimStart url ++ 32 :: ascii "(fetch)")).isSome = true ↔
        ((trimStart url).dropWhile fun byte => !isBlank byte).dropWhile isBlank ≠ []) ∧
      ∀ found ∈ Cpp.fetchLine (trimStart url ++ 32 :: ascii "(fetch)"), isNamed found = true := by
  have marked : trimStart url ++ 32 :: ascii "(fetch)" = trimStart url ++ ascii " (fetch)" := rfl
  rw [marked, cppFetchLine_mark]
  by_cases bare : ((trimStart url).dropWhile fun byte => !isBlank byte).dropWhile isBlank = []
  · rw [if_pos bare]
    exact ⟨iff_of_false Bool.false_ne_true fun cut => cut bare,
      fun found absent => absurd absent (Option.not_mem_none found)⟩
  · rw [if_neg bare]
    refine ⟨iff_of_true rfl bare, fun found inside => ?_⟩
    cases inside
    obtain ⟨first, rest, split⟩ := List.exists_cons_of_ne_nil left
    have visible := trims.first url first (by rw [split]; rfl)
    rw [isNamed, decide_eq_true_eq, split, List.takeWhile_cons_of_pos]
    · exact List.cons_ne_nil _ _
    · rw [visible]
      rfl

/-- What is left of the first fetch line is a fetch line exactly if it is recognized, and
then one with a name. -/
theorem fetchLine_firstSeen {trimStart trim : Text → Text} (trims : Trims trimStart trim)
    (remote : ListedRemote) :
    ((Cpp.fetchLine (remote.firstSeen trimStart)).isSome = true ↔
        remote.FirstRecognized trimStart) ∧
      ∀ found ∈ Cpp.fetchLine (remote.firstSeen trimStart), isNamed found = true := by
  unfold ListedRemote.firstSeen ListedRemote.FirstRecognized
  by_cases named : trimStart remote.name ≠ []
  · have clean : ∀ byte ∈ trimStart remote.name, isBlank byte = false := fun byte inside =>
      (remote.name_clean byte (trims.part _ _ inside)).1
    rw [if_pos named, if_pos named, isSome_cppFetchLine_fetchEnd clean]
    refine ⟨Iff.rfl, fun found inside => ?_⟩
    rw [cppFetchLine_fetchEnd remote clean, Option.mem_def,
      Option.ite_none_right_eq_some] at inside
    rw [← Option.some.inj inside.2, isNamed, decide_eq_true_eq]
    exact named
  rw [if_neg named, if_neg named]
  cases filtered : remote.filter with
  | some spec =>
      have missed : Cpp.fetchLine (if trimStart remote.url ≠ [] then
          trimStart remote.url ++ 32 :: remote.fetchMark else remote.fetchMark) = none := by
        split
        · rw [← List.singleton_append, ← List.append_assoc]
          exact cppFetchLine_fetchMark_of_filter filtered _
        · exact cppFetchLine_fetchMark_of_filter filtered []
      rw [missed]
      exact ⟨iff_of_false Bool.false_ne_true fun both => absurd both.1 (Option.some_ne_none spec),
        fun found absent => absurd absent (Option.not_mem_none found)⟩
  | none =>
      have mark : remote.fetchMark = ascii "(fetch)" := by
        rw [ListedRemote.fetchMark, filtered, List.append_nil]
      rw [mark]
      by_cases left : trimStart remote.url ≠ []
      · rw [if_pos left]
        obtain ⟨cut, isNamed⟩ := cppFetchLine_url trims left
        exact ⟨cut.trans (and_iff_right rfl).symm, isNamed⟩
      · rw [if_neg left, not_not.mp left]
        exact ⟨iff_of_false (by decide) fun both => both.2 rfl, by decide⟩

/-- A reader of lines that recognizes some first lines, some other fetch lines and no push
line finds something in a trimmed listing exactly when there is such a line. -/
theorem filterMap_listing_ne_nil_iff {fetchLine : Text → Option (Text × Text)}
    {trimStart trim : Text → Text} {later : ListedRemote → Prop} (trims : Trims trimStart trim)
    (firsts : ∀ remote : ListedRemote, (fetchLine (remote.firstSeen trimStart)).isSome = true ↔
      remote.FirstRecognized trimStart)
    (fetches : ∀ remote : ListedRemote,
      (fetchLine (remote.name ++ remote.fetchEnd)).isSome = true ↔ later remote)
    (pushes : ∀ (remote : ListedRemote) (url : Text), fetchLine (remote.pushLine url) = none)
    {remotes : List ListedRemote} (some : remotes ≠ []) :
    ((trim (remoteListing remotes)).splitOn lineFeed).filterMap fetchLine ≠ [] ↔
      (∃ first ∈ remotes.head?, first.FirstRecognized trimStart) ∨
        ∃ remote ∈ remotes.tail, later remote := by
  obtain ⟨first, rest, rfl⟩ := List.exists_cons_of_ne_nil some
  have found : ∀ lines : List Text, lines.filterMap fetchLine ≠ [] ↔
      ∃ line ∈ lines, (fetchLine line).isSome = true := by
    intro lines
    simp only [ne_eq, List.filterMap_eq_nil_iff, not_forall, exists_prop, Option.isSome_iff_ne_none]
  have pushLines : ∀ remote : ListedRemote, ∀ line ∈ remote.pushLines,
      ¬ (fetchLine line).isSome = true := by
    intro remote line inside
    obtain ⟨url, _, rfl⟩ := List.mem_map.mp inside
    rw [pushes]
    exact Bool.false_ne_true
  rw [found, trims.splitOn_listing]
  constructor
  · rintro ⟨line, inside, seen⟩
    rcases List.mem_cons.mp inside with rfl | other
    · exact .inl ⟨first, rfl, (firsts first).mp seen⟩
    rcases List.mem_append.mp other with push | other
    · exact absurd seen (pushLines first line push)
    · obtain ⟨remote, listed, own⟩ := List.mem_flatMap.mp other
      rcases List.mem_cons.mp own with rfl | push
      · exact .inr ⟨remote, listed, (fetches remote).mp seen⟩
      · exact absurd seen (pushLines remote line push)
  · rintro (⟨_, isFirst, recognized⟩ | ⟨remote, listed, recognized⟩)
    · cases isFirst
      exact ⟨_, List.mem_cons_self, (firsts first).mpr recognized⟩
    · exact ⟨_, List.mem_cons_of_mem _ (List.mem_append_right _
        (List.mem_flatMap.mpr ⟨remote, listed, List.mem_cons_self⟩)),
        (fetches remote).mpr recognized⟩

/-- The C++ program finds a fetch line exactly when it recognizes a remote. -/
theorem cppFetchLines_listing_ne_nil_iff {remotes : List ListedRemote} (some : remotes ≠ []) :
    Cpp.fetchLines (Cpp.trim (remoteListing remotes)) ≠ [] ↔
      (∃ first ∈ remotes.head?, first.FirstRecognized Cpp.trimStart) ∨
        ∃ remote ∈ remotes.tail, remote.Recognized := by
  rw [Cpp.fetchLines, filterMap_getlines Cpp.fetchLine (by decide)]
  refine filterMap_listing_ne_nil_iff cpp_trims (fun remote => ?_) (fun remote => ?_)
    cppFetchLine_pushLine some
  · exact (fetchLine_firstSeen cpp_trims remote).1
  · exact isSome_cppFetchLine_fetchEnd fun byte inside => (remote.name_clean byte inside).1

/-- The Go program finds a fetch line exactly when it recognizes a remote that has a name. -/
theorem goFetchLines_listing_ne_nil_iff {remotes : List ListedRemote} (some : remotes ≠ []) :
    Go.fetchLines (Go.trimSpace (remoteListing remotes)) ≠ [] ↔
      (∃ first ∈ remotes.head?, first.FirstRecognized Go.trimStart) ∨
        ∃ remote ∈ remotes.tail, remote.name ≠ [] ∧ remote.Recognized := by
  rw [Go.fetchLines, Go.splitLines]
  refine filterMap_listing_ne_nil_iff go_trims (fun remote => ?_) (fun remote => ?_)
    (fun remote url => ?_) some
  · obtain ⟨recognized, named⟩ := fetchLine_firstSeen go_trims remote
    rw [goFetchLine_eq, ← recognized]
    cases found : Cpp.fetchLine (remote.firstSeen Go.trimStart) with
    | none => rfl
    | some remote => rw [Option.filter_some, if_pos (named remote found)]
  · have clean : ∀ byte ∈ remote.name, isBlank byte = false :=
      fun byte inside => (remote.name_clean byte inside).1
    rw [goFetchLine_eq, cppFetchLine_fetchEnd remote clean]
    split_ifs with recognized
    · by_cases named : remote.name = []
      · simp only [Option.filter_some, isNamed, named, ne_eq, not_true_eq_false, decide_false,
          Bool.false_eq_true, ↓reduceIte, Option.isSome_none, false_and]
      · simp only [Option.filter_some, isNamed, named, ne_eq, not_false_eq_true, decide_true,
          ↓reduceIte, Option.isSome_some, recognized, and_self]
    · exact iff_of_false Bool.false_ne_true fun both => recognized both.2
  · rw [goFetchLine_eq, cppFetchLine_pushLine]
    rfl

/-- **When a configured remote counts as one.** After a successful `git remote -v`
either program reports a remote exactly for a non-empty list of remotes if and only if
the list is empty, the fetch line of the first remote is recognized as the program trims
it, or that of another remote is, which to the Go program needs a name. -/
theorem hasRemote_of_listing_iff {cppRunner : Cpp.GitRunner} {timeout : Int} {path : Path}
    {readings : Cpp.Readings} {goRunner : Go.GitRunner} {remotes : List ListedRemote}
    (quote : Text → Text)
    (cppResult : Cpp.runBeforeDeadline cppRunner path Cpp.remoteArguments
      (readings.started + timeout * Cpp.nanosecondsPerMillisecond) timeout readings.remote =
        Cpp.completedResult (remoteListing remotes) 0)
    (goResult : goRunner path Go.remoteArguments = .ok (Go.trimSpace (remoteListing remotes))) :
    (((Cpp.check cppRunner timeout path readings).hasRemote = true ↔ remotes ≠ []) ↔
      remotes = [] ∨ (∃ first ∈ remotes.head?, first.FirstRecognized Cpp.trimStart) ∨
        ∃ remote ∈ remotes.tail, remote.Recognized) ∧
    (((Go.check quote goRunner path).hasRemote = true ↔ remotes ≠ []) ↔
      remotes = [] ∨ (∃ first ∈ remotes.head?, first.FirstRecognized Go.trimStart) ∨
        ∃ remote ∈ remotes.tail, remote.name ≠ [] ∧ remote.Recognized) := by
  have completed : Cpp.completedResult (remoteListing remotes) 0 =
      { output := Cpp.trim (remoteListing remotes), exitCode := 0 } := rfl
  rw [completed] at cppResult
  rw [Cpp.check_hasRemote_iff cppResult, Go.check_hasRemote_iff quote goResult]
  by_cases some : remotes = []
  · subst some
    exact ⟨iff_of_true (by decide) (.inl rfl), iff_of_true (by decide) (.inl rfl)⟩
  · rw [cppFetchLines_listing_ne_nil_iff some, goFetchLines_listing_ne_nil_iff some]
    simp only [ne_eq, some, not_false_eq_true, iff_true, false_or, and_self]

/-- A remote `origin`, with or without a filter. -/
def originRemote (filter : Option Text) (clean : ∀ spec ∈ filter, lineFeed ∉ spec) :
    ListedRemote where
  name := ascii "origin"
  url := ascii "https://host/repo.git"
  filter
  pushUrls := [ascii "https://host/repo.git"]
  name_clean byte inside := by
    have clean : (ascii "origin").all (fun byte => !isBlank byte && byte != lineFeed) = true := by
      decide
    simpa using List.all_eq_true.mp clean byte inside
  url_nonempty := by decide
  url_clean := by decide
  filter_clean := clean
  pushUrls_nonempty := by decide
  pushUrls_clean := by decide

/-- The remote of an ordinary clone. -/
def plainOrigin : ListedRemote :=
  originRemote none (by decide)

/-- The remote of a clone that was made with `--filter=blob:none`. -/
def partialCloneOrigin : ListedRemote :=
  originRemote (some (ascii "blob:none")) (by decide)

/-- Both programs see the remote of an ordinary clone. -/
theorem plainOrigin_hasRemote :
    (Cpp.check (fun _ _ _ => Cpp.completedResult (remoteListing [plainOrigin]) 0) 15000
      (ascii "repo") Cpp.stillReadings).hasRemote = true ∧
    (Go.check id (Go.execRun fun _ => (remoteListing [plainOrigin], none))
      (ascii "repo")).hasRemote = true := by
  have cppResult : Cpp.runBeforeDeadline
      (fun _ _ _ => Cpp.completedResult (remoteListing [plainOrigin]) 0) (ascii "repo")
      Cpp.remoteArguments (Cpp.stillReadings.started + 15000 * Cpp.nanosecondsPerMillisecond)
      15000 Cpp.stillReadings.remote = Cpp.completedResult (remoteListing [plainOrigin]) 0 := by
    decide
  have goResult : Go.execRun (fun _ => (remoteListing [plainOrigin], none)) (ascii "repo")
      Go.remoteArguments = .ok (Go.trimSpace (remoteListing [plainOrigin])) := by decide
  obtain ⟨cpp, go⟩ := hasRemote_of_listing_iff id cppResult goResult
  exact ⟨(cpp.mpr (.inr (.inl ⟨plainOrigin, rfl, by decide⟩))).mpr (List.cons_ne_nil _ _),
    (go.mpr (.inr (.inl ⟨plainOrigin, rfl, by decide⟩))).mpr (List.cons_ne_nil _ _)⟩

/-- The only remote of a partial clone is not seen. -/
theorem partialCloneOrigin_not_seen :
    ¬ ((Cpp.check (fun _ _ _ => Cpp.completedResult (remoteListing [partialCloneOrigin]) 0) 15000
        (ascii "repo") Cpp.stillReadings).hasRemote = true ↔ [partialCloneOrigin] ≠ []) ∧
    ¬ ((Go.check id (Go.execRun fun _ => (remoteListing [partialCloneOrigin], none))
        (ascii "repo")).hasRemote = true ↔ [partialCloneOrigin] ≠ []) := by
  refine ⟨fun same => ?_, fun same => ?_⟩
  · exact absurd (same.mpr (List.cons_ne_nil _ _)) (by decide)
  · exact absurd (same.mpr (List.cons_ne_nil _ _)) (by decide)

end CheckGitStatus
