import CheckGitStatus.Cpp.Discovery

/-! # Links below the scan root

A link is not followed, but the status of its target is asked for. When that fails with
another error than that of a dangling link, a warning remains. A link may also fill in what
an older dangling link lacks, which may be a `.git`. Otherwise a tree to which links are
added is scanned as the tree without them
(`CheckGitStatus.Cpp.discoverRepositories_addsLinks_iff`).
-/

namespace CheckGitStatus.Cpp

open Library

/-- The entry is a link whose target does not exist. -/
def Dangles (entry : Entry) : Bool :=
  match entry.kind with
  | .link (.error error) => error.isNoSuchFile
  | _ => false

/-- What an entry may become when links are added elsewhere: a dangling link may find a
target, or another reason not to. -/
structure Relinks (before after : Entry) : Prop where
  name : after.name = before.name
  kind : after.kind = before.kind ∨
    Dangles before = true ∧ ∃ target, after.kind = .link target

/-- `linked` is `plain` with the links `added` in the directories that a scan from `root`
inspects. No link is named `.git`. What a path leads to changes only where it did not exist:
the old entries of a directory become those that `relinked` says. -/
structure AddsLinks (plain linked : FileSystem) (root : Path) (added : Path → List Entry)
    (relinked : Path → Entry → Entry) : Prop where
  currentPath : linked.currentPath = plain.currentPath
  rootStatus : linked.status root = plain.status root
  isLink : ∀ directory, ∀ entry ∈ added directory, ∃ target, entry.kind = .link target
  otherName : ∀ directory, ∀ entry ∈ added directory, entry.name ≠ ascii ".git"
  marker : ∀ directory, plain.Inspected root directory →
    linked.status (joinPath directory (ascii ".git")) =
        plain.status (joinPath directory (ascii ".git")) ∨
      ∃ error, plain.status (joinPath directory (ascii ".git")) = .error error ∧
        error.isNoSuchFile = true
  relinks : ∀ directory, plain.Inspected root directory →
    ∀ entry ∈ (plain.listing directory).entries, Relinks entry (relinked directory entry)
  entries : ∀ directory, plain.Inspected root directory →
    (linked.listing directory).entries.Perm
      ((plain.listing directory).entries.map (relinked directory) ++ added directory)
  failure : ∀ directory, plain.Inspected root directory →
    (linked.listing directory).failure = (plain.listing directory).failure

/-- A link leads somewhere or dangles: resolving it fails with no other error. -/
def ResolvesOrDangles (entry : Entry) : Prop :=
  ∀ error, entry.kind = .link (.error error) → error.isNoSuchFile = true

/-- The links make no difference that the scan sees. A `.git` that did not exist still does
not, or leads to neither a directory nor a regular file; and in the directories that are
listed every added link, and every old one that dangled, leads somewhere or dangles. -/
structure LinksUnseen (plain linked : FileSystem) (root : Path) (added : Path → List Entry)
    (relinked : Path → Entry → Entry) : Prop where
  marker : ∀ directory, plain.Inspected root directory →
    ∀ error, plain.status (joinPath directory (ascii ".git")) = .error error →
      error.isNoSuchFile = true →
        linked.status (joinPath directory (ascii ".git")) = .ok .other ∨
          ∃ other, linked.status (joinPath directory (ascii ".git")) = .error other ∧
            other.isNoSuchFile = true
  added : ∀ directory, plain.Inspected root directory → plain.hasMarker directory = false →
    ∀ entry ∈ added directory, ResolvesOrDangles entry
  dangling : ∀ directory, plain.Inspected root directory → plain.hasMarker directory = false →
    ∀ entry ∈ (plain.listing directory).entries, Dangles entry = true →
      ResolvesOrDangles (relinked directory entry)

/-- The results of two discoveries agree up to the order of the warnings. -/
structure SameUpToOrder (left right : DiscoveryResult) : Prop where
  error : left.error = right.error
  repositories : left.repositories = right.repositories
  warnings : left.warnings.Perm right.warnings

/-! ## The warnings that links add -/

/-- The warning for the `.git` of a directory that did not exist before. -/
def newMarkerWarnings (plain linked : FileSystem) (directory : Path) : List Text :=
  match plain.status (joinPath directory (ascii ".git")) with
  | .error error => if error.isNoSuchFile then markerWarnings linked directory else []
  | .ok _ => []

/-- The warnings for a link that dangled before. -/
def relinkedWarnings (relinked : Path → Entry → Entry) (directory : Path) (entry : Entry) :
    List Text :=
  if Dangles entry then entryWarnings directory (relinked directory entry) else []

/-- The warnings that the links add to those of a directory. -/
def addedWarnings (plain linked : FileSystem) (added : Path → List Entry)
    (relinked : Path → Entry → Entry) (directory : Path) : List Text :=
  if isEntered plain directory then
    newMarkerWarnings plain linked directory ++
    ((plain.listing directory).entries.flatMap (relinkedWarnings relinked directory) ++
      (added directory).flatMap (entryWarnings directory))
  else []

/-- An entry is warned of exactly if it is a link that fails with another error
than dangling. -/
theorem entryWarnings_eq_nil_iff {directory : Path} {entry : Entry} :
    entryWarnings directory entry = [] ↔ ResolvesOrDangles entry := by
  rw [List.eq_nil_iff_forall_not_mem]
  simp only [mem_entryWarnings_iff, not_exists, not_and]
  constructor
  · intro silent error failed
    by_contra isFailure
    exact silent _ error failed ((Bool.not_eq_true _).mp isFailure) rfl
  · intro resolves warning error failed isFailure
    rw [resolves error failed] at isFailure
    cases isFailure

/-- A marker is warned of exactly if its status fails with another error than that
there is none. -/
theorem markerWarnings_eq_nil_iff {files : FileSystem} {directory : Path} :
    markerWarnings files directory = [] ↔
      ∀ error, files.status (joinPath directory (ascii ".git")) = .error error →
        error.isNoSuchFile = true := by
  rw [List.eq_nil_iff_forall_not_mem]
  simp only [mem_markerWarnings_iff, not_exists, not_and]
  constructor
  · intro silent error failed
    by_contra isFailure
    exact silent _ error failed ((Bool.not_eq_true _).mp isFailure) rfl
  · intro resolves warning error failed isFailure
    rw [resolves error failed] at isFailure
    cases isFailure

/-- A directory with a `.git` that does not exist has no marker. -/
theorem hasMarker_of_noSuchFile {files : FileSystem} {directory : Path} {error : ErrorCode}
    (missing : files.status (joinPath directory (ascii ".git")) = .error error) :
    files.hasMarker directory = false := by
  rw [FileSystem.hasMarker, missing]

/-- A status that is no marker and leads to no warning. -/
theorem unseen_iff {files : FileSystem} {directory : Path} :
    files.hasMarker directory = false ∧ markerWarnings files directory = [] ↔
      files.status (joinPath directory (ascii ".git")) = .ok .other ∨
        ∃ other, files.status (joinPath directory (ascii ".git")) = .error other ∧
          other.isNoSuchFile = true := by
  rw [markerWarnings_eq_nil_iff, FileSystem.hasMarker]
  cases files.status (joinPath directory (ascii ".git")) with
  | error error => simp
  | ok type => cases type <;> simp

/-! ## One directory with added links -/

/-- An old entry is pushed as before, for a directory stays one and a link a link. -/
theorem Relinks.pushedPath_eq {before after : Entry} (relinks : Relinks before after)
    (directory : Path) : pushedPath directory after = pushedPath directory before := by
  have real : after.kind = .directory ↔ before.kind = .directory := by
    rcases relinks.kind with same | ⟨dangles, target, link⟩
    · rw [same]
    · rw [link]
      refine iff_of_false nofun fun real => ?_
      rw [Dangles, real] at dangles
      cases dangles
  refine Option.ext fun child => ?_
  rw [pushedPath_eq_some_iff, pushedPath_eq_some_iff, real, relinks.name]

/-- Only an entry that dangled may lead to a warning that it did not lead to before. -/
theorem Relinks.entryWarnings_eq {relinked : Path → Entry → Entry} {directory : Path}
    {entry : Entry} (relinks : Relinks entry (relinked directory entry)) :
    entryWarnings directory (relinked directory entry) =
      entryWarnings directory entry ++ relinkedWarnings relinked directory entry := by
  unfold relinkedWarnings
  split
  · rename_i dangles
    have silent : entryWarnings directory entry = [] := by
      refine entryWarnings_eq_nil_iff.mpr fun error failed => ?_
      rw [Dangles, failed] at dangles
      exact dangles
    rw [silent, List.nil_append]
  · rename_i resolved
    rw [List.append_nil]
    rcases relinks.kind with same | ⟨dangles, _⟩
    · rw [entryWarnings, entryWarnings, relinks.pushedPath_eq, same, relinks.name]
    · exact absurd dangles resolved

namespace AddsLinks

variable {plain linked : FileSystem} {root directory : Path} {added : Path → List Entry}
  {relinked : Path → Entry → Entry} (adds : AddsLinks plain linked root added relinked)
include adds

/-- A marker stays one. -/
theorem hasMarker_of_plain (inspected : plain.Inspected root directory)
    (marked : plain.hasMarker directory = true) : linked.hasMarker directory = true := by
  rcases adds.marker directory inspected with same | ⟨error, missing, _⟩
  · rw [FileSystem.hasMarker, same]
    exact marked
  · rw [hasMarker_of_noSuchFile missing] at marked
    cases marked

/-- The directories that are pushed for the entries of a directory stay the same. -/
theorem filterMap_pushedPath_perm (inspected : plain.Inspected root directory) :
    ((linked.listing directory).entries.filterMap (pushedPath directory)).Perm
      ((plain.listing directory).entries.filterMap (pushedPath directory)) := by
  have links : (added directory).filterMap (pushedPath directory) = [] := by
    rw [List.filterMap_eq_nil_iff]
    intro entry inside
    obtain ⟨target, link⟩ := adds.isLink directory entry inside
    cases pushed : pushedPath directory entry with
    | none => rfl
    | some child =>
        obtain ⟨real, _⟩ := pushedPath_eq_some_iff.mp pushed
        rw [link] at real
        cases real
  have pushed := (adds.entries directory inspected).filterMap (pushedPath directory)
  rw [List.filterMap_append, links, List.append_nil, List.filterMap_map] at pushed
  refine pushed.trans (List.Perm.of_eq (List.filterMap_congr fun entry inside => ?_))
  exact (adds.relinks directory inspected entry inside).pushedPath_eq directory

/-- No directory is pushed that was not pushed before. -/
theorem children_subset (reached : StackSearch.Reaches (children plain) root directory) :
    ∀ child ∈ children linked directory, child ∈ children plain directory := by
  intro child below
  unfold children at below ⊢
  split at below
  · rename_i entered
    obtain ⟨included, unmarked⟩ := isEntered_iff.mp entered
    have inspected := (children_scanExpansion plain).inspected_iff.mpr ⟨reached, included⟩
    have plainUnmarked : plain.hasMarker directory = false := by
      by_contra marked
      rw [adds.hasMarker_of_plain inspected ((Bool.not_eq_false _).mp marked)] at unmarked
      cases unmarked
    rw [if_pos (isEntered_iff.mpr ⟨included, plainUnmarked⟩), List.mem_reverse]
    exact (adds.filterMap_pushedPath_perm inspected).mem_iff.mp (List.mem_reverse.mp below)
  · exact absurd below List.not_mem_nil

/-- Only a `.git` that did not exist may lead to a warning that it did not lead to before. -/
theorem markerWarnings_eq (inspected : plain.Inspected root directory) :
    markerWarnings linked directory =
      markerWarnings plain directory ++ newMarkerWarnings plain linked directory := by
  unfold newMarkerWarnings
  rcases adds.marker directory inspected with same | ⟨error, missing, noSuchFile⟩
  · have kept : markerWarnings linked directory = markerWarnings plain directory := by
      rw [markerWarnings, markerWarnings, same]
    rw [kept]
    cases found : plain.status (joinPath directory (ascii ".git")) with
    | ok type => rw [List.append_nil]
    | error error =>
        dsimp only
        split
        · rename_i noSuchFile
          have silent : markerWarnings plain directory = [] := by
            refine markerWarnings_eq_nil_iff.mpr fun other failed => ?_
            rw [found] at failed
            cases failed
            exact noSuchFile
          rw [silent, List.append_nil]
        · rw [List.append_nil]
  · have silent : markerWarnings plain directory = [] := by
      refine markerWarnings_eq_nil_iff.mpr fun other failed => ?_
      rw [missing] at failed
      cases failed
      exact noSuchFile
    rw [silent, missing, List.nil_append]
    exact (if_pos noSuchFile).symm

/-- The links add their own warnings to those of a directory that stays unmarked. -/
theorem directoryWarnings_perm (reached : StackSearch.Reaches (children plain) root directory)
    (same : isEntered linked directory = isEntered plain directory) :
    (directoryWarnings linked directory).Perm (directoryWarnings plain directory ++
      addedWarnings plain linked added relinked directory) := by
  unfold directoryWarnings addedWarnings
  rw [same]
  split
  · rename_i entered
    have inspected := (children_scanExpansion plain).inspected_iff.mpr
      ⟨reached, (isEntered_iff.mp entered).1⟩
    have old : ((plain.listing directory).entries.flatMap fun entry =>
          entryWarnings directory (relinked directory entry)).Perm
        ((plain.listing directory).entries.flatMap (entryWarnings directory) ++
          (plain.listing directory).entries.flatMap (relinkedWarnings relinked directory)) := by
      refine List.Perm.trans (List.Perm.of_eq ?_) (List.flatMap_append_perm _ _ _).symm
      exact List.flatMap_congr fun entry inside =>
        (adds.relinks directory inspected entry inside).entryWarnings_eq
    have shown := (adds.entries directory inspected).flatMap_right (entryWarnings directory)
    rw [List.flatMap_append, List.flatMap_map] at shown
    have listed := shown.trans (old.append_right _)
    rw [adds.markerWarnings_eq inspected, adds.failure directory inspected]
    refine ((listed.append_left _).append_right _).trans ?_
    -- the new warnings are moved to the end
    simp only [List.append_assoc]
    refine List.Perm.append_left _ (List.Perm.trans (List.perm_append_comm_assoc _ _ _) ?_)
    refine List.Perm.append_left _ ?_
    rw [← List.append_assoc, ← List.append_assoc]
    exact List.perm_append_comm.trans (List.Perm.append_left _ (List.Perm.of_eq
      (List.append_assoc _ _ _)))
  · exact List.Perm.nil

end AddsLinks

/-! ## The whole scan with added links -/

/-- The directories that the scan of the tree without the links reaches are reported alike. -/
def ReportsAlike (plain linked : FileSystem) (root : Path) : Prop :=
  ∀ directory, StackSearch.Reaches (children plain) root directory →
    isReported linked directory = isReported plain directory

/-- Where the same directories are reported, the same are entered. -/
theorem isEntered_eq {plain linked : FileSystem} {directory : Path}
    (same : isReported linked directory = isReported plain directory) :
    isEntered linked directory = isEntered plain directory := by
  unfold isReported at same
  unfold isEntered
  cases included : isExcludedScanDirectory directory with
  | true => rfl
  | false =>
      rw [included, Bool.not_false, Bool.true_and, Bool.true_and] at same
      rw [same]

namespace AddsLinks

variable {plain linked : FileSystem} {root directory : Path} {added : Path → List Entry}
  {relinked : Path → Entry → Entry} (adds : AddsLinks plain linked root added relinked)
include adds

/-- Where the directories are reported alike, the same ones are pushed. -/
theorem children_perm (alike : ReportsAlike plain linked root)
    (reached : StackSearch.Reaches (children plain) root directory) :
    (children plain directory).Perm (children linked directory) := by
  unfold children
  rw [isEntered_eq (alike directory reached)]
  split
  · rename_i entered
    have inspected := (children_scanExpansion plain).inspected_iff.mpr
      ⟨reached, (isEntered_iff.mp entered).1⟩
    exact ((List.reverse_perm _).trans (adds.filterMap_pushedPath_perm inspected).symm).trans
      (List.reverse_perm _).symm
  · exact List.Perm.nil

/-- Scans that find the same repositories report alike every directory that the first one
reaches: up to the first that is not, both reach the same. -/
theorem reportsAlike_of_repositories {visits linkedVisits : List Path}
    (worksOff : StackSearch.WorksOff (children plain) [root] visits)
    (linkedWorksOff : StackSearch.WorksOff (children linked) [root] linkedVisits)
    (same : (resultOf plain visits).repositories = (resultOf linked linkedVisits).repositories) :
    ReportsAlike plain linked root := by
  have found : ∀ {files : FileSystem} {visits : List Path} {directory : Path},
      StackSearch.WorksOff (children files) [root] visits →
      (directory ∈ (resultOf files visits).repositories ↔
        StackSearch.Reaches (children files) root directory ∧ isReported files directory = true) := by
    intro files visits directory worksOff
    rw [resultOf, (sortByKey_perm _ _).mem_iff, List.mem_filter,
      StackSearch.mem_visited_iff worksOff.run]
  have reported : ∀ {directory}, StackSearch.Reaches (children plain) root directory →
      StackSearch.Reaches (children linked) root directory →
        isReported linked directory = isReported plain directory := by
    intro directory reached linkedReached
    rw [Bool.eq_iff_iff]
    have members := @found _ _ directory worksOff
    rw [same, found linkedWorksOff] at members
    simpa only [reached, linkedReached, true_and] using members
  have both : ∀ directory, StackSearch.Reaches (children plain) root directory →
      StackSearch.Reaches (children linked) root directory := by
    intro directory reached
    induction reached with
    | refl => exact .refl
    | @tail parent child above below ih =>
        refine ih.tail ?_
        obtain ⟨entered, _⟩ := mem_children_iff.mp below
        have inspected := (children_scanExpansion plain).inspected_iff.mpr
          ⟨above, (isEntered_iff.mp entered).1⟩
        have linkedEntered := (isEntered_eq (reported above ih)).trans entered
        rw [children, if_pos entered, List.mem_reverse] at below
        rw [children, if_pos linkedEntered, List.mem_reverse]
        exact (adds.filterMap_pushedPath_perm inspected).mem_iff.mpr below
  exact fun directory reached => reported reached (both directory reached)

/-- A `.git` that did not exist is unseen exactly if it is no marker and leads to no warning. -/
theorem marker_unseen_iff (inspected : plain.Inspected root directory) :
    (∀ error, plain.status (joinPath directory (ascii ".git")) = .error error →
        error.isNoSuchFile = true →
          linked.status (joinPath directory (ascii ".git")) = .ok .other ∨
            ∃ other, linked.status (joinPath directory (ascii ".git")) = .error other ∧
              other.isNoSuchFile = true) ↔
      linked.hasMarker directory = plain.hasMarker directory ∧
        newMarkerWarnings plain linked directory = [] := by
  unfold newMarkerWarnings
  cases found : plain.status (joinPath directory (ascii ".git")) with
  | ok type =>
      have same : linked.hasMarker directory = plain.hasMarker directory := by
        rcases adds.marker directory inspected with same | ⟨error, missing, _⟩
        · rw [FileSystem.hasMarker, FileSystem.hasMarker, same]
        · rw [found] at missing
          cases missing
      exact iff_of_true nofun ⟨same, rfl⟩
  | error error =>
      have unmarked := hasMarker_of_noSuchFile found
      simp only [Except.error.injEq, forall_eq', unmarked]
      split
      · rename_i noSuchFile
        rw [unseen_iff]
        exact forall_prop_of_true noSuchFile
      · rename_i isFailure
        refine iff_of_true (fun noSuchFile => absurd noSuchFile isFailure) ⟨?_, rfl⟩
        rcases adds.marker directory inspected with same | ⟨other, missing, noSuchFile⟩
        · exact hasMarker_of_noSuchFile (same.trans found)
        · rw [found] at missing
          cases missing
          exact absurd noSuchFile isFailure

/-- The links are unseen exactly if the directories are reported alike and the links lead
to no warning. -/
theorem linksUnseen_iff :
    LinksUnseen plain linked root added relinked ↔ ReportsAlike plain linked root ∧
      ∀ directory, StackSearch.Reaches (children plain) root directory →
        addedWarnings plain linked added relinked directory = [] := by
  have inspected_iff := @ScanExpansion.inspected_iff _ _ (children_scanExpansion plain) root
  have reports : ReportsAlike plain linked root ↔ ∀ directory, plain.Inspected root directory →
      linked.hasMarker directory = plain.hasMarker directory := by
    refine forall_congr' fun directory => ?_
    rw [inspected_iff, and_imp]
    refine imp_congr_right fun _ => ?_
    unfold isReported
    cases isExcludedScanDirectory directory with
    | true => exact iff_of_true rfl nofun
    | false => simp only [Bool.not_false, Bool.true_and, forall_const]
  have silent : (∀ directory, StackSearch.Reaches (children plain) root directory →
        addedWarnings plain linked added relinked directory = []) ↔
      ∀ directory, plain.Inspected root directory → plain.hasMarker directory = false →
        newMarkerWarnings plain linked directory = [] ∧
          (∀ entry ∈ (plain.listing directory).entries, Dangles entry = true →
            ResolvesOrDangles (relinked directory entry)) ∧
          ∀ entry ∈ added directory, ResolvesOrDangles entry := by
    refine forall_congr' fun directory => ?_
    simp only [inspected_iff, and_imp, addedWarnings, isEntered_iff, ite_eq_right_iff,
      List.append_eq_nil_iff, List.flatMap_eq_nil_iff, relinkedWarnings,
      entryWarnings_eq_nil_iff]
  rw [reports, silent]
  constructor
  · intro unseen
    refine ⟨fun directory inspected => ?_, fun directory inspected unmarked => ?_⟩
    · exact ((adds.marker_unseen_iff inspected).mp (unseen.marker directory inspected)).1
    · exact ⟨((adds.marker_unseen_iff inspected).mp (unseen.marker directory inspected)).2,
        unseen.dangling directory inspected unmarked, unseen.added directory inspected unmarked⟩
  · rintro ⟨alike, quiet⟩
    refine ⟨fun directory inspected error missing => ?_, fun directory inspected unmarked =>
      (quiet directory inspected unmarked).2.2, fun directory inspected unmarked =>
      (quiet directory inspected unmarked).2.1⟩
    exact (adds.marker_unseen_iff inspected).mpr ⟨alike directory inspected,
      (quiet directory inspected (hasMarker_of_noSuchFile missing)).1⟩ error missing

/-- Where the same directories are reported, the links are unseen exactly if they add no
warning. -/
theorem exists_results_of_alike (finite : plain.Finite root)
    (alike : ReportsAlike plain linked root) :
    ∃ visits linkedVisits, StackSearch.WorksOff (children plain) [root] visits ∧
      StackSearch.WorksOff (children linked) [root] linkedVisits ∧
      (SameUpToOrder (resultOf plain visits) (resultOf linked linkedVisits) ↔
        LinksUnseen plain linked root added relinked) := by
  obtain ⟨visits, linkedVisits, worksOff, linkedWorksOff, perm⟩ :=
    StackSearch.exists_worksOff_perm ((children_scanExpansion plain).wellFounded finite)
      fun directory => adds.children_perm alike
  refine ⟨visits, linkedVisits, worksOff, linkedWorksOff, ?_⟩
  have reached_iff : ∀ directory, directory ∈ visits ↔
      StackSearch.Reaches (children plain) root directory :=
    fun _ => StackSearch.mem_visited_iff worksOff.run
  have repositories : (visits.filter (isReported plain)).Perm
      (linkedVisits.filter (isReported linked)) := by
    have sameReports : visits.filter (isReported plain) = visits.filter (isReported linked) :=
      List.filter_congr fun directory inside =>
        (alike directory ((reached_iff directory).mp inside)).symm
    rw [sameReports]
    exact perm.filter _
  have warnings : (linkedVisits.flatMap (directoryWarnings linked)).Perm
      (visits.flatMap (directoryWarnings plain) ++
        visits.flatMap (addedWarnings plain linked added relinked)) := by
    refine (perm.symm.flatMap_right _).trans (List.Perm.trans ?_
      (List.flatMap_append_perm visits _ _).symm)
    refine List.Perm.flatMap_left visits fun directory inside => ?_
    have reached := (reached_iff directory).mp inside
    exact adds.directoryWarnings_perm reached (isEntered_eq (alike directory reached))
  have silent : LinksUnseen plain linked root added relinked ↔
      visits.flatMap (addedWarnings plain linked added relinked) = [] := by
    rw [adds.linksUnseen_iff, and_iff_right alike, List.flatMap_eq_nil_iff]
    exact forall_congr' fun directory => by rw [reached_iff]
  rw [silent]
  constructor
  · intro same
    have lengths := (same.warnings.trans warnings).length_eq
    simp only [resultOf, List.length_append] at lengths
    exact List.length_eq_zero_iff.mp (by omega)
  · intro quiet
    rw [quiet, List.append_nil] at warnings
    exact ⟨rfl, sortByKey_eq_of_perm (fun _ _ same => same) repositories, warnings.symm⟩

/-- The results of the two scans agree exactly if the links are unseen. -/
theorem exists_results (finite : plain.Finite root) :
    ∃ visits linkedVisits, StackSearch.WorksOff (children plain) [root] visits ∧
      StackSearch.WorksOff (children linked) [root] linkedVisits ∧
      (SameUpToOrder (resultOf plain visits) (resultOf linked linkedVisits) ↔
        LinksUnseen plain linked root added relinked) := by
  by_cases alike : ReportsAlike plain linked root
  · exact adds.exists_results_of_alike finite alike
  -- where the scans report different directories, their lists differ and a marker is seen
  have wellFounded := (children_scanExpansion plain).wellFounded finite
  obtain ⟨visits, worksOff⟩ := StackSearch.exists_worksOff wellFounded
  obtain ⟨linkedVisits, linkedWorksOff⟩ := StackSearch.exists_worksOff
    (StackSearch.acc_of_subset wellFounded fun directory => adds.children_subset)
  refine ⟨visits, linkedVisits, worksOff, linkedWorksOff, iff_of_false ?_ ?_⟩
  · intro same
    exact alike (adds.reportsAlike_of_repositories worksOff linkedWorksOff same.repositories)
  · intro unseen
    exact alike (adds.linksUnseen_iff.mp unseen).1

end AddsLinks

/-- A discovery from an accepted root finds the same repositories and failures with added
links exactly if these make no difference that the scan sees. -/
theorem discoverRepositories_addsLinks_iff {plain linked : FileSystem}
    {root path absoluteRoot : Path} {added : Path → List Entry} {relinked : Path → Entry → Entry}
    (resolved : absolute plain root = .ok path) (normal : lexicallyNormal path = absoluteRoot)
    (accepted : plain.status absoluteRoot = .ok .directory) (finite : plain.Finite absoluteRoot)
    (adds : AddsLinks plain linked absoluteRoot added relinked) :
    ∃ plainResult linkedResult bound,
      (∀ fuel, bound ≤ fuel → discoverRepositories plain fuel root = some plainResult ∧
        discoverRepositories linked fuel root = some linkedResult) ∧
      (SameUpToOrder plainResult linkedResult ↔
        LinksUnseen plain linked absoluteRoot added relinked) := by
  obtain ⟨visits, linkedVisits, worksOff, linkedWorksOff, same⟩ := adds.exists_results finite
  have linkedResolved : absolute linked root = .ok path := by
    rw [← resolved, absolute, absolute, adds.currentPath]
  obtain ⟨bound, ends⟩ := discoverRepositories_of_worksOff resolved normal accepted worksOff
  obtain ⟨linkedBound, linkedEnds⟩ := discoverRepositories_of_worksOff linkedResolved normal
    (adds.rootStatus.trans accepted) linkedWorksOff
  refine ⟨resultOf plain visits, resultOf linked linkedVisits, max bound linkedBound,
    fun fuel enough => ?_, same⟩
  rw [Nat.max_le] at enough
  exact ⟨ends fuel enough.1, linkedEnds fuel enough.2⟩

/-- The directory `/w`, which is empty. -/
def emptyTree : FileSystem where
  currentPath := .ok (ascii "/")
  status path :=
    if path = ascii "/w" then .ok .directory
    else .error ⟨2, ascii "No such file or directory"⟩
  listing _ := .empty

/-- A link that leads to itself. -/
def selfLink : Entry where
  name := ascii "self"
  kind := .link (.error ⟨40, ascii "Too many levels of symbolic links"⟩)

/-- The same directory with a link `self` to itself. -/
def selfLinked : FileSystem where
  currentPath := .ok (ascii "/")
  status path :=
    if path = ascii "/w/self" ∨ ascii "/w/self/" <+: path then
      .error ⟨40, ascii "Too many levels of symbolic links"⟩
    else emptyTree.status path
  listing path :=
    if path = ascii "/w" then
      { entries := [selfLink]
        names_valid := by decide
        names_nodup := by decide }
    else emptyTree.listing path

theorem emptyTree_finite (root : Path) : emptyTree.Finite root :=
  .intro root fun _ ⟨_, ⟨_, listed, _⟩, _⟩ => absurd listed List.not_mem_nil

theorem emptyTree_inspected {directory : Path}
    (inspected : emptyTree.Inspected (ascii "/w") directory) : directory = ascii "/w" := by
  obtain ⟨reached, _⟩ := (children_scanExpansion emptyTree).inspected_iff.mp inspected
  cases reached with
  | refl => rfl
  | tail _ below =>
      obtain ⟨_, _, ⟨_, listed, _⟩, _⟩ := mem_children_iff.mp below
      exact absurd listed List.not_mem_nil

/-- The link to itself is all that is added. -/
theorem selfLinked_addsLinks :
    AddsLinks emptyTree selfLinked (ascii "/w") (fun _ => [selfLink]) fun _ entry => entry where
  currentPath := rfl
  rootStatus := by decide
  isLink _ entry inside := by
    rw [List.mem_singleton.mp inside]
    exact ⟨_, rfl⟩
  otherName _ entry inside := by
    rw [List.mem_singleton.mp inside]
    decide
  marker directory inspected := by
    rw [emptyTree_inspected inspected]
    left
    decide
  relinks _ _ _ listed := absurd listed List.not_mem_nil
  entries directory inspected := by
    rw [emptyTree_inspected inspected]
    exact List.Perm.refl _
  failure directory inspected := by
    rw [emptyTree_inspected inspected]
    rfl

/-- A link that is never followed turns up in the warnings. -/
theorem discoverRepositories_selfLinked :
    AddsLinks emptyTree selfLinked (ascii "/w") (fun _ => [selfLink]) (fun _ entry => entry) ∧
      discoverRepositories emptyTree 2 (ascii "/w") = some {} ∧
      discoverRepositories selfLinked 2 (ascii "/w") = some
        { warnings := [ascii "inspect \"/w/self\": Too many levels of symbolic links"] } :=
  ⟨selfLinked_addsLinks, by decide, by decide⟩

/-- The link to itself decides whether the results agree. -/
theorem discoverRepositories_emptyTree_selfLinked :
    ∃ plainResult linkedResult bound,
      (∀ fuel, bound ≤ fuel →
        discoverRepositories emptyTree fuel (ascii "/w") = some plainResult ∧
        discoverRepositories selfLinked fuel (ascii "/w") = some linkedResult) ∧
      (SameUpToOrder plainResult linkedResult ↔
        LinksUnseen emptyTree selfLinked (ascii "/w") (fun _ => [selfLink]) fun _ entry =>
          entry) := by
  have resolved : absolute emptyTree (ascii "/w") = .ok (ascii "/w") := by decide
  exact discoverRepositories_addsLinks_iff resolved (by decide) (by decide)
    (emptyTree_finite (ascii "/w")) selfLinked_addsLinks

end CheckGitStatus.Cpp
