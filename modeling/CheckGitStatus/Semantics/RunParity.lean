import CheckGitStatus.Cpp.WholeRun
import CheckGitStatus.Go.WholeRun
import CheckGitStatus.Semantics.CommandParity
import CheckGitStatus.Semantics.DiscoveryParity
import CheckGitStatus.Semantics.OptionParity
import CheckGitStatus.Semantics.ReportParity
import Mathlib.Data.List.ReduceOption

/-! # Where whole runs of the two programs agree

The two programs are given the same arguments and files, and git does the same for both.
If nothing fails while they discover the repositories, every command exits in time and the
outputs are plain text that both read alike, then they write the same bytes to both
streams and exit with the same code, whatever their schedules are
(`CheckGitStatus.runCLI_eq_runCli`).
-/

namespace CheckGitStatus

open Library

open Cpp (IsCommandLine OptionItem)

/-! ## Statuses of plain outputs -/

theorem isPlainText_nil : IsPlainText [] :=
  IsAscii.isPlainText (by decide)

/-- What a command leaves behind is plain text if its output is. -/
theorem Cpp.completedResult_plain {output : Text} (plain : IsPlainText output) (code : Nat) :
    IsPlainText (Cpp.completedResult output code).output ∧
      IsPlainText (Cpp.completedResult output code).error := by
  have number : IsPlainText (stdToString code) :=
    IsAscii.isPlainText (Report.isAscii_stdToString _)
  unfold Cpp.completedResult
  split
  · exact ⟨plain.trim, isPlainText_nil⟩
  · refine ⟨isPlainText_nil, IsPlainText.append (IsPlainText.append ?_ ?_) number⟩
    · split
      · exact plain.trim.singleLine.append (IsAscii.isPlainText (by decide))
      · exact isPlainText_nil
    · exact IsAscii.isPlainText (by decide)

/-- What a suffix is cut off from ends with it. -/
theorem eq_append_of_stripSuffix {suffix text front : Text}
    (stripped : stripSuffix suffix text = some front) : text = front ++ suffix := by
  unfold stripSuffix at stripped
  split at stripped
  · rename_i ends
    obtain ⟨before, rfl⟩ := List.isSuffixOf_iff_suffix.mp ends
    rw [List.length_append, Nat.add_sub_cancel, List.take_left'] at stripped
    · rw [Option.some.inj stripped]
    · rfl
  · cases stripped

/-- What follows blanks follows the last one of them. -/
theorem exists_last_blank {first : Byte} (starts : isBlank first = true) (rest : Text) :
    ∃ front blank, first :: rest = front ++ blank :: rest.dropWhile isBlank ∧
      isBlank blank = true := by
  obtain ⟨front, blank, last⟩ : ∃ front blank,
      first :: rest.takeWhile isBlank = front ++ [blank] :=
    (List.eq_nil_or_concat' _).resolve_left (List.cons_ne_nil _ _)
  refine ⟨front, blank, ?_, ?_⟩
  · calc first :: rest
        = first :: (rest.takeWhile isBlank ++ rest.dropWhile isBlank) := by
          rw [List.takeWhile_append_dropWhile]
      _ = front ++ blank :: rest.dropWhile isBlank := by
          rw [← List.cons_append, last, List.append_assoc, List.singleton_append]
  · have inside : blank ∈ first :: rest.takeWhile isBlank := by
      rw [last]
      exact List.mem_append_right _ List.mem_cons_self
    rcases List.mem_cons.mp inside with rfl | later
    · exact starts
    · exact List.mem_takeWhile_imp later

/-- The URL in a fetch line stands between a blank and a space. -/
theorem Cpp.fetchLine_split {line name url : Text}
    (found : Cpp.fetchLine line = some (name, url)) :
    ∃ front blank tail, line = front ++ blank :: (url ++ 32 :: tail) ∧ isBlank blank = true := by
  unfold Cpp.fetchLine at found
  split at found
  · cases found
  · rename_i stripped suffix
    dsimp only at found
    split_ifs at found with bare empty
    rw [Option.some.injEq, Prod.mk.injEq] at found
    obtain ⟨-, rfl⟩ := found
    obtain ⟨ending, -, whole⟩ := dropCarriageReturn_append_eq line
    rw [eq_append_of_stripSuffix suffix] at whole
    have parts := List.takeWhile_append_dropWhile (p := fun byte => !isBlank byte) (l := stripped)
    have starts := List.head?_dropWhile_not (fun byte => !isBlank byte) stripped
    cases afterName : stripped.dropWhile fun byte => !isBlank byte with
    | nil => exact absurd afterName bare
    | cons first rest =>
        rw [afterName, List.head?_cons] at starts
        change (!isBlank first) = false at starts
        rw [Bool.not_eq_false'] at starts
        obtain ⟨front, blank, after, blankLast⟩ := exists_last_blank starts rest
        rw [afterName, after] at parts
        refine ⟨stripped.takeWhile (fun byte => !isBlank byte) ++ front, blank,
          ascii "(fetch)" ++ ending, ?_, blankLast⟩
        rw [List.dropWhile_cons_of_pos starts]
        calc line
            = stripped ++ ascii " (fetch)" ++ ending := whole
          _ = stripped.takeWhile (fun byte => !isBlank byte) ++
                (front ++ blank :: rest.dropWhile isBlank) ++ ascii " (fetch)" ++ ending :=
              congrArg (· ++ ascii " (fetch)" ++ ending) parts.symm
          _ = _ := by
              simp only [List.append_assoc, List.cons_append]
              rfl

namespace IsPlainText

variable {output : Text} (plain : IsPlainText output)
include plain

/-- Every URL of a listing is plain text if the listing is. -/
theorem url {name url : Text} (inside : (name, url) ∈ Cpp.fetchLines output) :
    IsPlainText url := by
  obtain ⟨line, listed, found⟩ := List.mem_filterMap.mp inside
  obtain ⟨front, blank, tail, rfl, isBlank⟩ := Cpp.fetchLine_split found
  have low : blank < 0x80 := by
    rw [CheckGitStatus.isBlank, Bool.or_eq_true, beq_iff_eq, beq_iff_eq] at isBlank
    rcases isBlank with rfl | rfl <;> decide
  have whole := plain.of_mem_splitOn (by decide) (mem_splitOn_of_mem_getlines listed)
  exact ((whole.of_append_cons rfl low).2.of_append_cons rfl (by decide)).1

theorem remoteUrl (path : Path) :
    IsPlainText (RepositoryStatus.withRemote { path }
      (Cpp.selectRemote (Cpp.collectRemotes output))).remoteUrl := by
  cases selected : Cpp.selectRemote (Cpp.collectRemotes output) with
  | none => exact isPlainText_nil
  | some remote =>
      obtain ⟨name, url⟩ := remote
      have preferred := Cpp.selectRemote_collectRemotes_iff.mp selected
      exact plain.url (List.mem_of_find?_eq_some preferred.first)

end IsPlainText

/-- The texts of a status come from the path and from the results of the commands. -/
theorem Cpp.status_plain {remotes worktree : Cpp.CommandResult} {path : Path}
    (valid : IsUtf8 (pathText path)) (listing : IsPlainText remotes.output)
    (remoteError : IsPlainText remotes.error) (worktreeError : IsPlainText worktree.error) :
    (Cpp.worktreeStatus worktree (Cpp.remoteStatus remotes path)).TextsUtf8 ∧
      ∀ message ∈ (Cpp.worktreeStatus worktree (Cpp.remoteStatus remotes path)).errorMessages,
        OnlyAsciiSpace message := by
  obtain ⟨remoteFails, worktreeFails, upstreamFails⟩ := Cpp.check_errors remotes worktree path
  have messages : ∀ message ∈
      (Cpp.worktreeStatus worktree (Cpp.remoteStatus remotes path)).errorMessages,
      IsPlainText message := by
    intro message listed
    rw [RepositoryStatus.errorMessages, List.reduceOption_mem_iff, remoteFails, worktreeFails,
      upstreamFails] at listed
    simp only [List.mem_cons, List.not_mem_nil, or_false] at listed
    have failed : message = remotes.error ∨ message = worktree.error := by
      rcases listed with same | same | same
      · left
        split at same <;> cases same
        rfl
      · right
        split at same <;> cases same
        rfl
      · right
        split at same <;> cases same
        rfl
    rcases failed with rfl | rfl
    · exact remoteError
    · exact worktreeError
  have url : IsPlainText (Cpp.remoteStatus remotes path).remoteUrl := by
    unfold Cpp.remoteStatus
    split
    · rw [Cpp.readRemotes_eq]
      exact listing.remoteUrl path
    · exact isPlainText_nil
  refine ⟨⟨?_, ?_, fun message listed => (messages message listed).valid⟩,
    fun message listed => (messages message listed).spaces⟩
  · rw [Cpp.worktreeStatus_path, Cpp.remoteStatus_path]
    exact valid
  · rw [(Cpp.worktreeStatus_remote worktree _).2.2]
    exact url.valid

/-! ## What the two runs come upon -/

/-- The two programs run on one machine at one time: they find the same files, the same
git, the same processors and the same kind of output, read the same clock, and an
interrupt, if there is one, comes at the same moment. -/
structure SameSurroundings (cpp : Cpp.Surroundings) (cppEnvironment : Cpp.Environment)
    (go : Go.Surroundings) (goEnvironment : Go.Environment) (git : Path) : Prop where
  files : goEnvironment.files = cppEnvironment.files
  cppGit : cpp.gitExecutable = some git
  goGit : go.gitBinary = .ok git
  processors : go.numCPU = cpp.hardwareConcurrency.toNat
  color : go.supportsColor = cpp.supportsColor
  instants : go.instants = cpp.instants
  interrupt : go.interrupt = cpp.interrupt
  fit : cpp.instants.Fit

/-- The root is a directory from which both programs can discover all there is. -/
structure PlainRoot (files : PosixFileSystem) (root path : Path) : Prop where
  resolved : Cpp.absolute files.toFileSystem root = .ok path
  accepted : files.status (cleanPath path) = .ok .directory
  real : ¬ files.IsLink (cleanPath path)
  finite : files.Finite (cleanPath path)
  spelled : Cpp.lexicallyNormal path = cleanPath path ∨
    Cpp.SeparatorIgnored files.toFileSystem (cleanPath path)
  nothingFails : NothingFails files.toFileSystem (cleanPath path)

/-- Git does the same in the directory for both programs, and both read it alike. -/
def AnswersAlike (cppEnvironment : Cpp.Environment) (goEnvironment : Go.Environment)
    (git path : Path) : Prop :=
  ∃ remoteOutput remoteCode statusOutput statusCode,
    ExitsAlike git path cppEnvironment.execute (goEnvironment.combinedOutput git)
      Cpp.remoteArguments
      ((cppEnvironment.readings path).started + 15000 * Cpp.nanosecondsPerMillisecond)
      (cppEnvironment.readings path).remote remoteOutput remoteCode ∧
    ExitsAlike git path cppEnvironment.execute (goEnvironment.combinedOutput git)
      Cpp.statusArguments
      ((cppEnvironment.readings path).started + 15000 * Cpp.nanosecondsPerMillisecond)
      (cppEnvironment.readings path).status statusOutput statusCode ∧
    ReadAlike (Cpp.completedResult remoteOutput remoteCode)
      (Cpp.completedResult statusOutput statusCode)

section Checkers

variable {cppEnvironment : Cpp.Environment} {goEnvironment : Go.Environment} {git path : Path}
  (alike : AnswersAlike cppEnvironment goEnvironment git path)
include alike

/-- Both programs compute the same status. -/
theorem AnswersAlike.checker_eq (quote : Text → Text) :
    goEnvironment.checker quote git path = cppEnvironment.checker git path := by
  obtain ⟨_, _, _, _, remote, status, reads⟩ := alike
  have same := (check_eq_iff quote remote.go status.go).mpr reads
  rw [Go.Environment.checker, Cpp.Environment.checker, same, check_eq_of_exits remote status]

/-- The status of a repository with plain answers has plain texts only. -/
theorem AnswersAlike.checker_plain (valid : IsUtf8 (pathText path)) :
    (cppEnvironment.checker git path).TextsUtf8 ∧
      ∀ message ∈ (cppEnvironment.checker git path).errorMessages, OnlyAsciiSpace message := by
  obtain ⟨_, _, _, _, remote, status, _⟩ := alike
  rw [Cpp.Environment.checker, check_eq_of_exits remote status]
  exact Cpp.status_plain valid (Cpp.completedResult_plain remote.plain _).1
    (Cpp.completedResult_plain remote.plain _).2 (Cpp.completedResult_plain status.plain _).2

end Checkers

/-- Both programs report the same of repositories for which git answers alike. -/
theorem reportChecks_checkers_eq {cppEnvironment : Cpp.Environment}
    {goEnvironment : Go.Environment} {git : Path} {repositories : List Path}
    {instants : Report.Instants} (fit : instants.Fit)
    (answered : ∀ repository ∈ repositories, IsUtf8 (pathText repository) ∧
      AnswersAlike cppEnvironment goEnvironment git repository)
    (quote : Text → Text) (dirtyOnly color : Bool) (warnings : List Text) :
    Report.reportChecks Go.writers instants dirtyOnly color warnings
        (repositories.map (goEnvironment.checker quote git)) =
      Report.reportChecks Cpp.writers instants dirtyOnly color warnings
        (repositories.map (cppEnvironment.checker git)) := by
  have statuses : repositories.map (goEnvironment.checker quote git) =
      repositories.map (cppEnvironment.checker git) :=
    List.map_congr_left fun repository found => (answered repository found).2.checker_eq _
  have texts : ∀ status ∈ repositories.map (cppEnvironment.checker git),
      status.TextsUtf8 ∧ ∀ message ∈ status.errorMessages, OnlyAsciiSpace message := by
    rw [List.forall_mem_map]
    exact fun repository found =>
      (answered repository found).2.checker_plain (answered repository found).1
  have valid := fun status inside => (texts status inside).1
  have warned := (writeCheckWarnings_parity_iff valid).mpr
    fun status inside => (texts status inside).2
  rw [statuses]
  exact Report.reportChecks_eq fit valid _ _ _ warned

/-! ## The runs -/

/-- Both programs read the same options of a command line in the common grammar. -/
theorem sameOptions_of_parsed {quote : Text → Text} {hardware : UInt32}
    {items : List OptionItem} {arguments : List Text} (line : IsCommandLine items arguments)
    (counts : ∀ value, .workers value ∈ items → value.head? ≠ some 48)
    (first : OptionsFirst items arguments) {cppOptions : Cpp.Options} {goOptions : Go.Options}
    (cppParsed : Cpp.parseOptions hardware arguments = { options := cppOptions })
    (goParsed : (Go.parseOptions quote hardware.toNat arguments).1 = .ok goOptions) :
    SameOptions cppOptions goOptions := by
  obtain ⟨accepted, parsed, agrees⟩ := exists_sameOptions quote hardware line counts first
  rw [goParsed] at parsed
  cases parsed
  rw [Cpp.parseOptions_of_isCommandLine hardware line] at cppParsed
  rwa [Cpp.ParseResult.mk.inj cppParsed |>.1] at agrees

/-- **Both programs do the same.** Given the same command line in the common grammar, on
one machine and from a plain root, every run of either program ends, however its workers
are scheduled, and all write the same to both streams and exit with the same code, if the
commands exit in time with outputs that both read alike or the run is interrupted. -/
theorem runCLI_eq_runCli {cpp : Cpp.Surroundings} {cppEnvironment : Cpp.Environment}
    {go : Go.Surroundings} {goEnvironment : Go.Environment} {git path : Path}
    (same : SameSurroundings cpp cppEnvironment go goEnvironment git)
    {items : List OptionItem} {arguments : List Text} (line : IsCommandLine items arguments)
    (counts : ∀ value, .workers value ∈ items → value.head? ≠ some 48)
    (first : OptionsFirst items arguments) {cppOptions : Cpp.Options} {goOptions : Go.Options}
    (cppParsed : Cpp.parseOptions cpp.hardwareConcurrency arguments = { options := cppOptions })
    (goParsed : (Go.parseOptions go.quote go.numCPU arguments).1 = .ok goOptions)
    (plain : PlainRoot cppEnvironment.files cppOptions.root path)
    (answers : Report.isInterrupted cpp.interrupt cpp.instants.interruptTest = false →
      ∀ repository, cppEnvironment.files.IsTopRepository (cleanPath path) repository →
        IsUtf8 (pathText repository) ∧
          AnswersAlike cppEnvironment goEnvironment git repository) :
    ∃ repositories outcome,
      cpp.EndsIn cppEnvironment cppOptions git arguments { repositories } (· = outcome) ∧
      go.EndsIn goEnvironment goOptions git arguments (repositories, [], none) (· = outcome) := by
  have options := sameOptions_of_parsed line counts first cppParsed (by rwa [← same.processors])
  obtain ⟨repositories, bound, ends, sorted, isTop⟩ := exists_same_repositories go.quote
    plain.resolved plain.accepted plain.real plain.finite plain.spelled plain.nothingFails
  refine ⟨repositories, if repositories = [] then
      Report.reportNone Cpp.writers cpp.instants cppOptions.root []
    else if Report.isInterrupted cpp.interrupt cpp.instants.interruptTest then
      { exitCode := 130, errorOutput := ascii "error: scan interrupted\n" }
    else
      Report.reportChecks Cpp.writers cpp.instants cppOptions.dirtyOnly
        (!cppOptions.noColor && cpp.supportsColor) []
        (repositories.map (cppEnvironment.checker git)), ?_, ?_⟩
  · refine .of_discovers ⟨bound, fun fuel enough => (ends fuel enough).1⟩ ?_
    rintro world rfl runs discovered
    exact runs.runCli_eq cppParsed same.cppGit discovered rfl sorted
  · refine .of_discovers goParsed ⟨bound, fun fuel enough => ?_⟩ ?_
    · rw [same.files, options.root]
      exact (ends fuel enough).2
    rintro world rfl runs discovered
    rw [runs.runCLI_eq goParsed same.goGit discovered rfl sorted, same.instants, same.interrupt,
      same.color, options.root, options.dirtyOnly, options.noColor,
      Report.reportNone_parity same.fit]
    by_cases empty : repositories = []
    · rw [if_pos empty, if_pos empty]
    rw [if_neg empty, if_neg empty]
    cases calm : Report.isInterrupted cpp.interrupt cpp.instants.interruptTest with
    | true => rfl
    | false =>
        have answered := fun repository listed =>
          answers calm repository ((isTop repository).mp listed)
        rw [if_neg Bool.false_ne_true, if_neg Bool.false_ne_true]
        exact reportChecks_checkers_eq same.fit answered _ _ _ _

/-! ## A run without arguments -/

/-- The current directory `/h` with the repository `app`. -/
def homeTree : PosixFileSystem :=
  .ofBare (ascii "/h") rfl
    (fun path =>
      if [ascii "/h", ascii "/h/app", ascii "/h/app/.git"].contains path then .ok .directory
      else .error ⟨2, ascii "no such file or directory"⟩)
    (fun path =>
      if path = ascii "/h" then
        { entries := [⟨ascii "app", .directory⟩]
          names_valid := by decide
          names_nodup := by decide }
      else .empty)

theorem homeTree_listing (path : Path) :
    (homeTree.listing path).failure = none ∧
      ∀ entry ∈ (homeTree.listing path).entries, entry = ⟨ascii "app", .directory⟩ := by
  have found : homeTree.listing path =
      if path.rdropWhile (fun byte => byte == slash) = ascii "/h" then _ else _ := rfl
  rw [found]
  split
  · exact ⟨rfl, fun entry inside => List.mem_singleton.mp inside⟩
  · exact ⟨rfl, fun entry inside => absurd inside List.not_mem_nil⟩

theorem homeTree_missing {path : Path} {error : ErrorCode}
    (failed : homeTree.status path = .error error) : error.isNoSuchFile = true := by
  change Except.bind (if _ then _ else _) EntryKind.followed = _ at failed
  split at failed
  · cases failed
  · cases failed
    rfl

theorem homeTree_plainRoot : PlainRoot homeTree (ascii ".") (ascii "/h/.") where
  resolved := by decide
  accepted := by decide
  real := by
    rintro ⟨target, found⟩
    have kind : homeTree.symlinkStatus (cleanPath (ascii "/h/.")) = .ok .directory := rfl
    rw [kind] at found
    cases found
  finite := by
    refine .intro _ fun child ⟨name, ⟨entry, listed, sameName, _⟩, below⟩ => ?_
    rw [(homeTree_listing _).2 entry listed] at sameName
    subst sameName below
    refine .intro _ fun child ⟨name, ⟨entry, listed, _⟩, _⟩ => ?_
    have leaf : (homeTree.listing (ascii "/h/app")).entries = [] := rfl
    exact absurd listed (leaf ▸ List.not_mem_nil)
  spelled := .inr ⟨by decide, rfl⟩
  nothingFails :=
    { listings := fun directory _ _ => (homeTree_listing directory).1
      markers := fun _ _ _ failed => homeTree_missing failed
      links := fun directory entry error _ _ listed link => by
        rw [(homeTree_listing directory).2 entry listed] at link
        cases link }

/-- What git writes in `app`, which has two commits to push. -/
def homeOutput (arguments : List Text) : Text :=
  if arguments.contains (ascii "remote") then ascii "origin\thttps://host/app (fetch)\n"
  else ascii "# branch.head main\n# branch.upstream origin/main\n# branch.ab +2 -0\n"

/-- The environment of the C++ program for the home directory. -/
def cppHome : Cpp.Environment where
  files := homeTree
  execute arguments :=
    { started := 0, turns := [], status := .exited 0, captured := homeOutput arguments }
  readings _ := Cpp.stillReadings

/-- The environment of the Go program for the same directory. -/
def goHome : Go.Environment where
  files := homeTree
  combinedOutput _ arguments := (homeOutput arguments, none)

/-- What surrounds the run of the C++ program. -/
def cppHomeSurroundings : Cpp.Surroundings where
  hardwareConcurrency := 8
  gitExecutable := some (ascii "/usr/bin/git")
  supportsColor := true
  instants := ⟨0, 0, 5, 5, 9, 9, 10⟩
  interrupt := none

/-- What surrounds the run of the Go program. -/
def goHomeSurroundings : Go.Surroundings where
  numCPU := 8
  quote := Go.plainQuote
  gitBinary := .ok (ascii "/usr/bin/git")
  supportsColor := true
  instants := ⟨0, 0, 5, 5, 9, 9, 10⟩
  interrupt := none

theorem home_answersAlike :
    AnswersAlike cppHome goHome (ascii "/usr/bin/git") (ascii "/h/app") := by
  refine ⟨_, 0, _, 0, ⟨rfl, by decide, ⟨rfl, rfl, rfl, by decide, rfl, rfl⟩, rfl, rfl, ?_⟩,
    ⟨rfl, by decide, ⟨rfl, rfl, rfl, by decide, rfl, rfl⟩, rfl, rfl, ?_⟩, ?_, ?_⟩
  · exact IsAscii.isPlainText (by decide)
  · exact IsAscii.isPlainText (by decide)
  · exact fun _ => .inl (by decide)
  · exact fun _ => ⟨by decide, by decide, by decide, by decide⟩

theorem homeTree_topRepository {repository : Path}
    (top : homeTree.IsTopRepository (cleanPath (ascii "/h/.")) repository) :
    repository = ascii "/h/app" := by
  have plain := homeTree_plainRoot
  obtain ⟨result, bound, ends, finds⟩ := Cpp.exists_findsTopRepositories_cleanPath plain.resolved
    plain.accepted plain.finite plain.spelled
  have discovered : Cpp.discoverRepositories homeTree.toFileSystem 3 (ascii ".") =
      some { repositories := [ascii "/h/app"] } := by decide
  have same := Cpp.discoverRepositories_of_le (le_max_left 3 bound) discovered
  rw [ends _ (le_max_right 3 bound)] at same
  cases same
  exact List.mem_singleton.mp ((finds.repositories repository).mpr top)

theorem runCLI_eq_runCli_home :
    ∃ repositories outcome,
      cppHomeSurroundings.EndsIn cppHome { workers := 8, root := ascii "." }
        (ascii "/usr/bin/git") [] { repositories } (· = outcome) ∧
      goHomeSurroundings.EndsIn goHome { workers := 8, root := ascii "." }
        (ascii "/usr/bin/git") [] (repositories, [], none) (· = outcome) := by
  refine runCLI_eq_runCli ⟨rfl, rfl, rfl, rfl, rfl, rfl, rfl, ?_⟩ ⟨⟨false, .nil false⟩, ?_, ?_⟩ ?_
    .nil (by decide) (by decide) homeTree_plainRoot ?_
  · exact ⟨by decide, by decide, by decide⟩
  · exact fun _ inside => absurd inside List.not_mem_nil
  · decide
  · exact fun _ inside => absurd inside List.not_mem_nil
  · intro _ repository top
    rw [homeTree_topRepository top]
    exact ⟨IsAscii.isUtf8 (by decide), home_answersAlike⟩

end CheckGitStatus
