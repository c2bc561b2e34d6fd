import CheckGitStatus.Cpp.Options
import CheckGitStatus.Library.Folds
import CheckGitStatus.Text.Decimal

/-! # The grammar of the command line

A command line is a list of items, each spelled by one or two arguments. The item `--`
ends the options: every argument after it names a directory. The loop of
`parse_options` reads items from left to right and stops at a help request or at an
argument that it can make nothing of. It accepts a command line exactly when the whole
of it is items, with worker counts that are in range and at most one directory
(`CheckGitStatus.Cpp.parseOptions_grammar`).
-/

namespace CheckGitStatus.Cpp

open Library

/-- What an argument, or an argument with its value, asks for. -/
inductive OptionItem where
  | dirtyOnly
  | noColor
  | workers (value : Text)
  | directory (path : Text)
  deriving DecidableEq, Repr

namespace OptionItem

/-- The value of a worker count. -/
def workers? : OptionItem → Option Text
  | .workers value => some value
  | _ => none

/-- The path of a positional argument. -/
def directory? : OptionItem → Option Text
  | .directory path => some path
  | _ => none

/-- The arguments that spell an item, before and after the end of the options. -/
inductive Spelled : Bool → OptionItem → List Text → Prop
  | dirtyOnly : Spelled false .dirtyOnly [ascii "-d"]
  | dirtyOnlyLong : Spelled false .dirtyOnly [ascii "--dirty-only"]
  | noColor : Spelled false .noColor [ascii "--no-color"]
  | workers (value : Text) : Spelled false (.workers value) [ascii "-j", value]
  | workersLong (value : Text) : Spelled false (.workers value) [ascii "--workers", value]
  | workersAttached (value : Text) : Spelled false (.workers value) [ascii "-j=" ++ value]
  | workersLongAttached (value : Text) :
      Spelled false (.workers value) [ascii "--workers=" ++ value]
  | directory {path : Text} (plain : path.head? ≠ some 45) :
      Spelled false (.directory path) [path]
  | directoryEnded (path : Text) : Spelled true (.directory path) [path]

end OptionItem

/-- Arguments that read as items. The two flags say whether the options have ended
before and after them. -/
inductive ReadsAs : Bool → Bool → List OptionItem → List Text → Prop
  | nil (ended : Bool) : ReadsAs ended ended [] []
  | item {ended last : Bool} {item : OptionItem} {items : List OptionItem}
      {spelling arguments : List Text} :
      item.Spelled ended spelling → ReadsAs ended last items arguments →
      ReadsAs ended last (item :: items) (spelling ++ arguments)
  | terminator {last : Bool} {items : List OptionItem} {arguments : List Text} :
      ReadsAs true last items arguments → ReadsAs false last items (ascii "--" :: arguments)

/-- A number of workers is written in digits only and fits an `unsigned int`. -/
structure IsWorkerCount (value : Text) : Prop where
  number : isNumber value = true
  positive : 1 ≤ digitsValue value
  bounded : digitsValue value ≤ 4294967295

/-- The worker counts are in range and there is one directory at most, counting one
that is there already. -/
structure Admissible (rootSet : Bool) (items : List OptionItem) : Prop where
  workers : ∀ value, .workers value ∈ items → IsWorkerCount value
  directories : rootSet.toNat + (items.filterMap OptionItem.directory?).length ≤ 1

/-- The arguments are items through and through. -/
def IsCommandLine (items : List OptionItem) (arguments : List Text) : Prop :=
  (∃ ended, ReadsAs false ended items arguments) ∧ Admissible false items

/-- The argument asks for the usage text. -/
def isHelp (argument : Text) : Bool :=
  argument == ascii "-h" || argument == ascii "--help"

/-- A help request stands where an item could, after items and before any `--`. -/
def AsksForHelp (arguments : List Text) : Prop :=
  ∃ items front help rest, arguments = front ++ help :: rest ∧ isHelp help = true ∧
    ReadsAs false false items front ∧ Admissible false items

/-! ## The worker count -/

instance (value : Text) : Decidable (IsWorkerCount value) :=
  decidable_of_iff (isNumber value = true ∧ 1 ≤ digitsValue value ∧ digitsValue value ≤ 4294967295)
    ⟨fun parts => ⟨parts.1, parts.2.1, parts.2.2⟩,
      fun count => ⟨count.number, count.positive, count.bounded⟩⟩

/-- `std::from_chars` reads a whole value exactly if it is a number in 64 bits. -/
theorem fromCharsUnsigned_eq_nil_iff {value : Text} {parsed : Nat} :
    fromCharsUnsigned value = some (parsed, []) ↔
      isNumber value = true ∧ digitsValue value ≤ 18446744073709551615 ∧
        parsed = digitsValue value := by
  constructor
  · intro converted
    simp only [fromCharsUnsigned] at converted
    split_ifs at converted with none large
    obtain ⟨rfl, rest⟩ := Prod.mk.inj (Option.some.inj converted)
    have every : ∀ byte ∈ value, isDigit byte = true := List.dropWhile_eq_nil_iff.mp rest
    have whole : value.takeWhile isDigit = value := List.takeWhile_eq_self_iff.mpr every
    rw [whole] at none large ⊢
    refine ⟨?_, not_lt.mp large, rfl⟩
    simp only [isNumber, none, ne_eq, not_false_eq_true, decide_true, Bool.true_and,
      List.all_eq_true]
    exact every
  · rintro ⟨number, bounded, rfl⟩
    obtain ⟨nonempty, -, -, taken, rest, -⟩ := isNumber_parts number
    simp only [fromCharsUnsigned, taken, nonempty, ↓reduceIte, not_lt.mpr bounded, rest]

/-- The program takes exactly the worker counts. -/
theorem parseWorkerCount_eq (value : Text) :
    parseWorkerCount value =
      if IsWorkerCount value then some (digitsValue value).toUInt32 else none := by
  split
  · rename_i count
    have small : digitsValue value ≤ 18446744073709551615 :=
      le_trans count.bounded (by decide)
    have converted := fromCharsUnsigned_eq_nil_iff.mpr ⟨count.number, small, rfl⟩
    have range : ¬ (digitsValue value = 0 ∨ 4294967295 < digitsValue value) := by
      have positive := count.positive
      have bounded := count.bounded
      omega
    simp only [parseWorkerCount, converted, range, ↓reduceIte]
  · rename_i other
    unfold parseWorkerCount
    split
    · rename_i parsed converted
      obtain ⟨number, -, rfl⟩ := fromCharsUnsigned_eq_nil_iff.mp converted
      rw [if_pos]
      by_contra! range
      exact other ⟨number, Nat.pos_of_ne_zero range.1, range.2⟩
    · rfl

/-! ## One turn of the loop -/

/-- The options with what an item asks for. -/
def Options.apply (options : Options) : OptionItem → Options
  | .dirtyOnly => { options with dirtyOnly := true }
  | .noColor => { options with noColor := true }
  | .workers value => { options with workers := (digitsValue value).toUInt32 }
  | .directory path => { options with root := path }

/-- The item may follow items with or without a directory. -/
structure OptionItem.Allowed (rootSet : Bool) (item : OptionItem) : Prop where
  workers : ∀ value, item = .workers value → IsWorkerCount value
  directory : rootSet = true → item.directory? = none

/-- What the loop does with the value of a worker item. -/
def workersThen (rootSet : Bool) (options : Options) (rest : List Text) (count : Option UInt32) :
    ParseResult :=
  match count with
  | some workers => parseArguments false rootSet { options with workers } rest
  | none => { options, error := ascii "workers must be at least 1" }

/-- Either spelling of a worker count goes to the test of its value. -/
theorem parseArguments_workers {value : Text} {spelling : List Text}
    (spelled : OptionItem.Spelled false (.workers value) spelling) (rootSet : Bool)
    (options : Options) (rest : List Text) :
    parseArguments false rootSet options (spelling ++ rest) =
      workersThen rootSet options rest (parseWorkerCount value) := by
  cases spelled with
  | workers => rfl
  | workersLong => rfl
  | workersAttached => cases rest <;> rfl
  | workersLongAttached => cases rest <;> rfl

/-- An argument without a dash in front is no option. -/
theorem ne_option_of_plain {argument : Text} (plain : argument.head? ≠ some 45) :
    (∀ option : Text, option.head? = some 45 → (argument == option) = false) ∧
      attachedWorkerValue argument = none := by
  refine ⟨?_, ?_⟩
  · intro option dash
    rw [beq_eq_false_iff_ne]
    rintro rfl
    exact plain dash
  · cases argument with
    | nil => rfl
    | cons byte rest =>
        have other : (45 == byte) = false := by
          rw [beq_eq_false_iff_ne]
          rintro rfl
          exact plain rfl
        have prefixed : ∀ text : Text, (45 :: text).isPrefixOf (byte :: rest) = false := by
          intro text
          rw [List.isPrefixOf, other, Bool.false_and]
        have long : ascii "--workers=" = 45 :: ascii "-workers=" := rfl
        have short : ascii "-j=" = 45 :: ascii "j=" := rfl
        rw [attachedWorkerValue, long, short]
        simp only [prefixed, Bool.false_eq_true, ↓reduceIte]

theorem parseArguments_plain {path : Text} (plain : path.head? ≠ some 45) (rootSet : Bool)
    (options : Options) (rest : List Text) :
    parseArguments false rootSet options (path :: rest) =
      if rootSet then { options, error := ascii "only one directory may be specified" }
      else parseArguments false true { options with root := path } rest := by
  obtain ⟨named, attached⟩ := ne_option_of_plain plain
  have dash : (path.head? == some 45) = false := beq_eq_false_iff_ne.mpr plain
  cases rest <;>
    simp only [parseArguments, named (ascii "--") rfl, named (ascii "-h") rfl,
      named (ascii "--help") rfl, named (ascii "-d") rfl, named (ascii "--dirty-only") rfl,
      named (ascii "--no-color") rfl, named (ascii "-j") rfl, named (ascii "--workers") rfl,
      attached, dash, Bool.not_false, Bool.and_false, Bool.or_self, Bool.false_eq_true,
      ↓reduceIte]

/-- The loop reads an item that is allowed and goes on. -/
theorem parseArguments_spelled {ended rootSet : Bool} {item : OptionItem} {spelling : List Text}
    (spelled : item.Spelled ended spelling) (allowed : item.Allowed rootSet)
    (options : Options) (rest : List Text) :
    parseArguments ended rootSet options (spelling ++ rest) =
      parseArguments ended (rootSet || item.directory?.isSome) (options.apply item) rest := by
  have undirected : item.directory? = none → (rootSet || item.directory?.isSome) = rootSet := by
    intro none
    rw [none, Option.isSome_none, Bool.or_false]
  cases item with
  | dirtyOnly =>
      rw [undirected rfl]
      cases spelled <;> cases rest <;> rfl
  | noColor =>
      rw [undirected rfl]
      cases spelled
      cases rest <;> rfl
  | workers value =>
      rw [undirected rfl]
      have count : parseWorkerCount value = some (digitsValue value).toUInt32 := by
        rw [parseWorkerCount_eq, if_pos (allowed.workers value rfl)]
      cases ended with
      | false =>
          rw [parseArguments_workers spelled, count]
          rfl
      | true => cases spelled
  | directory path =>
      have free : rootSet = false := by
        by_contra taken
        cases allowed.directory (Bool.not_eq_false _ |>.mp taken)
      subst free
      cases spelled with
      | directory plain => exact parseArguments_plain plain false options rest
      | directoryEnded => cases rest <;> rfl

/-- Nothing can be made of the arguments. -/
def IsStuck (ended rootSet : Bool) (arguments : List Text) : Prop :=
  ∃ error, error ≠ [] ∧
    ∀ options, parseArguments ended rootSet options arguments = { options, error }

/-- The value of a worker item is in range, or the loop is stuck there. -/
theorem allowed_or_isStuck_workers {value : Text} {spelling : List Text}
    (spelled : OptionItem.Spelled false (.workers value) spelling) (rootSet : Bool)
    (rest : List Text) :
    OptionItem.Allowed rootSet (.workers value) ∨ IsStuck false rootSet (spelling ++ rest) := by
  by_cases count : IsWorkerCount value
  · left
    refine ⟨?_, fun _ => rfl⟩
    rintro other same
    cases same
    exact count
  · right
    refine ⟨ascii "workers must be at least 1", by decide, fun options => ?_⟩
    rw [parseArguments_workers spelled, parseWorkerCount_eq, if_neg count]
    rfl

/-- An attached value is one spelling of a worker count. -/
theorem attachedWorkerValue_eq_some {argument value : Text}
    (attached : attachedWorkerValue argument = some value) :
    OptionItem.Spelled false (.workers value) [argument] := by
  simp only [attachedWorkerValue] at attached
  split_ifs at attached with long short
  · obtain ⟨rest, rfl⟩ := List.isPrefixOf_iff_prefix.mp long
    cases attached
    exact .workersLongAttached rest
  · obtain ⟨rest, rfl⟩ := List.isPrefixOf_iff_prefix.mp short
    cases attached
    exact .workersAttached rest

/-- An argument that starts with a dash and is no option leaves the loop stuck. -/
theorem isStuck_of_unknown {argument : Text} (dash : argument.head? = some 45)
    (noTerminator : argument ≠ ascii "--") (noHelp : ¬ isHelp argument = true)
    (noItem : ∀ item, ¬ OptionItem.Spelled false item [argument])
    (noWorkers : argument ≠ ascii "-j" ∧ argument ≠ ascii "--workers")
    (rootSet : Bool) (rest : List Text) : IsStuck false rootSet (argument :: rest) := by
  refine ⟨ascii "unknown option: " ++ argument, List.cons_ne_nil _ _, fun options => ?_⟩
  have unnamed : ∀ option : Text, argument ≠ option → (argument == option) = false :=
    fun _ => beq_eq_false_iff_ne.mpr
  have help : (argument == ascii "-h" || argument == ascii "--help") = false :=
    Bool.not_eq_true _ |>.mp noHelp
  have dirty : (argument == ascii "-d" || argument == ascii "--dirty-only") = false := by
    rw [Bool.or_eq_false_iff, beq_eq_false_iff_ne, beq_eq_false_iff_ne]
    constructor
    · rintro rfl
      exact noItem .dirtyOnly .dirtyOnly
    · rintro rfl
      exact noItem .dirtyOnly .dirtyOnlyLong
  have color : argument ≠ ascii "--no-color" := by
    rintro rfl
    exact noItem .noColor .noColor
  have attached : attachedWorkerValue argument = none := by
    rw [Option.eq_none_iff_forall_ne_some]
    intro value attached
    exact noItem _ (attachedWorkerValue_eq_some attached)
  cases rest <;>
    simp only [parseArguments, unnamed _ noTerminator, help, dirty, unnamed _ color,
      unnamed _ noWorkers.1, unnamed _ noWorkers.2, attached, dash, Bool.not_false, Bool.and_false,
      Bool.or_self, Bool.false_eq_true, BEq.rfl, Bool.and_self, ↓reduceIte]

/-- A worker option without a value leaves the loop stuck. -/
theorem isStuck_of_no_value {argument : Text}
    (workers : argument = ascii "-j" ∨ argument = ascii "--workers") (rootSet : Bool) :
    IsStuck false rootSet [argument] := by
  refine ⟨argument ++ ascii " requires a value", ?_, fun options => ?_⟩
  · exact List.append_ne_nil_of_right_ne_nil _ (by decide)
  · rcases workers with rfl | rfl <;> rfl

/-- A second directory leaves the loop stuck. -/
theorem isStuck_of_directory {ended : Bool} {path : Text}
    (spelled : OptionItem.Spelled ended (.directory path) [path]) (rest : List Text) :
    IsStuck ended true (path :: rest) := by
  refine ⟨ascii "only one directory may be specified", by decide, fun options => ?_⟩
  cases spelled with
  | directory plain => exact parseArguments_plain plain true options rest
  | directoryEnded => cases rest <;> rfl

/-- An item that may follow comes next, or the loop is stuck. -/
def ReadsItem (ended rootSet : Bool) (arguments : List Text) : Prop :=
  (∃ item spelling later, OptionItem.Spelled ended item spelling ∧ item.Allowed rootSet ∧
    arguments = spelling ++ later) ∨ IsStuck ended rootSet arguments

theorem readsItem_of_directory {ended : Bool} {path : Text}
    (spelled : OptionItem.Spelled ended (.directory path) [path]) (rootSet : Bool)
    (rest : List Text) : ReadsItem ended rootSet (path :: rest) := by
  cases rootSet with
  | true => exact .inr (isStuck_of_directory spelled rest)
  | false =>
      refine .inl ⟨_, _, rest, spelled, ⟨?_, fun taken => ?_⟩, rfl⟩
      · exact fun value same => by cases same
      · cases taken

theorem readsItem_of_workers {value : Text} {spelling : List Text}
    (spelled : OptionItem.Spelled false (.workers value) spelling) (rootSet : Bool)
    (rest : List Text) : ReadsItem false rootSet (spelling ++ rest) := by
  rcases allowed_or_isStuck_workers spelled rootSet rest with allowed | stuck
  · exact .inl ⟨_, _, rest, spelled, allowed, rfl⟩
  · exact .inr stuck

/-- An argument with a dash in front that is neither `--` nor a help request. -/
theorem readsItem_of_dash {argument : Text} (dash : argument.head? = some 45)
    (noTerminator : argument ≠ ascii "--") (noHelp : ¬ isHelp argument = true) (rootSet : Bool)
    (rest : List Text) : ReadsItem false rootSet (argument :: rest) := by
  by_cases workers : argument = ascii "-j" ∨ argument = ascii "--workers"
  · cases rest with
    | nil => exact .inr (isStuck_of_no_value workers rootSet)
    | cons value later =>
        have spelled : OptionItem.Spelled false (.workers value) [argument, value] := by
          rcases workers with rfl | rfl
          · exact .workers value
          · exact .workersLong value
        exact readsItem_of_workers spelled rootSet later
  by_cases single : ∃ item, OptionItem.Spelled false item [argument]
  · obtain ⟨item, spelled⟩ := single
    cases item with
    | dirtyOnly => exact .inl ⟨_, _, rest, spelled, ⟨nofun, fun _ => rfl⟩, rfl⟩
    | noColor => exact .inl ⟨_, _, rest, spelled, ⟨nofun, fun _ => rfl⟩, rfl⟩
    | workers value => exact readsItem_of_workers spelled rootSet rest
    | directory path =>
        cases spelled with
        | directory plain => exact absurd dash plain
  · right
    apply isStuck_of_unknown dash noTerminator noHelp (not_exists.mp single)
    exact not_or.mp workers

/-- **What the loop meets.** The next argument ends the options or asks for help, or an
item comes next that may follow, or the loop is stuck. -/
theorem next_cases (ended rootSet : Bool) (argument : Text) (rest : List Text) :
    (ended = false ∧ argument = ascii "--") ∨ (ended = false ∧ isHelp argument = true) ∨
      ReadsItem ended rootSet (argument :: rest) := by
  cases ended with
  | true => exact .inr (.inr (readsItem_of_directory (.directoryEnded argument) rootSet rest))
  | false =>
      by_cases terminator : argument = ascii "--"
      · exact .inl ⟨rfl, terminator⟩
      by_cases help : isHelp argument = true
      · exact .inr (.inl ⟨rfl, help⟩)
      refine .inr (.inr ?_)
      by_cases dash : argument.head? = some 45
      · exact readsItem_of_dash dash terminator help rootSet rest
      · exact readsItem_of_directory (.directory dash) rootSet rest

/-! ## Runs of the loop -/

/-- An item leaves room for the directories after it. -/
theorem directories_cons_iff {rootSet : Bool} {item : OptionItem} {items : List OptionItem} :
    rootSet.toNat + ((item :: items).filterMap OptionItem.directory?).length ≤ 1 ↔
      (rootSet = true → item.directory? = none) ∧
        (rootSet || item.directory?.isSome).toNat +
          (items.filterMap OptionItem.directory?).length ≤ 1 := by
  cases named : item.directory? with
  | none =>
      rw [List.filterMap_cons_none named, Option.isSome_none, Bool.or_false]
      exact ⟨fun room => ⟨fun _ => rfl, room⟩, And.right⟩
  | some path =>
      rw [List.filterMap_cons_some named, List.length_cons, Option.isSome_some, Bool.or_true,
        Bool.toNat_true]
      cases rootSet with
      | false =>
          rw [Bool.toNat_false]
          refine ⟨fun room => ⟨nofun, by omega⟩, fun room => ?_⟩
          have rest := room.2
          omega
      | true =>
          rw [Bool.toNat_true]
          refine ⟨fun room => by omega, fun room => ?_⟩
          cases room.1 rfl

/-- Items are admissible one after the other. -/
theorem admissible_cons_iff {rootSet : Bool} {item : OptionItem} {items : List OptionItem} :
    Admissible rootSet (item :: items) ↔
      item.Allowed rootSet ∧ Admissible (rootSet || item.directory?.isSome) items := by
  constructor
  · intro admissible
    obtain ⟨room, rest⟩ := directories_cons_iff.mp admissible.directories
    refine ⟨⟨?_, room⟩, ⟨?_, rest⟩⟩
    · rintro value rfl
      exact admissible.workers value List.mem_cons_self
    · exact fun value inside => admissible.workers value (List.mem_cons_of_mem _ inside)
  · rintro ⟨allowed, admissible⟩
    refine ⟨?_, directories_cons_iff.mpr ⟨allowed.directory, admissible.directories⟩⟩
    intro value inside
    rcases List.mem_cons.mp inside with same | later
    · exact allowed.workers value same.symm
    · exact admissible.workers value later

/-- Some item names a directory. -/
def namesDirectory (items : List OptionItem) : Bool :=
  items.any fun item => item.directory?.isSome

theorem namesDirectory_cons (item : OptionItem) (items : List OptionItem) :
    namesDirectory (item :: items) = (item.directory?.isSome || namesDirectory items) := rfl

/-- The loop reads items from their first to their last. -/
theorem parseArguments_of_readsAs {ended last : Bool} {items : List OptionItem}
    {front : List Text} (reads : ReadsAs ended last items front) {rootSet : Bool}
    (admissible : Admissible rootSet items) (options : Options) (rest : List Text) :
    parseArguments ended rootSet options (front ++ rest) =
      parseArguments last (rootSet || namesDirectory items) (items.foldl Options.apply options)
        rest := by
  induction reads generalizing rootSet options with
  | nil ended =>
      rw [namesDirectory, List.any_nil, Bool.or_false]
      rfl
  | item spelled _ ih =>
      obtain ⟨allowed, later⟩ := admissible_cons_iff.mp admissible
      rw [List.append_assoc, parseArguments_spelled spelled allowed, ih later,
        namesDirectory_cons, Bool.or_assoc]
      rfl
  | @terminator last items arguments _ ih =>
      rw [← ih admissible options, List.cons_append]
      cases arguments ++ rest <;> rfl

theorem OptionItem.Spelled.ne_nil {ended : Bool} {item : OptionItem} {spelling : List Text}
    (spelled : OptionItem.Spelled ended item spelling) : spelling ≠ [] := by
  cases spelled <;> exact List.cons_ne_nil _ _

/-- Every command line is read as items up to its end, a help request or arguments that
the loop is stuck at. -/
theorem exists_readsAs (ended rootSet : Bool) (arguments : List Text) :
    ∃ last items front rest, arguments = front ++ rest ∧ ReadsAs ended last items front ∧
      Admissible rootSet items ∧
      (rest = [] ∨
        (last = false ∧ ∃ help later, rest = help :: later ∧ isHelp help = true) ∨
        IsStuck last (rootSet || namesDirectory items) rest) := by
  have none : ∀ rootSet, Admissible rootSet [] := by
    intro rootSet
    refine ⟨fun value inside => absurd inside List.not_mem_nil, ?_⟩
    cases rootSet <;> decide
  induction length : arguments.length using Nat.strongRecOn generalizing ended rootSet arguments with
  | ind length ih =>
      subst length
      cases arguments with
      | nil => exact ⟨ended, [], [], [], rfl, .nil ended, none rootSet, .inl rfl⟩
      | cons argument rest =>
          rcases next_cases ended rootSet argument rest with
            ⟨rfl, rfl⟩ | ⟨rfl, help⟩ | ⟨item, spelling, later, spelled, allowed, split⟩ | stuck
          · obtain ⟨last, items, front, left, rfl, reads, admissible, stop⟩ :=
              ih rest.length (Nat.lt_succ_self _) true rootSet rest rfl
            exact ⟨last, items, ascii "--" :: front, left, rfl, .terminator reads, admissible, stop⟩
          · exact ⟨false, [], [], argument :: rest, rfl, .nil false, none rootSet,
              .inr (.inl ⟨rfl, argument, rest, rfl, help⟩)⟩
          · have shorter : later.length < (argument :: rest).length := by
              have positive := List.length_pos_iff.mpr spelled.ne_nil
              rw [split, List.length_append]
              omega
            obtain ⟨last, items, front, left, rfl, reads, admissible, stop⟩ :=
              ih later.length shorter ended (rootSet || item.directory?.isSome) later rfl
            refine ⟨last, item :: items, spelling ++ front, left, ?_, .item spelled reads,
              admissible_cons_iff.mpr ⟨allowed, admissible⟩, ?_⟩
            · rw [split, List.append_assoc]
            · rw [namesDirectory_cons, ← Bool.or_assoc]
              exact stop
          · refine ⟨ended, [], [], argument :: rest, rfl, .nil ended, none rootSet,
              .inr (.inr ?_)⟩
            rw [namesDirectory, List.any_nil, Bool.or_false]
            exact stuck

/-- The options that items add up to. -/
theorem foldl_apply (items : List OptionItem) (options : Options) :
    items.foldl Options.apply options =
      { dirtyOnly := options.dirtyOnly || decide (.dirtyOnly ∈ items)
        noColor := options.noColor || decide (.noColor ∈ items)
        workers := (lastMatch OptionItem.workers? items).elim options.workers
          fun value => (digitsValue value).toUInt32
        root := (lastMatch OptionItem.directory? items).getD options.root } := by
  induction items generalizing options with
  | nil => simp only [List.foldl_nil, List.not_mem_nil, decide_false, Bool.or_false,
      lastMatch_nil, Option.elim_none, Option.getD_none]
  | cons item rest ih =>
      rw [List.foldl_cons, ih]
      cases item with
      | dirtyOnly | noColor =>
          simp only [Options.apply, lastMatch_cons, OptionItem.workers?, OptionItem.directory?,
            Option.or_none, List.mem_cons, reduceCtorEq, false_or, true_or, decide_true,
            Bool.true_or, Bool.or_true]
      | workers value =>
          cases later : lastMatch OptionItem.workers? rest <;>
            simp only [Options.apply, lastMatch_cons, later, OptionItem.workers?,
              OptionItem.directory?, Option.or_none, Option.none_or, Option.some_or,
              Option.elim_none, Option.elim_some, List.mem_cons, reduceCtorEq, false_or]
      | directory path =>
          cases later : lastMatch OptionItem.directory? rest <;>
            simp only [Options.apply, lastMatch_cons, later, OptionItem.workers?,
              OptionItem.directory?, Option.or_none, Option.none_or, Option.some_or,
              Option.getD_none, Option.getD_some, List.mem_cons, reduceCtorEq, false_or]

/-! ## The grammar -/

/-- What the items of a command line ask for. -/
structure OptionsOf (hardware : UInt32) (items : List OptionItem) (options : Options) : Prop where
  dirtyOnly : options.dirtyOnly = true ↔ .dirtyOnly ∈ items
  noColor : options.noColor = true ↔ .noColor ∈ items
  workers : options.workers.toNat =
    (lastMatch OptionItem.workers? items).elim (defaultWorkers hardware).toNat digitsValue
  root : options.root = (lastMatch OptionItem.directory? items).getD (ascii ".")

/-- The default lies between 4 and 32. -/
theorem defaultWorkers_bounds (hardware : UInt32) :
    4 ≤ (defaultWorkers hardware).toNat ∧ (defaultWorkers hardware).toNat ≤ 32 := by
  simp only [defaultWorkers]
  generalize (if hardware = 0 then 4 else hardware) = workers
  split_ifs with low high
  · decide
  · decide
  · rw [UInt32.lt_iff_toNat_lt] at low high
    exact ⟨not_lt.mp low, not_lt.mp high⟩

/-- The items that are applied one after the other give the options of the line. -/
theorem optionsOf_foldl (hardware : UInt32) {items : List OptionItem}
    (admissible : Admissible false items) :
    OptionsOf hardware items
      (items.foldl Options.apply { workers := defaultWorkers hardware }) := by
  rw [foldl_apply]
  refine ⟨?_, ?_, ?_, rfl⟩
  · simp only [Bool.false_or, decide_eq_true_eq]
  · simp only [Bool.false_or, decide_eq_true_eq]
  · cases last : lastMatch OptionItem.workers? items with
    | none => rfl
    | some value =>
        obtain ⟨item, inside, found⟩ := lastMatch_mem OptionItem.workers? last
        cases item with
        | workers other =>
            cases found
            have bounded := (admissible.workers value inside).bounded
            rw [Option.elim_some, Option.elim_some, Nat.toUInt32, UInt32.toNat_ofNat']
            exact Nat.mod_eq_of_lt (by omega)
        | dirtyOnly | noColor | directory => cases found

/-- A command line is read to its end. -/
theorem parseOptions_of_isCommandLine (hardware : UInt32) {items : List OptionItem}
    {arguments : List Text} (line : IsCommandLine items arguments) :
    parseOptions hardware arguments =
      { options := items.foldl Options.apply { workers := defaultWorkers hardware } } := by
  obtain ⟨⟨last, reads⟩, admissible⟩ := line
  rw [parseOptions, ← List.append_nil arguments, parseArguments_of_readsAs reads admissible]
  rfl

example : parseOptions 8 [ascii "-d", ascii "--no-color", ascii "-j", ascii "3",
    ascii "projects"] =
      { options := { dirtyOnly := true, noColor := true, workers := 3
                     root := ascii "projects" } } := by decide

/-- A line that asks for help is answered with the usage text. -/
theorem parseOptions_of_asksForHelp (hardware : UInt32) {arguments : List Text}
    (asks : AsksForHelp arguments) :
    (parseOptions hardware arguments).helpRequested = true := by
  obtain ⟨items, front, help, rest, rfl, isHelp, reads, admissible⟩ := asks
  rw [parseOptions, parseArguments_of_readsAs reads admissible]
  simp only [CheckGitStatus.Cpp.isHelp, Bool.or_eq_true, beq_iff_eq] at isHelp
  rcases isHelp with rfl | rfl <;> cases rest <;> rfl

/-- A command line is read, asks for help or leads to an error. -/
theorem parseOptions_cases (hardware : UInt32) (arguments : List Text) :
    (∃ items, IsCommandLine items arguments) ∨ AsksForHelp arguments ∨
      ((parseOptions hardware arguments).error ≠ [] ∧
        (parseOptions hardware arguments).helpRequested = false) := by
  obtain ⟨last, items, front, rest, rfl, reads, admissible, stop⟩ :=
    exists_readsAs false false arguments
  rcases stop with rfl | ⟨rfl, help, later, rfl, isHelp⟩ | ⟨error, text, stuck⟩
  · rw [List.append_nil]
    exact .inl ⟨items, ⟨last, reads⟩, admissible⟩
  · exact .inr (.inl ⟨items, front, help, later, rfl, isHelp, reads, admissible⟩)
  · rw [parseOptions, parseArguments_of_readsAs reads admissible, stuck]
    exact .inr (.inr ⟨text, rfl⟩)

/-- **`parse_options` accepts exactly its grammar.** It returns without an error and
without a help request exactly for command lines, its options are then what the items
ask for, and it asks for help exactly when a help request follows some items. -/
theorem parseOptions_grammar (hardware : UInt32) (arguments : List Text) :
    ((parseOptions hardware arguments).error = [] ∧
        (parseOptions hardware arguments).helpRequested = false ↔
      ∃ items, IsCommandLine items arguments) ∧
    (∀ items, IsCommandLine items arguments →
      OptionsOf hardware items (parseOptions hardware arguments).options) ∧
    (4 ≤ (defaultWorkers hardware).toNat ∧ (defaultWorkers hardware).toNat ≤ 32) ∧
    ((parseOptions hardware arguments).helpRequested = true ↔ AsksForHelp arguments) := by
  refine ⟨⟨?_, ?_⟩, ?_, defaultWorkers_bounds hardware, ?_,
    parseOptions_of_asksForHelp hardware⟩
  · rintro ⟨calm, unasked⟩
    rcases parseOptions_cases hardware arguments with line | asks | ⟨error, -⟩
    · exact line
    · rw [parseOptions_of_asksForHelp hardware asks] at unasked
      cases unasked
    · exact absurd calm error
  · rintro ⟨items, line⟩
    rw [parseOptions_of_isCommandLine hardware line]
    exact ⟨rfl, rfl⟩
  · intro items line
    rw [parseOptions_of_isCommandLine hardware line]
    exact optionsOf_foldl hardware line.2
  · intro asked
    rcases parseOptions_cases hardware arguments with ⟨items, line⟩ | asks | ⟨-, unasked⟩
    · rw [parseOptions_of_isCommandLine hardware line] at asked
      cases asked
    · exact asks
    · rw [unasked] at asked
      cases asked

end CheckGitStatus.Cpp
