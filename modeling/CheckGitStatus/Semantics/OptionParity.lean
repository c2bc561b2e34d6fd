import CheckGitStatus.Cpp.OptionGrammar
import CheckGitStatus.Go.Options

/-! # Command lines that both programs read

The Go program leaves its options to the `flag` package, which stops at the first
argument that is no flag and takes a number with a zero in front for an octal one. The
C++ program reads options after the directory as well, and decimal numbers only. A command
line of the C++ program whose worker counts have no zero in front is accepted by the Go
program exactly if its options come first, and then both read the same options from it
(`CheckGitStatus.parseOptions_parity`).
-/

namespace CheckGitStatus

open Cpp (OptionItem ReadsAs IsCommandLine IsWorkerCount)

/-- Both programs are asked for the same. -/
structure SameOptions (cpp : Cpp.Options) (go : Go.Options) : Prop where
  dirtyOnly : go.dirtyOnly = cpp.dirtyOnly
  noColor : go.noColor = cpp.noColor
  workers : go.workers = cpp.workers.toNat
  root : go.root = cpp.root

/-- Options come first, then at most one directory, which `--` may precede. -/
inductive OptionsFirst : List OptionItem → List Text → Prop
  | nil : OptionsFirst [] []
  | terminator : OptionsFirst [] [ascii "--"]
  | directory {path : Text} : path.head? ≠ some 45 → OptionsFirst [.directory path] [path]
  | directoryEnded (path : Text) : OptionsFirst [.directory path] [ascii "--", path]
  | option {item : OptionItem} {items : List OptionItem} {spelling arguments : List Text} :
      item.Spelled false spelling → item.directory? = none → OptionsFirst items arguments →
      OptionsFirst (item :: items) (spelling ++ arguments)

/-! ## Numbers -/

namespace Go

/-- Further digits do not make a number smaller. -/
theorem le_foldl_digits (text : Text) (value : Nat) :
    value ≤ text.foldl (fun value digit => 10 * value + (digit.toNat - 48)) value := by
  induction text generalizing value with
  | nil => exact Nat.le_refl _
  | cons byte rest ih =>
      have later := ih (10 * value + (byte.toNat - 48))
      rw [List.foldl_cons]
      omega

/-- A digit has its value in every base from ten on. -/
theorem digitValue_of_isDigit {byte : Byte} (digit : isDigit byte = true) :
    digitValue byte = some (byte.toNat - 48) ∧ byte.toNat - 48 < 10 ∧ byte ≠ 95 := by
  have bounds := digit
  rw [isDigit, Bool.and_eq_true, decide_eq_true_eq, decide_eq_true_eq, UInt8.le_iff_toNat_le,
    UInt8.le_iff_toNat_le] at bounds
  refine ⟨by rw [digitValue, if_pos digit], ?_, ?_⟩
  · have below : byte.toNat ≤ 57 := bounds.2
    omega
  · rintro rfl
    exact absurd digit (by decide)

/-- Decimal digits that do not overflow are read as their value. -/
theorem parseDigits_of_digits {text : Text} (digits : ∀ byte ∈ text, isDigit byte = true)
    (value : Nat)
    (fits : text.foldl (fun value digit => 10 * value + (digit.toNat - 48)) value ≤
      18446744073709551615) :
    parseDigits 10 value text =
      .ok (text.foldl (fun value digit => 10 * value + (digit.toNat - 48)) value) := by
  induction text generalizing value with
  | nil => rfl
  | cons byte rest ih =>
      obtain ⟨first, others⟩ := List.forall_mem_cons.mp digits
      obtain ⟨read, small, noUnderscore⟩ := digitValue_of_isDigit first
      rw [List.foldl_cons] at fits ⊢
      have room := (le_foldl_digits rest (10 * value + (byte.toNat - 48))).trans fits
      rw [parseDigits, if_neg noUnderscore, read]
      simp only [Nat.not_le.mpr small, Nat.not_lt.mpr room, ↓reduceIte]
      exact ih others _ fits

/-- A worker count without a zero in front is the same number to both programs. -/
theorem parseInt_of_isWorkerCount {value : Text} (count : IsWorkerCount value)
    (plain : value.head? ≠ some 48) : parseInt value = .ok (digitsValue value) := by
  obtain ⟨nonempty, noMinus, noPlus, -, -, digits⟩ := isNumber_parts count.number
  have bounded := count.bounded
  have every := List.all_eq_true.mp digits
  have decimal : basePrefix value = (10, value) := by rw [basePrefix, if_pos plain]
  have noUnderscore : value.contains 95 = false := by
    rw [List.contains_eq_mem, decide_eq_false_iff_not]
    intro inside
    exact absurd (every 95 inside) (by decide)
  have parsed := parseDigits_of_digits every 0
    (show digitsValue value ≤ 18446744073709551615 by omega)
  have unsigned : parseUint value = .ok (digitsValue value) := by
    rw [parseUint, if_neg nonempty, decimal]
    simp only [parsed, noUnderscore, Bool.false_and, Bool.false_eq_true, ↓reduceIte]
    rfl
  have small : ¬ 9223372036854775808 ≤ digitsValue value := by omega
  have positive : (value.head? == some 45) = false := beq_eq_false_iff_ne.mpr noMinus
  simp only [parseInt, positive, noMinus, noPlus, or_self, ↓reduceIte, unsigned, small,
    Bool.not_false, Bool.true_and, Bool.false_and, decide_false, Bool.false_eq_true]

/-! ## Flags -/

theorem readArgument_plain {path : Text} (plain : path.head? ≠ some 45) :
    readArgument path = .positional := by
  unfold readArgument
  split
  · exact absurd rfl plain
  · rfl

/-- The options with what an item asks for. -/
def Options.apply (options : Options) : OptionItem → Options
  | .dirtyOnly => { options with dirtyOnly := true }
  | .noColor => { options with noColor := true }
  | .workers value => { options with workers := digitsValue value }
  | .directory path => { options with root := path }

variable (quote : Text → Text)

/-- What the loop does with the value of a worker flag. -/
def workersThen (options : Options) (name value : Text) (rest : List Text) : ParsedFlags :=
  match parseInt value with
  | .error error => .error (invalidNumber quote name value error)
  | .ok workers => parseFlags quote { options with workers } rest

/-- Either spelling of a worker count goes to the flag's value. -/
theorem parseFlags_workers {value : Text} {spelling : List Text}
    (spelled : OptionItem.Spelled false (.workers value) spelling) (options : Options)
    (rest : List Text) :
    ∃ name, parseFlags quote options (spelling ++ rest) =
      workersThen quote options name value rest := by
  cases spelled with
  | workers => exact ⟨ascii "j", rfl⟩
  | workersLong => exact ⟨ascii "workers", rfl⟩
  | workersAttached => exact ⟨ascii "j", by cases rest <;> rfl⟩
  | workersLongAttached => exact ⟨ascii "workers", by cases rest <;> rfl⟩

/-- A flag is read like the item that it spells. -/
theorem parseFlags_spelled {item : OptionItem} {spelling : List Text}
    (spelled : item.Spelled false spelling) (option : item.directory? = none)
    (read : ∀ value, item = .workers value → parseInt value = .ok (digitsValue value))
    (options : Options) (rest : List Text) :
    parseFlags quote options (spelling ++ rest) = parseFlags quote (options.apply item) rest := by
  cases item with
  | dirtyOnly => cases spelled <;> rfl
  | noColor =>
      cases spelled
      rfl
  | workers value =>
      obtain ⟨name, reached⟩ := parseFlags_workers quote spelled options rest
      rw [reached, workersThen, read value rfl]
      rfl
  | directory => cases option

/-- The loop stops at the first argument that is no flag. -/
theorem parseFlags_plain {path : Text} (plain : path.head? ≠ some 45) (options : Options)
    (rest : List Text) : parseFlags quote options (path :: rest) = .ok (options, path :: rest) := by
  rw [parseFlags, readArgument_plain plain]

/-- The end of `parseOptions`, after the flags: at most one directory, and a worker. -/
theorem parseOptions_eq_ok_iff {numCPU : Int} {arguments positional : List Text}
    {parsed options : Options}
    (read : parseFlags quote { workers := defaultWorkers numCPU } arguments =
      .ok (parsed, positional)) :
    (parseOptions quote numCPU arguments).1 = .ok options ↔
      positional.length ≤ 1 ∧ 1 ≤ parsed.workers ∧
        options = { parsed with root := positional.head?.getD (ascii ".") } := by
  simp only [parseOptions, read]
  split_ifs with many none
  · refine ⟨nofun, fun accepted => ?_⟩
    omega
  · refine ⟨nofun, fun accepted => ?_⟩
    omega
  · rw [Except.ok.injEq]
    refine ⟨fun same => ⟨by omega, by omega, same.symm⟩, fun accepted => accepted.2.2.symm⟩

end Go

/-! ## Command lines -/

/-- The options agree, whatever the directory is. -/
structure SameFlags (cpp : Cpp.Options) (go : Go.Options) : Prop where
  dirtyOnly : go.dirtyOnly = cpp.dirtyOnly
  noColor : go.noColor = cpp.noColor
  workers : go.workers = cpp.workers.toNat

/-- Both programs read the worker counts of the items. -/
def ReadsWorkers (items : List OptionItem) : Prop :=
  ∀ value, .workers value ∈ items → IsWorkerCount value ∧ value.head? ≠ some 48

/-- The same item keeps the flags the same. -/
theorem SameFlags.apply {cpp : Cpp.Options} {go : Go.Options} (same : SameFlags cpp go)
    {item : OptionItem} (count : ∀ value, item = .workers value → IsWorkerCount value) :
    SameFlags (cpp.apply item) (go.apply item) := by
  cases item with
  | dirtyOnly => exact ⟨rfl, same.noColor, same.workers⟩
  | noColor => exact ⟨same.dirtyOnly, rfl, same.workers⟩
  | directory => exact ⟨same.dirtyOnly, same.noColor, same.workers⟩
  | workers value =>
      have bounded := (count value rfl).bounded
      refine ⟨same.dirtyOnly, same.noColor, ?_⟩
      rw [Go.Options.apply, Cpp.Options.apply, Nat.toUInt32, UInt32.toNat_ofNat',
        Nat.mod_eq_of_lt (by omega)]

/-- An option leaves the root as it is. -/
theorem apply_root {item : OptionItem} (option : item.directory? = none) (cpp : Cpp.Options) :
    (cpp.apply item).root = cpp.root := by
  cases item with
  | directory => cases option
  | dirtyOnly | noColor | workers => rfl

section Flags

variable (quote : Text → Text) {items : List OptionItem} {arguments : List Text}

/-- An option in front is read and the rest goes on from it. -/
theorem parseFlags_item {item : OptionItem} {spelling : List Text}
    (spelled : item.Spelled false spelling) (option : item.directory? = none)
    (read : ReadsWorkers (item :: items)) (go : Go.Options) (rest : List Text) :
    Go.parseFlags quote go (spelling ++ rest) = Go.parseFlags quote (go.apply item) rest := by
  refine Go.parseFlags_spelled quote spelled option ?_ go rest
  rintro value rfl
  obtain ⟨count, plain⟩ := read value List.mem_cons_self
  exact Go.parseInt_of_isWorkerCount count plain

/-- With the options first both programs read the same. -/
theorem parseFlags_of_optionsFirst (first : OptionsFirst items arguments)
    (read : ReadsWorkers items) {cpp : Cpp.Options} {go : Go.Options} (same : SameFlags cpp go) :
    ∃ parsed positional, Go.parseFlags quote go arguments = .ok (parsed, positional) ∧
      positional.length ≤ 1 ∧ SameFlags (items.foldl Cpp.Options.apply cpp) parsed ∧
      (items.foldl Cpp.Options.apply cpp).root = positional.head?.getD cpp.root := by
  induction first generalizing cpp go with
  | nil => exact ⟨go, [], rfl, Nat.zero_le 1, same, rfl⟩
  | terminator => exact ⟨go, [], rfl, Nat.zero_le 1, same, rfl⟩
  | @directory path plain =>
      refine ⟨go, [path], Go.parseFlags_plain quote plain go [], Nat.le_refl 1, ?_, rfl⟩
      exact ⟨same.dirtyOnly, same.noColor, same.workers⟩
  | directoryEnded path =>
      exact ⟨go, [path], rfl, Nat.le_refl 1, ⟨same.dirtyOnly, same.noColor, same.workers⟩, rfl⟩
  | @option item items spelling arguments spelled option _ ih =>
      have count : ∀ value, item = .workers value → IsWorkerCount value := by
        rintro value rfl
        exact (read value List.mem_cons_self).1
      have later : ReadsWorkers items := fun value inside =>
        read value (List.mem_cons_of_mem _ inside)
      obtain ⟨parsed, positional, reached, few, flags, root⟩ := ih later (same.apply count)
      rw [apply_root option] at root
      refine ⟨parsed, positional, ?_, few, flags, root⟩
      rw [parseFlags_item quote spelled option read, reached]

/-- No arguments read as no items. -/
theorem readsAs_nil {ended last : Bool} (reads : ReadsAs ended last items []) : items = [] := by
  generalize none : ([] : List Text) = arguments at reads
  cases reads with
  | nil => rfl
  | item spelled => exact absurd (List.append_eq_nil_iff.mp none.symm).1 spelled.ne_nil
  | terminator => cases none

/-- After the end of the options every argument is a directory. -/
theorem readsAs_ended {last : Bool} {path : Text} (reads : ReadsAs true last items [path]) :
    items = [.directory path] := by
  generalize single : [path] = arguments at reads
  cases reads with
  | nil => cases single
  | item spelled later =>
      cases spelled
      obtain ⟨rfl, rfl⟩ := List.cons.inj single
      rw [readsAs_nil later]

/-- The Go program accepts no other command lines. -/
theorem optionsFirst_of_parseFlags {last : Bool} (reads : ReadsAs false last items arguments)
    (read : ReadsWorkers items) (go : Go.Options) :
    ∃ parsed positional, Go.parseFlags quote go arguments = .ok (parsed, positional) ∧
      (positional.length ≤ 1 → OptionsFirst items arguments) := by
  generalize start : false = ended at reads
  induction reads generalizing go with
  | nil => exact ⟨go, [], rfl, fun _ => .nil⟩
  | @item ended last item items spelling arguments spelled later ih =>
      subst start
      cases option : item.directory? with
      | none =>
          obtain ⟨parsed, positional, reached, first⟩ := ih
            (fun value inside => read value (List.mem_cons_of_mem _ inside)) (go.apply item) rfl
          refine ⟨parsed, positional, ?_, fun few => .option spelled option (first few)⟩
          rw [parseFlags_item quote spelled option read, reached]
      | some path =>
          cases spelled with
          | directory plain =>
              refine ⟨go, _, Go.parseFlags_plain quote plain go arguments, fun few => ?_⟩
              have alone : arguments = [] := List.length_eq_zero_iff.mp (Nat.le_zero.mp
                (Nat.le_of_succ_le_succ few))
              subst alone
              rw [readsAs_nil later]
              exact .directory plain
          | _ => cases option
  | @terminator last items arguments later _ =>
      refine ⟨go, arguments, rfl, fun few => ?_⟩
      rcases arguments with _ | ⟨path, _ | ⟨other, rest⟩⟩
      · rw [readsAs_nil later]
        exact .terminator
      · rw [readsAs_ended later]
        exact .directoryEnded path
      · exact absurd few (by simp)

end Flags

/-- Both programs start with the same options on one machine. -/
theorem sameFlags_default (hardware : UInt32) :
    SameFlags { workers := Cpp.defaultWorkers hardware }
      { workers := Go.defaultWorkers hardware.toNat } := by
  refine ⟨rfl, rfl, ?_⟩
  simp only [Go.defaultWorkers, Cpp.defaultWorkers, UInt32.lt_iff_toNat_lt]
  by_cases unknown : hardware = 0
  · subst unknown
    rfl
  · have four : (4 : UInt32).toNat = 4 := rfl
    have most : (32 : UInt32).toNat = 32 := rfl
    simp only [unknown, ↓reduceIte, four, most]
    split_ifs <;> omega

/-- The worker count stays positive. -/
theorem one_le_workers {items : List OptionItem}
    (read : ∀ value, .workers value ∈ items → IsWorkerCount value) {cpp : Cpp.Options}
    (positive : 1 ≤ cpp.workers.toNat) :
    1 ≤ (items.foldl Cpp.Options.apply cpp).workers.toNat := by
  induction items generalizing cpp with
  | nil => exact positive
  | cons item rest ih =>
      refine ih (fun value inside => read value (List.mem_cons_of_mem _ inside)) ?_
      cases item with
      | workers value =>
          have count := read value List.mem_cons_self
          have bounded := count.bounded
          rw [Cpp.Options.apply, Nat.toUInt32, UInt32.toNat_ofNat', Nat.mod_eq_of_lt (by omega)]
          exact count.positive
      | dirtyOnly | noColor | directory => exact positive

/-- Options that agree with the same ones are the same. -/
theorem SameOptions.unique {cpp : Cpp.Options} {left right : Go.Options}
    (first : SameOptions cpp left) (second : SameOptions cpp right) : left = right := by
  cases left
  cases right
  simp only [Go.Options.mk.injEq]
  exact ⟨first.dirtyOnly.trans second.dirtyOnly.symm, first.noColor.trans second.noColor.symm,
    first.workers.trans second.workers.symm, first.root.trans second.root.symm⟩

/-- What the Go program accepts when the options come first. -/
theorem exists_sameOptions (quote : Text → Text) (hardware : UInt32) {items : List OptionItem}
    {arguments : List Text} (line : IsCommandLine items arguments)
    (plain : ∀ value, .workers value ∈ items → value.head? ≠ some 48)
    (first : OptionsFirst items arguments) :
    ∃ accepted, (Go.parseOptions quote hardware.toNat arguments).1 = .ok accepted ∧
      SameOptions (items.foldl Cpp.Options.apply { workers := Cpp.defaultWorkers hardware })
        accepted := by
  have positive := @one_le_workers items line.2.workers { workers := Cpp.defaultWorkers hardware }
    (le_trans (by decide) (Cpp.defaultWorkers_bounds hardware).1)
  obtain ⟨parsed, positional, reached, few, flags, root⟩ :=
    parseFlags_of_optionsFirst quote first
      (fun value inside => ⟨line.2.workers value inside, plain value inside⟩)
      (sameFlags_default hardware)
  refine ⟨_, (Go.parseOptions_eq_ok_iff quote reached).mpr ⟨few, ?_, rfl⟩,
    flags.dirtyOnly, flags.noColor, flags.workers, root.symm⟩
  rw [flags.workers]
  omega

/-- **What both programs make of a command line.** On a machine with any number of
processors, the Go program accepts a command line of the C++ program whose worker counts
have no zero in front exactly if its options come first, and with the options that the C++
program reads. -/
theorem parseOptions_parity (quote : Text → Text) (hardware : UInt32) {items : List OptionItem}
    {arguments : List Text} (line : IsCommandLine items arguments)
    (plain : ∀ value, .workers value ∈ items → value.head? ≠ some 48) (options : Go.Options) :
    (Go.parseOptions quote hardware.toNat arguments).1 = .ok options ↔
      OptionsFirst items arguments ∧
        SameOptions (Cpp.parseOptions hardware arguments).options options := by
  rw [Cpp.parseOptions_of_isCommandLine hardware line]
  constructor
  · intro accepted
    obtain ⟨⟨last, reads⟩, admissible⟩ := line
    obtain ⟨parsed, positional, reached, ordered⟩ := optionsFirst_of_parseFlags quote reads
      (fun value inside => ⟨admissible.workers value inside, plain value inside⟩)
      { workers := Go.defaultWorkers hardware.toNat }
    have first := ordered ((Go.parseOptions_eq_ok_iff quote reached).mp accepted).1
    obtain ⟨other, otherAccepted, same⟩ :=
      exists_sameOptions quote hardware ⟨⟨last, reads⟩, admissible⟩ plain first
    rw [accepted] at otherAccepted
    cases otherAccepted
    exact ⟨first, same⟩
  · rintro ⟨first, same⟩
    obtain ⟨other, accepted, otherSame⟩ := exists_sameOptions quote hardware line plain first
    rw [accepted, otherSame.unique same]

/-- The Go program reads a command line of the common grammar. -/
theorem parseOptions_parity_projects :
    (Go.parseOptions id 8 [ascii "-d", ascii "--workers=3", ascii "projects"]).1 =
      .ok { dirtyOnly := true, workers := 3, root := ascii "projects" } := by
  have reads : ReadsAs false false [.dirtyOnly, .workers (ascii "3"), .directory (ascii "projects")]
      [ascii "-d", ascii "--workers=3", ascii "projects"] :=
    .item .dirtyOnly (.item (.workersLongAttached (ascii "3"))
      (.item (.directory (by decide)) (.nil false)))
  have admissible : Cpp.Admissible false
      [.dirtyOnly, .workers (ascii "3"), .directory (ascii "projects")] := by
    refine ⟨fun value inside => ?_, by decide⟩
    have three : value = ascii "3" := by simpa using inside
    rw [three]
    decide
  refine (parseOptions_parity id 8 ⟨⟨false, reads⟩, admissible⟩ ?_ _).mpr ⟨?_, ?_⟩
  · intro value inside
    have three : value = ascii "3" := by simpa using inside
    rw [three]
    decide
  · exact .option .dirtyOnly rfl (.option (.workersLongAttached (ascii "3")) rfl
      (.directory (by decide)))
  · exact ⟨rfl, rfl, rfl, rfl⟩

-- an octal number to one program and a decimal one to the other
example : (Go.parseOptions id 8 [ascii "-j", ascii "010"]).1.toOption.map Go.Options.workers =
    some 8 ∧ (Cpp.parseOptions 8 [ascii "-j", ascii "010"]).options.workers = 10 := by decide

end CheckGitStatus
