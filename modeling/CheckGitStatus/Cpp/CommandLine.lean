import Mathlib.Data.List.Basic

/-! # The command line of the Windows build

`CreateProcessW` takes one command line, so `ExecGitRunner::run` quotes every argument
and the child splits the line again by the documented Microsoft rules. The rules are
written down as a scanner (`CheckGitStatus.Cpp.splitCommandLine`) that undoes the
quoting (`CheckGitStatus.Cpp.splitCommandLine_commandLine`).
-/

namespace CheckGitStatus.Cpp

/-- `wchar_t` on Windows. -/
abbrev WideChar := UInt16

/-- A `std::wstring`, with the UTF-16 units of the Windows build. -/
abbrev WideText := List WideChar

namespace WideChar

/-- The unit of `\`, which stands for itself except in front of a quote. -/
def backslash : WideChar := 92

/-- The unit of `"`, which opens and closes a quoted argument. -/
def quote : WideChar := 34

/-- The unit of the space. -/
def space : WideChar := 32

/-- The unit of the tab. -/
def tab : WideChar := 9

end WideChar

open WideChar

/-! ## Quoting -/

/-- The characters that `find_first_of` looks for: space, tab, line feed, vertical
tab and quote. -/
def isSpecial (character : WideChar) : Bool :=
  character == space || character == tab || character == 10 || character == 11 ||
    character == quote

/-- The text quoted so far and the backslashes that are still to be written. -/
structure Quoting where
  quoted : WideText
  backslashes : Nat

/-- One turn of the loop of `quote_windows_argument`: backslashes are counted until it is known
whether a quote follows them. -/
def Quoting.add (state : Quoting) (character : WideChar) : Quoting :=
  if character = backslash then { state with backslashes := state.backslashes + 1 }
  else if character = quote then
    { quoted := state.quoted ++ List.replicate (state.backslashes * 2 + 1) backslash ++ [character]
      backslashes := 0 }
  else
    { quoted := state.quoted ++ List.replicate state.backslashes backslash ++ [character]
      backslashes := 0 }

/-- `quote_windows_argument`: an argument goes as it is if it is not empty and has neither white
space nor a quote in it. -/
def quoteWindowsArgument (argument : WideText) : WideText :=
  if argument ≠ [] ∧ argument.all (fun character => !isSpecial character) then argument
  else
    let state := argument.foldl Quoting.add { quoted := [quote], backslashes := 0 }
    state.quoted ++ List.replicate (state.backslashes * 2) backslash ++ [quote]

/-- The loop over `command_arguments`. -/
def commandLine (arguments : List WideText) : WideText :=
  arguments.foldl
    (fun line argument =>
      (if line ≠ [] then line ++ [space] else line) ++ quoteWindowsArgument argument)
    []

/-! ## The documented rules -/

/-- The program name and what follows it. -/
def splitProgram (line : WideText) : WideText × WideText :=
  if line.head? = some quote then
    (line.tail.takeWhile fun character => character != quote,
      (line.tail.dropWhile fun character => character != quote).tail)
  else
    (line.takeWhile fun character => character != space && character != tab,
      line.dropWhile fun character => character != space && character != tab)

/-- A scan of the arguments after the program name: the finished arguments, the one
that has begun, whether the scan is between quotes, and the backslashes just read. -/
structure ArgumentScan where
  done : List WideText
  current : Option WideText
  quoting : Bool
  backslashes : Nat

namespace ArgumentScan

/-- Between two arguments. -/
def between (done : List WideText) : ArgumentScan where
  done
  current := none
  quoting := false
  backslashes := 0

/-- The current argument with the backslashes just read taken literally. -/
def pending (scan : ArgumentScan) : WideText :=
  scan.current.getD [] ++ List.replicate scan.backslashes backslash

/-- The arguments if the line ends here. -/
def finish (scan : ArgumentScan) : List WideText :=
  match scan.current with
  | none => scan.done
  | some _ => scan.done ++ [scan.pending]

/-- One character of a command line: backslashes count in pairs in front of a quote, and a blank
outside quotes ends an argument. -/
def read (scan : ArgumentScan) (character : WideChar) : ArgumentScan :=
  if character = backslash then
    { scan with
      current := some (scan.current.getD [])
      backslashes := scan.backslashes + 1 }
  else if character = quote then
    let halved := scan.current.getD [] ++ List.replicate (scan.backslashes / 2) backslash
    if scan.backslashes % 2 = 0 then
      { scan with current := some halved, quoting := !scan.quoting, backslashes := 0 }
    else { scan with current := some (halved ++ [quote]), backslashes := 0 }
  else if (character = space ∨ character = tab) ∧ scan.quoting = false then between scan.finish
  else { scan with current := some (scan.pending ++ [character]), backslashes := 0 }

end ArgumentScan

/-- The arguments of a command line. -/
def splitCommandLine (line : WideText) : List WideText :=
  let (program, rest) := splitProgram line
  (rest.foldl ArgumentScan.read (.between [program])).finish

/-! ## Scanning one quoted argument -/

namespace ArgumentScan

/-- The scan is inside an argument of which it has read `text`. -/
structure Holds (scan : ArgumentScan) (done : List WideText) (quoting : Bool) (text : WideText) :
    Prop where
  done_eq : scan.done = done
  begun : scan.current ≠ none
  quoting_eq : scan.quoting = quoting
  pending_eq : scan.pending = text

/-- At the end of the line the argument at hand is the last one. -/
theorem Holds.finish_eq {scan : ArgumentScan} {done : List WideText} {quoting : Bool}
    {text : WideText} (holds : scan.Holds done quoting text) : scan.finish = done ++ [text] := by
  obtain ⟨current, begun⟩ := Option.ne_none_iff_exists'.mp holds.begun
  rw [finish, begun, holds.done_eq, holds.pending_eq]

/-- Any character but a quote, and but a blank outside quotes, is added to the text. -/
theorem read_literal {scan : ArgumentScan} {character : WideChar} (other : character ≠ quote)
    (kept : scan.quoting = true ∨ (character ≠ space ∧ character ≠ tab)) :
    (scan.read character).Holds scan.done scan.quoting (scan.pending ++ [character]) := by
  unfold read
  by_cases slash : character = backslash
  · subst slash
    rw [if_pos rfl]
    refine ⟨rfl, Option.some_ne_none _, rfl, ?_⟩
    simp only [pending, Option.getD_some, List.replicate_succ', List.append_assoc]
  · have inside : ¬ ((character = space ∨ character = tab) ∧ scan.quoting = false) := by
      rintro ⟨blank, unquoted⟩
      rcases kept with quoted | ⟨noSpace, noTab⟩
      · rw [quoted] at unquoted
        cases unquoted
      · rcases blank with isSpace | isTab
        · exact noSpace isSpace
        · exact noTab isTab
    rw [if_neg slash, if_neg other, if_neg inside]
    refine ⟨rfl, Option.some_ne_none _, rfl, ?_⟩
    simp only [pending, Option.getD_some, List.replicate_zero, List.append_nil]

/-- Backslashes are counted until the next other character. -/
theorem foldl_read_backslashes (done : List WideText) (front : WideText) (quoting : Bool)
    (count more : Nat) :
    (List.replicate more backslash).foldl read
        { done, current := some front, quoting, backslashes := count } =
      { done, current := some front, quoting, backslashes := count + more } := by
  induction more generalizing count with
  | zero => rfl
  | succ more ih =>
      rw [List.replicate_succ, List.foldl_cons]
      change (List.replicate more backslash).foldl read
        { done, current := some front, quoting, backslashes := count + 1 } = _
      rw [ih, Nat.add_assoc, Nat.add_comm 1 more]

/-- An even number of backslashes before a quote is halved and the quote toggles. -/
theorem read_quote_even (done : List WideText) (front : WideText) (quoting : Bool) (count : Nat) :
    read { done, current := some front, quoting, backslashes := count * 2 } quote =
      { done, current := some (front ++ List.replicate count backslash), quoting := !quoting,
        backslashes := 0 } := by
  have other : ¬ quote = backslash := by decide
  have even : count * 2 % 2 = 0 := Nat.mul_mod_left count 2
  have half : count * 2 / 2 = count := Nat.mul_div_cancel count (by decide)
  simp only [read, other, even, half, ↓reduceIte, Option.getD_some]

/-- An odd number of backslashes before a quote makes the quote literal. -/
theorem read_quote_odd (done : List WideText) (front : WideText) (quoting : Bool) (count : Nat) :
    read { done, current := some front, quoting, backslashes := count * 2 + 1 } quote =
      { done, current := some (front ++ List.replicate count backslash ++ [quote]), quoting,
        backslashes := 0 } := by
  have other : ¬ quote = backslash := by decide
  have odd : ¬ (count * 2 + 1) % 2 = 0 := by omega
  have half : (count * 2 + 1) / 2 = count := by omega
  simp only [read, other, odd, half, ↓reduceIte, Option.getD_some]

end ArgumentScan

/-- Scanning what has been quoted so far gives back the text but for the backslashes
that are still to be written. -/
def Quoting.Scans (state : Quoting) (done : List WideText) (text : WideText) : Prop :=
  ∃ front, state.quoted.foldl ArgumentScan.read (.between done) =
      { done, current := some front, quoting := true, backslashes := 0 } ∧
    front ++ List.replicate state.backslashes backslash = text

/-- Quoting one more character keeps the correspondence. -/
theorem Quoting.Scans.add {state : Quoting} {done : List WideText} {text : WideText}
    (scans : state.Scans done text) (character : WideChar) :
    (state.add character).Scans done (text ++ [character]) := by
  obtain ⟨front, scanned, rfl⟩ := scans
  unfold Quoting.add
  by_cases slash : character = backslash
  · subst slash
    rw [if_pos rfl]
    refine ⟨front, scanned, ?_⟩
    rw [List.replicate_succ', List.append_assoc]
  by_cases quoted : character = quote
  · subst quoted
    rw [if_neg slash, if_pos rfl]
    refine ⟨front ++ List.replicate state.backslashes backslash ++ [quote], ?_,
      List.append_nil _⟩
    rw [List.foldl_append, List.foldl_append, scanned, ArgumentScan.foldl_read_backslashes,
      Nat.zero_add, List.foldl_cons, List.foldl_nil, ArgumentScan.read_quote_odd]
  · rw [if_neg slash, if_neg quoted]
    refine ⟨front ++ List.replicate state.backslashes backslash ++ [character], ?_,
      List.append_nil _⟩
    rw [List.foldl_append, List.foldl_append, scanned, ArgumentScan.foldl_read_backslashes,
      Nat.zero_add, List.foldl_cons, List.foldl_nil]
    -- a blank between quotes does not end the argument
    simp only [ArgumentScan.read, slash, quoted, Bool.true_eq_false, and_false, ↓reduceIte,
      ArgumentScan.pending, Option.getD_some]

/-- The loop over an argument adds the argument. -/
theorem Quoting.Scans.foldl_add {state : Quoting} {done : List WideText} {text : WideText}
    (scans : state.Scans done text) (argument : WideText) :
    (argument.foldl Quoting.add state).Scans done (text ++ argument) := by
  induction argument generalizing state text with
  | nil =>
      rw [List.append_nil]
      exact scans
  | cons character rest ih =>
      rw [List.foldl_cons, List.append_cons]
      exact ih (scans.add character)

/-- An argument without special characters is read as it is. -/
theorem foldl_read_plain {done : List WideText} {argument : WideText}
    (plain : ∀ character ∈ argument, isSpecial character = false) :
    ∀ scan : ArgumentScan, scan.done = done → scan.quoting = false → argument ≠ [] →
      (argument.foldl ArgumentScan.read scan).Holds done false (scan.pending ++ argument) := by
  induction argument with
  | nil => exact fun _ _ _ nonempty => absurd rfl nonempty
  | cons character rest ih =>
      intro scan scanned unquoted _
      have here := plain character List.mem_cons_self
      simp only [isSpecial, Bool.or_eq_false_iff, beq_eq_false_iff_ne] at here
      obtain ⟨⟨⟨⟨noSpace, noTab⟩, -⟩, -⟩, noQuote⟩ := here
      have first := @ArgumentScan.read_literal scan character noQuote (.inr ⟨noSpace, noTab⟩)
      rw [scanned, unquoted] at first
      rw [List.foldl_cons, List.append_cons]
      cases rest with
      | nil =>
          rw [List.append_nil]
          exact first
      | cons next rest =>
          have later := ih (fun other inside => plain other (List.mem_cons_of_mem _ inside))
            (scan.read character) first.done_eq first.quoting_eq (List.cons_ne_nil _ _)
          rw [first.pending_eq] at later
          exact later

/-- **Scanning a quoted argument gives the argument back.** -/
theorem foldl_read_quoteWindowsArgument (done : List WideText) (argument : WideText) :
    ((quoteWindowsArgument argument).foldl ArgumentScan.read (.between done)).Holds done false
      argument := by
  unfold quoteWindowsArgument
  by_cases plain : argument ≠ [] ∧ argument.all (fun character => !isSpecial character) = true
  · rw [if_pos plain]
    obtain ⟨nonempty, every⟩ := plain
    apply foldl_read_plain
    · intro character inside
      simpa using List.all_eq_true.mp every character inside
    · rfl
    · rfl
    · exact nonempty
  · rw [if_neg plain]
    have opened : Quoting.Scans { quoted := [quote], backslashes := 0 } done [] := by
      have other : ¬ quote = backslash := by decide
      refine ⟨[], ?_, rfl⟩
      simp only [List.foldl_cons, List.foldl_nil, ArgumentScan.read, ArgumentScan.between, other,
        ↓reduceIte, Nat.zero_mod, Option.getD_none, Nat.zero_div, List.replicate_zero,
        List.append_nil, Bool.not_false]
    obtain ⟨front, scanned, whole⟩ := opened.foldl_add argument
    rw [List.foldl_append, List.foldl_append, scanned, ArgumentScan.foldl_read_backslashes,
      Nat.zero_add, List.foldl_cons, List.foldl_nil, ArgumentScan.read_quote_even]
    refine ⟨rfl, Option.some_ne_none _, rfl, ?_⟩
    simp only [ArgumentScan.pending, Option.getD_some, List.replicate_zero, List.append_nil, whole,
      List.nil_append]

/-! ## The whole line -/

theorem quoteWindowsArgument_ne_nil (argument : WideText) :
    quoteWindowsArgument argument ≠ [] := by
  unfold quoteWindowsArgument
  split
  · rename_i plain
    exact plain.1
  · exact List.append_ne_nil_of_right_ne_nil _ (List.cons_ne_nil _ _)

/-- The loop joins the quoted arguments with single spaces. -/
theorem commandLine_cons (program : WideText) (arguments : List WideText) :
    commandLine (program :: arguments) = quoteWindowsArgument program ++
      arguments.flatMap fun argument => space :: quoteWindowsArgument argument := by
  have loop : ∀ line : WideText, line ≠ [] →
      arguments.foldl
        (fun line argument =>
          (if line ≠ [] then line ++ [space] else line) ++ quoteWindowsArgument argument) line =
        line ++ arguments.flatMap fun argument => space :: quoteWindowsArgument argument := by
    induction arguments with
    | nil => exact fun line _ => (List.append_nil line).symm
    | cons argument rest ih =>
        intro line begun
        have longer : line ++ [space] ++ quoteWindowsArgument argument ≠ [] :=
          List.append_ne_nil_of_right_ne_nil _ (quoteWindowsArgument_ne_nil argument)
        rw [List.foldl_cons, if_pos begun, ih _ longer, List.flatMap_cons]
        simp only [List.append_assoc, List.cons_append, List.nil_append]
  unfold commandLine
  rw [List.foldl_cons]
  exact loop _ (quoteWindowsArgument_ne_nil program)

/-- Every further argument ends the one before and is read back. -/
theorem finish_foldl_read (arguments : List WideText) {scan : ArgumentScan}
    (unquoted : scan.quoting = false) :
    ((arguments.flatMap fun argument => space :: quoteWindowsArgument argument).foldl
      ArgumentScan.read scan).finish = scan.finish ++ arguments := by
  induction arguments generalizing scan with
  | nil => exact (List.append_nil _).symm
  | cons argument rest ih =>
      have ended : scan.read space = .between scan.finish := by
        have noSlash : ¬ space = backslash := by decide
        have noQuote : ¬ space = quote := by decide
        simp only [ArgumentScan.read, noSlash, noQuote, unquoted, true_or, and_self, ↓reduceIte]
      have argumentRead := foldl_read_quoteWindowsArgument scan.finish argument
      rw [List.flatMap_cons, List.cons_append, List.foldl_cons, ended, List.foldl_append,
        ih argumentRead.quoting_eq, argumentRead.finish_eq, List.append_assoc,
        List.singleton_append]

/-- Quoting a program path without quotes doubles no backslash, except at its end. -/
theorem foldl_add_of_no_quote {program : WideText} (noQuote : quote ∉ program)
    (state : Quoting) :
    (program.foldl Quoting.add state).quoted ++
        List.replicate (program.foldl Quoting.add state).backslashes backslash =
      state.quoted ++ List.replicate state.backslashes backslash ++ program := by
  induction program generalizing state with
  | nil => exact (List.append_nil _).symm
  | cons character rest ih =>
      have other : character ≠ quote := fun same => noQuote (same ▸ List.mem_cons_self)
      rw [List.foldl_cons, ih fun inside => noQuote (List.mem_cons_of_mem _ inside)]
      unfold Quoting.add
      by_cases slash : character = backslash
      · subst slash
        simp only [↓reduceIte, List.replicate_succ', List.append_assoc, List.singleton_append]
      · simp only [slash, other, ↓reduceIte, List.replicate_zero, List.append_nil,
          List.append_assoc, List.singleton_append]

/-- After a character other than a backslash none is pending. -/
theorem backslashes_foldl_add {program : WideText}
    (ending : program.getLast? ≠ some backslash) (quoted : WideText) :
    (program.foldl Quoting.add { quoted, backslashes := 0 }).backslashes = 0 := by
  rcases List.eq_nil_or_concat program with rfl | ⟨front, last, rfl⟩
  · rfl
  · rw [List.concat_eq_append] at ending ⊢
    have other : last ≠ backslash := by
      intro same
      apply ending
      rw [List.getLast?_append, List.getLast?_singleton, Option.some_or, same]
    rw [List.foldl_append, List.foldl_cons, List.foldl_nil, Quoting.add, if_neg other]
    split <;> rfl

/-- A program path that needs no quotes ends at the first blank. -/
theorem splitProgram_append {program : WideText} (noQuote : quote ∉ program)
    (nonempty : program ≠ [])
    (literal : ∀ character ∈ program, (character != space && character != tab) = true)
    {rest : WideText} (spaced : rest = [] ∨ rest.head? = some space) :
    splitProgram (program ++ rest) = (program, rest) := by
  have unquoted : (program ++ rest).head? ≠ some quote := by
    cases program with
    | nil => exact absurd rfl nonempty
    | cons first _ =>
        intro same
        exact noQuote (Option.some.inj same ▸ List.mem_cons_self)
  have stops : rest.takeWhile (fun character => character != space && character != tab) = [] ∧
      rest.dropWhile (fun character => character != space && character != tab) = rest := by
    cases rest with
    | nil => exact ⟨rfl, rfl⟩
    | cons first _ =>
        have blank : first = space := by simpa using spaced
        subst blank
        exact ⟨rfl, rfl⟩
  rw [splitProgram, if_neg unquoted, List.takeWhile_append_of_pos literal,
    List.dropWhile_append_of_pos literal, stops.1, stops.2, List.append_nil]

/-- The program name ends where its quoting ends. -/
theorem splitProgram_quoteWindowsArgument {program : WideText} (noQuote : quote ∉ program)
    (ending : program.getLast? ≠ some backslash) {rest : WideText}
    (spaced : rest = [] ∨ rest.head? = some space) :
    splitProgram (quoteWindowsArgument program ++ rest) = (program, rest) := by
  have differ : ∀ character ∈ program, (character != quote) = true := by
    intro character inside
    rw [bne_iff_ne]
    rintro rfl
    exact noQuote inside
  unfold quoteWindowsArgument
  by_cases plain : program ≠ [] ∧ program.all (fun character => !isSpecial character) = true
  · rw [if_pos plain]
    obtain ⟨nonempty, every⟩ := plain
    have literal : ∀ character ∈ program,
        (character != space && character != tab) = true := by
      intro character inside
      have ordinary := List.all_eq_true.mp every character inside
      simp only [isSpecial, Bool.not_eq_true', Bool.or_eq_false_iff, beq_eq_false_iff_ne]
        at ordinary
      simp only [Bool.and_eq_true, bne_iff_ne]
      exact ordinary.1.1.1
    exact splitProgram_append noQuote nonempty literal spaced
  · rw [if_neg plain]
    have written := foldl_add_of_no_quote noQuote { quoted := [quote], backslashes := 0 }
    have noneLeft := backslashes_foldl_add ending [quote]
    rw [noneLeft] at written
    simp only [List.replicate_zero, List.append_nil, List.singleton_append] at written
    simp only [noneLeft, Nat.zero_mul, List.replicate_zero, List.append_nil, written,
      List.cons_append, List.append_assoc, List.nil_append]
    have opened : (quote :: (program ++ quote :: rest)).head? = some quote := rfl
    rw [splitProgram, if_pos opened, List.tail_cons, List.takeWhile_append_of_pos differ,
      List.dropWhile_append_of_pos differ]
    simp only [List.takeWhile_cons, List.dropWhile_cons, bne_self_eq_false, Bool.false_eq_true,
      ↓reduceIte, List.append_nil, List.tail_cons]

/-- The scanner undoes the quoting. -/
theorem splitCommandLine_eq {program : WideText} (noQuote : quote ∉ program)
    (ending : program.getLast? ≠ some backslash) (arguments : List WideText) :
    splitCommandLine (commandLine (program :: arguments)) = program :: arguments := by
  have spaced : (arguments.flatMap fun argument => space :: quoteWindowsArgument argument) = [] ∨
      (arguments.flatMap fun argument => space :: quoteWindowsArgument argument).head? =
        some space := by
    cases arguments with
    | nil => exact .inl rfl
    | cons argument rest => exact .inr rfl
  rw [commandLine_cons, splitCommandLine, splitProgram_quoteWindowsArgument noQuote ending spaced]
  exact finish_foldl_read arguments rfl

/-- **Round trip of the command line.** For a program path without quotes that does not
end in a backslash, splitting the command line gives the arguments back, and no other
list of arguments has the same command line. -/
theorem splitCommandLine_commandLine {program : WideText} (noQuote : quote ∉ program)
    (ending : program.getLast? ≠ some backslash) (arguments : List WideText) :
    splitCommandLine (commandLine (program :: arguments)) = program :: arguments ∧
      ∀ (other : WideText) (others : List WideText), quote ∉ other →
        other.getLast? ≠ some backslash →
        commandLine (program :: arguments) = commandLine (other :: others) →
        program :: arguments = other :: others := by
  refine ⟨splitCommandLine_eq noQuote ending arguments, ?_⟩
  intro other others otherNoQuote otherEnding same
  calc program :: arguments
      = splitCommandLine (commandLine (program :: arguments)) :=
        (splitCommandLine_eq noQuote ending arguments).symm
    _ = splitCommandLine (commandLine (other :: others)) := by rw [same]
    _ = other :: others := splitCommandLine_eq otherNoQuote otherEnding others

/-- A program path with a blank and an argument that ends in a backslash. -/
theorem splitCommandLine_git_status :
    splitCommandLine (commandLine [[97, 32, 98], [99, 32, 92], []]) =
      [[97, 32, 98], [99, 32, 92], []] :=
  (splitCommandLine_commandLine (by decide) (by decide) [[99, 32, 92], []]).1

end CheckGitStatus.Cpp
