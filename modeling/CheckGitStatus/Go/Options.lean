import CheckGitStatus.Text.GoStrings

/-! # The command line of the Go program

`parseOptions` leaves the arguments to the `flag` package, which reads flags up to the
first argument that is none. The quoting of `%q` is the parameter `quote`.
-/

namespace CheckGitStatus.Go

/-- `options`; the root is filled in last. -/
structure Options where
  dirtyOnly : Bool := false
  noColor : Bool := false
  workers : Int
  root : Text := []
  deriving DecidableEq, Repr

/-- `flag.ErrHelp` or any other error. -/
inductive OptionsError where
  | help
  | message (text : Text)
  deriving DecidableEq, Repr

/-! ## Numbers and truth values -/

/-- `strconv.ErrSyntax` and `strconv.ErrRange`. -/
inductive NumError where
  | notANumber
  | outOfRange
  deriving DecidableEq, Repr

/-- The texts that the `flag` package has for them. -/
def NumError.text : NumError → Text
  | notANumber => ascii "parse error"
  | outOfRange => ascii "value out of range"

/-- A letter in lower case. -/
def lower (byte : Byte) : Byte :=
  byte ||| 0x20

/-- The value of a digit or a letter in bases up to 36. -/
def digitValue (byte : Byte) : Option Nat :=
  if isDigit byte then some (byte.toNat - 48)
  else if 97 ≤ lower byte && lower byte ≤ 122 then some ((lower byte).toNat - 87)
  else none

/-- The base that the prefix of a number stands for, and the text after the prefix. -/
def basePrefix (text : Text) : Nat × Text :=
  if text.head? ≠ some 48 then (10, text)
  else
    match text.tail with
    | mark :: digit :: rest =>
        if lower mark = 98 then (2, digit :: rest)
        else if lower mark = 111 then (8, digit :: rest)
        else if lower mark = 120 then (16, digit :: rest)
        else (8, mark :: digit :: rest)
    | rest => (8, rest)

/-- The digits of a number after those that make up `value`. Underscores are skipped. -/
def parseDigits (base value : Nat) : Text → Except NumError Nat
  | [] => .ok value
  | byte :: rest =>
      if byte = 95 then parseDigits base value rest
      else
        match digitValue byte with
        | none => .error .notANumber
        | some digit =>
            if base ≤ digit then .error .notANumber
            else if 18446744073709551615 < base * value + digit then .error .outOfRange
            else parseDigits base (base * value + digit) rest

/-- What `underscoreOK` saw last. -/
inductive Seen where
  | start
  | digit
  | underscore
  | other
  deriving DecidableEq, Repr

/-- Every underscore stands between digits, where a prefix counts as a digit. -/
def underscoresSeparate (hex : Bool) (seen : Seen) : Text → Bool
  | [] => seen != .underscore
  | byte :: rest =>
      if isDigit byte || hex && 97 ≤ lower byte && lower byte ≤ 102 then
        underscoresSeparate hex .digit rest
      else if byte = 95 then seen == .digit && underscoresSeparate hex .underscore rest
      else seen != .underscore && underscoresSeparate hex .other rest

/-- `underscoreOK`: underscores stand only between digits or after the prefix of a base. -/
def underscoreOK (text : Text) : Bool :=
  let (base, rest) := basePrefix text
  if base = 10 ∨ rest.length + 1 = text.length then underscoresSeparate false .start text
  else underscoresSeparate (base = 16) .digit rest

/-- `strconv.ParseUint` with base 0 and 64 bits. -/
def parseUint (text : Text) : Except NumError Nat :=
  if text = [] then .error .notANumber
  else
    let (base, digits) := basePrefix text
    match parseDigits base 0 digits with
    | .error error => .error error
    | .ok value =>
        if digits.contains 95 && !underscoreOK text then .error .notANumber else .ok value

/-- `strconv.ParseInt` with base 0 and 64 bits. -/
def parseInt (text : Text) : Except NumError Int :=
  let negative := text.head? == some 45
  let body := if text.head? = some 45 ∨ text.head? = some 43 then text.tail else text
  match parseUint body with
  | .error error => .error error
  | .ok value =>
      if !negative && 9223372036854775808 ≤ value then .error .outOfRange
      else if negative && 9223372036854775808 < value then .error .outOfRange
      else .ok (if negative then -value else value)

/-- `strconv.ParseBool`. -/
def parseBool (text : Text) : Option Bool :=
  let isOne (words : List Text) : Bool := words.any fun word => text == word
  if isOne [ascii "1", ascii "t", ascii "T", ascii "true", ascii "TRUE", ascii "True"] then
    some true
  else if isOne [ascii "0", ascii "f", ascii "F", ascii "false", ascii "FALSE", ascii "False"] then
    some false
  else none

/-! ## Flags -/

/-- The variables that the flags set. -/
inductive Flag where
  | dirtyOnly
  | noColor
  | workers
  deriving DecidableEq, Repr

/-- The flags that are defined, by their names. -/
def formal (name : Text) : Option Flag :=
  if name = ascii "dirty-only" ∨ name = ascii "d" then some .dirtyOnly
  else if name = ascii "no-color" then some .noColor
  else if name = ascii "workers" ∨ name = ascii "j" then some .workers
  else none

/-- What `parseOne` takes an argument for. -/
inductive Argument where
  | positional
  | terminator
  | badSyntax
  | flag (name : Text) (value : Option Text)
  deriving DecidableEq, Repr

/-- The name and the value of a flag, which is split at its first equals sign. -/
def splitFlag (text : Text) : Argument :=
  let name := text.takeWhile fun byte => byte != 61
  let value := text.dropWhile fun byte => byte != 61
  .flag name (if value = [] then none else some value.tail)

/-- How `FlagSet.parseOne` takes an argument: a single dash is positional, two dashes alone
end the flags. -/
def readArgument (argument : Text) : Argument :=
  match argument with
  | 45 :: second :: rest =>
      if second = 45 ∧ rest = [] then .terminator
      else
        let name := if second = 45 then rest else second :: rest
        if name.head? = some 45 ∨ name.head? = some 61 then .badSyntax else splitFlag name
  | _ => .positional

section Flags

variable (quote : Text → Text)

/-- What `flags.Parse` ends with: the options and the arguments that are left, or an error. -/
abbrev ParsedFlags := Except OptionsError (Options × List Text)

/-- The error for a boolean flag whose value does not parse. -/
def invalidBoolean (name value : Text) : OptionsError :=
  .message (ascii "invalid boolean value " ++ quote value ++ ascii " for -" ++ name ++ ascii ": " ++
    NumError.notANumber.text)

/-- The error for a number flag whose value does not parse. -/
def invalidNumber (name value : Text) (error : NumError) : OptionsError :=
  .message (ascii "invalid value " ++ quote value ++ ascii " for flag -" ++ name ++ ascii ": " ++
    error.text)

/-- The loop over `parseOne`. -/
def parseFlags (options : Options) : List Text → ParsedFlags
  | [] => .ok (options, [])
  | argument :: rest =>
      match readArgument argument with
      | .positional => .ok (options, argument :: rest)
      | .terminator => .ok (options, rest)
      | .badSyntax => .error (.message (ascii "bad flag syntax: " ++ argument))
      | .flag name value =>
          match formal name with
          | none =>
              if name = ascii "help" ∨ name = ascii "h" then .error .help
              else .error (.message (ascii "flag provided but not defined: -" ++ name))
          | some .dirtyOnly =>
              match parseBool (value.getD (ascii "true")) with
              | none => .error (invalidBoolean quote name (value.getD (ascii "true")))
              | some dirtyOnly => parseFlags { options with dirtyOnly } rest
          | some .noColor =>
              match parseBool (value.getD (ascii "true")) with
              | none => .error (invalidBoolean quote name (value.getD (ascii "true")))
              | some noColor => parseFlags { options with noColor } rest
          | some .workers =>
              match value, rest with
              | some value, rest =>
                  match parseInt value with
                  | .error error => .error (invalidNumber quote name value error)
                  | .ok workers => parseFlags { options with workers } rest
              | none, value :: rest =>
                  match parseInt value with
                  | .error error => .error (invalidNumber quote name value error)
                  | .ok workers => parseFlags { options with workers } rest
              | none, [] => .error (.message (ascii "flag needs an argument: -" ++ name))

/-! ## Options -/

/-- The default for `workers`, given `runtime.NumCPU`. -/
def defaultWorkers (numCPU : Int) : Int :=
  if numCPU < 4 then 4 else if 32 < numCPU then 32 else numCPU

/-- The text that `flags.Usage` writes, with the defaults in the order of the names. -/
def usage (workers : Int) : Text :=
  ascii "Usage: check-git-status [options] [directory]\n" ++
  ascii "\nRecursively find Git repositories and summarize their status.\n" ++
  ascii "\nOptions:\n" ++
  ascii "  -d\tshow only repositories that need attention (shorthand)\n" ++
  ascii "  -dirty-only\n    \tshow only repositories that need attention\n" ++
  ascii "  -j int\n    \tnumber of concurrent repository checks (shorthand) (default " ++
  stdToString workers ++ ascii ")\n" ++
  ascii "  -no-color\n    \tdisable colored output\n" ++
  ascii "  -workers int\n    \tnumber of concurrent repository checks (default " ++
  stdToString workers ++ ascii ")\n"

/-- The options or an error, and what is written to the standard error. -/
def parseOptions (numCPU : Int) (arguments : List Text) : Except OptionsError Options × Text :=
  let workers := defaultWorkers numCPU
  match parseFlags quote { workers } arguments with
  | .error .help => (.error .help, usage workers)
  | .error (.message text) => (.error (.message text), text ++ ascii "\n" ++ usage workers)
  | .ok (options, positional) =>
      if 1 < positional.length then
        (.error (.message (ascii "only one directory may be specified")), usage workers)
      else if options.workers < 1 then
        (.error (.message (ascii "workers must be at least 1")), [])
      else (.ok { options with root := positional.head?.getD (ascii ".") }, [])

/-- Options that are accepted have a worker. -/
theorem one_le_workers_of_parseOptions {quote : Text → Text} {numCPU : Int}
    {arguments : List Text} {options : Options}
    (parsed : (parseOptions quote numCPU arguments).1 = .ok options) : 1 ≤ options.workers := by
  unfold parseOptions at parsed
  dsimp only at parsed
  split at parsed
  · cases parsed
  · cases parsed
  · split_ifs at parsed with many none
    cases parsed
    exact Int.not_lt.mp none

example : parseOptions id 8 [ascii "-d", ascii "-j", ascii "0x_3", ascii "projects"] =
    (.ok { dirtyOnly := true, workers := 3, root := ascii "projects" }, []) := by decide

end Flags

end CheckGitStatus.Go
