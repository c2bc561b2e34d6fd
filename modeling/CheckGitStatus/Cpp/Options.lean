import CheckGitStatus.Text.Bytes

/-! # The command line of the C++ program

`parse_options` goes over the arguments once and stops at the first help request or
error.
-/

namespace CheckGitStatus.Cpp

/-- `Options`, with the defaults of the header file. -/
structure Options where
  dirtyOnly : Bool := false
  noColor : Bool := false
  workers : UInt32 := 4
  root : Text := ascii "."
  deriving DecidableEq, Repr

/-- `ParseResult`: the options count only if there is neither an error nor a
request for help. -/
structure ParseResult where
  options : Options := {}
  helpRequested : Bool := false
  error : Text := []
  deriving DecidableEq, Repr

/-- The count, or nothing where the source returns `false`. -/
def parseWorkerCount (value : Text) : Option UInt32 :=
  match fromCharsUnsigned value with
  | some (parsed, []) =>
      if parsed = 0 ∨ 4294967295 < parsed then none else some parsed.toUInt32
  | _ => none

/-- The default for `workers`, given `std::thread::hardware_concurrency`. -/
def defaultWorkers (hardware : UInt32) : UInt32 :=
  let workers := if hardware = 0 then 4 else hardware
  if workers < 4 then 4 else if 32 < workers then 32 else workers

/-- The value in `--workers=value` and `-j=value`. -/
def attachedWorkerValue (argument : Text) : Option Text :=
  if (ascii "--workers=").isPrefixOf argument then some (argument.drop 10)
  else if (ascii "-j=").isPrefixOf argument then some (argument.drop 3)
  else none

/-- The loop over the arguments. -/
def parseArguments (optionsEnded rootSet : Bool) (options : Options) : List Text → ParseResult
  | [] => { options }
  | argument :: rest =>
      if !optionsEnded && argument == ascii "--" then
        parseArguments true rootSet options rest
      else if !optionsEnded && (argument == ascii "-h" || argument == ascii "--help") then
        { options, helpRequested := true }
      else if !optionsEnded && (argument == ascii "-d" || argument == ascii "--dirty-only") then
        parseArguments optionsEnded rootSet { options with dirtyOnly := true } rest
      else if !optionsEnded && argument == ascii "--no-color" then
        parseArguments optionsEnded rootSet { options with noColor := true } rest
      else if !optionsEnded && (argument == ascii "-j" || argument == ascii "--workers") then
        match rest with
        | [] => { options, error := argument ++ ascii " requires a value" }
        | value :: rest =>
            match parseWorkerCount value with
            | some workers => parseArguments optionsEnded rootSet { options with workers } rest
            | none => { options, error := ascii "workers must be at least 1" }
      else
        match if optionsEnded then none else attachedWorkerValue argument with
        | some value =>
            match parseWorkerCount value with
            | some workers => parseArguments optionsEnded rootSet { options with workers } rest
            | none => { options, error := ascii "workers must be at least 1" }
        | none =>
            if !optionsEnded && argument.head? == some 45 then
              { options, error := ascii "unknown option: " ++ argument }
            else if rootSet then
              { options, error := ascii "only one directory may be specified" }
            else parseArguments optionsEnded true { options with root := argument } rest

/-- `parse_options`. -/
def parseOptions (hardware : UInt32) (arguments : List Text) : ParseResult :=
  parseArguments false false { workers := defaultWorkers hardware } arguments

/-- The text that `write_usage` writes. -/
def usage : Text :=
  ascii "Usage: check-git-status-cpp [options] [directory]\n\n" ++
  ascii "Recursively find Git repositories and summarize their status.\n\n" ++
  ascii "Options:\n" ++
  ascii "  -d, --dirty-only       show only repositories that need attention\n" ++
  ascii "  -j, --workers number   number of concurrent repository checks\n" ++
  ascii "      --no-color         disable colored output\n" ++
  ascii "  -h, --help             show this help\n"

end CheckGitStatus.Cpp
