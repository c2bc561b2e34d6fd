import CheckGitStatus.Text.Bytes
import Mathlib.Algebra.GroupWithZero.Nat

/-! # Durations as text

`formatDuration` of the Go program rounds to the millisecond and leaves the text to the
`time` package. Durations are counts of nanoseconds.
-/

namespace CheckGitStatus.Go

/-- `time.Millisecond`. -/
def nanosecondsPerMillisecond : Int := 1000000

/-- The largest `time.Duration`. -/
def maxDuration : Int := 9223372036854775807

/-- `Duration.Round` of a positive duration. -/
def roundDuration (duration unit : Int) : Int :=
  let rest := duration.tmod unit
  if rest + rest < unit then duration - rest
  else if duration + unit - rest ≤ maxDuration then duration + unit - rest
  else maxDuration

/-- `fmtFrac`: the decimals of a value, without zeros at the end. -/
def fraction (value precision : Nat) : Text :=
  let digits := (zeroPadded precision (decimal (value % 10 ^ precision))).rdropWhile
    fun digit => digit == 48
  if digits = [] then [] else ascii "." ++ digits

/-- `Duration.String` of a duration of at least a millisecond. -/
def durationText (nanoseconds : Nat) : Text :=
  if nanoseconds < 1000000000 then
    decimal (nanoseconds / 10 ^ 6) ++ fraction nanoseconds 6 ++ ascii "ms"
  else
    let seconds := nanoseconds / 10 ^ 9
    let minutes := seconds / 60
    let hours := minutes / 60
    (if 0 < hours then decimal hours ++ ascii "h" else []) ++
      (if 0 < minutes then decimal (minutes % 60) ++ ascii "m" else []) ++
      decimal (seconds % 60) ++ fraction nanoseconds 9 ++ ascii "s"

/-- `formatDuration`. -/
def formatDuration (duration : Int) : Text :=
  if duration ≤ 0 then ascii "0s"
  else if duration < nanosecondsPerMillisecond then ascii "<1ms"
  else durationText (roundDuration duration nanosecondsPerMillisecond).toNat

end CheckGitStatus.Go
