import CheckGitStatus.Text.Bytes

/-! # Durations as text

`format_duration` rounds a duration to the millisecond and prints it with the
largest units that are needed. Durations are counts of nanoseconds.
-/

namespace CheckGitStatus.Cpp

/-- Timeouts are counted in milliseconds, readings of the clock in nanoseconds. -/
def nanosecondsPerMillisecond : Int := 1000000

/-- `seconds_component`: the seconds with up to three decimals, without zeros at the end. -/
def secondsComponent (milliseconds : Nat) : Text :=
  let seconds := milliseconds / 1000
  let fraction := milliseconds % 1000
  let fractionText := (zeroPadded 3 (decimal fraction)).rdropWhile fun digit => digit == 48
  if fraction ≠ 0 then decimal seconds ++ ascii "." ++ fractionText ++ ascii "s"
  else decimal seconds ++ ascii "s"

/-- `format_duration`: rounded to milliseconds, in the form of the Go program. -/
def formatDuration (duration : Int) : Text :=
  if duration ≤ 0 then ascii "0s"
  else if duration < nanosecondsPerMillisecond then ascii "<1ms"
  else
    let milliseconds := ((duration + 500000).tdiv nanosecondsPerMillisecond).toNat
    if milliseconds < 1000 then decimal milliseconds ++ ascii "ms"
    else if milliseconds < 60000 then secondsComponent milliseconds
    else
      let hours := milliseconds / 3600000
      let minutes := milliseconds % 3600000 / 60000
      let hoursText := if 0 < hours then decimal hours ++ ascii "h" else []
      hoursText ++ decimal minutes ++ ascii "m" ++
        secondsComponent (milliseconds % 3600000 % 60000)

end CheckGitStatus.Cpp
