/-
Durations in nanoseconds. Readings of a clock are unbounded, the time between two of them is held
in 64 bits, and what does not fit is the nearest duration that does.
-/
import BlochSphere.Decimal.Fixed

namespace BlochSphere

/-- Nanoseconds. -/
abbrev Duration := Int64

namespace Duration

def least : Int := -9223372036854775808

def greatest : Int := 9223372036854775807

/-- The duration nearest to a number of nanoseconds. -/
def saturate (n : Int) : Duration :=
  if n < least then Int64.ofInt least
  else if greatest < n then Int64.ofInt greatest
  else Int64.ofInt n

/-- The time from one reading of a clock to another. -/
def between (start stop : Int) : Duration := saturate (stop - start)

/-- Whole milliseconds, toward zero. -/
def milliseconds (d : Duration) : Int := Int.tdiv d.toInt 1000000

/-! ## Text -/

/-- The digits after the point of `n` units of `10 ^ -places`, without zeros at the end. -/
def fraction (places n : Nat) : String :=
  let digits := (Decimal.padded places (n % Decimal.pow10 places)).toList.reverse
  match digits.dropWhile (· == '0') with
  | [] => ""
  | kept => "." ++ String.ofList kept.reverse

/-- A number of units of `10 ^ -places`, without zeros at the end. -/
def trimmed (places n : Nat) : String :=
  (n / Decimal.pow10 places).repr ++ fraction places n

/-- A length of time in the largest units that fit: hours, minutes and seconds from one second on,
else the largest unit of a thousandth that is not above it. -/
def magnitudeText (n : Nat) : String :=
  if n = 0 then "0s"
  else if n < 1000 then n.repr ++ "ns"
  else if n < 1000000 then trimmed 3 n ++ "µs"
  else if n < 1000000000 then trimmed 6 n ++ "ms"
  else
    let seconds := n / 1000000000
    let minutes := seconds / 60
    let hours := minutes / 60
    let s := (seconds % 60).repr ++ fraction 9 n ++ "s"
    if minutes = 0 then s
    else if hours = 0 then minutes.repr ++ "m" ++ s
    else hours.repr ++ "h" ++ (minutes % 60).repr ++ "m" ++ s

def text (d : Duration) : String :=
  (if d.toInt < 0 then "-" else "") ++ magnitudeText d.toInt.natAbs

end Duration

end BlochSphere
