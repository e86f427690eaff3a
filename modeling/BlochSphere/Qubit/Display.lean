/-
Amplitudes and states as text. Parts are rounded to four decimals first, so that what differs from
zero only by the noise of arithmetic is left out.
-/
import BlochSphere.Qubit
import BlochSphere.Decimal.Shortest

namespace BlochSphere.Display

/-- `x` to four decimals, halves away from zero. A result of zero has no sign. -/
def round4 (x : Float) : Float :=
  if x == 0.0 then 0.0
  else if Binary64.isIntegral x then x
  else
    let scaled := x * 10000.0
    if Binary64.isInfinite scaled || scaled.isNaN then x
    else
      let units := Binary64.round scaled
      if units = 0 then 0.0 else Float.ofInt units / 10000.0

/-- An imaginary part; a unit is only `i`. -/
def imaginary (x : Float) : String :=
  if x == 1.0 then "i" else if x == -1.0 then "-i" else Decimal.real x ++ "i"

/-- An amplitude as the sum of its parts, which are rounded first, without parts that are zero. -/
def amplitudeBy (round : Float → Float) (a : Amplitude Float) : String :=
  let re := round a.re
  let im := round a.im
  if re == 0.0 && im == 0.0 then "0"
  else if im == 0.0 then Decimal.real re
  else if re == 0.0 then imaginary im
  else if im < 0.0 then Decimal.real re ++ " - " ++ imaginary (-im)
  else Decimal.real re ++ " + " ++ imaginary im

/-- An amplitude in polar form, with length and angle rounded first, without a length of one and
without an angle of zero. -/
def polarBy (round : Float → Float) (a : Amplitude Float) : String :=
  let r := round a.magnitude
  if r == 0.0 then "0"
  else
    let theta := round a.argument
    if theta == 0.0 then Decimal.real r
    else
      let length := if r == 1.0 then "" else Decimal.real r ++ " "
      length ++ "e^\x7b" ++ Decimal.real theta ++ "i\x7d"

/-- An amplitude to four decimals. -/
def amplitude (a : Amplitude Float) : String := amplitudeBy round4 a

/-- An amplitude in polar form to four decimals. -/
def polar (a : Amplitude Float) : String := polarBy round4 a

/-- A state as a sum of basis states. -/
def state (q : Qubit Float) : String :=
  "(" ++ amplitude q.alpha ++ ")|0⟩ + (" ++ amplitude q.beta ++ ")|1⟩"

/-- A state as a column vector for typesetting. -/
def column (q : Qubit Float) : String :=
  "\\begin\x7bbmatrix\x7d " ++ amplitude q.alpha ++ " \\\\ " ++ amplitude q.beta ++
    " \\end\x7bbmatrix\x7d"

end BlochSphere.Display
