/-
Circular functions in double precision. An angle is reduced to an eighth of a turn, where sine and
cosine are polynomials; the inverse functions come from one quotient of polynomials for the arc
tangent. Only the basic operations are used, so the results are the same everywhere.
-/

namespace BlochSphere.Trigonometry

/-! ## Sine and cosine -/

/-- The sine of an angle of at most an eighth of a turn. -/
def sineSeries (z : Float) : Float :=
  let zz := z * z
  z + z * zz *
    ((((((1.58962301576546568060e-10 * zz) + -2.50507477628578072866e-8) * zz +
      2.75573136213857245213e-6) * zz + -1.98412698295895385996e-4) * zz +
      8.33333333332211858878e-3) * zz + -1.66666666666666307295e-1)

/-- The cosine of an angle of at most an eighth of a turn. -/
def cosineSeries (z : Float) : Float :=
  let zz := z * z
  1.0 - 0.5 * zz + zz * zz *
    ((((((-1.13585365213876817300e-11 * zz) + 2.08757008419747316778e-9) * zz +
      -2.75573141792967388112e-7) * zz + 2.48015872888517045348e-5) * zz +
      -1.38888888888730564116e-3) * zz + 4.16666666666665929218e-2)

/-- The nearest even number of eighths of a turn, modulo eight, and what remains of the angle. The
eighth of a turn is subtracted in three parts that are exact for a long way. -/
def reduce (x : Float) : UInt64 × Float :=
  let eighths := (x * 1.2732395447351628).toUInt64
  let even := if eighths &&& 1 == 1 then eighths + 1 else eighths
  let y := even.toFloat
  (even &&& 7,
    ((x - y * 7.85398125648498535156e-1) - y * 3.77489470793079817668e-8) -
      y * 2.69515142907905952645e-15)

/-- Angles from here on are left to the platform, for the reduction is no longer exact. -/
def reach : Float := 536870912.0

/-- The sine of an angle that is not negative. -/
def sinePositive (x : Float) : Float :=
  let (eighths, z) := reduce x
  let quarter := eighths &&& 3
  let y := if quarter == 1 || quarter == 2 then cosineSeries z else sineSeries z
  if eighths > 3 then -y else y

def sin (x : Float) : Float :=
  if x == 0.0 then x
  else if x.abs < reach then (if x < 0.0 then -sinePositive (-x) else sinePositive x)
  else Float.sin x

def cos (x : Float) : Float :=
  if x.abs < reach then
    let (eighths, z) := reduce x.abs
    let quarter := eighths &&& 3
    let y := if quarter == 1 || quarter == 2 then sineSeries z else cosineSeries z
    if (eighths > 3) != (quarter > 1) then -y else y
  else Float.cos x

/-! ## Inverse functions -/

def halfPi : Float := 1.5707963267948966

/-- The part of a quarter turn that its nearest double leaves out. -/
def halfPiRest : Float := 6.123233995736765886130e-17

/-- The arc tangent of `x` from zero to 0.66. -/
def arcTangentSeries (x : Float) : Float :=
  let z := x * x
  let z := z *
      ((((-8.750608600031904122785e-01 * z + -1.615753718733365076637e+01) * z +
        -7.500855792314704667340e+01) * z + -1.228866684490136173410e+02) * z +
        -6.485021904942025371773e+01) /
    (((((z + 2.485846490142306297962e+01) * z + 1.650270098316988542046e+02) * z +
      4.328810604912902668951e+02) * z + 4.853903996359136964868e+02) * z +
      1.945506571482613964425e+02)
  x * z + x

/-- The arc tangent of a number that is not negative. -/
def arcTangentPositive (x : Float) : Float :=
  if x ≤ 0.66 then arcTangentSeries x
  else if x > 2.41421356237309504880 then halfPi - arcTangentSeries (1.0 / x) + halfPiRest
  else 0.7853981633974483 + arcTangentSeries ((x - 1.0) / (x + 1.0)) + 0.5 * halfPiRest

def atan (x : Float) : Float :=
  if x == 0.0 then x else if x > 0.0 then arcTangentPositive x else -arcTangentPositive (-x)

/-- The arc sine of a positive number. -/
def arcSinePositive (x : Float) : Float :=
  if x > 1.0 then 0.0 / 0.0
  else
    let other := (1.0 - x * x).sqrt
    if x > 0.7 then halfPi - arcTangentPositive (other / x) else arcTangentPositive (x / other)

def asin (x : Float) : Float :=
  if x == 0.0 then x else if x < 0.0 then -arcSinePositive (-x) else arcSinePositive x

def acos (x : Float) : Float := halfPi - asin x

/-- The angle of the point `(x, y)`. Points on an axis and at infinity are left to the platform, for
their angles are known exactly. -/
def atan2 (y x : Float) : Float :=
  if x == 0.0 || y == 0.0 || !x.isFinite || !y.isFinite then Float.atan2 y x
  else
    let angle := atan (y / x)
    if x < 0.0 then
      (if angle ≤ 0.0 then angle + 3.141592653589793 else angle - 3.141592653589793)
    else angle

end BlochSphere.Trigonometry
