/-
Double precision as a scalar. A double is read as a sign, a significand and a binary exponent;
rounding to integers and lengths are computed from that reading and the basic operations.
-/
import BlochSphere.Scalar
import BlochSphere.Scalar.Trigonometry

namespace BlochSphere.Binary64

/-- What a double stands for: a finite one is `± significand · 2 ^ exponent`. -/
inductive Reading where
  | nan
  | infinite (negative : Bool)
  | finite (negative : Bool) (significand : Nat) (exponent : Int)

/-- The fields of a double: one bit of sign, eleven of exponent, fifty-two of fraction. An exponent
field of zero marks a number without the implicit leading bit, one of all ones no number at all. -/
def read (x : Float) : Reading :=
  let bits := x.toBits
  let negative := bits >>> 63 == 1
  let field := ((bits >>> 52) &&& 0x7FF).toNat
  let fraction := (bits &&& 0xFFFFFFFFFFFFF).toNat
  if field = 2047 then
    if fraction = 0 then .infinite negative else .nan
  else if field = 0 then .finite negative fraction (-1074)
  else .finite negative (fraction + 4503599627370496) (field - 1075)

def isInfinite (x : Float) : Bool :=
  match read x with
  | .infinite _ => true
  | _ => false

/-! ## Rounding to integers -/

/-- `m · 2 ^ e`, rounded down. -/
def scaleDown (m : Nat) (e : Int) : Nat :=
  match e with
  | .ofNat k => m <<< k
  | .negSucc k => m >>> (k + 1)

/-- `m · 2 ^ e`, rounded up. -/
def scaleUp (m : Nat) (e : Int) : Nat :=
  let down := scaleDown m e
  match e with
  | .ofNat _ => down
  | .negSucc k => if down <<< (k + 1) = m then down else down + 1

/-- `m · 2 ^ e` to the nearest natural number, a half upward. -/
def scaleNearest (m : Nat) (e : Int) : Nat :=
  match e with
  | .ofNat k => m <<< k
  | .negSucc k => ((m >>> k) + 1) >>> 1

/-- The greatest integer that is not above `x`; zero for what is not finite. -/
def floor (x : Float) : Int :=
  match read x with
  | .finite false m e => scaleDown m e
  | .finite true m e => -(scaleUp m e : Int)
  | _ => 0

/-- The nearest integer, halves away from zero; zero for what is not finite. -/
def round (x : Float) : Int :=
  match read x with
  | .finite false m e => scaleNearest m e
  | .finite true m e => -(scaleNearest m e : Int)
  | _ => 0

/-- Whether `x` has no fractional part; infinities have none. -/
def isIntegral (x : Float) : Bool :=
  match read x with
  | .nan => false
  | .infinite _ => true
  | .finite _ m e => scaleUp m e == scaleDown m e

/-! ## Lengths -/

/-- The length of `(x, y)` without intermediate overflow. An infinite side makes it infinite even
beside what is no number; without one, what is no number has no length. -/
def hypot (x y : Float) : Float :=
  if isInfinite x || isInfinite y then 1.0 / 0.0
  else if x.isNaN || y.isNaN then 0.0 / 0.0
  else
    let a := x.abs
    let b := y.abs
    let (p, q) := if a < b then (b, a) else (a, b)
    if p == 0.0 then 0.0
    else
      let r := q / p
      p * (1.0 + r * r).sqrt

/-- The length of `(w, x, y, z)`, with the sides divided by the longest of them first. Sides that are
infinite or no numbers count as they do for two of them. -/
def hypot4 (w x y z : Float) : Float :=
  if isInfinite w || isInfinite x || isInfinite y || isInfinite z then 1.0 / 0.0
  else if w.isNaN || x.isNaN || y.isNaN || z.isNaN then 0.0 / 0.0
  else
    let (p, a) := if w.abs < x.abs then (x.abs, w.abs) else (w.abs, x.abs)
    let (p, b) := if p < y.abs then (y.abs, p) else (p, y.abs)
    let (p, c) := if p < z.abs then (z.abs, p) else (p, z.abs)
    if p == 0.0 then 0.0
    else
      let a := a / p
      let b := b / p
      let c := c / p
      p * (1.0 + a * a + b * b + c * c).sqrt

/-- The double nearest to the `n`-th part of a half turn, from fifty digits of it. -/
def piOver (n : Nat) : Float :=
  Float.ofScientific (31415926535897932384626433832795028841971693993751 / n) true 49

instance : Scalar Float where
  ofInt := Float.ofInt
  decLt := fun a b => inferInstanceAs (Decidable (a < b))
  decLe := fun a b => inferInstanceAs (Decidable (a ≤ b))
  piOver := piOver
  sqrt := Float.sqrt
  sin := Trigonometry.sin
  cos := Trigonometry.cos
  acos := Trigonometry.acos
  atan2 := Trigonometry.atan2
  hypot := hypot
  hypot4 := hypot4
  floor := floor
  round := round

end BlochSphere.Binary64
