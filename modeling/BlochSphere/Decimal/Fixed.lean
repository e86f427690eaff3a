/-
Decimal text with a fixed number of places. The exact value of a double is rounded, and a value
halfway between two neighbours goes to the even one.
-/
import BlochSphere.Scalar.Binary64

namespace BlochSphere.Decimal

/-- `num / den` to the nearest natural number, a half to the even neighbour. -/
def roundHalfEven (num den : Nat) : Nat :=
  let q := num / den
  let r := num % den
  if 2 * r < den then q
  else if den < 2 * r then q + 1
  else if q % 2 = 0 then q
  else q + 1

/-- `10 ^ k`. -/
def pow10 (k : Nat) : Nat := Nat.pow 10 k

/-- `m · 2 ^ e · 10 ^ places`, rounded to a natural number. -/
def scaled (places m : Nat) (e : Int) : Nat :=
  match e with
  | .ofNat k => (m * pow10 places) <<< k
  | .negSucc k => roundHalfEven (m * pow10 places) (Nat.pow 2 (k + 1))

/-- The decimal digits of `n`, with zeros in front to make at least `width`. -/
def padded (width n : Nat) : String :=
  let digits := n.repr
  "".pushn '0' (width - digits.length) ++ digits

/-- A number of units of `10 ^ -places`, with a point before the last `places` digits. -/
def withPoint (places units : Nat) : String :=
  if places = 0 then units.repr
  else (units / pow10 places).repr ++ "." ++ padded places (units % pow10 places)

/-- `x` with `places` digits after the point. -/
def fixed (places : Nat) (x : Float) : String :=
  match Binary64.read x with
  | .nan => "NaN"
  | .infinite negative => if negative then "-Inf" else "+Inf"
  | .finite negative m e =>
    (if negative then "-" else "") ++ withPoint places (scaled places m e)

/-- The text with blanks in front to make at least `width` characters. -/
def alignRight (width : Nat) (text : String) : String :=
  "".pushn ' ' (width - text.length) ++ text

end BlochSphere.Decimal
