/-
The shortest decimal of a double: the fewest digits that read back as the same double, and of those
the ones nearest to its exact value. It is written without an exponent.
-/
import BlochSphere.Decimal.Fixed

namespace BlochSphere.Decimal

/-- A positive rational number `num / den`. -/
structure Ratio where
  num : Nat
  den : Nat

namespace Ratio

def lt (a b : Ratio) : Bool := a.num * b.den < b.num * a.den

/-- `n · 2 ^ e`. -/
def binary (n : Nat) (e : Int) : Ratio :=
  match e with
  | .ofNat k => ⟨n <<< k, 1⟩
  | .negSucc k => ⟨n, Nat.pow 2 (k + 1)⟩

/-- `n · 10 ^ e`. -/
def decimal (n : Nat) (e : Int) : Ratio :=
  match e with
  | .ofNat k => ⟨n * pow10 k, 1⟩
  | .negSucc k => ⟨n, pow10 (k + 1)⟩

/-- The greatest `n` with `n · 10 ^ e` not above the number. -/
def steps (r : Ratio) (e : Int) : Nat :=
  match e with
  | .ofNat k => r.num / (r.den * pow10 k)
  | .negSucc k => r.num * pow10 (k + 1) / r.den

/-- How far the number is above `n · 10 ^ e`, in units of `10 ^ e` over `r.den`. -/
def excess (r : Ratio) (e : Int) (n : Nat) : Nat × Nat :=
  match e with
  | .ofNat k => (r.num - n * (r.den * pow10 k), r.den * pow10 k)
  | .negSucc k => (r.num * pow10 (k + 1) - n * r.den, r.den)

end Ratio

/-- The numbers that round to one double: those between `low` and `high`, with the ends if
`closed`. -/
structure Interval where
  low : Ratio
  high : Ratio
  closed : Bool

def Interval.holds (i : Interval) (r : Ratio) : Bool :=
  if i.closed then !r.lt i.low && !i.high.lt r else i.low.lt r && r.lt i.high

/-- The interval of `m · 2 ^ e`, in quarters of its last place: half a place to each side, or a
quarter below where the doubles get denser. The ends round to `m` when it is even. -/
def Interval.of (m : Nat) (e : Int) : Interval :=
  let below := if m == 4503599627370496 && -1074 < e then 1 else 2
  ⟨Ratio.binary (4 * m - below) (e - 2), Ratio.binary (4 * m + 2) (e - 2), m % 2 == 0⟩

/-- A decimal `digits · 10 ^ exponent`. -/
structure Digits where
  digits : Nat
  exponent : Int

/-- The neighbours of `v` on the grid of multiples of `10 ^ e`: the one of them that is in the
interval, the nearer one if both are, the even one of two that are as near. -/
def onGrid (v : Ratio) (i : Interval) (e : Int) : Option Digits :=
  let down := v.steps e
  let up := down + 1
  let downHolds := down != 0 && i.holds (Ratio.decimal down e)
  let upHolds := i.holds (Ratio.decimal up e)
  match downHolds, upHolds with
  | true, true =>
    let (above, unit) := v.excess e down
    if 2 * above < unit then some ⟨down, e⟩
    else if unit < 2 * above then some ⟨up, e⟩
    else if down % 2 = 0 then some ⟨down, e⟩
    else some ⟨up, e⟩
  | true, false => some ⟨down, e⟩
  | false, true => some ⟨up, e⟩
  | false, false => none

/-- The exponent of the first digit of a positive number: `e` with `10 ^ e ≤ r < 10 ^ (e + 1)`. -/
def leadingExponent (r : Ratio) : Int :=
  let guess : Int := (r.num.repr.length : Int) - (r.den.repr.length : Int)
  if r.lt (Ratio.decimal 1 guess) then guess - 1 else guess

/-- Tries the grids from `e` downward, `turns` of them. -/
def searchGrids (v : Ratio) (i : Interval) : (turns : Nat) → (e : Int) → Digits
  | 0, e => ⟨v.steps e, e⟩
  | turns + 1, e =>
    match onGrid v i e with
    | some d => d
    | none => searchGrids v i turns (e - 1)

/-- The shortest decimal that reads back as `m · 2 ^ e`. The next power of ten may do, and else
seventeen digits are always enough. -/
def shortest (m : Nat) (e : Int) : Digits :=
  let v := Ratio.binary m e
  searchGrids v (Interval.of m e) 18 (leadingExponent v + 1)

/-- A decimal in positional notation. -/
def Digits.positional (d : Digits) : String :=
  match d.exponent with
  | .ofNat k => (d.digits * pow10 k).repr
  | .negSucc k => withPoint (k + 1) d.digits

/-- A double in positional notation with the fewest digits. -/
def real (x : Float) : String :=
  match Binary64.read x with
  | .nan => "NaN"
  | .infinite negative => if negative then "-Inf" else "+Inf"
  | .finite negative m e =>
    (if negative then "-" else "") ++ (if m = 0 then "0" else (shortest m e).positional)

end BlochSphere.Decimal
