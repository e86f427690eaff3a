/-
The numbers that states, rotations and pictures are computed with. `Scalar` lists the operations
the library needs and nothing else, so one set of definitions runs in double precision and can be
read in exact arithmetic.
-/

namespace BlochSphere

/-- A number type with the operations of the library. `ofInt` is the scalar nearest to an integer,
`piOver n` to the `n`-th part of a half turn, `hypot` and `hypot4` are Euclidean lengths, `floor`
rounds down, and `round` rounds to the nearest integer with halves away from zero. -/
class Scalar (α : Type) extends
    Add α, Sub α, Mul α, Div α, Neg α, LT α, LE α, BEq α, OfScientific α where
  ofInt : Int → α
  decLt : (a b : α) → Decidable (a < b)
  decLe : (a b : α) → Decidable (a ≤ b)
  piOver : Nat → α
  sqrt : α → α
  sin : α → α
  cos : α → α
  acos : α → α
  atan2 : α → α → α
  hypot : α → α → α
  hypot4 : α → α → α → α → α
  floor : α → Int
  round : α → Int

namespace Scalar

variable {α : Type} [Scalar α]

instance (priority := low) instOfNat (n : Nat) : OfNat α n := ⟨ofInt (n : Int)⟩

instance (priority := low) instDecidableLt (a b : α) : Decidable (a < b) := decLt a b

instance (priority := low) instDecidableLe (a b : α) : Decidable (a ≤ b) := decLe a b

/-- A half turn in radians. -/
def pi : α := piOver 1

/-- The nearest point to `x` of the interval from `lo` to `hi`. What is not comparable is kept. -/
def clamp (lo hi x : α) : α :=
  if x ≤ lo then lo else if hi ≤ x then hi else x

def abs (x : α) : α := if x < 0 then -x else x

/-- The integer part of `x`, toward zero. -/
def truncate (x : α) : Int := if x < 0 then -floor (-x) else floor x

end Scalar

end BlochSphere
