/-
Easing curves: reparametrisations of progress on the unit interval. What lies outside the interval
is moved to its nearer end first.
-/
import BlochSphere.Scalar

namespace BlochSphere.Easing

variable {α : Type} [Scalar α]

def linear (x : α) : α := Scalar.clamp 0 1 x

/-- Speeds up through the first half and slows down through the second. -/
def inOutCubic (x : α) : α :=
  let x := Scalar.clamp 0 1 x
  if x < 0.5 then 4 * x * x * x
  else
    let y := -2 * x + 2
    1 - y * (y * y) / 2

/-- Starts fast and settles. -/
def outQuad (x : α) : α :=
  let x := Scalar.clamp 0 1 x
  1 - (1 - x) * (1 - x)

end BlochSphere.Easing
