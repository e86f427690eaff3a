/-
How a trail looks: recent points are large and bright, older ones small and dark.
-/
import BlochSphere.Canvas.Screen
import BlochSphere.Scalar

namespace BlochSphere.Canvas.Trail

variable {α : Type} [Scalar α]

def glyph (weight : α) : Char :=
  if weight < 0.33 then '·' else if weight < 0.66 then '•' else '●'

/-- The brightness of a weight, a whole number of 32 bits. What does not fit is the least. -/
def level (weight : α) : Int :=
  let x := 60 + 195 * weight
  if -2147483649 < x && x < 2147483648 then Scalar.truncate x else -2147483648

/-- A shade of blue; each part of the colour is kept to eight bits. -/
def style (weight : α) : Style :=
  let n := level weight
  .rgb (Int.tdiv n 3 % 256) (Int.tdiv n 2 % 256) (n % 256)

end BlochSphere.Canvas.Trail
