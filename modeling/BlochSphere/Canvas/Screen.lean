/-
Pictures as strokes. A stroke puts one character into one cell; strokes outside the screen are lost,
and of several in one cell the last one is seen.
-/

namespace BlochSphere.Canvas

/-- The looks of a cell. -/
inductive Style where
  | plain
  | gray
  | teal
  | red
  | yellowBold
  | rgb (r g b : Int)
  deriving DecidableEq, Repr

/-- One character at a column and a row, both counted from zero. -/
structure Stroke where
  x : Int
  y : Int
  glyph : Char
  style : Style
  deriving DecidableEq, Repr

/-- A line of text that starts in a cell. -/
def text (x y : Int) (style : Style) (s : String) : List Stroke :=
  s.toList.mapIdx fun i c => ⟨x + i, y, c, style⟩

/-- A screen with what was last shown on it. -/
structure Screen where
  width : Int
  height : Int
  shown : List Stroke

namespace Screen

def new (width height : Int) : Screen := ⟨width, height, []⟩

def contains (s : Screen) (x y : Int) : Bool := 0 ≤ x && x < s.width && 0 ≤ y && y < s.height

/-- Shows a picture in the place of the last one. -/
def display (s : Screen) (picture : List Stroke) : Screen :=
  { s with shown := picture.filter fun stroke => s.contains stroke.x stroke.y }

/-- A new size. What was shown stays until the next picture. -/
def resize (s : Screen) (width height : Int) : Screen := { s with width, height }

/-- What is seen in one row, from left to right. -/
def row (s : Screen) (y : Nat) : List (Option Stroke) :=
  let strokes := (s.shown.filter fun stroke => stroke.y == Int.ofNat y).reverse
  (List.range s.width.toNat).map fun x => strokes.find? fun stroke => stroke.x == Int.ofNat x

/-- What is seen, row by row. -/
def rows (s : Screen) : List (List (Option Stroke)) := (List.range s.height.toNat).map s.row

end Screen

end BlochSphere.Canvas
