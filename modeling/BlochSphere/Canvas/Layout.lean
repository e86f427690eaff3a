/-
The sphere on a screen. A camera that is turned about the vertical axis and raised a little projects
points onto a plane, and a layout places that plane above the lines of text at the bottom.
-/
import BlochSphere.Canvas.Screen
import BlochSphere.Vec3

namespace BlochSphere.Canvas

variable {α : Type} [Scalar α]

/-! ## Projection -/

/-- A point as the camera sees it: `u` runs to the right, `v` up and `depth` toward the viewer. -/
structure Projected (α : Type) where
  u : α
  v : α
  depth : α

/-- The direction of a camera by the sines and cosines of its angles. -/
structure Camera (α : Type) where
  sinAzimuth : α
  cosAzimuth : α
  sinElevation : α
  cosElevation : α

namespace Camera

/-- A camera turned by a twelfth of a turn and raised by an eighteenth. -/
def standard : Camera α where
  sinAzimuth := Scalar.sin (Scalar.piOver 6)
  cosAzimuth := Scalar.cos (Scalar.piOver 6)
  sinElevation := Scalar.sin (Scalar.piOver 9)
  cosElevation := Scalar.cos (Scalar.piOver 9)

def project (c : Camera α) (p : Vec3 α) : Projected α :=
  let toward := p.x * c.cosAzimuth + p.y * c.sinAzimuth
  { u := -p.x * c.sinAzimuth + p.y * c.cosAzimuth
    v := p.z * c.cosElevation - toward * c.sinElevation
    depth := toward * c.cosElevation + p.z * c.sinElevation }

end Camera

def project (p : Vec3 α) : Projected α := Camera.standard.project p

/-! ## Layout -/

/-- The number of rows at the bottom that hold text. -/
def textRows : Int := 6

/-- The centre of the sphere on the screen and its radii in columns and rows. -/
structure Layout (α : Type) where
  cx : α
  cy : α
  rx : α
  ry : α

namespace Layout

/-- The largest sphere that fits above the text with a margin of one cell, where a row is as high
as two columns are wide. -/
def ofSize (width height : Int) : Layout α :=
  let ry : α := Scalar.ofInt (height - textRows - 2) / 2
  let rx := ry * 2
  let widest : α := Scalar.ofInt (width - 2) / 2
  if widest < rx then ⟨Scalar.ofInt width / 2, widest / 2 + 1, widest, widest / 2⟩
  else ⟨Scalar.ofInt width / 2, ry + 1, rx, ry⟩

/-- The column of a horizontal coordinate. -/
def column (l : Layout α) (u : α) : Int := Scalar.round (l.cx + u * l.rx)

/-- The row of a vertical coordinate. -/
def row (l : Layout α) (v : α) : Int := Scalar.round (l.cy - v * l.ry)

/-- A character at the cell of a point. -/
def plot (l : Layout α) (p : Vec3 α) (glyph : Char) (style : Style) : Stroke :=
  let q := project p
  ⟨l.column q.u, l.row q.v, glyph, style⟩

/-- A text that starts at the cell of a point. -/
def label (l : Layout α) (p : Vec3 α) (s : String) : List Stroke :=
  let q := project p
  text (l.column q.u) (l.row q.v) .teal s

/-! ## What is always there -/

/-- The angle of a degree of the circles, of which there are 180. -/
def degree (i : Nat) : α := 2 * Scalar.pi * Scalar.ofInt i / 180

/-- The outline of the sphere and the near half of its equator, drawn together. -/
def circles (l : Layout α) : List Stroke :=
  (List.range 180).flatMap fun i =>
    let theta : α := degree i
    let c := Scalar.cos theta
    let s := Scalar.sin theta
    let onOutline : Stroke := ⟨l.column c, l.row s, '.', .gray⟩
    let onEquator : Vec3 α := ⟨c, s, 0⟩
    if 0 ≤ (project onEquator).depth then [onOutline, l.plot onEquator '-' .gray] else [onOutline]

/-- The names of four states, a little outside the sphere. -/
def labels (l : Layout α) : List Stroke :=
  l.label ⟨0, 0, 1.15⟩ "|0⟩" ++ l.label ⟨0, 0, -1.15⟩ "|1⟩" ++
    l.label ⟨1.15, 0, 0⟩ "|+⟩" ++ l.label ⟨0, 1.15, 0⟩ "|i⟩"

end Layout

end BlochSphere.Canvas
