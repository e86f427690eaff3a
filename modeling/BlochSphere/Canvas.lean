/-
The picture that follows an animation. A canvas learns of markers from the frames it is given and
forgets them when a frame clears the picture; it draws the last frame over the sphere.
-/
import BlochSphere.Canvas.Layout
import BlochSphere.Canvas.Trail
import BlochSphere.Frame

namespace BlochSphere

/-- `markers` are the places of all markers that are known, `last` is the frame to draw. -/
structure Canvas (α : Type) where
  markers : List (Handle × Vec3 α)
  last : Option (Frame α)
  showEstimates : Bool

namespace Canvas

variable {α : Type}

def new : Canvas α := ⟨[], none, false⟩

/-- Puts a marker into a table, in the place of one that has its handle. -/
def place (markers : List (Handle × Vec3 α)) (m : Marker α) : List (Handle × Vec3 α) :=
  (m.handle, m.point) :: markers.filter (·.1 != m.handle)

/-- Takes a frame in. -/
def apply (c : Canvas α) (frame : Frame α) : Canvas α :=
  if frame.cleared then { c with markers := [], last := none }
  else { c with markers := frame.newMarkers.foldl place c.markers, last := some frame }

def toggleEstimates (c : Canvas α) : Canvas α := { c with showEstimates := !c.showEstimates }

variable [Scalar α]

/-- The trail of the last frame. Points whose markers are not known are left out, and the others
are where their markers are. -/
def trail (c : Canvas α) (l : Layout α) : List Stroke :=
  match c.last with
  | none => []
  | some frame => frame.trail.filterMap fun p =>
    (c.markers.lookup p.marker).map fun place =>
      l.plot place (Trail.glyph p.weight) (Trail.style p.weight)

/-- The sphere with its labels, the trail and the state. Without a frame the state is at `rest`. -/
def sphere (c : Canvas α) (rest : Vec3 α) (width height : Int) : List Stroke :=
  let l : Layout α := .ofSize width height
  let state := match c.last with
    | some frame => frame.point
    | none => rest
  l.circles ++ l.labels ++ c.trail l ++ [l.plot state '◉' .yellowBold]

end Canvas

end BlochSphere
