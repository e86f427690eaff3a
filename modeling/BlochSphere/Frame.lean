/-
Frames: what is published at every tick of an animation. A frame shows one request at some
progress, with the whole trail of visited points and the markers that were placed for it.
-/
import BlochSphere.Rotation
import BlochSphere.Easing

namespace BlochSphere

/-- A visited point with its marker and its recency, one being the newest. -/
structure TrailPoint (α : Type) where
  point : Vec3 α
  marker : Handle
  weight : α

/-- A marker with the point it was placed at. -/
structure Marker (α : Type) where
  handle : Handle
  point : Vec3 α

/-- `cleared` frames say that all markers are gone and show nothing else. -/
structure Frame (α : Type) where
  gate : Applied
  progress : α
  orientation : Quat α
  point : Vec3 α
  trail : List (TrailPoint α)
  newMarkers : List (Marker α)
  complete : Bool
  queued : Nat
  cleared : Bool

namespace Frame

variable {α : Type} [Scalar α]

/-- A frame that shows only a request and its progress. -/
def bare (gate : Applied) (progress : α) (complete : Bool) : Frame α where
  gate := gate
  progress := progress
  orientation := ⟨0, 0, 0, 0⟩
  point := ⟨0, 0, 0⟩
  trail := []
  newMarkers := []
  complete := complete
  queued := 0
  cleared := false

/-- The frame that tells everyone to drop their markers. -/
def clearing : Frame α := { bare ⟨0, ⟨0⟩⟩ 0 false with cleared := true }

end Frame

/-- Gives every point of a trail the weight of its place, the oldest the faintest. -/
def weigh {α : Type} [Scalar α] (trail : List (TrailPoint α)) : List (TrailPoint α) :=
  let n : α := Scalar.ofInt trail.length
  trail.mapIdx fun i p => { p with weight := Easing.outQuad (Scalar.ofInt (i + 1) / n) }

end BlochSphere
