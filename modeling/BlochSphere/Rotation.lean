/-
The rotation engine. A gate is shown as a path of keyframes from the committed orientation to the
orientation after the gate; progress along it picks an orientation, and reaching its end commits
the target. Gate axes stay fixed in space: a gate's rotation is multiplied on the left.
-/
import BlochSphere.Fault

namespace BlochSphere

/-- A marker of the renderer, by its number. -/
abbrev Handle := Int

/-- The number that says no marker was placed yet. -/
def noMarker : Handle := -1

/-- One step of a rotation path. -/
structure Keyframe (α : Type) where
  progress : α
  orientation : Quat α
  point : Vec3 α
  marker : Handle

/-- Whether a marker was placed for the keyframe. -/
def Keyframe.rendered {α : Type} (k : Keyframe α) : Bool := k.marker != noMarker

/-- The path of one request, from `start` to `target`. -/
structure RotationPath (α : Type) where
  gate : Applied
  start : Quat α
  target : Quat α
  keyframes : Array (Keyframe α)

/-- Where a request stands at some progress. The first `reached` keyframes of the path are behind
or at that progress. -/
structure Rotation (α : Type) where
  gate : Applied
  progress : α
  orientation : Quat α
  point : Vec3 α
  path : Array (Keyframe α)
  reached : Nat

/-- `current` is the orientation of the last gate that was completed, `active` the path of the
request in flight. -/
structure Engine (α : Type) where
  resolution : Nat
  current : Quat α
  active : Option (RotationPath α)

namespace Engine

variable {α : Type} [Scalar α]

def defaultResolution : Nat := 64

/-- An engine at rest. A resolution below one stands for the default. -/
def new (resolution : Int) : Engine α :=
  ⟨if resolution < 1 then defaultResolution else resolution.toNat, Quat.identity, none⟩

/-- Where the committed orientation puts the marker of the state. -/
def point (e : Engine α) : Vec3 α := e.current.point

/-- The most keyframes that a path can have. -/
def maxKeyframes : Nat := 3909374676536

/-- Keyframe `i` of a path cut into `resolution` steps. Both ends are exact. -/
def keyframe (start target : Quat α) (resolution i : Nat) : Keyframe α :=
  let t : α := Scalar.ofInt i / Scalar.ofInt resolution
  let orientation :=
    if i = 0 then start else if i = resolution then target else start.slerp target t
  ⟨t, orientation, orientation.point, noMarker⟩

/-- The path of a request from `start` to `target`, cut into `resolution` steps. -/
def path (g : Applied) (start target : Quat α) (resolution : Nat) : RotationPath α :=
  ⟨g, start, target,
    Array.ofFn fun i : Fin (resolution + 1) => keyframe start target resolution i⟩

/-- The path of a request that starts at the committed orientation. -/
def newPath (e : Engine α) (g : Applied) : Except Fault (RotationPath α) :=
  match (g.code.turn : Except Fault (Quat α)) with
  | .error fault => .error fault
  | .ok turn =>
    if maxKeyframes < e.resolution + 1 then .error .pathTooLong
    else .ok (path g e.current (turn * e.current) e.resolution)

/-- The path of a request: the one in flight if it has the same sequence number. -/
def pathFor (e : Engine α) (g : Applied) : Except Fault (RotationPath α) :=
  match e.active with
  | some path => if path.gate.seq = g.seq then .ok path else e.newPath g
  | none => e.newPath g

/-- How many of `count` keyframes are reached at progress `t`. -/
def reachedAt (resolution count : Nat) (t : α) : Nat :=
  let reached := (Scalar.floor (t * Scalar.ofInt resolution) + 1).toNat
  if count < reached then count else reached

/-- The orientation at progress `t` of a path: exactly its ends at the ends of the unit interval. -/
def orientationAt (path : RotationPath α) (t : α) : Quat α :=
  if t == 0 then path.start
  else if t == 1 then path.target
  else path.start.slerp path.target t

/-- The rotation of a request at progress `t`, which is moved into the unit interval. The end of
the path commits its target. -/
def rotationAt (e : Engine α) (g : Applied) (t : α) : Except Fault (Rotation α × Engine α) :=
  let t := Scalar.clamp 0 1 t
  match e.pathFor g with
  | .error fault => .error fault
  | .ok path =>
    let orientation := orientationAt path t
    let reached := reachedAt e.resolution path.keyframes.size t
    let current := if t == 1 then path.target else e.current
    .ok (⟨g, t, orientation, orientation.point, path.keyframes, reached⟩,
      ⟨e.resolution, current, some path⟩)

/-- Records the marker of a keyframe of the path in flight. It is refused when the request is not
in flight or has no such keyframe. -/
def markRendered (e : Engine α) (g : Applied) (index : Int) (handle : Handle) : Bool × Engine α :=
  match e.active with
  | none => (false, e)
  | some path =>
    if path.gate.seq = g.seq && 0 ≤ index && index < path.keyframes.size then
      let keyframes := path.keyframes.modify index.toNat ({ · with marker := handle })
      (true, { e with active := some { path with keyframes } })
    else (false, e)

/-- Back to rest, with no request in flight. -/
def reset (e : Engine α) : Engine α := { e with current := Quat.identity, active := none }

end Engine

end BlochSphere
