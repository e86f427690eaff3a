/-
Orientations as quaternions: the rotation by an angle about an axis, its action on points, and
interpolation between two orientations along the arc that a rotation sweeps.
-/
import BlochSphere.Vec3

namespace BlochSphere

structure Quat (α : Type) where
  re : α
  i : α
  j : α
  k : α

namespace Quat

variable {α : Type} [Scalar α]

/-- The orientation that leaves every point where it is. -/
def identity : Quat α := ⟨1, 0, 0, 0⟩

def add (p q : Quat α) : Quat α := ⟨p.re + q.re, p.i + q.i, p.j + q.j, p.k + q.k⟩

def scale (c : α) (q : Quat α) : Quat α := ⟨c * q.re, c * q.i, c * q.j, c * q.k⟩

def conj (q : Quat α) : Quat α := ⟨q.re, -q.i, -q.j, -q.k⟩

def mul (p q : Quat α) : Quat α where
  re := p.re * q.re - p.i * q.i - p.j * q.j - p.k * q.k
  i := p.re * q.i + p.i * q.re + p.j * q.k - p.k * q.j
  j := p.re * q.j - p.i * q.k + p.j * q.re + p.k * q.i
  k := p.re * q.k + p.i * q.j - p.j * q.i + p.k * q.re

instance : Add (Quat α) := ⟨add⟩
instance : Mul (Quat α) := ⟨mul⟩

def dot (p q : Quat α) : α := p.re * q.re + p.i * q.i + p.j * q.j + p.k * q.k

def abs (q : Quat α) : α := Scalar.hypot4 q.re q.i q.j q.k

/-- `q` scaled to length one; zero has no direction and becomes `identity`. -/
def normalize (q : Quat α) : Quat α :=
  let length := abs q
  if length == 0 then identity else scale (1 / length) q

/-! ## Rotations -/

/-- The rotation by `angle` radians about `axis`. -/
def axisAngle (axis : Vec3 α) (angle : α) : Quat α :=
  let u := axis.unit
  let s := Scalar.sin (angle / 2)
  ⟨Scalar.cos (angle / 2), s * u.x, s * u.y, s * u.z⟩

/-- A point as a quaternion without real part. -/
def ofPoint (p : Vec3 α) : Quat α := ⟨0, p.x, p.y, p.z⟩

/-- Where the orientation `q` takes the point `p`: `q p q*`. -/
def rotate (q : Quat α) (p : Vec3 α) : Vec3 α :=
  let r := q * ofPoint p * conj q
  ⟨r.i, r.j, r.k⟩

/-- Where the orientation takes the north pole, which is what is drawn. -/
def point (q : Quat α) : Vec3 α := rotate q Vec3.northPole

/-! ## Interpolation -/

/-- The mix of `a` and `b` in straight proportion, brought back to length one. -/
def lerp (a b : Quat α) (t : α) : Quat α :=
  let mix := scale (1 - t) a + scale t b
  if abs mix == 0 then a else normalize mix

/-- Spherical interpolation from `a` to `b`. The arc is the one from `a` to `b` itself, never the
one to `-b`, so that half turns keep the direction of their rotation. Nearly parallel orientations
are mixed in straight proportion. -/
def slerp (a b : Quat α) (t : α) : Quat α :=
  let theta := Scalar.acos (Scalar.clamp (-1) 1 (dot a b))
  let s := Scalar.sin theta
  if s < 1e-9 then lerp a b t
  else scale (Scalar.sin ((1 - t) * theta) / s) a + scale (Scalar.sin (t * theta) / s) b

/-- Whether each component of `p` is within `tolerance` of that of `q`. -/
def near (p q : Quat α) (tolerance : α) : Bool :=
  Scalar.abs (p.re - q.re) ≤ tolerance && Scalar.abs (p.i - q.i) ≤ tolerance &&
    Scalar.abs (p.j - q.j) ≤ tolerance && Scalar.abs (p.k - q.k) ≤ tolerance

end Quat

end BlochSphere
