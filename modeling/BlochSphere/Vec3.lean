/-
Vectors of three-dimensional space: rotation axes and points of the Bloch sphere.
-/
import BlochSphere.Scalar

namespace BlochSphere

structure Vec3 (α : Type) where
  x : α
  y : α
  z : α

namespace Vec3

variable {α : Type} [Scalar α]

/-- The point of the state `|0⟩`. -/
def northPole : Vec3 α := ⟨0, 0, 1⟩

def sub (p q : Vec3 α) : Vec3 α := ⟨p.x - q.x, p.y - q.y, p.z - q.z⟩

def scale (k : α) (p : Vec3 α) : Vec3 α := ⟨k * p.x, k * p.y, k * p.z⟩

def norm (p : Vec3 α) : α := Scalar.hypot p.x (Scalar.hypot p.y p.z)

/-- `p` scaled to length one. -/
def unit (p : Vec3 α) : Vec3 α := scale (1 / norm p) p

/-- Whether `p` and `q` are at most `tolerance` apart. -/
def near (p q : Vec3 α) (tolerance : α) : Bool := norm (sub p q) ≤ tolerance

end Vec3

end BlochSphere
