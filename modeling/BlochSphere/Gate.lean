/-
The six gates: their names, their matrices on states, and the axis and angle of the rotation each
makes on the Bloch sphere.
-/
import BlochSphere.Amplitude
import BlochSphere.Quat

namespace BlochSphere

inductive Gate where
  | x
  | y
  | z
  | s
  | t
  | h
  deriving DecidableEq, Repr

/-- A two by two matrix of amplitudes: `⟨a, b, c, d⟩` has the rows `a b` and `c d`. -/
structure Matrix2 (α : Type) where
  a : Amplitude α
  b : Amplitude α
  c : Amplitude α
  d : Amplitude α

namespace Gate

/-- Every gate, in the order in which they are listed to a user. -/
def all : List Gate := [x, y, z, s, t, h]

def name : Gate → String
  | x => "X"
  | y => "Y"
  | z => "Z"
  | s => "S"
  | t => "T"
  | h => "H"

variable {α : Type} [Scalar α]

/-- The unitary matrix of the gate. -/
def matrix (g : Gate) : Matrix2 α :=
  let zero : Amplitude α := ⟨0, 0⟩
  let one : Amplitude α := ⟨1, 0⟩
  match g with
  | x => ⟨zero, one, one, zero⟩
  | y => ⟨zero, ⟨0, -1⟩, ⟨0, 1⟩, zero⟩
  | z => ⟨one, zero, zero, ⟨-1, 0⟩⟩
  | s => ⟨one, zero, zero, ⟨0, 1⟩⟩
  | t => ⟨one, zero, zero, ⟨Scalar.cos (Scalar.pi / 4), Scalar.sin (Scalar.pi / 4)⟩⟩
  | h =>
    let r : α := Scalar.sqrt 0.5
    ⟨⟨r, 0⟩, ⟨r, 0⟩, ⟨r, 0⟩, ⟨-r, 0⟩⟩

/-- The axis the gate turns the sphere about, fixed in space. -/
def axis (g : Gate) : Vec3 α :=
  match g with
  | x => ⟨1, 0, 0⟩
  | y => ⟨0, 1, 0⟩
  | z | s | t => ⟨0, 0, 1⟩
  | h => Vec3.unit ⟨1, 0, 1⟩

/-- The angle the gate turns the sphere by, in radians. -/
def angle (g : Gate) : α :=
  match g with
  | x | y | z | h => Scalar.pi
  | s => Scalar.pi / 2
  | t => Scalar.pi / 4

/-- The rotation the gate makes. -/
def turn (g : Gate) : Quat α := Quat.axisAngle g.axis g.angle

end Gate

end BlochSphere
