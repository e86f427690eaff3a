/-
Faults: what stops an operation midway. An operation that ends in a fault keeps what it had done
before, so operations return their fault beside the state they leave.
-/
import BlochSphere.Gate.Code

namespace BlochSphere

/-- What a gate code can be asked for. -/
inductive Aspect where
  | matrix
  | axis
  | angle

def Aspect.name : Aspect → String
  | matrix => "matrix"
  | axis => "axis"
  | angle => "angle"

inductive Fault where
  /-- A code that names no gate was asked for a property of gates. -/
  | invalidGate (aspect : Aspect) (code : GateCode)
  /-- A rotation path with more keyframes than can be addressed. -/
  | pathTooLong
  /-- A channel buffer with a negative size, or one that cannot be addressed. -/
  | bufferOutOfRange
  | sendOnClosed
  | closeOfClosed

def Fault.message : Fault → String
  | invalidGate aspect code => "qbloch: " ++ aspect.name ++ " for invalid " ++ code.name
  | pathTooLong => "runtime error: makeslice: len out of range"
  | bufferOutOfRange => "makechan: size out of range"
  | sendOnClosed => "send on closed channel"
  | closeOfClosed => "close of closed channel"

namespace GateCode

variable {α : Type} [Scalar α]

def gate (c : GateCode) (aspect : Aspect) : Except Fault Gate :=
  match c.gate? with
  | some g => .ok g
  | none => .error (.invalidGate aspect c)

def matrix (c : GateCode) : Except Fault (Matrix2 α) := (c.gate .matrix).map Gate.matrix

def axis (c : GateCode) : Except Fault (Vec3 α) := (c.gate .axis).map Gate.axis

def angle (c : GateCode) : Except Fault α := (c.gate .angle).map Gate.angle

/-- The rotation of the gate that the code names. The axis is asked for first. -/
def turn (c : GateCode) : Except Fault (Quat α) := (c.gate .axis).map Gate.turn

end GateCode

end BlochSphere
