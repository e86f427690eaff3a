/-
States of one qubit as pairs of amplitudes: the action of gates, measurement probabilities and the
point of the Bloch sphere that a state stands for.
-/
import BlochSphere.Gate

namespace BlochSphere

/-- The state `alpha |0⟩ + beta |1⟩`. Nothing keeps it normalised. -/
structure Qubit (α : Type) where
  alpha : Amplitude α
  beta : Amplitude α

namespace Matrix2

variable {α : Type} [Scalar α]

/-- The product of a matrix and a state. -/
def mulVec (m : Matrix2 α) (q : Qubit α) : Qubit α :=
  ⟨m.a * q.alpha + m.b * q.beta, m.c * q.alpha + m.d * q.beta⟩

end Matrix2

namespace Qubit

variable {α : Type} [Scalar α]

def ket0 : Qubit α := ⟨⟨1, 0⟩, ⟨0, 0⟩⟩

def ket1 : Qubit α := ⟨⟨0, 0⟩, ⟨1, 0⟩⟩

/-- The state after the gate `g`. -/
def apply (q : Qubit α) (g : Gate) : Qubit α := g.matrix.mulVec q

/-- The state after the gates of a list, the first of them first. -/
def applyAll (q : Qubit α) (gates : List Gate) : Qubit α := gates.foldl apply q

/-! ## Measurement -/

/-- The probability of measuring zero. -/
def p0 (q : Qubit α) : α := q.alpha.magnitude * q.alpha.magnitude

/-- The probability of measuring one. -/
def p1 (q : Qubit α) : α := q.beta.magnitude * q.beta.magnitude

def norm (q : Qubit α) : α := q.p0 + q.p1

/-- The point of the Bloch sphere of the state. States that differ by a phase share it. -/
def blochVector (q : Qubit α) : Vec3 α :=
  let cross := q.alpha.conj * q.beta
  ⟨2 * cross.re, 2 * cross.im, q.p0 - q.p1⟩

/-! ## Comparison and scaling -/

/-- Whether both amplitudes are at most `tolerance` apart. -/
def near (p q : Qubit α) (tolerance : α) : Bool :=
  (p.alpha - q.alpha).magnitude ≤ tolerance && (p.beta - q.beta).magnitude ≤ tolerance

/-- The state scaled to norm one; a state without norm becomes `ket0`. -/
def normalized (q : Qubit α) : Qubit α :=
  let length := Scalar.sqrt q.norm
  if length == 0 then ket0
  else
    let factor := Amplitude.ofReal (1 / length)
    ⟨q.alpha * factor, q.beta * factor⟩

end Qubit

end BlochSphere
