/-
Complex amplitudes: pairs of scalars with the arithmetic that gates and states need.
-/
import BlochSphere.Scalar

namespace BlochSphere

structure Amplitude (α : Type) where
  re : α
  im : α

namespace Amplitude

variable {α : Type} [Scalar α]

/-- The amplitude with real part `x` and no imaginary part. -/
def ofReal (x : α) : Amplitude α := ⟨x, 0⟩

def add (a b : Amplitude α) : Amplitude α := ⟨a.re + b.re, a.im + b.im⟩

def sub (a b : Amplitude α) : Amplitude α := ⟨a.re - b.re, a.im - b.im⟩

def mul (a b : Amplitude α) : Amplitude α :=
  ⟨a.re * b.re - a.im * b.im, a.re * b.im + a.im * b.re⟩

def conj (a : Amplitude α) : Amplitude α := ⟨a.re, -a.im⟩

instance : Add (Amplitude α) := ⟨add⟩
instance : Sub (Amplitude α) := ⟨sub⟩
instance : Mul (Amplitude α) := ⟨mul⟩

def magnitude (a : Amplitude α) : α := Scalar.hypot a.re a.im

/-- The angle of `a` in the half-open range `(-π, π]`. -/
def argument (a : Amplitude α) : α :=
  let angle := Scalar.atan2 a.im a.re
  if angle ≤ -Scalar.pi then Scalar.pi else angle

end Amplitude

end BlochSphere
