/-
Exact arithmetic: the real numbers as a scalar. Every definition of the library can be read in it,
and what such a reading shows holds up to the rounding of the scalar that is run. The lemmas give
the library's numerals and functions on reals in the words of real arithmetic.
-/
import Mathlib
import BlochSphere.Scalar

namespace BlochSphere

open Classical in
/-- The reals, with every operation exact. Halves round away from zero. -/
noncomputable instance Scalar.real : Scalar ℝ where
  beq x y := decide (x = y)
  ofInt n := n
  decLt _ _ := inferInstance
  decLe _ _ := inferInstance
  piOver n := Real.pi / n
  sqrt := Real.sqrt
  sin := Real.sin
  cos := Real.cos
  acos := Real.arccos
  atan2 y x := Complex.arg ⟨x, y⟩
  hypot x y := √(x ^ 2 + y ^ 2)
  hypot4 w x y z := √(w ^ 2 + x ^ 2 + y ^ 2 + z ^ 2)
  floor x := ⌊x⌋
  round x := if x < 0 then -⌊-x + 1 / 2⌋ else ⌊x + 1 / 2⌋

namespace Scalar

/-! ## Numerals -/

-- A numeral of the library is an integer cast to the scalar, not the numeral of the reals.
@[simp] theorem real_zero : @OfNat.ofNat ℝ 0 (instOfNat 0) = 0 := Int.cast_zero

@[simp] theorem real_one : @OfNat.ofNat ℝ 1 (instOfNat 1) = 1 := Int.cast_one

@[simp] theorem real_two : @OfNat.ofNat ℝ 2 (instOfNat 2) = 2 := Int.cast_ofNat 2

@[simp] theorem real_four : @OfNat.ofNat ℝ 4 (instOfNat 4) = 4 := Int.cast_ofNat 4

/-! ## Functions -/

@[simp] theorem real_pi : (pi : ℝ) = Real.pi := by
  show Real.pi / ((1 : ℕ) : ℝ) = Real.pi
  rw [Nat.cast_one, div_one]

@[simp] theorem real_sin (x : ℝ) : sin x = Real.sin x := rfl

@[simp] theorem real_cos (x : ℝ) : cos x = Real.cos x := rfl

@[simp] theorem real_sqrt (x : ℝ) : sqrt x = √x := rfl

@[simp] theorem real_hypot (x y : ℝ) : hypot x y = √(x ^ 2 + y ^ 2) := rfl

@[simp] theorem real_beq (x y : ℝ) : (x == y) = true ↔ x = y := decide_eq_true_iff

end Scalar

end BlochSphere
