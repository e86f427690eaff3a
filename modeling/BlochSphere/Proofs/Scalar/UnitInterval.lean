/-
What comparisons with the ends of the unit interval must say for progress to make sense: that the
end is reached exactly when the clamped progress equals one. It holds in exact arithmetic and in
double precision, where some values compare with nothing.
-/
import BlochSphere.Proofs.Scalar.Real
import BlochSphere.Scalar.Binary64

namespace BlochSphere

/-- A scalar in which zero and one are told apart and one is the end of the unit interval. No order
is asked for: values that compare with nothing are allowed. -/
class LawfulUnit (α : Type) [Scalar α] : Prop where
  one_le_one : (1 : α) ≤ 1
  one_beq_one : ((1 : α) == 1) = true
  zero_beq_one : ((0 : α) == 1) = false
  not_le_zero : ∀ t : α, 1 ≤ t → ¬ t ≤ 0
  one_le_of_beq : ∀ t : α, (t == 1) = true → 1 ≤ t

/-- Clamped progress is one exactly when progress is at least one. -/
theorem LawfulUnit.clamp_beq_one {α : Type} [Scalar α] [LawfulUnit α] (t : α) :
    (Scalar.clamp 0 1 t == 1) = decide (1 ≤ t) := by
  unfold Scalar.clamp
  split
  · rename_i h0
    have h1 : ¬ (1 : α) ≤ t := fun h1 => not_le_zero t h1 h0
    rw [zero_beq_one, decide_eq_false h1]
  · split
    · rename_i h1
      rw [one_beq_one, decide_eq_true h1]
    · rename_i h1
      rw [decide_eq_false h1]
      exact Bool.eq_false_iff.2 fun h => h1 (one_le_of_beq t h)

instance LawfulUnit.real : LawfulUnit ℝ where
  one_le_one := by simp
  one_beq_one := by simp
  zero_beq_one := by
    rw [Bool.eq_false_iff]
    simp
  not_le_zero t h := by
    rw [Scalar.real_one] at h
    rw [Scalar.real_zero, not_le]
    exact lt_of_lt_of_le one_pos h
  one_le_of_beq t h := by
    rw [Scalar.real_beq] at h
    exact le_of_eq h.symm

/-! ## Double precision -/

namespace Binary64

open Float.Model

theorem le_iff (x y : Float) : x ≤ y ↔ x.toModel.unpack.le y.toModel.unpack = true := by
  show Float.le x y = true ↔ _
  exact decide_eq_true_iff

theorem beq_eq (x y : Float) : (x == y) = x.toModel.unpack.beq y.toModel.unpack := rfl

theorem unpack_zero : (@OfNat.ofNat Float 0 (Scalar.instOfNat 0)).toModel.unpack = .zero .positive := rfl

theorem unpack_one : (@OfNat.ofNat Float 1 (Scalar.instOfNat 1)).toModel.unpack =
    .finite .positive 4503599627370496 (-52) (by decide) := rfl

/-- What a positive number is at most is not at most zero. -/
theorem not_le_zero (u : UnpackedFloat) (m : Nat) (e : Int) (hm : 0 < m)
    (h : UnpackedFloat.le (.finite .positive m e hm) u = true) : u.le (.zero .positive) = false := by
  cases u with
  | notANumber => rfl
  | infinity s =>
    cases s with
    | positive => rfl
    | negative => cases h
  | zero s => cases h
  | finite s m' e' hm' =>
    cases s with
    | positive => rfl
    | negative => cases h

/-- Nothing equals a finite number other than zero but itself. -/
theorem eq_of_beq_finite {s : UnpackedFloat.Sign} (u : UnpackedFloat) (m : Nat) (e : Int) (hm : 0 < m)
    (h : u.beq (.finite s m e hm) = true) : u = .finite s m e hm := by
  cases u with
  | notANumber => cases h
  | infinity s' => cases s' <;> cases s <;> cases h
  | zero s' => cases s <;> cases h
  | finite s' m' e' hm' =>
    have hc : s' = s ∧ (compare e' e).then (compare m' m) = .eq := by
      cases s' <;> cases s
      · exact ⟨rfl, by simpa [UnpackedFloat.beq, UnpackedFloat.compare, Ordering.swap_eq_eq] using h⟩
      · cases h
      · cases h
      · exact ⟨rfl, by simpa [UnpackedFloat.beq, UnpackedFloat.compare] using h⟩
    obtain ⟨rfl, hc⟩ := hc
    obtain ⟨he, hm⟩ := Ordering.then_eq_eq.1 hc
    rw [Std.compare_eq_iff_eq] at he hm
    subst he hm
    rfl

/-- What equals a positive number is not below it. -/
theorem le_of_beq (u : UnpackedFloat) (m : Nat) (e : Int) (hm : 0 < m)
    (h : u.beq (.finite .positive m e hm) = true) : UnpackedFloat.le (.finite .positive m e hm) u = true := by
  rw [eq_of_beq_finite u m e hm h]
  simp [UnpackedFloat.le, UnpackedFloat.compare, Std.compare_self]

instance : LawfulUnit Float where
  one_le_one := (le_iff _ _).2 rfl
  one_beq_one := rfl
  zero_beq_one := rfl
  not_le_zero t h := by
    rw [le_iff, unpack_one] at h
    rw [le_iff, unpack_zero, Bool.not_eq_true]
    exact not_le_zero _ _ _ _ h
  one_le_of_beq t h := by
    rw [beq_eq, unpack_one] at h
    rw [le_iff, unpack_one]
    exact le_of_beq _ _ _ _ h

end Binary64

end BlochSphere
