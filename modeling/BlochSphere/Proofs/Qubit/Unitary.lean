/-
Gates are unitary. The matrix of a rotation of length one keeps the inner products of states, and so does a
phase, so every list of gates keeps them, and with them the norm. Every list of gates can be undone by gates:
the four half turns undo themselves, and the two shorter turns about the third axis are back where they began
after a whole turn.
-/
import BlochSphere.Proofs.Bloch
import BlochSphere.Proofs.Quat.Length

namespace BlochSphere

/-! ## Inner products -/

/-- The inner product of two states, conjugate in the first. -/
def Qubit.inner {α : Type} [Scalar α] (p q : Qubit α) : Amplitude α :=
  p.alpha.conj * q.alpha + p.beta.conj * q.beta

namespace Qubit

variable (p q : Qubit ℝ)

theorem inner_re : (p.inner q).re =
    p.alpha.re * q.alpha.re + p.alpha.im * q.alpha.im + (p.beta.re * q.beta.re + p.beta.im * q.beta.im) := by
  simp [inner]

theorem inner_im : (p.inner q).im =
    p.alpha.re * q.alpha.im - p.alpha.im * q.alpha.re + (p.beta.re * q.beta.im - p.beta.im * q.beta.re) := by
  simp [inner]
  ring

theorem norm_eq_inner : q.norm = (q.inner q).re := by
  rw [norm, p0_eq, p1_eq, inner_re]
  ring

/-- A phase that both states take on leaves their inner product as it is. -/
theorem inner_phase {c : Amplitude ℝ} (h : c.re ^ 2 + c.im ^ 2 = 1) :
    inner ⟨c * p.alpha, c * p.beta⟩ ⟨c * q.alpha, c * q.beta⟩ = p.inner q := by
  ext
  · rw [inner_re, inner_re]
    simp only [Amplitude.mul_re, Amplitude.mul_im]
    linear_combination (p.alpha.re * q.alpha.re + p.alpha.im * q.alpha.im +
      (p.beta.re * q.beta.re + p.beta.im * q.beta.im)) * h
  · rw [inner_im, inner_im]
    simp only [Amplitude.mul_re, Amplitude.mul_im]
    linear_combination (p.alpha.re * q.alpha.im - p.alpha.im * q.alpha.re +
      (p.beta.re * q.beta.im - p.beta.im * q.beta.re)) * h

/-- The matrix of a quaternion of length one keeps inner products. -/
theorem inner_operator {u : Quat ℝ} (h : u.abs = 1) :
    (u.operator.mulVec p).inner (u.operator.mulVec q) = p.inner q := by
  rw [Quat.abs_eq_one_iff, Quat.dot_self] at h
  ext
  · rw [inner_re, inner_re]
    simp only [Quat.operator, Matrix2.mulVec, Amplitude.add_re, Amplitude.add_im, Amplitude.mul_re,
      Amplitude.mul_im]
    linear_combination (p.alpha.re * q.alpha.re + p.alpha.im * q.alpha.im +
      (p.beta.re * q.beta.re + p.beta.im * q.beta.im)) * h
  · rw [inner_im, inner_im]
    simp only [Quat.operator, Matrix2.mulVec, Amplitude.add_re, Amplitude.add_im, Amplitude.mul_re,
      Amplitude.mul_im]
    linear_combination (p.alpha.re * q.alpha.im - p.alpha.im * q.alpha.re +
      (p.beta.re * q.beta.im - p.beta.im * q.beta.re)) * h

theorem inner_apply (g : Gate) : (p.apply g).inner (q.apply g) = p.inner q := by
  rw [apply, apply, g.matrix_eq, Matrix2.scale_mulVec, Matrix2.scale_mulVec, inner_phase _ _ g.phase_normSq]
  exact inner_operator p q g.abs_turn

theorem inner_applyAll (gates : List Gate) :
    ∀ p q : Qubit ℝ, (p.applyAll gates).inner (q.applyAll gates) = p.inner q := by
  induction gates with
  | nil => exact fun p q => rfl
  | cons g gates ih =>
    intro p q
    exact (ih (p.apply g) (q.apply g)).trans (inner_apply p q g)

theorem norm_applyAll (gates : List Gate) : (q.applyAll gates).norm = q.norm := by
  rw [norm_eq_inner, norm_eq_inner, inner_applyAll]

theorem norm_ket0 : (ket0 : Qubit ℝ).norm = 1 := by
  rw [norm, p0_eq, p1_eq]
  simp [ket0]

theorem applyAll_append (front back : List Gate) :
    q.applyAll (front ++ back) = (q.applyAll front).applyAll back := List.foldl_append

end Qubit

/-! ## Undoing gates -/

namespace Gate

/-- How often a gate is to be applied for its rotation to come to a whole turn. -/
def order : Gate → Nat
  | x | y | z | h => 2
  | s => 4
  | t => 8

/-- The gates that undo a gate: the rest of a whole turn. -/
def undo (g : Gate) : List Gate := List.replicate (g.order - 1) g

end Gate

namespace Qubit

variable (q : Qubit ℝ)

theorem apply_half_turn {g : Gate} (hg : g.order = 2) : (q.apply g).apply g = q := by
  cases g with
  | x | y | z => ext <;> simp [apply, Matrix2.mulVec, Gate.matrix]
  | s | t => cases hg
  | h =>
    have hr : √(0.5 : ℝ) * √0.5 = 0.5 := Real.mul_self_sqrt (by norm_num)
    ext <;> simp [apply, Matrix2.mulVec, Gate.matrix]
    · linear_combination 2 * q.alpha.re * hr
    · linear_combination 2 * q.alpha.im * hr
    · linear_combination 2 * q.beta.re * hr
    · linear_combination 2 * q.beta.im * hr

/-- Two quarter turns about the third axis are a half turn. -/
theorem apply_s_s : (q.apply .s).apply .s = q.apply .z := by
  ext <;> simp [apply, Matrix2.mulVec, Gate.matrix]

/-- Two eighths of a turn about the third axis are a quarter turn. -/
theorem apply_t_t : (q.apply .t).apply .t = q.apply .s := by
  have hr : √(2 : ℝ) * √2 = 2 := Real.mul_self_sqrt (by norm_num)
  ext <;> simp [apply, Matrix2.mulVec, Gate.matrix]
  · linear_combination -q.beta.im / 2 * hr
  · linear_combination q.beta.re / 2 * hr

/-- A whole turn leads back. -/
theorem applyAll_order (g : Gate) : q.applyAll (List.replicate g.order g) = q := by
  cases g with
  | x | y | z | h => exact q.apply_half_turn rfl
  | s =>
    show (((q.apply .s).apply .s).apply .s).apply .s = q
    rw [apply_s_s, apply_s_s]
    exact q.apply_half_turn rfl
  | t =>
    show (((((((q.apply .t).apply .t).apply .t).apply .t).apply .t).apply .t).apply .t).apply .t = q
    rw [apply_t_t, apply_t_t, apply_t_t, apply_t_t, apply_s_s, apply_s_s]
    exact q.apply_half_turn rfl

theorem applyAll_undo (g : Gate) : (q.apply g).applyAll g.undo = q := by
  have hcons : g :: g.undo = List.replicate g.order g := by cases g <;> rfl
  have horder := q.applyAll_order g
  rwa [← hcons] at horder

/-- The last gate is undone first. -/
theorem applyAll_undoes (gates : List Gate) :
    ∀ q : Qubit ℝ, (q.applyAll gates).applyAll (gates.reverse.flatMap Gate.undo) = q := by
  induction gates with
  | nil => exact fun q => rfl
  | cons g gates ih =>
    intro q
    have hundo : (g :: gates).reverse.flatMap Gate.undo = gates.reverse.flatMap Gate.undo ++ g.undo := by simp
    rw [hundo, applyAll_append]
    show ((((q.apply g).applyAll gates).applyAll _).applyAll g.undo) = q
    rw [ih, applyAll_undo]

/-- Lists of gates are unitary. They keep the inner product of any two states, normalised or not, and so the
norm of every state; the probabilities of every state that is reached from `|0⟩` are not negative and add up to
one; and for every list there is one that leads every state back. -/
theorem gates_are_unitary (gates : List Gate) :
    (∀ p q : Qubit ℝ, (p.applyAll gates).inner (q.applyAll gates) = p.inner q) ∧
    (∀ q : Qubit ℝ, (q.applyAll gates).norm = q.norm) ∧
    (0 ≤ ((ket0 : Qubit ℝ).applyAll gates).p0 ∧ 0 ≤ ((ket0 : Qubit ℝ).applyAll gates).p1 ∧
      ((ket0 : Qubit ℝ).applyAll gates).p0 + ((ket0 : Qubit ℝ).applyAll gates).p1 = 1) ∧
    ∃ undo : List Gate, ∀ q : Qubit ℝ, (q.applyAll gates).applyAll undo = q := by
  refine ⟨inner_applyAll gates, fun q => q.norm_applyAll gates, ?_, _, applyAll_undoes gates⟩
  have hnorm : ((ket0 : Qubit ℝ).applyAll gates).norm = 1 := (norm_applyAll ket0 gates).trans norm_ket0
  exact ⟨mul_self_nonneg _, mul_self_nonneg _, hnorm⟩

end Qubit

end BlochSphere
