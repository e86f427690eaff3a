/-
States and rotations describe the same motion. A quaternion acts on states as the matrix that turns
their Bloch vectors the way it turns points; every gate is such a matrix up to a phase, and Bloch
vectors do not see phases. So the Bloch vector follows the rotations of the gates, one gate at a
time and along every list of them.
-/
import BlochSphere.Proofs.Quat
import BlochSphere.Qubit

namespace BlochSphere

/-! ## Bloch vectors in components -/

namespace Amplitude

section Components

variable (a b : Amplitude ℝ)

@[simp] theorem add_re : (a + b).re = a.re + b.re := rfl

@[simp] theorem add_im : (a + b).im = a.im + b.im := rfl

@[simp] theorem mul_re : (a * b).re = a.re * b.re - a.im * b.im := rfl

@[simp] theorem mul_im : (a * b).im = a.re * b.im + a.im * b.re := rfl

@[simp] theorem conj_re : a.conj.re = a.re := rfl

@[simp] theorem conj_im : a.conj.im = -a.im := rfl

end Components

theorem magnitude_mul_self (a : Amplitude ℝ) : a.magnitude * a.magnitude = a.re ^ 2 + a.im ^ 2 := by
  simp only [magnitude, Scalar.real_hypot]
  exact Real.mul_self_sqrt (by positivity)

end Amplitude

namespace Qubit

theorem p0_eq (q : Qubit ℝ) : q.p0 = q.alpha.re ^ 2 + q.alpha.im ^ 2 := q.alpha.magnitude_mul_self

theorem p1_eq (q : Qubit ℝ) : q.p1 = q.beta.re ^ 2 + q.beta.im ^ 2 := q.beta.magnitude_mul_self

theorem blochVector_eq (q : Qubit ℝ) : q.blochVector =
    ⟨2 * (q.alpha.re * q.beta.re + q.alpha.im * q.beta.im),
      2 * (q.alpha.re * q.beta.im - q.alpha.im * q.beta.re),
      q.alpha.re ^ 2 + q.alpha.im ^ 2 - (q.beta.re ^ 2 + q.beta.im ^ 2)⟩ := by
  simp only [blochVector, p0_eq, p1_eq]
  ext
  · simp
  · simp
    ring
  · rfl

theorem blochVector_ket0 : (ket0 : Qubit ℝ).blochVector = Vec3.northPole := by
  rw [blochVector_eq]
  ext <;> simp [ket0, Vec3.northPole]

/-- A phase leaves the Bloch vector where it is. -/
theorem blochVector_phase {c : Amplitude ℝ} (h : c.re ^ 2 + c.im ^ 2 = 1) (q : Qubit ℝ) :
    blochVector ⟨c * q.alpha, c * q.beta⟩ = q.blochVector := by
  simp only [blochVector_eq, Amplitude.mul_re, Amplitude.mul_im]
  ext
  · linear_combination 2 * (q.alpha.re * q.beta.re + q.alpha.im * q.beta.im) * h
  · linear_combination 2 * (q.alpha.re * q.beta.im - q.alpha.im * q.beta.re) * h
  · linear_combination
      (q.alpha.re ^ 2 + q.alpha.im ^ 2 - (q.beta.re ^ 2 + q.beta.im ^ 2)) * h

end Qubit

/-! ## Quaternions as matrices -/

attribute [ext] Matrix2 Qubit

/-- The matrix `re - √-1 (i X + j Y + k Z)` of a quaternion. -/
def Quat.operator {α : Type} [Scalar α] (q : Quat α) : Matrix2 α :=
  ⟨⟨q.re, -q.k⟩, ⟨-q.j, -q.i⟩, ⟨q.j, -q.i⟩, ⟨q.re, q.k⟩⟩

/-- The matrix of a quaternion moves Bloch vectors as the quaternion moves points. -/
theorem Quat.blochVector_operator (p : Quat ℝ) (q : Qubit ℝ) :
    (p.operator.mulVec q).blochVector = p.rotate q.blochVector := by
  simp only [Qubit.blochVector_eq, operator, Matrix2.mulVec, rotate]
  ext <;> simp <;> ring

/-- Every entry multiplied by `c`. -/
def Matrix2.scale {α : Type} [Scalar α] (c : Amplitude α) (m : Matrix2 α) : Matrix2 α :=
  ⟨c * m.a, c * m.b, c * m.c, c * m.d⟩

theorem Matrix2.scale_mulVec (c : Amplitude ℝ) (m : Matrix2 ℝ) (q : Qubit ℝ) :
    (m.scale c).mulVec q = ⟨c * (m.mulVec q).alpha, c * (m.mulVec q).beta⟩ := by
  ext <;> simp [scale, mulVec] <;> ring

/-! ## Gates as rotations -/

namespace Gate

/-- The phase between a gate's matrix and the matrix of its rotation: half its angle. -/
noncomputable def phase (g : Gate) : Amplitude ℝ :=
  ⟨Real.cos (g.angle / 2), Real.sin (g.angle / 2)⟩

theorem phase_normSq (g : Gate) : g.phase.re ^ 2 + g.phase.im ^ 2 = 1 := Real.cos_sq_add_sin_sq _

/-- About the third axis: the first amplitude is kept, the second turned by the whole angle. -/
theorem matrix_about_z {g : Gate} (ha : (axis g : Vec3 ℝ) = ⟨0, 0, 1⟩)
    (hm : (matrix g : Matrix2 ℝ) =
      ⟨⟨1, 0⟩, ⟨0, 0⟩, ⟨0, 0⟩, ⟨Real.cos g.angle, Real.sin g.angle⟩⟩) :
    matrix g = (Quat.axisAngle g.axis g.angle).operator.scale g.phase := by
  have hc : Real.cos g.angle = Real.cos (g.angle / 2) ^ 2 - Real.sin (g.angle / 2) ^ 2 := by
    rw [← Real.cos_two_mul', mul_div_cancel₀ _ two_ne_zero]
  have hs : Real.sin g.angle = 2 * Real.sin (g.angle / 2) * Real.cos (g.angle / 2) := by
    rw [← Real.sin_two_mul, mul_div_cancel₀ _ two_ne_zero]
  rw [hm, hc, hs, Quat.axisAngle_of_norm_eq_one g.norm_axis, ha]
  ext <;> simp [Matrix2.scale, Quat.operator, phase]
  -- what is left of the first entry is the phase times its conjugate, of the last one its square
  case a.re => linear_combination -Real.cos_sq_add_sin_sq (g.angle / 2)
  all_goals ring

/-- By half a turn about `axis`: the phase is `i`, and the matrix mixes X, Y and Z as the axis
mixes the three directions. -/
theorem matrix_half_turn {g : Gate} (hg : (angle g : ℝ) = Real.pi)
    (hm : (matrix g : Matrix2 ℝ) =
      ⟨⟨g.axis.z, 0⟩, ⟨g.axis.x, -g.axis.y⟩, ⟨g.axis.x, g.axis.y⟩, ⟨-g.axis.z, 0⟩⟩) :
    matrix g = (Quat.axisAngle g.axis g.angle).operator.scale g.phase := by
  rw [hm, Quat.axisAngle_of_norm_eq_one g.norm_axis]
  ext <;> simp [Matrix2.scale, Quat.operator, phase, hg]

/-- The matrix of a gate is that of its rotation, up to a phase. -/
theorem matrix_eq (g : Gate) :
    (matrix g : Matrix2 ℝ) = (Quat.axisAngle g.axis g.angle).operator.scale g.phase := by
  cases g with
  | x => exact matrix_half_turn (by simp [angle]) (by simp [matrix, axis])
  | y => exact matrix_half_turn (by simp [angle]) (by simp [matrix, axis])
  | z => exact matrix_about_z (by simp [axis]) (by simp [matrix, angle])
  | s => exact matrix_about_z (by simp [axis]) (by simp [matrix, angle])
  | t => exact matrix_about_z (by simp [axis]) (by simp [matrix, angle])
  | h =>
    have hr : √(0.5 : ℝ) = 1 / √2 := by
      rw [show (0.5 : ℝ) = 1 / 2 by norm_num, Real.sqrt_div zero_le_one, Real.sqrt_one]
    refine matrix_half_turn (by simp [angle]) ?_
    rw [axis_h]
    simp [matrix, hr]

end Gate

/-! ## Lists of gates -/

/-- One gate moves the Bloch vector of any state, normalised or not, by its rotation. -/
theorem Qubit.blochVector_apply (q : Qubit ℝ) (g : Gate) :
    (q.apply g).blochVector = (Quat.axisAngle g.axis g.angle).rotate q.blochVector := by
  rw [apply, g.matrix_eq, Matrix2.scale_mulVec, blochVector_phase g.phase_normSq,
    Quat.blochVector_operator]

/-- When an orientation shows a state, the orientation after more gates shows the state after
them. -/
theorem Qubit.blochVector_applyAll (v : Vec3 ℝ) (gates : List Gate) :
    ∀ (q : Qubit ℝ) (o : Quat ℝ), q.blochVector = o.rotate v →
      (q.applyAll gates).blochVector = (o.turnAll gates).rotate v := by
  induction gates with
  | nil => exact fun q o h => h
  | cons g gates ih =>
    intro q o h
    refine ih (q.apply g) (Quat.axisAngle g.axis g.angle * o) ?_
    rw [blochVector_apply, h, Quat.rotate_mul]

/-- The Bloch vector follows the rotations of the gates: along every list of gates applied to
`|0⟩` it is where the product of their rotations takes the north pole, and one gate moves the
Bloch vector of every state by its rotation. -/
theorem Qubit.blochVector_follows_rotations :
    (∀ gates : List Gate, (ket0.applyAll gates).blochVector =
      (Quat.identity.turnAll gates).rotate (Vec3.northPole : Vec3 ℝ)) ∧
    ∀ (q : Qubit ℝ) (g : Gate),
      (q.apply g).blochVector = (Quat.axisAngle g.axis g.angle).rotate q.blochVector := by
  refine ⟨fun gates => ?_, blochVector_apply⟩
  apply blochVector_applyAll
  rw [blochVector_ket0, Quat.rotate_identity]

end BlochSphere
