/-
Lengths of quaternions in exact arithmetic. The length of a product is the product of the lengths, a
rotation by a quaternion of length one moves no point closer or further away, and interpolation between
two quaternions of length one is of length one at every progress, though its weights are never rescaled.
-/
import BlochSphere.Proofs.Quat

namespace BlochSphere

/-! ## Squared lengths -/

namespace Quat

section Components

variable (p q : Quat ℝ) (c : ℝ)

@[simp] theorem add_re : (p + q).re = p.re + q.re := rfl

@[simp] theorem add_i : (p + q).i = p.i + q.i := rfl

@[simp] theorem add_j : (p + q).j = p.j + q.j := rfl

@[simp] theorem add_k : (p + q).k = p.k + q.k := rfl

@[simp] theorem scale_re : (scale c q).re = c * q.re := rfl

@[simp] theorem scale_i : (scale c q).i = c * q.i := rfl

@[simp] theorem scale_j : (scale c q).j = c * q.j := rfl

@[simp] theorem scale_k : (scale c q).k = c * q.k := rfl

end Components

variable {p q : Quat ℝ}

theorem dot_self (q : Quat ℝ) : dot q q = q.re ^ 2 + q.i ^ 2 + q.j ^ 2 + q.k ^ 2 := by
  unfold dot
  ring

theorem abs_eq (q : Quat ℝ) : q.abs = √(dot q q) := by
  rw [dot_self]
  rfl

/-- The square of the length is the product with itself. -/
theorem abs_eq_one_iff : q.abs = 1 ↔ dot q q = 1 := by
  rw [abs_eq, Real.sqrt_eq_one]

theorem dot_mul_self (p q : Quat ℝ) : dot (p * q) (p * q) = dot p p * dot q q := by
  simp only [dot, mul_re, mul_i, mul_j, mul_k]
  ring

theorem dot_scale_self (c : ℝ) (q : Quat ℝ) : dot (scale c q) (scale c q) = c ^ 2 * dot q q := by
  simp only [dot, scale_re, scale_i, scale_j, scale_k]
  ring

/-- The square of a sum of two multiples, with the angle between the summands. -/
theorem dot_mix_self (c d : ℝ) (p q : Quat ℝ) :
    dot (scale c p + scale d q) (scale c p + scale d q) =
      c ^ 2 * dot p p + d ^ 2 * dot q q + 2 * c * d * dot p q := by
  simp only [dot, add_re, add_i, add_j, add_k, scale_re, scale_i, scale_j, scale_k]
  ring

/-- Two quaternions of length one have a product between minus one and one. -/
theorem dot_mem_interval (hp : dot p p = 1) (hq : dot q q = 1) : -1 ≤ dot p q ∧ dot p q ≤ 1 := by
  have hsum := dot_mix_self 1 1 p q
  have hdiff := dot_mix_self 1 (-1) p q
  have hs : 0 ≤ dot (scale 1 p + scale 1 q) (scale 1 p + scale 1 q) := by
    rw [dot_self]
    positivity
  have hd : 0 ≤ dot (scale 1 p + scale (-1) q) (scale 1 p + scale (-1) q) := by
    rw [dot_self]
    positivity
  rw [hsum, hp, hq] at hs
  rw [hdiff, hp, hq] at hd
  constructor <;> linarith

/-! ## Rotations -/

theorem abs_identity : (identity : Quat ℝ).abs = 1 := by
  rw [abs_eq_one_iff]
  simp [dot, identity]

theorem abs_mul_eq_one (hp : p.abs = 1) (hq : q.abs = 1) : (p * q).abs = 1 := by
  rw [abs_eq_one_iff] at hp hq ⊢
  rw [dot_mul_self, hp, hq, one_mul]

/-- A rotation about an axis of length one is of length one, whatever its angle. -/
theorem abs_axisAngle {axis : Vec3 ℝ} (h : axis.norm = 1) (angle : ℝ) : (axisAngle axis angle).abs = 1 := by
  have hn : axis.x ^ 2 + axis.y ^ 2 + axis.z ^ 2 = 1 := by
    rw [Vec3.norm_eq, Real.sqrt_eq_one] at h
    exact h
  rw [abs_eq_one_iff, axisAngle_of_norm_eq_one h, dot_self]
  linear_combination Real.sin (angle / 2) ^ 2 * hn + Real.cos_sq_add_sin_sq (angle / 2)

/-- A rotation takes every point of length one to such a point. -/
theorem norm_rotate {v : Vec3 ℝ} (hq : q.abs = 1) (hv : v.norm = 1) : (q.rotate v).norm = 1 := by
  have hn : v.x ^ 2 + v.y ^ 2 + v.z ^ 2 = 1 := by
    rw [Vec3.norm_eq, Real.sqrt_eq_one] at hv
    exact hv
  rw [abs_eq_one_iff, dot_self] at hq
  -- the length of the point is multiplied by the squared length of the quaternion
  have hr : (q.rotate v).x ^ 2 + (q.rotate v).y ^ 2 + (q.rotate v).z ^ 2 =
      (q.re ^ 2 + q.i ^ 2 + q.j ^ 2 + q.k ^ 2) ^ 2 * (v.x ^ 2 + v.y ^ 2 + v.z ^ 2) := by
    simp only [rotate, mul_re, mul_i, mul_j, mul_k, conj_re, conj_i, conj_j, conj_k, ofPoint_re, ofPoint_i,
      ofPoint_j, ofPoint_k]
    ring
  rw [Vec3.norm_eq, Real.sqrt_eq_one, hr, hq, hn]
  norm_num

theorem norm_point (hq : q.abs = 1) : q.point.norm = 1 := by
  refine norm_rotate hq ?_
  rw [Vec3.norm_eq]
  simp [Vec3.northPole]

/-! ## Interpolation -/

theorem abs_normalize (q : Quat ℝ) : q.normalize.abs = 1 := by
  unfold normalize
  by_cases h : q.abs = 0
  · rw [if_pos (by simp [h])]
    exact abs_identity
  · rw [if_neg (by simp [h])]
    have hsq : q.abs ^ 2 = dot q q := by
      rw [abs_eq, Real.sq_sqrt]
      rw [dot_self]
      positivity
    rw [abs_eq_one_iff, dot_scale_self, ← hsq, Scalar.real_one]
    field_simp

theorem abs_lerp (hp : p.abs = 1) (q : Quat ℝ) (t : ℝ) : (p.lerp q t).abs = 1 := by
  unfold lerp
  dsimp only
  split
  · exact hp
  · exact abs_normalize _

/-- The weights of an arc cut in two, as the law of cosines has them. -/
theorem sin_sq_add_sin_sq (x y : ℝ) :
    Real.sin x ^ 2 + Real.sin y ^ 2 + 2 * Real.sin x * Real.sin y * Real.cos (x + y) = Real.sin (x + y) ^ 2 := by
  rw [Real.cos_add, Real.sin_add]
  linear_combination
    -Real.sin x ^ 2 * Real.cos_sq_add_sin_sq y - Real.sin y ^ 2 * Real.cos_sq_add_sin_sq x

theorem clamp_dot (hp : dot p p = 1) (hq : dot q q = 1) : Scalar.clamp (-1) 1 (dot p q) = dot p q := by
  obtain ⟨hlo, hhi⟩ := dot_mem_interval hp hq
  unfold Scalar.clamp
  split
  · exact le_antisymm hlo ‹_›
  · split
    · exact le_antisymm ‹_› hhi
    · rfl

/-- Between two orientations of length one, the arc is as long as the angle between them. -/
theorem slerp_eq (hp : p.abs = 1) (hq : q.abs = 1) (t : ℝ) :
    let θ := Real.arccos (dot p q)
    p.slerp q t = if Real.sin θ < 1e-9 then p.lerp q t
      else scale (Real.sin ((1 - t) * θ) / Real.sin θ) p + scale (Real.sin (t * θ) / Real.sin θ) q := by
  simp only [slerp, Scalar.real_one, clamp_dot (abs_eq_one_iff.1 hp) (abs_eq_one_iff.1 hq)]
  rfl

/-- Between two orientations, also beyond them, every interpolated one is of length one. -/
theorem abs_slerp (hp : p.abs = 1) (hq : q.abs = 1) (t : ℝ) : (p.slerp q t).abs = 1 := by
  have hp' := abs_eq_one_iff.1 hp
  have hq' := abs_eq_one_iff.1 hq
  obtain ⟨hlo, hhi⟩ := dot_mem_interval hp' hq'
  rw [slerp_eq hp hq]
  have hcos : Real.cos (Real.arccos (dot p q)) = dot p q := Real.cos_arccos hlo hhi
  generalize Real.arccos (dot p q) = θ at hcos ⊢
  by_cases hs : Real.sin θ < 1e-9
  · rw [if_pos hs]
    exact abs_lerp hp q t
  · rw [if_neg hs]
    have h0 : Real.sin θ ≠ 0 := by
      intro h0
      rw [h0] at hs
      norm_num at hs
    -- the two parts of the arc add up to the whole
    have harc := sin_sq_add_sin_sq ((1 - t) * θ) (t * θ)
    rw [← add_mul, sub_add_cancel, one_mul, hcos] at harc
    rw [abs_eq_one_iff, dot_mix_self, hp', hq']
    field_simp
    linear_combination harc

end Quat

/-- The rotation of every gate is of length one. -/
theorem Gate.abs_turn (g : Gate) : (g.turn : Quat ℝ).abs = 1 := Quat.abs_axisAngle g.norm_axis _

end BlochSphere
