/-
Interpolation sweeps a rotation. Between an orientation and the same orientation turned about an axis,
interpolation goes through the orientations that the turn goes through, in proportion to its angle, though
it is computed from the two ends alone and never sees the axis. For the angles of the gates the ends are
far enough apart for the arc to be taken, and at most a quarter turn apart in the space of quaternions.
-/
import BlochSphere.Proofs.Quat.Length

namespace BlochSphere

namespace Quat

variable {a : Quat ℝ} {axis : Vec3 ℝ}

/-! ## The ends of a turn -/

/-- Turning an orientation leaves it at the cosine that the turn has with no turn at all. -/
theorem dot_mul_right (r a : Quat ℝ) : dot a (r * a) = r.re * dot a a := by
  simp only [dot, mul_re, mul_i, mul_j, mul_k]
  ring

theorem dot_turned (ha : a.abs = 1) (hn : axis.norm = 1) (angle : ℝ) :
    dot a (axisAngle axis angle * a) = Real.cos (angle / 2) := by
  rw [dot_mul_right, abs_eq_one_iff.1 ha, mul_one, axisAngle_of_norm_eq_one hn]

/-- The arc between the ends is half the angle of the turn. -/
theorem arccos_dot_turned (ha : a.abs = 1) (hn : axis.norm = 1) {angle : ℝ} (h0 : 0 ≤ angle)
    (h1 : angle ≤ 2 * Real.pi) :
    Real.arccos (dot a (axisAngle axis angle * a)) = angle / 2 := by
  rw [dot_turned ha hn]
  exact Real.arccos_cos (by linarith) (by linarith)

/-! ## Between the ends -/

/-- The weights of the two ends of an arc of `θ` at the share `t` of it. -/
theorem arc_weights {θ : ℝ} (h : Real.sin θ ≠ 0) (t : ℝ) :
    Real.sin ((1 - t) * θ) / Real.sin θ + Real.sin (t * θ) / Real.sin θ * Real.cos θ = Real.cos (t * θ) ∧
      Real.sin (t * θ) / Real.sin θ * Real.sin θ = Real.sin (t * θ) := by
  have harc : Real.sin ((1 - t) * θ) = Real.sin θ * Real.cos (t * θ) - Real.cos θ * Real.sin (t * θ) := by
    rw [sub_mul, one_mul, Real.sin_sub]
  constructor
  · rw [harc]
    field_simp
    ring
  · exact div_mul_cancel₀ _ h

/-- A mix of an orientation and the turned one is a turn of the orientation, whose cosine and sine are
mixed of those of no turn and of the whole one. -/
theorem mix_turned (hn : axis.norm = 1) (a : Quat ℝ) {angle part c d : ℝ}
    (hc : c + d * Real.cos (angle / 2) = Real.cos (part / 2))
    (hs : d * Real.sin (angle / 2) = Real.sin (part / 2)) :
    scale c a + scale d (axisAngle axis angle * a) = axisAngle axis part * a := by
  rw [axisAngle_of_norm_eq_one hn, axisAngle_of_norm_eq_one hn]
  ext
  · simp only [add_re, scale_re, mul_re]
    linear_combination a.re * hc - (axis.x * a.i + axis.y * a.j + axis.z * a.k) * hs
  · simp only [add_i, scale_i, mul_i]
    linear_combination a.i * hc + (axis.x * a.re + axis.y * a.k - axis.z * a.j) * hs
  · simp only [add_j, scale_j, mul_j]
    linear_combination a.j * hc + (axis.y * a.re + axis.z * a.i - axis.x * a.k) * hs
  · simp only [add_k, scale_k, mul_k]
    linear_combination a.k * hc + (axis.z * a.re + axis.x * a.j - axis.y * a.i) * hs

/-- Interpolation between the ends of a turn weighs them as the arc of half its angle asks for. -/
theorem slerp_turned_eq (ha : a.abs = 1) (hn : axis.norm = 1) {angle : ℝ} (h0 : 0 ≤ angle)
    (h1 : angle ≤ 2 * Real.pi) (hs : ¬ Real.sin (angle / 2) < 1e-9) (t : ℝ) :
    a.slerp (axisAngle axis angle * a) t =
      scale (Real.sin ((1 - t) * (angle / 2)) / Real.sin (angle / 2)) a +
        scale (Real.sin (t * (angle / 2)) / Real.sin (angle / 2)) (axisAngle axis angle * a) := by
  rw [slerp_eq ha (abs_mul_eq_one (abs_axisAngle hn angle) ha), arccos_dot_turned ha hn h0 h1, if_neg hs]

theorem slerp_turned (ha : a.abs = 1) (hn : axis.norm = 1) {angle : ℝ} (h0 : 0 ≤ angle)
    (h1 : angle ≤ 2 * Real.pi) (hs : ¬ Real.sin (angle / 2) < 1e-9) (t : ℝ) :
    a.slerp (axisAngle axis angle * a) t = axisAngle axis (t * angle) * a := by
  have hne : Real.sin (angle / 2) ≠ 0 := by
    intro hz
    rw [hz] at hs
    norm_num at hs
  obtain ⟨hcos, hsin⟩ := arc_weights hne t
  rw [slerp_turned_eq ha hn h0 h1 hs]
  refine mix_turned hn a ?_ ?_
  · rw [hcos, mul_div_assoc]
  · rw [hsin, mul_div_assoc]

theorem axisAngle_zero (hn : axis.norm = 1) : axisAngle axis 0 = identity := by
  rw [axisAngle_of_norm_eq_one hn]
  ext <;> simp [identity]

theorem identity_mul (a : Quat ℝ) : identity * a = a := by
  ext <;> simp [identity]

end Quat

/-! ## The angles of the gates -/

namespace Gate

/-- Gates turn by an eighth of a full turn at least and by half a turn at most. -/
theorem angle_mem (g : Gate) : Real.pi / 4 ≤ g.angle ∧ g.angle ≤ Real.pi := by
  have hpi := Real.pi_pos
  have hangle : (g.angle : ℝ) = Real.pi ∨ (g.angle : ℝ) = Real.pi / 2 ∨ (g.angle : ℝ) = Real.pi / 4 := by
    cases g <;> simp [angle]
  rcases hangle with ha | ha | ha <;> rw [ha] <;> constructor <;> linarith

/-- So the sine of half the angle is far from zero. -/
theorem one_quarter_le_sin (g : Gate) : 1 / 4 ≤ Real.sin (g.angle / 2) := by
  obtain ⟨hlo, hhi⟩ := g.angle_mem
  have hpi := Real.pi_pos
  calc (1 : ℝ) / 4 = 2 / Real.pi * (Real.pi / 8) := by field_simp; norm_num
    _ ≤ 2 / Real.pi * (g.angle / 2) := by
      refine mul_le_mul_of_nonneg_left ?_ (by positivity)
      linarith
    _ ≤ Real.sin (g.angle / 2) := Real.mul_le_sin (by linarith) (by linarith)

end Gate

namespace Quat

/-- Interpolation from an orientation to the orientation after a gate sweeps the gate's own rotation. The
nearly parallel case is never taken. The target is on the near side of the orientation, and its weight is
never negative, so the arc is the one to the target and not to its negative. -/
theorem slerp_sweeps_turn (a : Quat ℝ) (ha : a.abs = 1) (g : Gate) (t : ℝ) (ht : 0 ≤ t ∧ t ≤ 1) :
    let target := axisAngle g.axis g.angle * a
    let arc := Scalar.acos (Scalar.clamp (-1) 1 (dot a target))
    a.slerp target t = axisAngle g.axis (t * g.angle) * a ∧
    (arc = g.angle / 2 ∧ ¬ Scalar.sin arc < 1e-9) ∧
    (0 ≤ dot a target ∧ ∃ c d, 0 ≤ c ∧ 0 ≤ d ∧ a.slerp target t = scale c a + scale d target) ∧
    a.slerp target 0 = a ∧ a.slerp target 1 = target := by
  intro target arc
  have hn := g.norm_axis
  obtain ⟨hlo, hhi⟩ := g.angle_mem
  have hpi := Real.pi_pos
  have h0 : (0 : ℝ) ≤ g.angle := by linarith
  have h1 : (g.angle : ℝ) ≤ 2 * Real.pi := by linarith
  have hsin := g.one_quarter_le_sin
  have hs : ¬ Real.sin (g.angle / 2) < 1e-9 := by
    rw [not_lt]
    exact le_trans (by norm_num) hsin
  have harc : arc = g.angle / 2 := by
    have ht' : dot target target = 1 := abs_eq_one_iff.1 (abs_mul_eq_one (abs_axisAngle hn g.angle) ha)
    show Real.arccos (Scalar.clamp (-1) 1 (dot a target)) = g.angle / 2
    rw [← arccos_dot_turned ha hn h0 h1]
    congr 1
    simpa using clamp_dot (abs_eq_one_iff.1 ha) ht'
  have hsweep := slerp_turned ha hn h0 h1 hs
  -- both parts of the arc are between nothing and a quarter turn
  have weight {x : ℝ} (hx : 0 ≤ x ∧ x ≤ 1) : 0 ≤ Real.sin (x * (g.angle / 2)) / Real.sin (g.angle / 2) := by
    refine div_nonneg (Real.sin_nonneg_of_nonneg_of_le_pi (mul_nonneg hx.1 (by linarith)) ?_) (by linarith)
    calc x * (g.angle / 2) ≤ 1 * (g.angle / 2) := mul_le_mul_of_nonneg_right hx.2 (by linarith)
      _ ≤ Real.pi := by linarith
  refine ⟨hsweep t, ⟨harc, ?_⟩, ⟨?_, _, _, weight ⟨by linarith [ht.2], by linarith [ht.1]⟩, weight ht,
    slerp_turned_eq ha hn h0 h1 hs t⟩, ?_, ?_⟩
  · rw [harc]
    exact hs
  · rw [dot_turned ha hn]
    exact Real.cos_nonneg_of_neg_pi_div_two_le_of_le (by linarith) (by linarith)
  · rw [hsweep, zero_mul, axisAngle_zero hn, identity_mul]
  · rw [hsweep, one_mul]

/-- A third of the way through a half turn from an orientation that is a half turn itself. -/
theorem slerp_sweeps_turn_from_half_turn :
    let a : Quat ℝ := ⟨0, 1, 0, 0⟩
    a.abs = 1 ∧ ((0 : ℝ) ≤ 1 / 3 ∧ (1 : ℝ) / 3 ≤ 1) ∧
      a.slerp (axisAngle Gate.h.axis Gate.h.angle * a) (1 / 3) =
        axisAngle Gate.h.axis (1 / 3 * Gate.h.angle) * a := by
  intro a
  have ha : a.abs = 1 := by
    rw [abs_eq_one_iff]
    simp [dot, a]
  have ht : (0 : ℝ) ≤ 1 / 3 ∧ (1 : ℝ) / 3 ≤ 1 := by norm_num
  exact ⟨ha, ht, (slerp_sweeps_turn a ha .h (1 / 3) ht).1⟩

end Quat

end BlochSphere
