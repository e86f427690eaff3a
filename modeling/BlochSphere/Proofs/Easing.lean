/-
Easing curves in exact arithmetic. Each of them leads from zero to one over the unit interval and rises
strictly on the way; elsewhere it stays at the nearer end. The ends and the strict rise are shown for each
curve, and the rest follows from them. The cubic curve is made of two arcs that meet in the middle, and a
half turn about the point where they meet takes one to the other.
-/
import BlochSphere.Proofs.Scalar.Real
import BlochSphere.Easing

namespace BlochSphere

/-! ## The unit interval -/

namespace Scalar

theorem real_clamp_of_le {x : ℝ} (h : x ≤ 0) : clamp 0 1 x = 0 := if_pos h

theorem real_clamp_of_ge {x : ℝ} (h : 1 ≤ x) : clamp 0 1 x = 1 := by
  have h0 : ¬ x ≤ 0 := by linarith
  exact (if_neg h0).trans (if_pos h)

theorem real_clamp_of_mem {x : ℝ} (h0 : 0 ≤ x) (h1 : x ≤ 1) : clamp 0 1 x = x := by
  rcases h0.eq_or_lt with rfl | h0
  · exact real_clamp_of_le le_rfl
  rcases h1.eq_or_lt with rfl | h1
  · exact real_clamp_of_ge le_rfl
  · exact (if_neg h0.not_ge).trans (if_neg h1.not_ge)

end Scalar

namespace Easing

/-! ## Reparametrisations -/

/-- A curve that leads from zero to one over the unit interval, always rising, and stays at the nearer end
elsewhere. -/
structure Reparametrises (ease : ℝ → ℝ) : Prop where
  mem : ∀ x, 0 ≤ ease x ∧ ease x ≤ 1
  of_nonpos : ∀ x, x ≤ 0 → ease x = 0
  of_one_le : ∀ x, 1 ≤ x → ease x = 1
  mono : ∀ x y, x ≤ y → ease x ≤ ease y
  strict : ∀ x y, 0 ≤ x → x < y → y ≤ 1 → ease x < ease y

/-- A curve that rises strictly from its one end to the other never leaves the unit interval, and it falls
nowhere. -/
theorem Reparametrises.of_strict {ease : ℝ → ℝ} (h0 : ∀ x, x ≤ 0 → ease x = 0)
    (h1 : ∀ x, 1 ≤ x → ease x = 1) (hs : ∀ x y, 0 ≤ x → x < y → y ≤ 1 → ease x < ease y) :
    Reparametrises ease := by
  have mem : ∀ x, 0 ≤ ease x ∧ ease x ≤ 1 := by
    intro x
    rcases le_or_gt x 0 with hx | hx
    · rw [h0 x hx]
      exact ⟨le_rfl, zero_le_one⟩
    rcases le_or_gt 1 x with hx1 | hx1
    · rw [h1 x hx1]
      exact ⟨zero_le_one, le_rfl⟩
    · have hlo := hs 0 x le_rfl hx hx1.le
      have hhi := hs x 1 hx.le hx1 le_rfl
      rw [h0 0 le_rfl] at hlo
      rw [h1 1 le_rfl] at hhi
      exact ⟨hlo.le, hhi.le⟩
  refine ⟨mem, h0, h1, fun x y h => ?_, hs⟩
  rcases le_or_gt x 0 with hx | hx
  · rw [h0 x hx]
    exact (mem y).1
  rcases le_or_gt 1 y with hy | hy
  · rw [h1 y hy]
    exact (mem x).2
  rcases h.eq_or_lt with rfl | h
  · exact le_rfl
  · exact (hs x y hx.le h hy.le).le

/-! ## Linear and quadratic curves -/

theorem linear_eq (x : ℝ) : linear x = Scalar.clamp 0 1 x := by
  unfold linear
  rw [Scalar.real_zero, Scalar.real_one]

theorem linear_reparametrises : Reparametrises linear := by
  refine .of_strict (fun x h => ?_) (fun x h => ?_) fun x y h0 h h1 => ?_
  · rw [linear_eq, Scalar.real_clamp_of_le h]
  · rw [linear_eq, Scalar.real_clamp_of_ge h]
  · rw [linear_eq, linear_eq, Scalar.real_clamp_of_mem h0 (h.le.trans h1),
      Scalar.real_clamp_of_mem (h0.trans h.le) h1]
    exact h

theorem outQuad_eq (x : ℝ) : outQuad x = 1 - (1 - Scalar.clamp 0 1 x) ^ 2 := by
  have h : outQuad x = 1 - (1 - Scalar.clamp 0 1 x) * (1 - Scalar.clamp 0 1 x) := by
    simp only [outQuad, Scalar.real_zero, Scalar.real_one]
  rw [h]
  ring

theorem outQuad_of_mem {x : ℝ} (h0 : 0 ≤ x) (h1 : x ≤ 1) : outQuad x = 1 - (1 - x) ^ 2 := by
  rw [outQuad_eq, Scalar.real_clamp_of_mem h0 h1]

theorem outQuad_reparametrises : Reparametrises outQuad := by
  refine .of_strict (fun x h => ?_) (fun x h => ?_) fun x y h0 h h1 => ?_
  · rw [outQuad_eq, Scalar.real_clamp_of_le h]
    norm_num
  · rw [outQuad_eq, Scalar.real_clamp_of_ge h]
    norm_num
  · rw [outQuad_of_mem h0 (h.le.trans h1), outQuad_of_mem (h0.trans h.le) h1]
    have hp : (1 - y) ^ 2 < (1 - x) ^ 2 := pow_lt_pow_left₀ (by linarith) (by linarith) (by norm_num)
    linarith

/-! ## The two arcs of the cubic curve -/

theorem inOutCubic_eq (x : ℝ) : inOutCubic x =
    if Scalar.clamp 0 1 x < 1 / 2 then 4 * Scalar.clamp 0 1 x ^ 3
    else 1 - (2 - 2 * Scalar.clamp 0 1 x) ^ 3 / 2 := by
  have half : (OfScientific.ofScientific 5 true 1 : ℝ) = 1 / 2 := by norm_num
  have h : inOutCubic x = if Scalar.clamp 0 1 x < (OfScientific.ofScientific 5 true 1 : ℝ)
      then 4 * Scalar.clamp 0 1 x * Scalar.clamp 0 1 x * Scalar.clamp 0 1 x
      else 1 - (-2 * Scalar.clamp 0 1 x + 2) *
        ((-2 * Scalar.clamp 0 1 x + 2) * (-2 * Scalar.clamp 0 1 x + 2)) / 2 := by
    simp only [inOutCubic, Scalar.real_zero, Scalar.real_one]
  rw [h, half]
  split_ifs <;> ring

theorem inOutCubic_of_nonpos {x : ℝ} (h : x ≤ 0) : inOutCubic x = 0 := by
  rw [inOutCubic_eq, Scalar.real_clamp_of_le h]
  norm_num

theorem inOutCubic_of_one_le {x : ℝ} (h : 1 ≤ x) : inOutCubic x = 1 := by
  rw [inOutCubic_eq, Scalar.real_clamp_of_ge h]
  norm_num

theorem inOutCubic_of_lt_half {x : ℝ} (h0 : 0 ≤ x) (h : x < 1 / 2) : inOutCubic x = 4 * x ^ 3 := by
  rw [inOutCubic_eq, Scalar.real_clamp_of_mem h0 (by linarith), if_pos h]

theorem inOutCubic_of_half_le {x : ℝ} (h : 1 / 2 ≤ x) (h1 : x ≤ 1) :
    inOutCubic x = 1 - (2 - 2 * x) ^ 3 / 2 := by
  rw [inOutCubic_eq, Scalar.real_clamp_of_mem (by linarith) h1, if_neg h.not_gt]

/-! ## The whole cubic curve -/

/-- The curve rises strictly on the unit interval, also from one arc to the other. -/
theorem inOutCubic_lt {x y : ℝ} (h0 : 0 ≤ x) (h : x < y) (h1 : y ≤ 1) :
    inOutCubic x < inOutCubic y := by
  rcases lt_or_ge y (1 / 2) with hy | hy
  · rw [inOutCubic_of_lt_half h0 (h.trans hy), inOutCubic_of_lt_half (h0.trans h.le) hy]
    have hp : x ^ 3 < y ^ 3 := pow_lt_pow_left₀ h h0 (by norm_num)
    linarith
  rw [inOutCubic_of_half_le hy h1]
  rcases lt_or_ge x (1 / 2) with hx | hx
  · -- the first arc stays below a half, the second does not go below it
    rw [inOutCubic_of_lt_half h0 hx]
    have hp : x ^ 3 < (1 / 2) ^ 3 := pow_lt_pow_left₀ hx h0 (by norm_num)
    have hq : (2 - 2 * y) ^ 3 ≤ 1 := pow_le_one₀ (by linarith) (by linarith)
    linarith
  · rw [inOutCubic_of_half_le hx (h.le.trans h1)]
    have hp : (2 - 2 * y) ^ 3 < (2 - 2 * x) ^ 3 :=
      pow_lt_pow_left₀ (by linarith) (by linarith) (by norm_num)
    linarith

theorem inOutCubic_reparametrises : Reparametrises inOutCubic :=
  .of_strict (fun _ => inOutCubic_of_nonpos) (fun _ => inOutCubic_of_one_le) fun _ _ => inOutCubic_lt

theorem inOutCubic_nonneg (x : ℝ) : 0 ≤ inOutCubic x := (inOutCubic_reparametrises.mem x).1

theorem inOutCubic_le_one (x : ℝ) : inOutCubic x ≤ 1 := (inOutCubic_reparametrises.mem x).2

theorem inOutCubic_mono : Monotone (inOutCubic : ℝ → ℝ) := inOutCubic_reparametrises.mono

theorem inOutCubic_lt_one {x : ℝ} (h : x < 1) : inOutCubic x < 1 := by
  rcases le_or_gt x 0 with hx | hx
  · rw [inOutCubic_of_nonpos hx]
    exact zero_lt_one
  · rw [← inOutCubic_of_one_le le_rfl]
    exact inOutCubic_lt hx.le h le_rfl

/-- In the first half the curve is below its middle by as much as it is above it at the mirrored place. -/
theorem inOutCubic_mirror {x : ℝ} (h : x ≤ 1 / 2) : inOutCubic x + inOutCubic (1 - x) = 1 := by
  rcases le_or_gt x 0 with h0 | h0
  · rw [inOutCubic_of_nonpos h0, inOutCubic_of_one_le (by linarith), zero_add]
  rcases h.eq_or_lt with rfl | h
  · -- the arcs meet in the middle, which is its own mirror image
    have hmiddle : inOutCubic (1 / 2 : ℝ) = 1 / 2 := by
      rw [inOutCubic_of_half_le le_rfl (by norm_num)]
      norm_num
    rw [sub_half, hmiddle, add_halves]
  · rw [inOutCubic_of_lt_half h0.le h, inOutCubic_of_half_le (by linarith) (by linarith)]
    ring

/-- Every easing curve is a reparametrisation of the unit interval, and the cubic one is symmetric about its
middle. -/
theorem curves_reparametrise :
    Reparametrises linear ∧ Reparametrises inOutCubic ∧ Reparametrises outQuad ∧
    ∀ x : ℝ, inOutCubic x + inOutCubic (1 - x) = 1 := by
  refine ⟨linear_reparametrises, inOutCubic_reparametrises, outQuad_reparametrises, fun x => ?_⟩
  rcases le_total x (1 / 2) with h | h
  · exact inOutCubic_mirror h
  · have hm := inOutCubic_mirror (x := 1 - x) (by linarith)
    rw [sub_sub_cancel] at hm
    rw [add_comm]
    exact hm

end Easing

end BlochSphere
