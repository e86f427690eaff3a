/-
The layout of the sphere in exact arithmetic. Turning a camera moves no point closer or further away, so what is
within the sphere is projected into its outline; and the outline is placed such that all its cells are on the
screen and above the lines of text. Both radii come from one number, the diameter of the sphere in columns,
whichever of width and height limits it.
-/
import BlochSphere.Proofs.Quat
import BlochSphere.Canvas.Layout

namespace BlochSphere

/-! ## Rounding -/

namespace Scalar

theorem real_round (x : ℝ) : round x = if x < 0 then -⌊-x + 1 / 2⌋ else ⌊x + 1 / 2⌋ := rfl

theorem real_round_le_iff {x : ℝ} {n : ℤ} (hn : 0 ≤ n) : round x ≤ n ↔ x < n + 1 / 2 := by
  have hn' : (0 : ℝ) ≤ n := by exact_mod_cast hn
  rw [real_round]
  split
  · rename_i hx
    have hfloor : 0 ≤ ⌊-x + 1 / 2⌋ := Int.floor_nonneg.2 (by linarith)
    exact ⟨fun _ => by linarith, fun _ => by omega⟩
  · rw [← Int.lt_add_one_iff, Int.floor_lt]
    push_cast
    constructor <;> intro h <;> linarith

/-- Rounding does not leave an interval between positive whole numbers. -/
theorem real_round_mem {x : ℝ} {lo hi : ℤ} (h1 : 1 ≤ lo) (hlo : lo ≤ x) (hhi : x ≤ hi) :
    lo ≤ round x ∧ round x ≤ hi := by
  have h1' : (1 : ℝ) ≤ lo := by exact_mod_cast h1
  have hle : lo ≤ hi := by exact_mod_cast hlo.trans hhi
  refine ⟨?_, (real_round_le_iff (by omega)).2 (by linarith)⟩
  rw [real_round, if_neg (by linarith), Int.le_floor]
  linarith

/-- A half below zero is rounded away from it. -/
theorem real_round_nonneg_iff {x : ℝ} : 0 ≤ round x ↔ -1 / 2 < x := by
  rw [real_round]
  split
  · rw [neg_nonneg, ← Int.lt_add_one_iff, Int.floor_lt]
    push_cast
    constructor <;> intro h <;> linarith
  · rename_i hx
    have hfloor : 0 ≤ ⌊x + 1 / 2⌋ := Int.floor_nonneg.2 (by linarith)
    exact ⟨fun _ => by linarith, fun _ => hfloor⟩

end Scalar

namespace Canvas

/-! ## Projection -/

section Projection

variable (p : Vec3 ℝ)

theorem project_u : (project p).u = -p.x * Real.sin (Real.pi / 6) + p.y * Real.cos (Real.pi / 6) := rfl

theorem project_v : (project p).v = p.z * Real.cos (Real.pi / 9) -
    (p.x * Real.cos (Real.pi / 6) + p.y * Real.sin (Real.pi / 6)) * Real.sin (Real.pi / 9) := rfl

theorem project_depth : (project p).depth =
    (p.x * Real.cos (Real.pi / 6) + p.y * Real.sin (Real.pi / 6)) * Real.cos (Real.pi / 9) +
      p.z * Real.sin (Real.pi / 9) := rfl

/-- The camera turns the space, and lengths stay as they are. -/
theorem project_sq : (project p).u ^ 2 + (project p).v ^ 2 + (project p).depth ^ 2 =
    p.x ^ 2 + p.y ^ 2 + p.z ^ 2 := by
  rw [project_u, project_v, project_depth]
  have ha := Real.sin_sq_add_cos_sq (Real.pi / 6)
  have he := Real.sin_sq_add_cos_sq (Real.pi / 9)
  linear_combination (p.x ^ 2 + p.y ^ 2) * ha +
    (p.z ^ 2 + (p.x * Real.cos (Real.pi / 6) + p.y * Real.sin (Real.pi / 6)) ^ 2) * he

variable {p}

/-- What is within the sphere is seen within its outline. -/
theorem project_le_one (h : p.norm ≤ 1) : |(project p).u| ≤ 1 ∧ |(project p).v| ≤ 1 := by
  have hsq : p.x ^ 2 + p.y ^ 2 + p.z ^ 2 ≤ 1 := by
    rw [Vec3.norm_eq, Real.sqrt_le_iff, one_pow] at h
    exact h.2
  rw [← project_sq] at hsq
  constructor
  · rw [← sq_le_one_iff_abs_le_one]
    nlinarith [sq_nonneg (project p).v, sq_nonneg (project p).depth]
  · rw [← sq_le_one_iff_abs_le_one]
    nlinarith [sq_nonneg (project p).u, sq_nonneg (project p).depth]

end Projection

/-! ## The place of the sphere -/

namespace Layout

/-- The diameter of the sphere in columns, as width and height allow. In rows it is half of that. -/
def diameter (width height : Int) : Int := min (width - 2) (2 * (height - textRows - 2))

/-- The sphere leaves a column on each side, and a row above and below. -/
theorem diameter_mem {width height : Int} (hw : 2 ≤ width) (hh : 8 ≤ height) :
    (0 : ℝ) ≤ diameter width height ∧ (diameter width height : ℝ) ≤ width - 2 ∧
      (diameter width height : ℝ) ≤ 2 * (height - 8) := by
  have h : 0 ≤ diameter width height ∧ diameter width height ≤ width - 2 ∧
      diameter width height ≤ 2 * (height - 8) := by
    unfold diameter textRows
    omega
  exact_mod_cast h

/-- What is within the outline is at most a radius from the centre. -/
theorem mul_diameter_mem {width height : Int} (hw : 2 ≤ width) (hh : 8 ≤ height) {t : ℝ} (ht : |t| ≤ 1) :
    -(diameter width height : ℝ) ≤ t * diameter width height ∧
      t * diameter width height ≤ diameter width height := by
  have hd := (diameter_mem hw hh).1
  rw [← abs_le, abs_mul, abs_of_nonneg hd]
  exact mul_le_of_le_one_left hd ht

/-- Whether the width or the height is the limit, the sphere is in the middle of the columns and one row below
the top. -/
theorem ofSize_eq (width height : Int) : (ofSize width height : Layout ℝ) =
    ⟨width / 2, diameter width height / 4 + 1, diameter width height / 2, diameter width height / 4⟩ := by
  have h : (ofSize width height : Layout ℝ) =
      let widest := ((width - 2 : Int) : ℝ) / 2
      let ry := ((height - textRows - 2 : Int) : ℝ) / 2
      if widest < ry * 2 then ⟨width / 2, widest / 2 + 1, widest, widest / 2⟩
      else ⟨width / 2, ry + 1, ry * 2, ry⟩ := by
    simp only [ofSize, Scalar.real_one]
    rfl
  rw [h]
  have hcast : ((2 * (height - textRows - 2) : Int) : ℝ) = 2 * ((height - textRows - 2 : Int) : ℝ) := by
    push_cast
    ring
  dsimp only
  split
  · rename_i hlt
    have hd : diameter width height = width - 2 := by
      refine min_eq_left (Int.cast_le.1 (?_ : ((width - 2 : Int) : ℝ) ≤ _))
      rw [hcast]
      linarith
    rw [hd]
    congr 1 <;> ring
  · rename_i hge
    have hd : diameter width height = 2 * (height - textRows - 2) := by
      refine min_eq_right (Int.cast_le.1 (?_ : _ ≤ ((width - 2 : Int) : ℝ)))
      rw [hcast]
      linarith
    rw [hd, hcast]
    congr 1 <;> ring

theorem column_eq (width height : Int) (u : ℝ) : (ofSize width height).column u =
    Scalar.round ((width / 2 + u * (diameter width height / 2) : ℝ)) := by
  rw [ofSize_eq]
  rfl

theorem row_eq (width height : Int) (v : ℝ) : (ofSize width height).row v =
    Scalar.round (1 + (1 - v) * (diameter width height / 4) : ℝ) := by
  rw [ofSize_eq]
  unfold row
  congr 1
  ring

end Layout

/-! ## Cells of the sphere -/

/-- A cell on the screen that is above the lines of text, and neither in the first row nor in the first column. -/
structure Inside (width height : Int) (stroke : Stroke) : Prop where
  left : 1 ≤ stroke.x
  right : stroke.x ≤ width - 1
  top : 1 ≤ stroke.y
  bottom : stroke.y ≤ height - 7

/-- The text starts below. -/
theorem Inside.above_text {width height : Int} {stroke : Stroke} (h : Inside width height stroke) :
    stroke.y < height - textRows := by
  have hbottom := h.bottom
  unfold textRows
  omega

namespace Layout

variable {width height : Int}

theorem column_mem (hw : 2 ≤ width) (hh : 8 ≤ height) {u : ℝ} (hu : |u| ≤ 1) :
    1 ≤ (ofSize width height).column u ∧ (ofSize width height).column u ≤ width - 1 := by
  obtain ⟨-, hwide, -⟩ := diameter_mem hw hh
  obtain ⟨hleft, hright⟩ := mul_diameter_mem hw hh hu
  rw [column_eq]
  apply Scalar.real_round_mem le_rfl
  · push_cast
    linarith
  · push_cast
    linarith

theorem row_mem (hw : 2 ≤ width) (hh : 8 ≤ height) {v : ℝ} (hv : |v| ≤ 1) :
    1 ≤ (ofSize width height).row v ∧ (ofSize width height).row v ≤ height - 7 := by
  obtain ⟨-, -, hhigh⟩ := diameter_mem hw hh
  obtain ⟨hbottom, htop⟩ := mul_diameter_mem hw hh hv
  rw [row_eq]
  apply Scalar.real_round_mem le_rfl
  · push_cast
    linarith
  · push_cast
    linarith

theorem cell_inside (hw : 2 ≤ width) (hh : 8 ≤ height) {u v : ℝ} (hu : |u| ≤ 1) (hv : |v| ≤ 1) (glyph : Char)
    (style : Style) :
    Inside width height ⟨(ofSize width height).column u, (ofSize width height).row v, glyph, style⟩ := by
  obtain ⟨hleft, hright⟩ := column_mem hw hh hu
  obtain ⟨htop, hbottom⟩ := row_mem hw hh hv
  exact ⟨hleft, hright, htop, hbottom⟩

theorem plot_inside (hw : 2 ≤ width) (hh : 8 ≤ height) {p : Vec3 ℝ} (hp : p.norm ≤ 1) (glyph : Char)
    (style : Style) : Inside width height ((ofSize width height).plot p glyph style) := by
  obtain ⟨hu, hv⟩ := project_le_one hp
  exact cell_inside hw hh hu hv glyph style

theorem norm_equator (θ : ℝ) : Vec3.norm ⟨Real.cos θ, Real.sin θ, 0⟩ = 1 := by
  rw [Vec3.norm_eq, Real.sqrt_eq_one]
  simp

theorem circles_inside (hw : 2 ≤ width) (hh : 8 ≤ height) {stroke : Stroke}
    (h : stroke ∈ (ofSize width height : Layout ℝ).circles) : Inside width height stroke := by
  obtain ⟨i, -, h⟩ := List.mem_flatMap.1 h
  have houtline := cell_inside hw hh (Real.abs_cos_le_one (degree i)) (Real.abs_sin_le_one (degree i)) '.' .gray
  have hequator := plot_inside hw hh (norm_equator (degree i)).le '-' .gray
  simp only [Scalar.real_cos, Scalar.real_sin, Scalar.real_zero] at h
  split at h
  · rcases List.mem_cons.1 h with rfl | h
    · exact houtline
    · rw [List.mem_singleton.1 h]
      exact hequator
  · rw [List.mem_singleton.1 h]
    exact houtline

end Layout

end Canvas

end BlochSphere
