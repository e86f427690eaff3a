/-
The names of states around the sphere. The layout has room for the sphere itself, and names are placed outside of
it, so the larger the sphere is the further a name is from its pole. In exact arithmetic the names of the two
states on the equator are always above the text. The name at the upper pole leaves the screen when the sphere is
wider than 74 columns, and the one at the lower pole gets into the text already on a screen of 21 rows, unless the
width keeps the sphere small.
-/
import BlochSphere.Proofs.Canvas.Layout

namespace BlochSphere.Canvas

/-! ## Named states -/

/-- The states whose names are shown. -/
inductive Named where
  | ket0
  | ket1
  | plus
  | i

namespace Named

/-- Where the name of a state is placed. -/
def place {α : Type} [Scalar α] : Named → Vec3 α
  | ket0 => ⟨0, 0, 1.15⟩
  | ket1 => ⟨0, 0, -1.15⟩
  | plus => ⟨1.15, 0, 0⟩
  | i => ⟨0, 1.15, 0⟩

def name : Named → String
  | ket0 => "|0⟩"
  | ket1 => "|1⟩"
  | plus => "|+⟩"
  | i => "|i⟩"

end Named

theorem Layout.labels_eq {α : Type} [Scalar α] (l : Layout α) :
    l.labels = [Named.ket0, .ket1, .plus, .i].flatMap fun s => l.label s.place s.name := by
  simp only [List.flatMap_cons, List.flatMap_nil, List.append_nil, labels, List.append_assoc]
  rfl

/-- The first stroke of a name. -/
def Layout.start {α : Type} [Scalar α] (l : Layout α) (s : Named) : Option Stroke :=
  (l.label s.place s.name).head?

theorem Layout.start_eq {α : Type} [Scalar α] (l : Layout α) (s : Named) : l.start s =
    some ⟨l.column (project s.place).u, l.row (project s.place).v, '|', .teal⟩ := by
  cases s <;> simp [start, label, text, Named.name]

/-- The name of a state starts on the screen and above the text. -/
def Layout.Shows (l : Layout ℝ) (height : Int) (s : Named) : Prop :=
  ∃ stroke, l.start s = some stroke ∧ 0 ≤ stroke.y ∧ stroke.y ≤ height - 7

theorem Layout.shows_iff {l : Layout ℝ} {height : Int} {s : Named} : l.Shows height s ↔
    0 ≤ l.row (project s.place).v ∧ l.row (project s.place).v ≤ height - 7 := by
  unfold Shows
  rw [start_eq]
  constructor
  · rintro ⟨stroke, hs, h⟩
    cases hs
    exact h
  · exact fun h => ⟨_, rfl, h⟩

/-! ## How far out names are -/

/-- The height of a name at a pole over the centre of the sphere, in radii. -/
noncomputable def reach : ℝ := 1.15 * Real.cos (Real.pi / 9)

/-- The cosine of a third of the angle whose cosine is a half. -/
theorem cos_pi_div_nine_cubic :
    4 * Real.cos (Real.pi / 9) ^ 3 - 3 * Real.cos (Real.pi / 9) = 1 / 2 := by
  rw [← Real.cos_three_mul, ← Real.cos_pi_div_three]
  congr 1
  ring

theorem half_le_cos_pi_div_nine : 1 / 2 ≤ Real.cos (Real.pi / 9) := by
  have hpi := Real.pi_pos
  rw [← Real.cos_pi_div_three]
  exact Real.cos_le_cos_of_nonneg_of_le_pi (by positivity) (by linarith) (by linarith)

theorem cubic_le {x y : ℝ} (hx : 1 / 2 ≤ x) (h : x ≤ y) : 4 * x ^ 3 - 3 * x ≤ 4 * y ^ 3 - 3 * y := by
  have hslope : 0 ≤ 4 * (y ^ 2 + y * x + x ^ 2) - 3 := by nlinarith
  have hdiff : 4 * y ^ 3 - 3 * y - (4 * x ^ 3 - 3 * x) = (y - x) * (4 * (y ^ 2 + y * x + x ^ 2) - 3) := by ring
  have hrise := mul_nonneg (sub_nonneg.2 h) hslope
  linarith

theorem reach_mem : 1.08 < reach ∧ reach < 1.081 := by
  have hcubic := cos_pi_div_nine_cubic
  have hhalf := half_le_cos_pi_div_nine
  unfold reach
  constructor
  · by_contra hlow
    have hle := cubic_le hhalf (show Real.cos (Real.pi / 9) ≤ 0.9392 by linarith)
    rw [hcubic] at hle
    norm_num at hle
  · by_contra hhigh
    have hle := cubic_le (by norm_num) (show 0.94 ≤ Real.cos (Real.pi / 9) by linarith)
    rw [hcubic] at hle
    norm_num at hle

theorem project_ket0 : (project (Named.ket0.place : Vec3 ℝ)).v = reach := by
  rw [project_v]
  simp [Named.place, reach]

theorem project_ket1 : (project (Named.ket1.place : Vec3 ℝ)).v = -reach := by
  rw [project_v]
  simp [Named.place, reach]

theorem abs_sin_pi_div_nine_le : |Real.sin (Real.pi / 9)| ≤ 1 / 2 := by
  have hpi := Real.pi_pos
  have hnonneg : 0 ≤ Real.sin (Real.pi / 9) := Real.sin_nonneg_of_nonneg_of_le_pi (by positivity) (by linarith)
  rw [abs_of_nonneg hnonneg, ← Real.sin_pi_div_six]
  exact Real.sin_le_sin_of_le_of_le_pi_div_two (by linarith) (by linarith) (by linarith)

/-- The camera is not raised enough to see a name on the equator outside the outline. -/
theorem abs_project_equator_le {s : Named} (hs : s = .plus ∨ s = .i) :
    |(project (s.place : Vec3 ℝ)).v| ≤ 1 := by
  have seen {c : ℝ} (hc : |c| ≤ 1) : |-(1.15 * c * Real.sin (Real.pi / 9))| ≤ 1 := by
    rw [abs_neg, abs_mul, abs_mul, abs_of_pos (show (0 : ℝ) < 1.15 by norm_num)]
    have hsin := abs_sin_pi_div_nine_le
    nlinarith [abs_nonneg c, abs_nonneg (Real.sin (Real.pi / 9))]
  rw [project_v]
  rcases hs with rfl | rfl
  · simpa [Named.place] using seen (Real.abs_cos_le_one (Real.pi / 6))
  · simpa [Named.place] using seen (Real.abs_sin_le_one (Real.pi / 6))

/-! ## Which names are shown -/

namespace Layout

variable {width height : Int}

theorem shows_equator (hw : 2 ≤ width) (hh : 8 ≤ height) {s : Named} (hs : s = .plus ∨ s = .i) :
    (ofSize width height).Shows height s := by
  obtain ⟨htop, hbottom⟩ := row_mem hw hh (abs_project_equator_le hs)
  exact shows_iff.2 ⟨by omega, hbottom⟩

/-- The name at the upper pole is never too far below. -/
theorem row_ket0_le (hw : 2 ≤ width) (hh : 8 ≤ height) :
    (ofSize width height : Layout ℝ).row (project Named.ket0.place).v ≤ height - 7 := by
  have hlow := reach_mem.1
  have hd := (diameter_mem hw hh).1
  have hh' : (8 : ℝ) ≤ height := by exact_mod_cast hh
  rw [project_ket0, row_eq, Scalar.real_round_le_iff (by omega)]
  push_cast
  nlinarith

/-- The name at the lower pole is never above the screen. -/
theorem row_ket1_nonneg (hw : 2 ≤ width) (hh : 8 ≤ height) :
    0 ≤ (ofSize width height : Layout ℝ).row (project Named.ket1.place).v := by
  have hlow := reach_mem.1
  have hd := (diameter_mem hw hh).1
  rw [project_ket1, row_eq, Scalar.real_round_nonneg_iff]
  nlinarith

theorem shows_ket0_iff (hw : 2 ≤ width) (hh : 8 ≤ height) :
    (ofSize width height).Shows height .ket0 ↔ diameter width height ≤ 74 := by
  obtain ⟨hlow, hhigh⟩ := reach_mem
  have hd := (diameter_mem hw hh).1
  rw [shows_iff, and_iff_left (row_ket0_le hw hh), project_ket0, row_eq, Scalar.real_round_nonneg_iff]
  constructor
  · intro htop
    by_contra hlarge
    have hlarge' : (75 : ℝ) ≤ diameter width height := by exact_mod_cast Int.add_one_le_iff.2 (not_le.1 hlarge)
    nlinarith
  · intro hsmall
    have hsmall' : (diameter width height : ℝ) ≤ 74 := by exact_mod_cast hsmall
    nlinarith

theorem shows_ket1_iff (hw : 2 ≤ width) (hh : 8 ≤ height) :
    (ofSize width height).Shows height .ket1 ↔ (1 + reach) * diameter width height < 4 * height - 30 := by
  rw [shows_iff, and_iff_right (row_ket1_nonneg hw hh), project_ket1, row_eq, Scalar.real_round_le_iff (by omega)]
  push_cast
  constructor <;> intro h <;> linarith

theorem start_ket0_of_not_shows (hw : 2 ≤ width) (hh : 8 ≤ height)
    (h : ¬ (ofSize width height).Shows height .ket0) :
    ∃ stroke, (ofSize width height : Layout ℝ).start .ket0 = some stroke ∧ stroke.y < 0 := by
  rw [shows_iff, and_iff_left (row_ket0_le hw hh), not_le] at h
  exact ⟨_, start_eq _ _, h⟩

theorem start_ket1_of_not_shows (hw : 2 ≤ width) (hh : 8 ≤ height)
    (h : ¬ (ofSize width height).Shows height .ket1) :
    ∃ stroke, (ofSize width height : Layout ℝ).start .ket1 = some stroke ∧ height - textRows ≤ stroke.y := by
  rw [shows_iff, and_iff_right (row_ket1_nonneg hw hh), not_le] at h
  refine ⟨_, start_eq _ _, ?_⟩
  dsimp only [textRows]
  omega

/-- Where the height is the limit, the name at the lower pole is clear of the text on up to 20 rows. -/
theorem shows_ket1_iff_of_wide (hw : 2 ≤ width) (hh : 8 ≤ height) (hwide : 2 * (height - 8) ≤ width - 2) :
    (ofSize width height).Shows height .ket1 ↔ height ≤ 20 := by
  obtain ⟨hlow, hhigh⟩ := reach_mem
  have hd : (diameter width height : ℝ) = 2 * (height - 8) := by
    have hd : diameter width height = 2 * (height - 8) := by
      unfold diameter textRows
      omega
    rw [hd]
    push_cast
    ring
  have hh' : (8 : ℝ) ≤ height := by exact_mod_cast hh
  rw [shows_ket1_iff hw hh, hd]
  constructor
  · intro hroom
    by_contra hlarge
    have hlarge' : (21 : ℝ) ≤ height := by exact_mod_cast (show 21 ≤ height by omega)
    nlinarith
  · intro hsmall
    have hsmall' : (height : ℝ) ≤ 20 := by exact_mod_cast hsmall
    nlinarith

/-- On up to 20 rows there is room for all names. -/
theorem shows_of_low (hw : 2 ≤ width) (hh : 8 ≤ height) (hlow : height ≤ 20) (s : Named) :
    (ofSize width height).Shows height s := by
  obtain ⟨hd, -, hhigh⟩ := diameter_mem hw hh
  have hlow' : (height : ℝ) ≤ 20 := by exact_mod_cast hlow
  cases s with
  | ket0 =>
    have hsmall : (diameter width height : ℝ) ≤ 74 := by linarith
    exact (shows_ket0_iff hw hh).2 (by exact_mod_cast hsmall)
  | ket1 =>
    have hreach := reach_mem
    rw [shows_ket1_iff hw hh]
    nlinarith
  | plus => exact shows_equator hw hh (.inl rfl)
  | i => exact shows_equator hw hh (.inr rfl)

/-- Which names start on the screen and above the text. Those on the equator always do. The one at the upper pole
does if the sphere is at most 74 columns wide, else it starts above the screen. The one at the lower pole does if
the screen has the rows for it, else it starts in the text or below; where the width is no limit, the rows are
enough up to 20. So all names do on up to 20 rows. -/
theorem names_clear_of_text (width height : Int) (hw : 2 ≤ width) (hh : 8 ≤ height) :
    let l : Layout ℝ := .ofSize width height
    let d := min (width - 2) (2 * (height - 8))
    l.labels = [Named.ket0, .ket1, .plus, .i].flatMap (fun s => l.label s.place s.name) ∧
    (l.Shows height .ket0 ↔ d ≤ 74) ∧
    (74 < d → ∃ stroke, l.start .ket0 = some stroke ∧ stroke.y < 0) ∧
    (l.Shows height .ket1 ↔ (1 + 1.15 * Real.cos (Real.pi / 9)) * d < 4 * height - 30) ∧
    (4 * height - 30 ≤ (1 + 1.15 * Real.cos (Real.pi / 9)) * d →
      ∃ stroke, l.start .ket1 = some stroke ∧ height - textRows ≤ stroke.y) ∧
    l.Shows height .plus ∧ l.Shows height .i ∧
    (2 * (height - 8) ≤ width - 2 → (l.Shows height .ket1 ↔ height ≤ 20)) ∧
    (height ≤ 20 → ∀ s, l.Shows height s) := by
  intro l d
  have hd : diameter width height = d := by
    show min (width - 2) (2 * (height - 6 - 2)) = min (width - 2) (2 * (height - 8))
    rw [sub_sub]
    rfl
  have hket0 : l.Shows height .ket0 ↔ d ≤ 74 := by
    rw [← hd]
    exact shows_ket0_iff hw hh
  have hket1 : l.Shows height .ket1 ↔ (1 + 1.15 * Real.cos (Real.pi / 9)) * d < 4 * height - 30 := by
    rw [← hd]
    exact shows_ket1_iff hw hh
  refine ⟨l.labels_eq, hket0, fun h => ?_, hket1, fun h => ?_, shows_equator hw hh (.inl rfl),
    shows_equator hw hh (.inr rfl), shows_ket1_iff_of_wide hw hh, shows_of_low hw hh⟩
  · exact start_ket0_of_not_shows hw hh (hket0.not.2 (not_le.2 h))
  · exact start_ket1_of_not_shows hw hh (hket1.not.2 (not_lt.2 h))

/-- A screen with the most rows that have room for all names. -/
theorem names_clear_of_text_on_twenty_rows :
    (2 : Int) ≤ 60 ∧ (8 : Int) ≤ 20 ∧ 2 * ((20 : Int) - 8) ≤ 60 - 2 ∧
    (∀ s, (ofSize 60 20 : Layout ℝ).Shows 20 s) ∧ ¬ (ofSize 60 21 : Layout ℝ).Shows 21 .ket1 := by
  obtain ⟨-, -, -, -, -, -, -, -, hall⟩ := names_clear_of_text 60 20 (by decide) (by decide)
  obtain ⟨-, -, -, -, -, -, -, hket1, -⟩ := names_clear_of_text 60 21 (by decide) (by decide)
  refine ⟨by decide, by decide, by decide, hall (by decide), fun h => ?_⟩
  exact absurd ((hket1 (by decide)).1 h) (by decide)

/-- On a common screen of 80 columns and 24 rows the name at the lower pole starts in the first line of text, and
on one of 120 columns and 60 rows the name at the upper pole is above the screen. -/
theorem name_starts_in_text :
    ((ofSize 80 24 : Layout ℝ).start .ket1).map Stroke.y = some (24 - textRows) ∧
    ¬ (ofSize 80 24 : Layout ℝ).Shows 24 .ket1 ∧
    ((ofSize 120 60 : Layout ℝ).start .ket0).map Stroke.y = some (-1) ∧
    ¬ (ofSize 120 60 : Layout ℝ).Shows 60 .ket0 := by
  obtain ⟨hlow, hhigh⟩ := reach_mem
  have hd24 : diameter 80 24 = 32 := by decide
  have hd60 : diameter 120 60 = 104 := by decide
  have hket1 : (ofSize 80 24 : Layout ℝ).row (project Named.ket1.place).v = 24 - textRows := by
    rw [row_eq, project_ket1, hd24, Scalar.real_round, if_neg (by norm_num; linarith), Int.floor_eq_iff]
    norm_num [textRows]
    constructor <;> linarith
  have hket0 : (ofSize 120 60 : Layout ℝ).row (project Named.ket0.place).v = -1 := by
    rw [row_eq, project_ket0, hd60, Scalar.real_round, if_pos (by norm_num; linarith), neg_inj, Int.floor_eq_iff]
    norm_num
    constructor <;> linarith
  refine ⟨?_, ?_, ?_, ?_⟩
  · rw [start_eq, Option.map_some, hket1]
  · rw [shows_iff, hket1]
    decide
  · rw [start_eq, Option.map_some, hket0]
  · rw [shows_iff, hket0]
    decide

end Layout

end BlochSphere.Canvas
