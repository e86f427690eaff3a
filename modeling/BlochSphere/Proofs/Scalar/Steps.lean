/-
The steps of a path. Progress along a path of `n` steps is cut at `i / n`, and the cuts lead from zero to
one without meeting, in exact arithmetic and in double precision, where each of them is rounded.
-/
import BlochSphere.Proofs.Scalar.Value

namespace BlochSphere

/-- Where step `i` of a path of `n` steps ends, as a progress. -/
def Scalar.step {α : Type} [Scalar α] (i n : Nat) : α := Scalar.ofInt i / Scalar.ofInt n

/-- A scalar in which the ends of steps are in order and can be told apart, and in which nothing but the
end of a step equals it, the first one apart. -/
class LawfulSteps (α : Type) [Scalar α] : Prop where
  one_beq_zero : ((1 : α) == 0) = false
  step_zero : ∀ n : Nat, 0 < n → n < 2 ^ 53 → (Scalar.step 0 n : α) = 0
  step_self : ∀ n : Nat, 0 < n → n < 2 ^ 53 → (Scalar.step n n : α) = 1
  step_lt : ∀ i j n : Nat, i < j → j ≤ n → n < 2 ^ 53 → (Scalar.step i n : α) < Scalar.step j n
  inner_beq : ∀ i n : Nat, 0 < i → i < n → n < 2 ^ 53 →
    ((Scalar.step i n : α) == 0) = false ∧ ((Scalar.step i n : α) == 1) = false
  eq_of_beq_step : ∀ (t : α) (i n : Nat), 0 < i → i ≤ n → n < 2 ^ 53 →
    (t == Scalar.step i n) = true → t = Scalar.step i n

/-! ## Exact arithmetic -/

theorem Scalar.real_step (i n : Nat) : (Scalar.step i n : ℝ) = i / n := by
  show ((i : Int) : ℝ) / ((n : Int) : ℝ) = i / n
  rw [Int.cast_natCast, Int.cast_natCast]

instance LawfulSteps.real : LawfulSteps ℝ where
  one_beq_zero := by
    rw [Bool.eq_false_iff]
    simp
  step_zero n h0 h := by simp [Scalar.real_step]
  step_self n h0 h := by
    have hn : (n : ℝ) ≠ 0 := by positivity
    simp [Scalar.real_step, hn]
  step_lt i j n hij hj hn := by
    have h0 : (0 : ℝ) < n := by exact_mod_cast (by omega : 0 < n)
    rw [Scalar.real_step, Scalar.real_step]
    gcongr
  inner_beq i n hi hn h := by
    have hi' : (0 : ℝ) < i := by exact_mod_cast hi
    have hn' : (i : ℝ) < n := by exact_mod_cast hn
    simp only [Bool.eq_false_iff, ne_eq, Scalar.real_beq, Scalar.real_step, Scalar.real_zero, Scalar.real_one]
    constructor
    · exact (div_pos hi' (hi'.trans hn')).ne'
    · rw [div_eq_one_iff_eq (hi'.trans hn').ne']
      exact hn'.ne
  eq_of_beq_step t i n _ _ _ h := (Scalar.real_beq _ _).1 h

/-! ## Double precision -/

namespace Binary64

variable {i j n : ℕ}

/-- In the unit interval rounding moves a number by `2 ^ -54` at most. -/
theorem abs_nearest_sub_le_of_le_one {x : ℚ} (h0 : 0 ≤ x) (h1 : x ≤ 1) : |nearest x - x| ≤ 2 ^ (-54 : ℤ) := by
  rcases h1.eq_or_lt with rfl | h1
  · have h := nearest_natCast (show 1 < 2 ^ 53 by decide)
    rw [Nat.cast_one] at h
    rw [h, sub_self, abs_zero]
    positivity
  · rcases h0.eq_or_lt with rfl | h0
    · rw [nearest_zero, sub_self, abs_zero]
      positivity
    · have hlog := (Int.lt_zpow_iff_log_lt (b := 2) one_lt_two (x := 0) h0).1 (by rwa [zpow_zero])
      have hgrid : grid x ≤ -53 := by
        unfold grid
        omega
      calc |nearest x - x| ≤ 2 ^ grid x / 2 := abs_nearest_sub_le h0.le
        _ ≤ 2 ^ (-53 : ℤ) / 2 := by
          gcongr
          exact one_le_two
        _ = 2 ^ (-54 : ℤ) := by norm_num

theorem nearest_div_lt (hij : i < j) (hj : j ≤ n) (hn : n < 2 ^ 53) :
    nearest ((i : ℚ) / n) < nearest ((j : ℚ) / n) := by
  have h0 : (0 : ℚ) < n := by exact_mod_cast (by omega : 0 < n)
  have hunit : ∀ k : ℕ, k ≤ n → |nearest ((k : ℚ) / n) - k / n| ≤ 2 ^ (-54 : ℤ) := by
    intro k hk
    refine abs_nearest_sub_le_of_le_one (by positivity) ?_
    rw [div_le_one h0]
    exact_mod_cast hk
  have hi := abs_le.1 (hunit i (by omega))
  have hj := abs_le.1 (hunit j hj)
  -- the ends are further apart than two roundings reach
  have hgap : (i : ℚ) / n + 1 / n ≤ j / n := by
    rw [← add_div]
    gcongr
    exact_mod_cast hij
  have hstep : (2 : ℚ) ^ (-53 : ℤ) < 1 / n := by
    rw [zpow_neg, ← one_div]
    gcongr
    exact_mod_cast hn
  have hhalf : (2 : ℚ) ^ (-54 : ℤ) + 2 ^ (-54 : ℤ) = 2 ^ (-53 : ℤ) := by norm_num
  linarith [hi.2, hj.1]

theorem div_lt_bound (hi : i ≤ n) : (i : ℚ) / n < 2 ^ (1023 : ℤ) := by
  have h1 : (i : ℚ) / n ≤ 1 := by
    rcases Nat.eq_zero_or_pos n with rfl | h0
    · simp
    · rw [div_le_one (by exact_mod_cast h0)]
      exact_mod_cast hi
  exact lt_of_le_of_lt h1 (one_lt_zpow₀ one_lt_two (by decide))

/-- The end of a step is the quotient, rounded. -/
theorem denotes_step (hi : i ≤ n) (h0 : 0 < n) (hn : n < 2 ^ 53) :
    Denotes (Scalar.step i n) (nearest ((i : ℚ) / n)) :=
  (denotes_ofInt (by omega)).div (denotes_ofInt hn) (by exact_mod_cast h0) (div_lt_bound hi)

theorem nearest_div_self (h0 : 0 < n) : nearest ((n : ℚ) / n) = 1 := by
  have h1 := nearest_natCast (show 1 < 2 ^ 53 by decide)
  rw [Nat.cast_one] at h1
  rw [div_self (by exact_mod_cast h0.ne'), h1]

theorem nearest_div_pos (hi : 0 < i) (hin : i ≤ n) (hn : n < 2 ^ 53) : 0 < nearest ((i : ℚ) / n) := by
  have h := nearest_div_lt hi hin hn
  rwa [Nat.cast_zero, zero_div, nearest_zero] at h

theorem nearest_div_lt_one (hin : i < n) (hn : n < 2 ^ 53) : nearest ((i : ℚ) / n) < 1 := by
  have h := nearest_div_lt hin le_rfl hn
  rwa [nearest_div_self (by omega)] at h

instance : LawfulSteps Float where
  one_beq_zero := rfl
  step_zero n h0 h := by
    have hd := denotes_step (Nat.zero_le n) h0 h
    rw [Nat.cast_zero, zero_div, nearest_zero] at hd
    exact hd.eq denotes_zero
  step_self n h0 h := by
    have hd := denotes_step le_rfl h0 h
    rw [nearest_div_self h0] at hd
    exact hd.eq denotes_one
  step_lt i j n hij hj hn := by
    rw [(denotes_step (by omega) (by omega) hn).lt_iff (denotes_step hj (by omega) hn)]
    exact nearest_div_lt hij hj hn
  inner_beq i n hi hin hn := by
    have hd := denotes_step hin.le (by omega) hn
    constructor
    · rw [Bool.eq_false_iff, ne_eq, hd.beq_iff denotes_zero]
      exact (nearest_div_pos hi hin.le hn).ne'
    · rw [Bool.eq_false_iff, ne_eq, hd.beq_iff denotes_one]
      exact (nearest_div_lt_one hin hn).ne
  eq_of_beq_step t i n hi hin hn h :=
    (denotes_step hin (by omega) hn).eq_of_beq (nearest_div_pos hi hin hn) h

end Binary64

end BlochSphere
