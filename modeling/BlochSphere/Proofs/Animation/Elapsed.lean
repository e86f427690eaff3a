/-
Progress at a time. The time between two readings of a clock is held in a bounded duration, and progress
is the eased share of a request's duration that has passed. In exact arithmetic the bound makes no
difference: progress rises from zero at the start, and it is one exactly when the duration is over.
-/
import BlochSphere.Proofs.Easing
import BlochSphere.Animator

namespace BlochSphere

/-! ## Elapsed time -/

namespace Duration

theorem toInt_saturate (n : Int) : (saturate n).toInt = max least (min greatest n) := by
  unfold saturate
  split
  · rw [Int64.toInt_ofInt_of_le (by decide) (by decide)]
    omega
  split
  · rw [Int64.toInt_ofInt_of_le (by decide) (by decide)]
    simp only [least, greatest] at *
    omega
  · simp only [least, greatest] at *
    rw [Int64.toInt_ofInt_of_le (by omega) (by omega)]
    omega

/-- Below a duration that fits, the time between two readings is exact. -/
theorem toInt_between_of_lt {start stop : Int} {d : Duration} (h : start ≤ stop)
    (hd : stop - start < d.toInt) : (between start stop).toInt = stop - start := by
  have hm := d.toInt_lt
  rw [between, toInt_saturate]
  simp only [least, greatest]
  omega

/-- From a duration on, the time between two readings is at least as long, exact or not. -/
theorem le_toInt_between {start stop : Int} {d : Duration} (hd : d.toInt ≤ stop - start) :
    d.toInt ≤ (between start stop).toInt := by
  have hm := d.toInt_lt
  rw [between, toInt_saturate]
  simp only [least, greatest]
  omega

end Duration

/-! ## Progress -/

namespace Animator

variable {start stop : Int} {d : Duration}

theorem progressAt_of_lt (h : start ≤ stop) (hd : stop - start < d.toInt) :
    (progressAt (Duration.between start stop) d : ℝ) =
      Easing.inOutCubic (((stop - start : ℤ) : ℝ) / (d.toInt : ℝ)) := by
  have hpos : (0 : ℝ) < d.toInt := by exact_mod_cast (by omega : 0 < d.toInt)
  have hx : ((stop - start : ℤ) : ℝ) / (d.toInt : ℝ) < 1 := by
    rw [div_lt_one hpos]
    exact_mod_cast hd
  simp only [progressAt, Duration.toInt_between_of_lt h hd, Scalar.real_one]
  exact if_pos hx

theorem progressAt_of_ge (hpos : 0 < d.toInt) (hd : d.toInt ≤ stop - start) :
    (progressAt (Duration.between start stop) d : ℝ) = 1 := by
  have hpos : (0 : ℝ) < d.toInt := by exact_mod_cast hpos
  have hx : ¬ ((Duration.between start stop).toInt : ℝ) / (d.toInt : ℝ) < 1 := by
    rw [div_lt_one hpos, not_lt]
    exact_mod_cast Duration.le_toInt_between hd
  simp only [progressAt, Scalar.real_one]
  exact if_neg hx

theorem progressAt_start (hpos : 0 < d.toInt) :
    (progressAt (Duration.between start start) d : ℝ) = 0 := by
  rw [progressAt_of_lt le_rfl (by omega), sub_self, Int.cast_zero, zero_div,
    Easing.inOutCubic_of_nonpos le_rfl]

/-- Progress is one exactly when the duration is over, and never more. -/
theorem one_le_progressAt (hpos : 0 < d.toInt) (h : start ≤ stop) :
    1 ≤ (progressAt (Duration.between start stop) d : ℝ) ↔ d.toInt ≤ stop - start := by
  rcases lt_or_ge (stop - start) d.toInt with hd | hd
  · have hx : ((stop - start : ℤ) : ℝ) / (d.toInt : ℝ) < 1 := by
      rw [div_lt_one (by exact_mod_cast hpos)]
      exact_mod_cast hd
    rw [progressAt_of_lt h hd]
    exact ⟨fun h1 => absurd h1 (Easing.inOutCubic_lt_one hx).not_ge, fun h1 => absurd h1 hd.not_ge⟩
  · rw [progressAt_of_ge hpos hd]
    exact ⟨fun _ => hd, fun _ => le_rfl⟩

theorem progressAt_mem (hpos : 0 < d.toInt) (h : start ≤ stop) :
    0 ≤ (progressAt (Duration.between start stop) d : ℝ) ∧
      (progressAt (Duration.between start stop) d : ℝ) ≤ 1 := by
  rcases lt_or_ge (stop - start) d.toInt with hd | hd
  · rw [progressAt_of_lt h hd]
    exact ⟨Easing.inOutCubic_nonneg _, Easing.inOutCubic_le_one _⟩
  · rw [progressAt_of_ge hpos hd]
    exact ⟨zero_le_one, le_rfl⟩

theorem progressAt_mono {later : Int} (hpos : 0 < d.toInt) (h : start ≤ stop) (hl : stop ≤ later) :
    (progressAt (Duration.between start stop) d : ℝ) ≤ progressAt (Duration.between start later) d := by
  rcases lt_or_ge (later - start) d.toInt with hd | hd
  · rw [progressAt_of_lt h (by omega), progressAt_of_lt (h.trans hl) hd]
    apply Easing.inOutCubic_mono
    gcongr
  · rw [progressAt_of_ge hpos hd]
    exact (progressAt_mem hpos h).2

end Animator

end BlochSphere
