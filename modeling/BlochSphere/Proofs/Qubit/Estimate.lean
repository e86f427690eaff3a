/-
What the estimates of a histogram are. Over draws that are independent and uniform on the unit
interval, a state is expected to measure zero in the share of the shots that its probability of zero
has in its norm. The estimates leave the norm out: they are the expected counts times the norm, which
is the same for a normalised state and for no other.
-/
import BlochSphere.Proofs.Bloch
import BlochSphere.Proofs.Qubit.Sample

namespace BlochSphere

open MeasureTheory

/-! ## Uniform draws -/

/-- The uniform distribution on the half-open unit interval. -/
noncomputable def unitUniform : Measure ℝ := volume.restrict (Set.Ico 0 1)

instance : IsProbabilityMeasure unitUniform := by
  refine ⟨?_⟩
  rw [unitUniform, Measure.restrict_apply_univ, Real.volume_Ico, sub_zero, ENNReal.ofReal_one]

/-- The distribution of `n` independent uniform draws. -/
noncomputable def uniformDraws (n : ℕ) : Measure (Fin n → ℝ) := Measure.pi fun _ => unitUniform

theorem unitUniform_Iic {c : ℝ} (h0 : 0 ≤ c) (h1 : c ≤ 1) : unitUniform.real (Set.Iic c) = c := by
  have hs : Set.Iic c ∩ Set.Icc 0 1 = Set.Icc 0 c := by
    ext u
    simp only [Set.mem_inter_iff, Set.mem_Iic, Set.mem_Icc]
    constructor
    · rintro ⟨hc, hu, -⟩
      exact ⟨hu, hc⟩
    · rintro ⟨hu, hc⟩
      exact ⟨hc, hu, hc.trans h1⟩
  rw [unitUniform, Measure.restrict_congr_set Ico_ae_eq_Icc, Measure.real,
    Measure.restrict_apply measurableSet_Iic, hs, Real.volume_Icc, sub_zero, ENNReal.toReal_ofReal h0]

theorem countP_ofFn (p : ℝ → Bool) (n : ℕ) (u : Fin n → ℝ) :
    ((List.ofFn u).countP p : ℝ) = ∑ i, Set.indicator {x | p x = true} 1 (u i) := by
  induction n with
  | zero => simp
  | succ n ih =>
    rw [List.ofFn_succ, List.countP_cons, Fin.sum_univ_succ, Nat.cast_add, ih, add_comm]
    congr 1
    by_cases h : p (u 0) <;> simp [h]

/-- The expected number of draws with some property is the number of draws times its probability. -/
theorem expected_countP {p : ℝ → Bool} (hp : MeasurableSet {x | p x = true}) (n : ℕ) :
    ∫ u, ((List.ofFn u).countP p : ℝ) ∂uniformDraws n = n * unitUniform.real {x | p x = true} := by
  have hi : Integrable (Set.indicator {x | p x = true} (1 : ℝ → ℝ)) unitUniform :=
    (integrable_const 1).indicator hp
  have he : ∀ i : Fin n, ∫ u, Set.indicator {x | p x = true} (1 : ℝ → ℝ) (u i) ∂uniformDraws n =
      unitUniform.real {x | p x = true} := by
    intro i
    rw [uniformDraws, integral_comp_eval hi.aestronglyMeasurable, integral_indicator_one hp]
  simp only [countP_ofFn]
  rw [integral_finsetSum]
  · simp only [he, Finset.sum_const, Finset.card_univ, Fintype.card_fin, nsmul_eq_mul]
  · exact fun i _ => integrable_comp_eval hi

/-! ## Expected counts and estimates -/

namespace Qubit

/-- How many of `n` independent uniform draws are expected to measure zero. -/
noncomputable def expectedZeros (q : Qubit ℝ) (n : ℕ) : ℝ :=
  ∫ u, ((List.ofFn u).countP q.measuresZero : ℝ) ∂uniformDraws n

/-- How many of `n` independent uniform draws are expected to measure one. -/
noncomputable def expectedOnes (q : Qubit ℝ) (n : ℕ) : ℝ :=
  ∫ u, ((List.ofFn u).countP (fun x => !q.measuresZero x) : ℝ) ∂uniformDraws n

variable {q : Qubit ℝ}

theorem p0_nonneg (q : Qubit ℝ) : 0 ≤ q.p0 := mul_self_nonneg _

theorem p1_nonneg (q : Qubit ℝ) : 0 ≤ q.p1 := mul_self_nonneg _

theorem norm_pos (hq : q.norm ≠ 0) : 0 < q.norm :=
  lt_of_le_of_ne (add_nonneg q.p0_nonneg q.p1_nonneg) hq.symm

/-- A draw measures zero up to the share of the probability of zero in the norm. -/
theorem setOf_measuresZero (hq : q.norm ≠ 0) :
    {u | q.measuresZero u = true} = Set.Iic (q.p0 / q.norm) := by
  ext u
  rw [Set.mem_ofPred_eq, measuresZero, decide_eq_true_iff, Set.mem_Iic, le_div_iff₀ (norm_pos hq)]

theorem measurableSet_measuresZero (hq : q.norm ≠ 0) : MeasurableSet {u | q.measuresZero u = true} :=
  setOf_measuresZero hq ▸ measurableSet_Iic

theorem setOf_not_measuresZero (q : Qubit ℝ) :
    {u | (!q.measuresZero u) = true} = {u | q.measuresZero u = true}ᶜ := by
  ext u
  simp

theorem expectedZeros_eq (hq : q.norm ≠ 0) (n : ℕ) : q.expectedZeros n = n * q.p0 / q.norm := by
  have hle : q.p0 / q.norm ≤ 1 := (div_le_one (norm_pos hq)).2 (le_add_of_nonneg_right q.p1_nonneg)
  rw [expectedZeros, expected_countP (measurableSet_measuresZero hq), setOf_measuresZero hq,
    unitUniform_Iic (div_nonneg q.p0_nonneg (norm_pos hq).le) hle, mul_div_assoc]

theorem expectedOnes_eq (hq : q.norm ≠ 0) (n : ℕ) : q.expectedOnes n = n * q.p1 / q.norm := by
  have hz := expectedZeros_eq hq n
  have hm := measurableSet_measuresZero hq
  have hm' : MeasurableSet {u | (!q.measuresZero u) = true} := q.setOf_not_measuresZero ▸ hm.compl
  have hp1 : q.p1 = q.norm - q.p0 := (add_sub_cancel_left q.p0 q.p1).symm
  rw [expectedZeros, expected_countP hm] at hz
  rw [expectedOnes, expected_countP hm', setOf_not_measuresZero, probReal_compl_eq_one_sub hm, mul_sub, hz,
    hp1]
  field_simp

theorem norm_beq_zero (hq : q.norm ≠ 0) :
    (q.norm == @OfNat.ofNat ℝ 0 (Scalar.instOfNat 0)) = false := by
  rw [Bool.eq_false_iff, Ne, Scalar.real_beq, Scalar.real_zero]
  exact hq

variable {σ : Type} [RandomSource σ]

theorem estimates_sample (hq : q.norm ≠ 0) (shots : ℕ) (source : σ) :
    (q.sample shots source).1.estimates = (q.p0 * shots, q.p1 * shots) := by
  rw [sample_eq (norm_beq_zero hq)]
  simp only [Histogram.estimates]
  rfl

/-- Sampling a state with a norm counts the draws that measure zero and those that measure one. Its
estimates are the numbers of these expected of uniform draws, times the norm. So they add up to the
norm times the shots, where the counts and the expected counts add up to the shots, and they are the
expected counts just when the norm is one or there are no shots. -/
theorem estimates_scale_expected_counts (q : Qubit ℝ) (hq : q.norm ≠ 0) (shots : ℕ) (source : σ) :
    let h := (q.sample shots source).1
    let us : List ℝ := (RandomSource.draws shots source).1.map Random.unit
    (h.zero = us.countP q.measuresZero ∧ h.one = us.countP fun u => !q.measuresZero u) ∧
    (q.expectedZeros shots = shots * q.p0 / q.norm ∧ q.expectedOnes shots = shots * q.p1 / q.norm) ∧
    h.zero + h.one = shots ∧ q.expectedZeros shots + q.expectedOnes shots = shots ∧
    h.estimates = (q.norm * q.expectedZeros shots, q.norm * q.expectedOnes shots) ∧
    h.estimates.1 + h.estimates.2 = q.norm * shots ∧
    (h.estimates = (q.expectedZeros shots, q.expectedOnes shots) ↔ q.norm = 1 ∨ shots = 0) := by
  intro h us
  have hs : h = _ := congrArg Prod.fst (sample_eq (norm_beq_zero hq) shots source)
  have hnorm : q.p0 + q.p1 = q.norm := rfl
  have h0 := expectedZeros_eq hq shots
  have h1 := expectedOnes_eq hq shots
  have hadd : q.expectedZeros shots + q.expectedOnes shots = shots := by
    rw [h0, h1, ← add_div, ← mul_add, hnorm, mul_div_cancel_right₀ _ hq]
  have hest : h.estimates = (q.norm * q.expectedZeros shots, q.norm * q.expectedOnes shots) := by
    rw [estimates_sample hq, h0, h1, mul_div_cancel₀ _ hq, mul_div_cancel₀ _ hq, mul_comm q.p0,
      mul_comm q.p1]
  refine ⟨?_, ⟨h0, h1⟩, ?_, hadd, hest, ?_, ?_⟩
  · rw [hs, List.countP_map, List.countP_map]
    exact ⟨rfl, rfl⟩
  · rw [hs]
    simp only [zeros_add_ones, RandomSource.length_draws, Int.toNat_natCast]
  · rw [hest, ← mul_add, hadd]
  · rw [hest, Prod.mk.injEq]
    constructor
    · rintro ⟨he0, he1⟩
      have hs : q.norm * (shots : ℝ) = shots := by
        rw [← hadd, mul_add, he0, he1]
      by_cases hn : shots = 0
      · exact .inr hn
      · exact .inl ((mul_eq_right₀ (Nat.cast_ne_zero.2 hn)).1 hs)
    · rintro (hn | rfl)
      · rw [hn, one_mul, one_mul]
        exact ⟨rfl, rfl⟩
      · rw [h0, h1]
        simp

/-- The state `2 |0⟩` has norm four, all of it for zero. -/
theorem probabilities_two_ket0 :
    let q : Qubit ℝ := ⟨⟨2, 0⟩, ⟨0, 0⟩⟩
    q.p0 = 4 ∧ q.p1 = 0 ∧ q.norm = 4 := by
  simp only [norm, p0_eq, p1_eq]
  norm_num

/-- Ten shots of the state `2 |0⟩` are expected to give ten zeros, and are estimated at forty. -/
theorem estimates_scale_expected_counts_of_two_ket0 :
    let q : Qubit ℝ := ⟨⟨2, 0⟩, ⟨0, 0⟩⟩
    let h := (q.sample (10 : ℕ) (Random.Pcg.mk 1 2)).1
    q.norm ≠ 0 ∧ q.expectedZeros 10 = 10 ∧ q.expectedOnes 10 = 0 ∧ h.estimates = (40, 0) := by
  intro q h
  obtain ⟨h0, h1, hn⟩ : q.p0 = 4 ∧ q.p1 = 0 ∧ q.norm = 4 := probabilities_two_ket0
  have hq : q.norm ≠ 0 := by
    rw [hn]
    norm_num
  obtain ⟨-, ⟨hz, ho⟩, -, -, hest, -⟩ := estimates_scale_expected_counts q hq 10 (Random.Pcg.mk 1 2)
  rw [h0, hn] at hz
  rw [h1, hn] at ho
  norm_num at hz ho
  refine ⟨hq, hz, ho, ?_⟩
  rw [hest, hz, ho, hn]
  norm_num

/-- Estimates are not the shares of the probabilities in the norm: not those of `2 |0⟩`. -/
theorem estimates_ignore_norm :
    let q : Qubit ℝ := ⟨⟨2, 0⟩, ⟨0, 0⟩⟩
    (q.sample (10 : ℕ) (Random.Pcg.mk 1 2)).1.estimates ≠ (10 * q.p0 / q.norm, 10 * q.p1 / q.norm) := by
  intro q hest
  obtain ⟨h0, -, hn⟩ : q.p0 = 4 ∧ q.p1 = 0 ∧ q.norm = 4 := probabilities_two_ket0
  rw [estimates_sample (by rw [hn]; norm_num), hn, h0] at hest
  have hfirst := congrArg Prod.fst hest
  norm_num at hfirst

end Qubit

end BlochSphere
