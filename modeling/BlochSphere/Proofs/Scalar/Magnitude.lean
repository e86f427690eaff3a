/-
Finite doubles of either sign by their distance from zero. Changing the sign keeps it, a quotient has the
rounded quotient of the distances, and the whole number nearest to a double is a double again.
-/
import BlochSphere.Proofs.Scalar.Value

namespace BlochSphere.Binary64

open Float.Model Float.Model.UnpackedFloat

variable {m : ℕ} {e : ℤ} {x y : Float} {v w : ℚ}

/-- The double `x` is finite, is not zero and has the distance `v` from it. -/
def Magnitude (x : Float) (v : ℚ) : Prop :=
  ∃ s m e, ∃ h : Canonical m e, x.toModel.unpack = .finite s m e h.pos ∧ v = m * 2 ^ e

theorem Denotes.magnitude (hx : Denotes x v) (hv : 0 < v) : Magnitude x v := by
  unfold Denotes at hx
  generalize hu : x.toModel.unpack = u at hx
  cases hx with
  | zero => exact absurd hv (lt_irrefl 0)
  | finite h => exact ⟨_, _, _, h, hu, rfl⟩

theorem exists_magnitude (hx : x.isFinite = true) (h0 : (x == 0.0) = false) : ∃ v, Magnitude x v := by
  rcases unpack_of_isFinite hx with ⟨s, hu⟩ | ⟨s, m, e, hc, hu⟩
  · change x.toModel.unpack.beq (.zero .positive) = false at h0
    rw [hu] at h0
    cases h0
  · exact ⟨_, s, m, e, hc, hu, rfl⟩

namespace Magnitude

theorem isFinite (hx : Magnitude x v) : x.isFinite = true := by
  obtain ⟨s, m, e, h, hu, -⟩ := hx
  show x.toModel.unpack.isFinite = true
  rw [hu]
  rfl

/-- Only the double itself equals a finite double that is not zero. -/
theorem eq_of_beq (hx : Magnitude x v) (h : (y == x) = true) : y = x := by
  have hfinite := hx.isFinite
  obtain ⟨s, m, e, hc, hu, -⟩ := hx
  rw [Binary64.beq_eq, hu] at h
  refine (eq_of_unpack hfinite ?_).symm
  rw [eq_of_beq_finite _ _ _ _ h, hu]

theorem beq_eq_decide (hx : Magnitude x v) : (y == x) = decide (y = x) := by
  rw [Bool.eq_iff_iff, decide_eq_true_iff]
  refine ⟨hx.eq_of_beq, ?_⟩
  rintro rfl
  obtain ⟨s, m, e, hc, hu, -⟩ := hx
  rw [Binary64.beq_eq, hu]
  cases s <;> simp [UnpackedFloat.beq, UnpackedFloat.compare, Std.compare_self]

theorem beq_zero (hx : Magnitude x v) : (x == 0.0) = false := by
  obtain ⟨s, m, e, hc, hu, -⟩ := hx
  rw [Binary64.beq_eq, hu]
  cases s <;> rfl

theorem value_lt (hx : Magnitude x v) : v < 2 ^ (1024 : ℤ) := by
  obtain ⟨s, m, e, h, -, rfl⟩ := hx
  have hm : (m : ℚ) < 2 ^ 53 := by exact_mod_cast h.upper
  calc (m : ℚ) * 2 ^ e < 2 ^ 53 * 2 ^ e := by gcongr
    _ ≤ 2 ^ 53 * 2 ^ (971 : ℤ) := by
      gcongr
      · exact one_le_two
      · exact h.greatest
    _ = 2 ^ (1024 : ℤ) := by rw [← zpow_natCast, ← zpow_add₀ two_ne_zero]; rfl

theorem unpack_neg (h : Canonical m e) {s : Sign} (hu : x.toModel.unpack = .finite s m e h.pos) :
    (-x).toModel.unpack = .finite (-s) m e h.pos := by
  show (Float.Model.pack x.toModel.unpack.neg).unpack = _
  rw [hu]
  exact h.unpack_pack (-s)

theorem neg (hx : Magnitude x v) : Magnitude (-x) v := by
  obtain ⟨s, m, e, h, hu, hv⟩ := hx
  exact ⟨-s, m, e, h, unpack_neg h hu, hv⟩

theorem neg_inj (hx : Magnitude x v) (hy : Magnitude y w) (h : -x = -y) : x = y := by
  refine eq_of_unpack hx.isFinite ?_
  obtain ⟨s, m, e, hc, hu, -⟩ := hx
  obtain ⟨s', m', e', hc', hu', -⟩ := hy
  have hn := unpack_neg hc hu
  rw [h, unpack_neg hc' hu'] at hn
  obtain ⟨hs, rfl, rfl⟩ := UnpackedFloat.finite.inj hn
  have hs : s' = s := by cases s <;> cases s' <;> first | rfl | cases hs
  rw [hu, hu', hs]

theorem div (hx : Magnitude x v) (hy : Magnitude y w) (hb : v / w < 2 ^ (1023 : ℤ)) (h0 : 0 < nearest (v / w)) :
    Magnitude (x / y) (nearest (v / w)) := by
  obtain ⟨s, m, e, h, hu, rfl⟩ := hx
  obtain ⟨s', m', e', h', hu', rfl⟩ := hy
  rcases h.div_cases h' hb s s' with ⟨-, hv⟩ | ⟨M, E, hc, hd, hv⟩
  · exact absurd hv h0.ne'
  · refine ⟨s * s', M, E, hc, ?_, hv⟩
    show (Float.Model.pack (UnpackedFloat.div .binary64 x.toModel.unpack y.toModel.unpack)).unpack = _
    rw [hu, hu', hd]
    exact hc.unpack_pack (s * s')

end Magnitude

/-! ## Whole numbers that are doubles -/

theorem log2_mul_two_pow (h : 0 < m) (k : ℕ) : (m * 2 ^ k).log2 = m.log2 + k := by
  induction k with
  | zero => rw [pow_zero, mul_one, add_zero]
  | succ k ih =>
    rw [pow_succ', mul_left_comm, Nat.log2_two_mul (by positivity), ih]
    rfl

/-- Low bits that are all zero are rounded away. -/
theorem Canonical.round_eq (h : Canonical m e) (k : ℕ) (s : Sign) :
    roundWithAccuracy .binary64 s (m * 2 ^ k) (e - k) .exact = .finite s m e h.pos := by
  have hexcess : Binary64.excess (m * 2 ^ k) (e - k) = k := by
    have hlog : m.log2 < 53 := (Nat.log2_lt h.pos.ne').2 h.upper
    have hfull := h.full.imp_left (Nat.le_log2 h.pos.ne').2
    have hleast := h.least
    unfold Binary64.excess
    rw [log2_mul_two_pow h.pos]
    omega
  have hrounded : rounded (m * 2 ^ k) (Binary64.excess (m * 2 ^ k) (e - k)) = m := by
    rw [hexcess, rounded, shiftRight_exact]
    rfl
  rw [round_of_lt (by rw [hrounded]; exact h.upper), dif_neg (by rw [hrounded]; exact h.pos.ne')]
  congr 1
  rw [hexcess]
  omega

/-- A whole number is shifted up by one significand before it is rounded. -/
theorem ofScientific_eq {n : ℕ} (h0 : n ≠ 0) :
    UnpackedFloat.ofScientific .binary64 n 0 = roundWithAccuracy .binary64 .positive (n * 2 ^ 53) (-53) .exact := by
  have hleast : ¬ (0 : ℤ) < -(2 ^ Format.binary64.exponentBits + (n.log2 : ℤ)) := by
    have : (0 : ℤ) < 2 ^ Format.binary64.exponentBits := by decide
    omega
  have hn : n <<< 53 * 10 ^ (0 : ℤ).toNat = n * 2 ^ 53 := by
    rw [Int.toNat_zero, pow_zero, mul_one, Nat.shiftLeft_eq]
  unfold UnpackedFloat.ofScientific
  rw [dif_neg h0, if_neg (by decide), if_neg hleast, if_pos le_rfl, ← hn]
  rfl

/-- A whole number with too many bits for a significand is a double if the last ones are zero. -/
theorem denotes_ofInt_shift {k : ℕ} (h : Canonical m k) : Denotes (Float.ofInt ((m <<< k : ℕ) : ℤ)) (m <<< k : ℕ) := by
  have hn : m <<< k = m * 2 ^ k := Nat.shiftLeft_eq ..
  rw [hn]
  -- below this bound the number is converted without rounding
  by_cases hlt : m * 2 ^ k < 2 ^ 53
  · exact denotes_ofInt hlt
  · have h0 : m * 2 ^ k ≠ 0 := by omega
    have hround : UnpackedFloat.ofScientific .binary64 (m * 2 ^ k) 0 = .finite .positive m k h.pos := by
      have hr := h.round_eq (k + 53) .positive
      rw [ofScientific_eq h0, mul_assoc, ← pow_add, ← hr, Nat.cast_add, sub_add_cancel_left]
      rfl
    have hu : (Float.ofInt ((m * 2 ^ k : ℕ) : ℤ)).toModel.unpack = .finite .positive m k h.pos := by
      show (Float.ofScientific (m * 2 ^ k) false 0).toModel.unpack = _
      unfold Float.ofScientific
      rw [dif_neg (fun hd => hlt hd.1)]
      show (Float.Model.pack (UnpackedFloat.ofScientific .binary64 (m * 2 ^ k) 0)).unpack = _
      rw [hround, h.unpack_pack]
    have hd := denotes_of_unpack hu
    rw [zpow_natCast] at hd
    exact_mod_cast hd

/-- The whole number nearest to a double is a double. -/
theorem denotes_ofInt_scaleNearest (h : Canonical m e) :
    Denotes (Float.ofInt (scaleNearest m e : ℕ)) (scaleNearest m e) := by
  cases e with
  | ofNat k => exact denotes_ofInt_shift h
  | negSucc k =>
    refine denotes_ofInt ?_
    have hm := h.upper
    have hle : m >>> k ≤ m := by
      rw [Nat.shiftRight_eq_div_pow]
      exact Nat.div_le_self _ _
    show ((m >>> k) + 1) >>> 1 < 2 ^ 53
    omega

theorem ofInt_neg {n : ℕ} (h : n ≠ 0) : Float.ofInt (-(n : ℤ)) = -Float.ofInt n := by
  obtain ⟨k, rfl⟩ := Nat.exists_eq_succ_of_ne_zero h
  rfl

theorem magnitude_ofInt_round (hx : x.isFinite = true) (h0 : round x ≠ 0) :
    ∃ n : ℕ, 0 < n ∧ Magnitude (Float.ofInt (round x)) n := by
  unfold round at h0 ⊢
  rw [read_eq] at h0 ⊢
  rcases unpack_of_isFinite hx with ⟨s, hu⟩ | ⟨s, m, e, hc, hu⟩
  · rw [hu] at h0
    cases s <;> exact absurd rfl h0
  · rw [hu] at h0 ⊢
    have hd := denotes_ofInt_scaleNearest hc
    cases s with
    | positive =>
      have hn : scaleNearest m e ≠ 0 := fun hn => h0 (congrArg Int.ofNat hn)
      have hpos : 0 < scaleNearest m e := Nat.pos_of_ne_zero hn
      exact ⟨_, hpos, hd.magnitude (by exact_mod_cast hpos)⟩
    | negative =>
      have hn : scaleNearest m e ≠ 0 := fun hn => h0 (congrArg (fun n : ℕ => -(n : ℤ)) hn)
      have hpos : 0 < scaleNearest m e := Nat.pos_of_ne_zero hn
      refine ⟨_, hpos, ?_⟩
      show Magnitude (Float.ofInt (-(scaleNearest m e : ℤ))) _
      rw [ofInt_neg hn]
      exact (hd.magnitude (by exact_mod_cast hpos)).neg

end BlochSphere.Binary64
