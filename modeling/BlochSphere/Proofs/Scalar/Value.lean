/-
Doubles as the numbers that they stand for. Their order is that of the numbers, each number is stood for by
one double only, and products, quotients and whole parts are those of the numbers, rounded to the nearest
double where they are none.
-/
import BlochSphere.Proofs.Scalar.Nearest
import BlochSphere.Proofs.Scalar.Reading

namespace BlochSphere.Binary64

open Float.Model Float.Model.UnpackedFloat

variable {m m' : ℕ} {e e' : ℤ}

/-! ## Canonical pairs as numbers -/

theorem Canonical.value_pos (h : Canonical m e) : (0 : ℚ) < m * 2 ^ e := by
  have := h.pos
  positivity

theorem Canonical.log_eq (h : Canonical m e) : Int.log 2 ((m : ℚ) * 2 ^ e) = m.log2 + e :=
  log_eq_self h.pos e

/-- The logarithm of a quotient is the difference of the logarithms, or one less. -/
theorem Canonical.le_log_div (h : Canonical m e) (h' : Canonical m' e') :
    m.log2 + e - (m'.log2 + e' + 1) ≤ Int.log 2 ((m : ℚ) * 2 ^ e / (m' * 2 ^ e')) := by
  have hlow := Int.zpow_log_le_self (b := 2) one_lt_two h.value_pos
  have hhigh := Int.lt_zpow_succ_log_self (b := 2) one_lt_two ((m' : ℚ) * 2 ^ e')
  rw [h.log_eq] at hlow
  rw [h'.log_eq] at hhigh
  refine (Int.zpow_le_iff_le_log (b := 2) one_lt_two (div_pos h.value_pos h'.value_pos)).1 ?_
  rw [zpow_sub₀ (by norm_num), div_le_div_iff₀ (by positivity) h'.value_pos]
  exact mul_le_mul hlow hhigh.le h'.value_pos.le h.value_pos.le

theorem Canonical.value_lt_of_lt (h : Canonical m e) (h' : Canonical m' e') (he : e < e') :
    (m : ℚ) * 2 ^ e < m' * 2 ^ e' := by
  have hfull : 2 ^ 52 ≤ m' := by
    rcases h'.full with hf | hf
    · exact hf
    · have := h.least
      omega
  have hm : (m : ℚ) < 2 ^ 53 := by exact_mod_cast h.upper
  have hm' : (2 ^ 52 : ℚ) ≤ m' := by exact_mod_cast hfull
  calc (m : ℚ) * 2 ^ e < 2 ^ 53 * 2 ^ e := by gcongr
    _ = 2 ^ 52 * 2 ^ (e + 1) := by
      rw [zpow_add_one₀ two_ne_zero]
      ring
    _ ≤ m' * 2 ^ e' := by
      gcongr
      · exact one_le_two
      · omega

/-- Canonical pairs for one number are one pair. -/
theorem Canonical.eq_of_value (h : Canonical m e) (h' : Canonical m' e') (hv : (m : ℚ) * 2 ^ e = m' * 2 ^ e') :
    m = m' ∧ e = e' := by
  rcases lt_trichotomy e e' with he | rfl | he
  · exact absurd hv (h.value_lt_of_lt h' he).ne
  · have hm : (m : ℚ) = m' := mul_right_cancel₀ (by positivity) hv
    exact ⟨by exact_mod_cast hm, rfl⟩
  · exact absurd hv (h'.value_lt_of_lt h he).ne'

/-! ## What doubles stand for -/

/-- The number that a reading without a minus sign stands for, if it is finite. -/
inductive StandsFor : UnpackedFloat → ℚ → Prop where
  | zero : StandsFor (.zero .positive) 0
  | finite {m : ℕ} {e : ℤ} (h : Canonical m e) : StandsFor (.finite .positive m e h.pos) (m * 2 ^ e)

/-- The double `x` is finite, has no minus sign and stands for the number `v`. -/
def Denotes (x : Float) (v : ℚ) : Prop := StandsFor x.toModel.unpack v

theorem StandsFor.unpack_pack {u : UnpackedFloat} {v : ℚ} (h : StandsFor u v) :
    (Float.Model.pack u).unpack = u := by
  cases h with
  | zero => rfl
  | finite h => exact h.unpack_pack .positive

theorem StandsFor.nonneg {u : UnpackedFloat} {v : ℚ} (h : StandsFor u v) : 0 ≤ v := by
  cases h with
  | zero => exact le_rfl
  | finite h => positivity

/-- What is rounded without a minus sign stands for the nearest double. -/
theorem standsFor_round (hx : 0 < x) (hb : x < 2 ^ (1023 : ℤ)) (he : e ≤ grid x)
    (hk : ExtendedMantissa.ofMantissaAndAccuracy m acc = kept (x / 2 ^ e)) :
    StandsFor (roundWithAccuracy .binary64 .positive m e acc) (nearest x) := by
  rcases round_kept hx hb he hk .positive with ⟨hr, hv⟩ | ⟨m', e', hc, hr, hv⟩
  · rw [hr, hv]
    exact .zero
  · rw [hr, hv]
    exact .finite hc

/-- A quotient in range is rounded to the double nearest to it, or to zero. -/
theorem Canonical.div_cases (h : Canonical m e) (h' : Canonical m' e')
    (hb : (m : ℚ) * 2 ^ e / (m' * 2 ^ e') < 2 ^ (1023 : ℤ)) (s s' : Sign) :
    let q := UnpackedFloat.div .binary64 (.finite s m e h.pos) (.finite s' m' e' h'.pos)
    let v := nearest ((m : ℚ) * 2 ^ e / (m' * 2 ^ e'))
    q = .zero (s * s') ∧ v = 0 ∨
    ∃ M E, ∃ hc : Canonical M E, q = .finite (s * s') M E hc.pos ∧ v = M * 2 ^ E := by
  simp only [UnpackedFloat.div, divCore]
  generalize ht : min (e - e') (Format.binary64.targetExponent (totalExponent m e - totalExponent m' e')) = t
  have hval : (m : ℚ) * 2 ^ e / (m' * 2 ^ e') = (m <<< (e - e' - t).toNat : ℕ) / m' * 2 ^ t := by
    have hs : ((e - e' - t).toNat : ℤ) = e - e' - t := by omega
    have hm' : (m' : ℚ) ≠ 0 := by exact_mod_cast h'.pos.ne'
    rw [Nat.shiftLeft_eq]
    push_cast
    rw [← zpow_natCast, hs, zpow_sub₀ two_ne_zero, zpow_sub₀ two_ne_zero]
    field_simp
  refine round_kept (div_pos h.value_pos h'.value_pos) hb ?_ ?_ (s * s')
  · -- the logarithm of the quotient is the difference of the logarithms, or one less
    have hlog := h.le_log_div h'
    simp only [Format.targetExponent, totalExponent, Format.mantissaBits, Format.minExponent] at ht
    unfold grid
    omega
  · rw [hval, mul_div_cancel_right₀ _ (by positivity), kept_div _ h'.pos]

namespace StandsFor

variable {u u' : UnpackedFloat} {v v' : ℚ}

theorem mul (h : StandsFor u v) (h' : StandsFor u' v') (hb : v * v' < 2 ^ (1023 : ℤ)) :
    StandsFor (UnpackedFloat.mul .binary64 u u') (nearest (v * v')) := by
  cases h with
  | zero =>
    rw [zero_mul, nearest_zero]
    cases h' <;> exact .zero
  | @finite m e h =>
    cases h' with
    | zero =>
      rw [mul_zero, nearest_zero]
      exact .zero
    | @finite m' e' h' =>
      have hval : (m : ℚ) * 2 ^ e * (m' * 2 ^ e') = (m * m' : ℕ) * 2 ^ (e + e') := by
        rw [zpow_add₀ two_ne_zero]
        push_cast
        ring
      have hpos : 0 < m * m' := Nat.mul_pos h.pos h'.pos
      rw [hval] at hb ⊢
      refine standsFor_round (by positivity) hb ?_ ?_
      · -- a factor with a full significand leaves bits to spare; two without one are below the least double
        have hlog := log_eq_self hpos (e + e')
        unfold grid
        rw [hlog]
        rcases h.full with hf | hf
        · have : 52 ≤ (m * m').log2 := (Nat.le_log2 hpos.ne').2 (le_trans hf (Nat.le_mul_of_pos_right m h'.pos))
          omega
        · rcases h'.full with hf' | hf'
          · have : 52 ≤ (m * m').log2 := (Nat.le_log2 hpos.ne').2 (le_trans hf' (Nat.le_mul_of_pos_left m' h.pos))
            omega
          · omega
      · rw [mul_div_cancel_right₀ _ (by positivity), kept_natCast]

theorem div (h : StandsFor u v) (h' : StandsFor u' v') (hpos : 0 < v') (hb : v / v' < 2 ^ (1023 : ℤ)) :
    StandsFor (UnpackedFloat.div .binary64 u u') (nearest (v / v')) := by
  cases h' with
  | zero => exact absurd hpos (lt_irrefl 0)
  | finite h' =>
    cases h with
    | zero =>
      rw [zero_div, nearest_zero]
      exact .zero
    | finite h =>
      rcases h.div_cases h' hb .positive .positive with ⟨hd, hv⟩ | ⟨m, e, hc, hd, hv⟩
      · rw [hd, hv]
        exact .zero
      · rw [hd, hv]
        exact .finite hc

end StandsFor

/-! ## Order -/

theorem StandsFor.compare_eq {u u' : UnpackedFloat} {v v' : ℚ} (h : StandsFor u v) (h' : StandsFor u' v') :
    u.compare u' = some (cmp v v') := by
  cases h with
  | zero =>
    cases h' with
    | zero => rw [cmp_self_eq_eq]; rfl
    | finite h' => rw [h'.value_pos.cmp_eq_lt]; rfl
  | @finite m e h =>
    cases h' with
    | zero => rw [h.value_pos.cmp_eq_gt]; rfl
    | @finite m' e' h' =>
      show some ((compare e e').then (compare m m')) = _
      congr 1
      rcases lt_trichotomy e e' with he | rfl | he
      · rw [(h.value_lt_of_lt h' he).cmp_eq_lt, compare_lt_iff_lt.2 he]
        rfl
      · rw [compare_eq_iff_eq.2 rfl, cmp_mul_pos_right (by positivity)]
        rcases lt_trichotomy m m' with hm | rfl | hm
        · rw [compare_lt_iff_lt.2 hm, (Nat.cast_lt.2 hm).cmp_eq_lt]
          rfl
        · rw [compare_eq_iff_eq.2 rfl, cmp_self_eq_eq]
          rfl
        · rw [compare_gt_iff_gt.2 hm, (Nat.cast_lt.2 hm).cmp_eq_gt]
          rfl
      · rw [(h'.value_lt_of_lt h he).cmp_eq_gt, compare_gt_iff_gt.2 he]
        rfl

theorem StandsFor.unique {u u' : UnpackedFloat} {v v' : ℚ} (h : StandsFor u v) (h' : StandsFor u' v')
    (hv : v = v') : u = u' := by
  cases h with
  | zero =>
    cases h' with
    | zero => rfl
    | finite h' => exact absurd hv h'.value_pos.ne
  | @finite m e h =>
    cases h' with
    | zero => exact absurd hv h.value_pos.ne'
    | finite h' =>
      obtain ⟨rfl, rfl⟩ := h.eq_of_value h' hv
      rfl

namespace Denotes

variable {x y : Float} {v w : ℚ}

theorem nonneg (hx : Denotes x v) : 0 ≤ v := StandsFor.nonneg hx

theorem le_iff (hx : Denotes x v) (hy : Denotes y w) : x ≤ y ↔ v ≤ w := by
  rw [Binary64.le_iff, UnpackedFloat.le, hx.compare_eq hy]
  rcases lt_trichotomy v w with h | h | h
  · simp [h.cmp_eq_lt, h.le]
  · simp [h]
  · simp [h.cmp_eq_gt, h]

theorem lt_iff (hx : Denotes x v) (hy : Denotes y w) : x < y ↔ v < w := by
  rw [Binary64.lt_iff, UnpackedFloat.lt, hx.compare_eq hy, beq_iff_eq, Option.some_inj, cmp_eq_lt_iff]

theorem beq_iff (hx : Denotes x v) (hy : Denotes y w) : (x == y) = true ↔ v = w := by
  rw [Binary64.beq_eq, UnpackedFloat.beq, hx.compare_eq hy, beq_iff_eq, Option.some_inj, cmp_eq_eq_iff]

/-- A double stands for a number that needs no rounding. -/
theorem exists_eq (hx : Denotes x v) : ∃ m : ℕ, ∃ e : ℤ, m < 2 ^ 53 ∧ -1074 ≤ e ∧ v = m * 2 ^ e := by
  unfold Denotes at hx
  generalize x.toModel.unpack = u at hx
  cases hx with
  | zero => exact ⟨0, 0, by decide, by decide, by simp⟩
  | finite h => exact ⟨_, _, h.upper, h.least, rfl⟩

theorem nearest_eq (hx : Denotes x v) : nearest v = v := by
  obtain ⟨m, e, hm, he, rfl⟩ := hx.exists_eq
  exact nearest_of_lt hm he

theorem value_eq (hx : Denotes x v) (hx' : Denotes x w) : v = w :=
  (hx.beq_iff hx').1 ((hx.beq_iff hx).2 rfl)

theorem mul (hx : Denotes x v) (hy : Denotes y w) (hb : v * w < 2 ^ (1023 : ℤ)) :
    Denotes (x * y) (nearest (v * w)) := by
  have h := StandsFor.mul hx hy hb
  unfold Denotes
  rw [unpack_mul, h.unpack_pack]
  exact h

theorem div (hx : Denotes x v) (hy : Denotes y w) (hw : 0 < w) (hb : v / w < 2 ^ (1023 : ℤ)) :
    Denotes (x / y) (nearest (v / w)) := by
  have h := StandsFor.div hx hy hw hb
  have hu : (x / y).toModel.unpack =
      (Float.Model.pack (UnpackedFloat.div .binary64 x.toModel.unpack y.toModel.unpack)).unpack := rfl
  unfold Denotes
  rw [hu, h.unpack_pack]
  exact h

end Denotes

/-! ## Readings -/

theorem scaleDown_eq (m : ℕ) (e : ℤ) : (scaleDown m e : ℤ) = ⌊(m : ℚ) * 2 ^ e⌋ := by
  cases e with
  | ofNat k =>
    show ((m <<< k : ℕ) : ℤ) = _
    rw [Nat.shiftLeft_eq, Int.ofNat_eq_natCast, zpow_natCast]
    exact_mod_cast (Int.floor_natCast (R := ℚ) (m * 2 ^ k)).symm
  | negSucc k =>
    show ((m >>> (k + 1) : ℕ) : ℤ) = _
    rw [Nat.shiftRight_eq_div_pow, zpow_negSucc, ← div_eq_mul_inv]
    exact_mod_cast (Rat.floor_natCast_div_natCast m (2 ^ (k + 1))).symm

namespace Denotes

variable {x y : Float} {v w : ℚ}

theorem isFinite (hx : Denotes x v) : x.isFinite = true := by
  unfold Denotes at hx
  show x.toModel.unpack.isFinite = true
  generalize x.toModel.unpack = u at hx
  cases hx <;> rfl

/-- Doubles that stand for one number are one double. -/
theorem eq (hx : Denotes x v) (hy : Denotes y v) : x = y :=
  eq_of_unpack hx.isFinite (StandsFor.unique hx hy rfl)

/-- Only the double itself equals a double that stands for a positive number. -/
theorem eq_of_beq (hx : Denotes x v) (hv : 0 < v) (h : (y == x) = true) : y = x := by
  refine (eq_of_unpack hx.isFinite ?_).symm
  unfold Denotes at hx
  rw [Binary64.beq_eq] at h
  generalize x.toModel.unpack = u at hx h
  cases hx with
  | zero => exact absurd hv (lt_irrefl 0)
  | finite hc => exact (eq_of_beq_finite _ _ _ _ h).symm

theorem floor_eq (hx : Denotes x v) : floor x = ⌊v⌋ := by
  unfold floor
  rw [read_eq]
  unfold Denotes at hx
  generalize x.toModel.unpack = u at hx
  cases hx with
  | zero =>
    rw [Int.floor_zero]
    rfl
  | @finite m e h => exact scaleDown_eq m e

end Denotes

/-! ## Whole numbers and the unit interval -/

theorem denotes_zero : Denotes (@OfNat.ofNat Float 0 (Scalar.instOfNat 0)) 0 := by
  unfold Denotes
  rw [unpack_zero]
  exact .zero

theorem denotes_ofInt {n : ℕ} (h : n < 2 ^ 53) : Denotes (Float.ofInt n) n := by
  rcases Nat.eq_zero_or_pos n with rfl | h0
  · rw [Nat.cast_zero, Nat.cast_zero]
    exact denotes_zero
  · have hn := normal_of_nat h0 h
    have hc : Canonical (n * 2 ^ (52 - n.log2)) (n.log2 - 52) :=
      ⟨hn.pos, hn.upper, hn.least, by have := hn.greatest; omega, .inl hn.lower⟩
    have hlog : n.log2 ≤ 52 := Nat.lt_succ_iff.1 ((Nat.log2_lt h0.ne').2 h)
    have hv : (n : ℚ) = (n * 2 ^ (52 - n.log2) : ℕ) * 2 ^ ((n.log2 : ℤ) - 52) := by
      have hs : (n.log2 : ℤ) - 52 = -((52 - n.log2 : ℕ) : ℤ) := by omega
      rw [hs, zpow_neg, zpow_natCast]
      push_cast
      field_simp
    unfold Denotes
    rw [ofInt_eq h0 h, hn.unpack_eq, hv]
    exact .finite hc

theorem denotes_one : Denotes (@OfNat.ofNat Float 1 (Scalar.instOfNat 1)) 1 := by
  have h := denotes_ofInt (show 1 < 2 ^ 53 by decide)
  rw [Nat.cast_one, Nat.cast_one] at h
  exact h

theorem denotes_of_unpack {t : Float} {hm : 0 < m} (hu : t.toModel.unpack = .finite .positive m e hm) :
    Denotes t (m * 2 ^ e) := by
  unfold Denotes
  rw [hu]
  exact .finite (canonical_of_unpack hu)

/-- Whatever compares with itself is moved to a number of the unit interval. -/
theorem denotes_clamp {t : Float} (ht : (t == t) = true) : ∃ v, v ≤ 1 ∧
    Denotes (Scalar.clamp (@OfNat.ofNat Float 0 (Scalar.instOfNat 0))
      (@OfNat.ofNat Float 1 (Scalar.instOfNat 1)) t) v := by
  unfold Scalar.clamp
  split
  · exact ⟨0, zero_le_one, denotes_zero⟩
  · split
    · exact ⟨1, le_rfl, denotes_one⟩
    · rename_i h0 h1
      rw [Binary64.le_iff, unpack_zero] at h0
      rw [Binary64.le_iff, unpack_one] at h1
      rw [beq_eq] at ht
      cases hu : t.toModel.unpack with
      | notANumber =>
        rw [hu] at ht
        cases ht
      | infinity s =>
        rw [hu] at h0 h1
        cases s with
        | positive => exact absurd rfl h1
        | negative => exact absurd rfl h0
      | zero s =>
        rw [hu] at h0
        exact absurd rfl h0
      | finite s m e hm =>
        cases s with
        | negative =>
          rw [hu] at h0
          exact absurd rfl h0
        | positive =>
          have hd := denotes_of_unpack hu
          rw [← unpack_one, ← Binary64.le_iff, denotes_one.le_iff hd, not_le] at h1
          exact ⟨_, h1.le, hd⟩

/-- What compares with something compares with itself. -/
theorem beq_self_of_le {t t' : Float} (h : t ≤ t') : (t == t) = true ∧ (t' == t') = true := by
  have hself : ∀ u : UnpackedFloat, u ≠ .notANumber → u.beq u = true := by
    intro u hu
    rcases u with s | _ | s | ⟨s, m, e, hm⟩
    · cases s <;> rfl
    · exact absurd rfl hu
    · rfl
    · cases s <;> simp [UnpackedFloat.beq, UnpackedFloat.compare, Std.compare_self]
  rw [Binary64.le_iff] at h
  rw [beq_eq, beq_eq]
  constructor
  · refine hself _ fun hu => ?_
    rw [hu] at h
    cases h
  · refine hself _ fun hu => ?_
    rw [hu] at h
    cases hu' : t.toModel.unpack <;> rw [hu'] at h <;> cases h

theorem of_infinity_le {u : UnpackedFloat} (h : UnpackedFloat.le (.infinity .positive) u = true) :
    u = .infinity .positive := by
  cases u with
  | notANumber => cases h
  | infinity s =>
    cases s with
    | positive => rfl
    | negative => cases h
  | zero s => cases h
  | finite s m e hm => cases h

/-- What a positive number is at most is positive. -/
theorem of_finite_le {hm : 0 < m} {u : UnpackedFloat}
    (h : UnpackedFloat.le (.finite .positive m e hm) u = true) :
    u = .infinity .positive ∨ ∃ m' e', ∃ hm' : 0 < m', u = .finite .positive m' e' hm' := by
  cases u with
  | notANumber => cases h
  | infinity s =>
    cases s with
    | positive => exact .inl rfl
    | negative => cases h
  | zero s => cases h
  | finite s m' e' hm' =>
    cases s with
    | positive => exact .inr ⟨m', e', hm', rfl⟩
    | negative => cases h

/-- What is at most something that is at most zero is at most zero. -/
theorem le_zero_of_le {u u' : UnpackedFloat} (h : u.le u' = true) (h' : u'.le (.zero .positive) = true) :
    u.le (.zero .positive) = true := by
  cases u with
  | notANumber => cases h
  | infinity s =>
    cases s with
    | negative => rfl
    | positive =>
      rw [of_infinity_le h] at h'
      cases h'
  | zero s => rfl
  | finite s m e hm =>
    cases s with
    | negative => rfl
    | positive => rcases of_finite_le h with rfl | ⟨m', e', hm', rfl⟩ <;> cases h'

/-- What something from one on is at most is from one on. -/
theorem one_le_of_le {t t' : Float} (h1 : @OfNat.ofNat Float 1 (Scalar.instOfNat 1) ≤ t) (h : t ≤ t') :
    @OfNat.ofNat Float 1 (Scalar.instOfNat 1) ≤ t' := by
  have hinfinite (hu' : t'.toModel.unpack = .infinity .positive) :
      @OfNat.ofNat Float 1 (Scalar.instOfNat 1) ≤ t' := by
    rw [Binary64.le_iff, unpack_one, hu']
    rfl
  have hone := (Binary64.le_iff _ _).1 h1
  have hle := (Binary64.le_iff _ _).1 h
  rw [unpack_one] at hone
  rcases of_finite_le hone with hu | ⟨m, e, hm, hu⟩
  · rw [hu] at hle
    exact hinfinite (of_infinity_le hle)
  · rw [hu] at hle
    rcases of_finite_le hle with hu' | ⟨m', e', hm', hu'⟩
    · exact hinfinite hu'
    · have hd := denotes_of_unpack hu
      have hd' := denotes_of_unpack hu'
      rw [denotes_one.le_iff hd] at h1
      rw [hd.le_iff hd'] at h
      rw [denotes_one.le_iff hd']
      exact h1.trans h

/-- Moving into the unit interval keeps the order. -/
theorem clamp_mono {t t' : Float} {v v' : ℚ} (h : t ≤ t')
    (hv : Denotes (Scalar.clamp (@OfNat.ofNat Float 0 (Scalar.instOfNat 0))
      (@OfNat.ofNat Float 1 (Scalar.instOfNat 1)) t) v)
    (hv' : Denotes (Scalar.clamp (@OfNat.ofNat Float 0 (Scalar.instOfNat 0))
      (@OfNat.ofNat Float 1 (Scalar.instOfNat 1)) t') v') : v ≤ v' := by
  unfold Scalar.clamp at hv
  split at hv
  · rw [hv.value_eq denotes_zero]
    exact hv'.nonneg
  · rename_i h0
    have h0' : ¬ t' ≤ @OfNat.ofNat Float 0 (Scalar.instOfNat 0) := by
      rw [Binary64.le_iff] at h h0 ⊢
      exact fun h0' => h0 (le_zero_of_le h h0')
    unfold Scalar.clamp at hv'
    rw [if_neg h0'] at hv'
    split at hv
    · rename_i h1
      rw [if_pos (one_le_of_le h1 h)] at hv'
      rw [hv.value_eq hv']
    · rename_i h1
      split at hv'
      · rw [hv'.value_eq denotes_one]
        rw [denotes_one.le_iff hv, not_le] at h1
        exact h1.le
      · exact (hv.le_iff hv').1 h

end BlochSphere.Binary64
