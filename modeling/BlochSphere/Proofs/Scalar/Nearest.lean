/-
Rounding to the nearest double, with halves to the even significand, as a function on rational numbers.
It is monotone, keeps every number that has a place among the doubles and moves no number by more than
half a unit; and it is what becomes of a significand whose bits are shifted out of a double one by one.
-/
import BlochSphere.Proofs.Scalar.Rounding

namespace BlochSphere.Binary64

open Float.Model Float.Model.UnpackedFloat

/-! ## The nearest whole number -/

/-- The natural number nearest to `y`, halves to the even one. -/
def nearestEven (y : ℚ) : ℕ :=
  if y < ⌊y⌋₊ + 1 / 2 then ⌊y⌋₊ else if ⌊y⌋₊ + 1 / 2 < y then ⌊y⌋₊ + 1 else ⌊y⌋₊ + ⌊y⌋₊ % 2

theorem floor_le_nearestEven (y : ℚ) : ⌊y⌋₊ ≤ nearestEven y := by
  unfold nearestEven
  split_ifs <;> omega

theorem nearestEven_le_floor (y : ℚ) : nearestEven y ≤ ⌊y⌋₊ + 1 := by
  unfold nearestEven
  split_ifs <;> omega

theorem nearestEven_natCast (n : ℕ) : nearestEven n = n := by
  unfold nearestEven
  rw [Nat.floor_natCast, if_pos (by linarith)]

theorem nearestEven_mono {x y : ℚ} (h : x ≤ y) : nearestEven x ≤ nearestEven y := by
  rcases Nat.lt_or_eq_of_le (Nat.floor_mono h) with hlt | heq
  · have := nearestEven_le_floor x
    have := floor_le_nearestEven y
    omega
  · unfold nearestEven
    rw [heq]
    -- in one unit, what is to be rounded up stays to be rounded up
    split_ifs <;> first | omega | exact absurd h (not_le.2 (by linarith))

theorem abs_nearestEven_sub_le {y : ℚ} (hy : 0 ≤ y) : |nearestEven y - y| ≤ 1 / 2 := by
  have hle := Nat.floor_le hy
  have hlt := Nat.lt_floor_add_one y
  unfold nearestEven
  generalize ⌊y⌋₊ = q at hle hlt
  rw [abs_le]
  split_ifs with hlow hhigh
  · constructor <;> linarith
  · push_cast
    constructor <;> linarith
  · have hhalf : y = q + 1 / 2 := le_antisymm (not_lt.1 hhigh) (not_lt.1 hlow)
    have hodd : ((q % 2 : ℕ) : ℚ) ≤ 1 := by exact_mod_cast Nat.lt_succ_iff.1 (Nat.mod_lt q two_pos)
    have hpos : (0 : ℚ) ≤ (q % 2 : ℕ) := Nat.cast_nonneg _
    rw [Nat.cast_add]
    constructor <;> linarith

/-! ## Shifting bits out -/

/-- What is kept of `y` while bits are shifted out: its whole part, whether half a unit is left, and
whether what is left is neither nothing nor half a unit. -/
def kept (y : ℚ) : ExtendedMantissa :=
  ⟨⌊y⌋₊, decide (⌊y⌋₊ + 1 / 2 ≤ y), decide (y ≠ ⌊y⌋₊ ∧ y ≠ ⌊y⌋₊ + 1 / 2)⟩

theorem kept_eq {y : ℚ} {q : ℕ} (h : q ≤ y) (h' : y < q + 1) :
    kept y = ⟨q, decide (q + 1 / 2 ≤ y), decide (y ≠ q ∧ y ≠ q + 1 / 2)⟩ := by
  have hq : ⌊y⌋₊ = q := (Nat.floor_eq_iff (le_trans q.cast_nonneg h)).2 ⟨h, h'⟩
  unfold kept
  rw [hq]

/-- Whether anything is left. -/
theorem kept_inexact (y : ℚ) (q : ℕ) :
    (decide (q + 1 / 2 ≤ y) || decide (y ≠ q ∧ y ≠ q + 1 / 2)) = decide (y ≠ q) := by
  rw [Bool.eq_iff_iff, Bool.or_eq_true, decide_eq_true_iff, decide_eq_true_iff, decide_eq_true_iff]
  constructor
  · rintro (hhalf | ⟨hne, -⟩)
    · linarith
    · exact hne
  · intro hne
    rcases le_or_gt ((q : ℚ) + 1 / 2) y with hhalf | hhalf
    · exact .inl hhalf
    · exact .inr ⟨hne, hhalf.ne⟩

theorem kept_shiftRightOne {y : ℚ} (hy : 0 ≤ y) : (kept y).shiftRightOne = kept (y / 2) := by
  have hle := Nat.floor_le hy
  have hlt := Nat.lt_floor_add_one y
  unfold kept ExtendedMantissa.shiftRightOne
  simp only [kept_inexact]
  generalize ⌊y⌋₊ = q at hle hlt
  rw [← kept]
  rcases Nat.even_or_odd' q with ⟨a, rfl | rfl⟩
  · push_cast at hle hlt ⊢
    rw [kept_eq (q := a) (by linarith) (by linarith), ExtendedMantissa.mk.injEq]
    refine ⟨by omega, ?_, decide_eq_decide.2 ⟨?_, ?_⟩⟩
    · simp
      linarith
    · intro hne
      exact ⟨fun heq => hne (by linarith), fun heq => by linarith⟩
    · rintro ⟨hne, -⟩ heq
      exact hne (by linarith)
  · push_cast at hle hlt ⊢
    rw [kept_eq (q := a) (by linarith) (by linarith), ExtendedMantissa.mk.injEq]
    refine ⟨by omega, ?_, decide_eq_decide.2 ⟨?_, ?_⟩⟩
    · simp
      linarith
    · intro hne
      exact ⟨fun heq => by linarith, fun heq => hne (by linarith)⟩
    · rintro ⟨-, hne⟩ heq
      exact hne (by linarith)

theorem kept_shiftRight {y : ℚ} (hy : 0 ≤ y) (k : ℕ) : kept y >>> k = kept (y / 2 ^ k) := by
  induction k with
  | zero =>
    rw [pow_zero, div_one]
    rfl
  | succ k ih =>
    have hs : kept y >>> (k + 1) = (kept y >>> k).shiftRightOne := rfl
    rw [hs, ih, kept_shiftRightOne (by positivity), div_div, pow_succ]

theorem kept_roundedMantissa {y : ℚ} (hy : 0 ≤ y) : (kept y).roundedMantissa = nearestEven y := by
  have hle := Nat.floor_le hy
  unfold kept nearestEven
  generalize ⌊y⌋₊ = q at hle
  rcases lt_trichotomy y (q + 1 / 2) with h | h | h
  · rw [if_pos h, decide_eq_false (not_le.2 h)]
    cases decide (y ≠ q ∧ y ≠ q + 1 / 2) <;> rfl
  · rw [if_neg h.not_lt, if_neg h.symm.not_lt, decide_eq_true h.ge, decide_eq_false fun hs => hs.2 h]
    rfl
  · rw [if_neg h.not_gt, if_pos h, decide_eq_true h.le, decide_eq_true ⟨by linarith, h.ne'⟩]
    rfl

theorem kept_natCast (m : ℕ) : kept m = .ofMantissaAndAccuracy m .exact := by
  rw [kept_eq (q := m) le_rfl (by linarith), decide_eq_false (by linarith), decide_eq_false (by simp)]
  rfl

theorem kept_div (a : ℕ) {b : ℕ} (hb : 0 < b) :
    kept (a / b) = .ofMantissaAndAccuracy (a / b) (accuracyOfFraction (a % b) b) := by
  have hb' : (0 : ℚ) < b := by exact_mod_cast hb
  have hsplit : (a : ℚ) / b = (a / b : ℕ) + (a % b : ℕ) / b := by
    field_simp
    exact_mod_cast (Nat.div_add_mod a b).symm
  have hmod : a % b < b := Nat.mod_lt a hb
  rw [hsplit]
  generalize a / b = q
  generalize a % b = r at hmod
  have hr : (r : ℚ) / b < 1 := by
    rw [div_lt_one hb']
    exact_mod_cast hmod
  have hr0 : (0 : ℚ) ≤ (r : ℚ) / b := by positivity
  rw [kept_eq (q := q) (by linarith) (by linarith)]
  unfold accuracyOfFraction
  by_cases h0 : r = 0
  · subst h0
    rw [if_pos rfl]
    simp [ExtendedMantissa.ofMantissaAndAccuracy]
  · have hne : (r : ℚ) / b ≠ 0 := by
      have : (r : ℚ) ≠ 0 := by exact_mod_cast h0
      positivity
    have hcmp : (r : ℚ) / b < 1 / 2 ↔ 2 * r < b := by
      rw [div_lt_div_iff₀ hb' two_pos, mul_comm, one_mul]
      exact_mod_cast Iff.rfl
    have hcmp' : (r : ℚ) / b = 1 / 2 ↔ 2 * r = b := by
      rw [div_eq_div_iff hb'.ne' two_ne_zero, mul_comm, one_mul]
      exact_mod_cast Iff.rfl
    rw [if_neg h0]
    rcases Nat.lt_trichotomy (2 * r) b with h | h | h
    · have hlt := hcmp.2 h
      rw [Nat.compare_eq_lt.2 h, decide_eq_false (by linarith), decide_eq_true ⟨by simpa using hne, by linarith⟩]
      rfl
    · have heq := hcmp'.2 h
      rw [Nat.compare_eq_eq.2 h, heq, decide_eq_true le_rfl, decide_eq_false fun hs => hs.2 rfl]
      rfl
    · have hgt : 1 / 2 < (r : ℚ) / b := by
        rcases lt_trichotomy ((r : ℚ) / b) (1 / 2) with hl | he | hg
        · have := hcmp.1 hl
          omega
        · have := hcmp'.1 he
          omega
        · exact hg
      rw [Nat.compare_eq_gt.2 h, decide_eq_true (by linarith), decide_eq_true ⟨by simpa using hne, by linarith⟩]
      rfl

/-! ## The nearest double -/

/-- The exponent of the last bit that the doubles about `x` have. -/
def grid (x : ℚ) : ℤ := max (Int.log 2 x - 52) (-1074)

/-- The number that the double nearest to `x` stands for; halves go to the even significand. -/
def nearest (x : ℚ) : ℚ := nearestEven (x / 2 ^ grid x) * 2 ^ grid x

theorem least_le_grid (x : ℚ) : -1074 ≤ grid x := le_max_right _ _

theorem grid_mono {x y : ℚ} (hx : 0 < x) (h : x ≤ y) : grid x ≤ grid y := by
  have := Int.log_mono_right (b := 2) hx h
  unfold grid
  omega

theorem lt_grid (x : ℚ) : x / 2 ^ grid x < 2 ^ 53 := by
  rw [div_lt_iff₀ (by positivity), ← zpow_natCast, ← zpow_add₀ two_ne_zero]
  refine lt_of_lt_of_le (Int.lt_zpow_succ_log_self (b := 2) one_lt_two x) ?_
  exact zpow_le_zpow_right₀ one_le_two (by unfold grid; omega)

theorem grid_le {x : ℚ} (hx : 0 < x) (h : -1074 < grid x) : 2 ^ 52 ≤ x / 2 ^ grid x := by
  rw [le_div_iff₀ (by positivity), ← zpow_natCast, ← zpow_add₀ two_ne_zero]
  refine le_trans ?_ (Int.zpow_log_le_self (b := 2) one_lt_two hx)
  exact zpow_le_zpow_right₀ one_le_two (by unfold grid at h ⊢; omega)

theorem nearestEven_grid_le (x : ℚ) : nearestEven (x / 2 ^ grid x) ≤ 2 ^ 53 := by
  have h := nearestEven_mono (lt_grid x).le
  have h53 : nearestEven (2 ^ 53) = 2 ^ 53 := by exact_mod_cast nearestEven_natCast (2 ^ 53)
  omega

theorem le_nearestEven_grid {x : ℚ} (hx : 0 < x) (h : -1074 < grid x) :
    2 ^ 52 ≤ nearestEven (x / 2 ^ grid x) := by
  have h := nearestEven_mono (grid_le hx h)
  have h52 : nearestEven (2 ^ 52) = 2 ^ 52 := by exact_mod_cast nearestEven_natCast (2 ^ 52)
  omega

theorem nearest_zero : nearest 0 = 0 := by
  have h : nearestEven 0 = 0 := by exact_mod_cast nearestEven_natCast 0
  unfold nearest
  rw [zero_div, h, Nat.cast_zero, zero_mul]

theorem nearest_nonneg (x : ℚ) : 0 ≤ nearest x := by
  unfold nearest
  positivity

/-- Rounding is monotone. -/
theorem nearest_mono {x y : ℚ} (hx : 0 ≤ x) (h : x ≤ y) : nearest x ≤ nearest y := by
  rcases hx.eq_or_lt with rfl | hx
  · rw [nearest_zero]
    exact nearest_nonneg y
  · unfold nearest
    rcases (grid_mono hx h).eq_or_lt with heq | hlt
    · rw [heq]
      gcongr
      exact nearestEven_mono (by gcongr)
    · -- beyond the next power of two
      have hx53 : (nearestEven (x / 2 ^ grid x) : ℚ) ≤ 2 ^ 53 := by exact_mod_cast nearestEven_grid_le x
      have hy52 : (2 ^ 52 : ℚ) ≤ nearestEven (y / 2 ^ grid y) := by
        exact_mod_cast le_nearestEven_grid (hx.trans_le h) (lt_of_le_of_lt (least_le_grid x) hlt)
      calc (nearestEven (x / 2 ^ grid x) : ℚ) * 2 ^ grid x ≤ 2 ^ 53 * 2 ^ grid x := by gcongr
        _ = 2 ^ 52 * 2 ^ (grid x + 1) := by
          rw [zpow_add_one₀ two_ne_zero]
          ring
        _ ≤ 2 ^ 52 * 2 ^ grid y := by
          gcongr
          · exact one_le_two
          · omega
        _ ≤ nearestEven (y / 2 ^ grid y) * 2 ^ grid y := by gcongr

variable {m : ℕ} {e : ℤ}

/-- The binary logarithm of a number is that of its significand, moved by the exponent. -/
theorem log_eq {x : ℚ} (h0 : 0 < m) (hle : m * 2 ^ e ≤ x) (hlt : x < (m + 1) * 2 ^ e) :
    Int.log 2 x = m.log2 + e := by
  have hx : 0 < x := lt_of_lt_of_le (by positivity) hle
  have hlow : (2 : ℚ) ^ m.log2 ≤ m := by exact_mod_cast Nat.log2_self_le h0.ne'
  have hhigh : (m : ℚ) + 1 ≤ 2 ^ (m.log2 + 1) := by exact_mod_cast Nat.lt_log2_self
  have hge := (Int.zpow_le_iff_le_log (b := 2) one_lt_two (x := m.log2 + e) hx).1 (by
    rw [Nat.cast_ofNat, zpow_add₀ two_ne_zero, zpow_natCast]
    exact le_trans (by gcongr) hle)
  have hgt := (Int.lt_zpow_iff_log_lt (b := 2) one_lt_two (x := m.log2 + 1 + e) hx).1 (by
    rw [Nat.cast_ofNat, zpow_add₀ two_ne_zero]
    refine lt_of_lt_of_le hlt ?_
    gcongr
    exact_mod_cast hhigh)
  omega

theorem log_eq_self (h0 : 0 < m) (e : ℤ) : Int.log 2 ((m : ℚ) * 2 ^ e) = m.log2 + e := by
  refine log_eq h0 le_rfl ?_
  rw [add_mul, one_mul]
  exact lt_add_of_pos_right _ (by positivity)

/-- What has a significand of at most fifty-three bits and no exponent below the least one is kept. -/
theorem nearest_of_lt (hm : m < 2 ^ 53) (he : -1074 ≤ e) : nearest (m * 2 ^ e) = m * 2 ^ e := by
  rcases Nat.eq_zero_or_pos m with rfl | h0
  · rw [Nat.cast_zero, zero_mul, nearest_zero]
  · have hlog : m.log2 < 53 := (Nat.log2_lt h0.ne').2 hm
    have hgrid : grid (m * 2 ^ e) ≤ e := by
      unfold grid
      rw [log_eq_self h0]
      omega
    have hwhole : (m : ℚ) * 2 ^ e / 2 ^ grid (m * 2 ^ e) = (m * 2 ^ (e - grid (m * 2 ^ e)).toNat : ℕ) := by
      rw [mul_div_assoc, ← zpow_sub₀ two_ne_zero]
      push_cast
      rw [← zpow_natCast, Int.toNat_of_nonneg (by omega)]
    unfold nearest
    rw [hwhole, nearestEven_natCast, ← hwhole]
    field_simp

theorem nearest_natCast {n : ℕ} (h : n < 2 ^ 53) : nearest n = n := by
  have hn := nearest_of_lt (e := 0) h (by decide)
  rwa [zpow_zero, mul_one] at hn

/-- Rounding moves a number by half a unit at most. -/
theorem abs_nearest_sub_le {x : ℚ} (hx : 0 ≤ x) : |nearest x - x| ≤ 2 ^ grid x / 2 := by
  have hunit := abs_nearestEven_sub_le (div_nonneg hx (by positivity : (0 : ℚ) ≤ 2 ^ grid x))
  have hscale : nearest x - x = (nearestEven (x / 2 ^ grid x) - x / 2 ^ grid x) * 2 ^ grid x := by
    unfold nearest
    field_simp
  rw [hscale, abs_mul, abs_of_pos (by positivity : (0 : ℚ) < 2 ^ grid x)]
  calc |(nearestEven (x / 2 ^ grid x) : ℚ) - x / 2 ^ grid x| * 2 ^ grid x ≤ 1 / 2 * 2 ^ grid x := by gcongr
    _ = 2 ^ grid x / 2 := by ring

/-! ## Rounding in the format -/

variable {x : ℚ} {acc : Accuracy}

/-- A significand that is read off at an exponent which is not too high is moved to the grid. -/
theorem shift_kept (hx : 0 < x) (he : e ≤ grid x)
    (hk : ExtendedMantissa.ofMantissaAndAccuracy m acc = kept (x / 2 ^ e)) :
    shiftToTargetExponent .binary64 m e acc = (kept (x / 2 ^ grid x), grid x) := by
  have hm : m = ⌊x / 2 ^ e⌋₊ := by
    have h := congrArg ExtendedMantissa.mantissa hk
    cases acc with
    | exact => exact h
    | inexact o => cases o <;> exact h
  have ht : Format.binary64.targetExponent (totalExponent m e) = grid x := by
    simp only [Format.targetExponent, totalExponent, Format.mantissaBits, Format.minExponent]
    by_cases h0 : m = 0
    · -- nothing is left of a number below the unit, which is then the least one
      have hsmall : x < 2 ^ e := by
        rw [← div_lt_one (by positivity)]
        exact Nat.floor_eq_zero.1 (hm.symm.trans h0)
      have hlog' := (Int.lt_zpow_iff_log_lt (b := 2) one_lt_two (x := e) hx).1 (by exact_mod_cast hsmall)
      subst h0
      unfold grid at he ⊢
      simp
      omega
    · have hle : (m : ℚ) ≤ x / 2 ^ e := by
        rw [hm]
        exact Nat.floor_le (by positivity)
      have hlt : x / 2 ^ e < m + 1 := by
        rw [hm]
        exact Nat.lt_floor_add_one _
      rw [le_div_iff₀ (by positivity)] at hle
      rw [div_lt_iff₀ (by positivity)] at hlt
      have := log_eq (Nat.pos_of_ne_zero h0) hle hlt
      unfold grid
      omega
  have hs : e + ((grid x - e).toNat : ℤ) = grid x := by omega
  have hpow : x / 2 ^ e / 2 ^ (grid x - e).toNat = x / 2 ^ grid x := by
    rw [div_div, ← zpow_natCast, ← zpow_add₀ two_ne_zero, hs]
  simp only [shiftToTargetExponent, ht, shiftToExponent, hk, hs]
  rw [kept_shiftRight (by positivity), hpow]

/-- A rounded significand has a place in a double, if need be with its last bit taken off. -/
theorem carry {r : ℕ} {g : ℤ} (hr : r ≤ 2 ^ 53) (hg : -1074 ≤ g) (hg' : g ≤ 970)
    (hfull : 2 ^ 52 ≤ r ∨ g = -1074) :
    let em := (ExtendedMantissa.mk r false false) >>> excess r g
    em.mantissa = 0 ∧ r = 0 ∨
    Canonical em.mantissa (g + excess r g) ∧ (em.mantissa : ℚ) * 2 ^ (g + excess r g) = r * 2 ^ g := by
  intro em
  rcases Nat.lt_or_eq_of_le hr with hlt | rfl
  · have hx := excess_of_lt hlt hg
    have hem : em.mantissa = r := by
      show ((ExtendedMantissa.mk r false false) >>> excess r g).mantissa = r
      rw [hx]
      rfl
    rw [hem, hx, Nat.cast_zero, add_zero]
    rcases Nat.eq_zero_or_pos r with h0 | h0
    · exact .inl ⟨h0, h0⟩
    · exact .inr ⟨⟨h0, hlt, hg, by omega, hfull⟩, rfl⟩
  · have hx : excess (2 ^ 53) g = 1 := by
      unfold excess
      rw [Nat.log2_two_pow]
      omega
    have hem : em.mantissa = 2 ^ 52 := by
      show ((ExtendedMantissa.mk (2 ^ 53) false false) >>> excess (2 ^ 53) g).mantissa = 2 ^ 52
      rw [hx, shiftRight_succ]
      rfl
    rw [hem, hx]
    refine .inr ⟨⟨by decide, by decide, by omega, by omega, .inl le_rfl⟩, ?_⟩
    rw [Nat.cast_one, zpow_add_one₀ two_ne_zero]
    push_cast
    ring

/-- A number in range is rounded to the double nearest to it, or to zero. -/
theorem round_kept (hx : 0 < x) (hb : x < 2 ^ (1023 : ℤ)) (he : e ≤ grid x)
    (hk : ExtendedMantissa.ofMantissaAndAccuracy m acc = kept (x / 2 ^ e)) (s : Sign) :
    roundWithAccuracy .binary64 s m e acc = .zero s ∧ nearest x = 0 ∨
    ∃ m' e', ∃ h : Canonical m' e',
      roundWithAccuracy .binary64 s m e acc = .finite s m' e' h.pos ∧ nearest x = m' * 2 ^ e' := by
  have hgrid : grid x ≤ 970 := by
    have := (Int.lt_zpow_iff_log_lt (b := 2) one_lt_two (x := 1023) hx).1 (by exact_mod_cast hb)
    unfold grid
    omega
  have hfull : 2 ^ 52 ≤ nearestEven (x / 2 ^ grid x) ∨ grid x = -1074 := by
    rcases (least_le_grid x).eq_or_lt with heq | hlt
    · exact .inr heq.symm
    · exact .inl (le_nearestEven_grid hx hlt)
  have hround : roundWithAccuracy .binary64 s m e acc =
      let r := nearestEven (x / 2 ^ grid x)
      let em := (ExtendedMantissa.mk r false false) >>> excess r (grid x)
      if h : em.mantissa = 0 then .zero s
      else .finite s em.mantissa (grid x + excess r (grid x)) (Nat.pos_of_ne_zero h) := by
    unfold roundWithAccuracy
    simp only [shift_kept hx he hk, kept_roundedMantissa (by positivity : 0 ≤ x / 2 ^ grid x), shift_eq]
  rw [hround]
  rcases carry (nearestEven_grid_le x) (least_le_grid x) hgrid hfull with ⟨hem, h0⟩ | ⟨hc, hv⟩
  · refine .inl ⟨dif_pos hem, ?_⟩
    unfold nearest
    rw [h0, Nat.cast_zero, zero_mul]
  · exact .inr ⟨_, _, hc, dif_neg hc.pos.ne', hv.symm⟩

end BlochSphere.Binary64
