/-
Outcomes of probability zero, in double precision. The share of a draw in the norm is compared with
the probability of zero by `≤`, and draws reach down to zero itself. So the outcome one, when it is
impossible, is not measured unless the norm is no finite number: rounding does not take a share above
the whole. The outcome zero, when it is impossible, is measured at every draw whose share is zero: at
the draw zero, and where the norm is tiny also at draws whose share is rounded to zero.
-/
import BlochSphere.Proofs.Qubit.Sample
import BlochSphere.Proofs.Scalar.Rounding

namespace BlochSphere

open Float.Model Binary64

/-! ## Draws as doubles -/

namespace Random

theorem low_lt (w : UInt64) : ((w <<< 11) >>> 11).toNat < 2 ^ 53 := by
  rw [UInt64.toNat_shiftRight, Nat.shiftRight_eq_div_pow]
  change (w <<< 11).toNat / 2 ^ 11 < 2 ^ 53
  have := (w <<< 11).toNat_lt
  omega

/-- A quotient by `2 ^ 53` is exact: only the exponent changes. -/
theorem div_eq {m : Nat} {e : Int} (h : Normal m e) (h' : Normal m (e - 53)) (he : -52 ≤ e) :
    normal h / Float.ofInt 9007199254740992 = normal h' := by
  have hw : (Float.ofInt 9007199254740992).toModel.unpack =
      .finite .positive 4503599627370496 1 (by decide) := rfl
  have hlog : m.log2 = 52 := by simpa using h.log2 0
  have ht : min (e - 1) (Format.binary64.targetExponent
      (totalExponent m e - totalExponent 4503599627370496 1)) = e - 54 := by
    have hl : Nat.log2 4503599627370496 = 52 := rfl
    simp only [Format.targetExponent, totalExponent, Format.mantissaBits, Format.minExponent, hlog, hl]
    omega
  have hs : (e - 1 - (e - 54)).toNat = 53 := by omega
  have hq : m <<< 53 / 4503599627370496 = m * 2 ^ 1 := by
    rw [Nat.shiftLeft_eq]
    omega
  have hr : m <<< 53 % 4503599627370496 = 0 := by
    rw [Nat.shiftLeft_eq]
    omega
  have hround := h'.round_eq 1 .positive
  rw [show e - 53 - ((1 : Nat) : Int) = e - 54 by omega] at hround
  show (⟨Float.Model.pack (UnpackedFloat.div .binary64 (normal h).toModel.unpack
    (Float.ofInt 9007199254740992).toModel.unpack)⟩ : Float) = _
  rw [h.unpack_eq, hw]
  simp only [UnpackedFloat.div, UnpackedFloat.divCore, ht, hs, hq, hr, UnpackedFloat.accuracyOfFraction,
    if_true]
  exact congrArg (fun u => (⟨Float.Model.pack u⟩ : Float)) hround

/-- A draw is zero, or it is a full significand of at most one that is not below `2 ^ -53`. -/
theorem unit_cases (w : UInt64) : (unit w : Float).toModel.unpack = .zero .positive ∨
    ∃ m e, ∃ hn : Normal m e, unit w = normal hn ∧ -105 ≤ e ∧ m ≤ 2 ^ (-e).toNat := by
  have hlt := low_lt w
  unfold unit
  generalize ((w <<< 11) >>> 11).toNat = k at hlt
  rcases Nat.eq_zero_or_pos k with rfl | h0
  · exact .inl rfl
  · have hn := normal_of_nat h0 hlt
    have hl : k.log2 ≤ 52 := Nat.lt_succ_iff.1 ((Nat.log2_lt h0.ne').2 hlt)
    have hn' : Normal (k * 2 ^ (52 - k.log2)) (k.log2 - 52 - 53) := ⟨hn.lower, hn.upper, by omega, by omega⟩
    refine .inr ⟨_, _, hn', ?_, by omega, ?_⟩
    · show Float.ofInt k / Float.ofInt 9007199254740992 = _
      rw [ofInt_eq h0 hlt]
      exact div_eq hn hn' (by omega)
    · calc k * 2 ^ (52 - k.log2) ≤ 2 ^ 53 * 2 ^ (52 - k.log2) := Nat.mul_le_mul_right _ hlt.le
        _ = 2 ^ (-((k.log2 : Int) - 52 - 53)).toNat := by rw [← Nat.pow_add]; congr 1; omega

/-! ## Shares -/

variable {x : Float} {M : Nat} {E : Int}

/-- The share of a draw in a positive double is zero or a positive double that is not greater. It is
zero for the draw zero, and for others only where the double is one of the least. -/
theorem unpack_unit_mul (hM : Canonical M E) (hx : x.toModel.unpack = .finite .positive M E hM.pos)
    (w : UInt64) :
    ((unit w * x : Float).toModel.unpack = .zero .positive ∧
      ((unit w : Float).toModel.unpack = .zero .positive ∨ E = -1074 ∧ M ≤ 2 ^ 52)) ∨
    ∃ m e, ∃ h : Canonical m e, (unit w * x : Float).toModel.unpack = .finite .positive m e h.pos ∧
      (e < E ∨ e = E ∧ m ≤ M) ∧ (unit w : Float).toModel.unpack ≠ .zero .positive := by
  rcases unit_cases w with hu | ⟨m, e, hn, hu, he, hle⟩
  · refine .inl ⟨?_, .inl hu⟩
    rw [unpack_mul, hu, hx]
    simp only [UnpackedFloat.mul]
    rfl
  · have hn1 := hn.lower
    have hn4 := hn.greatest
    have hmul : (unit w * x : Float).toModel.unpack =
        (Float.Model.pack (UnpackedFloat.roundWithAccuracy .binary64 .positive (m * M)
          (E - (-e).toNat) .exact)).unpack := by
      rw [unpack_mul, hu, hn.unpack_eq, hx, show E - (-e).toNat = e + E by omega]
      rfl
    have hfull : 2 ^ 52 ≤ m * M := Nat.le_trans hn1 (Nat.le_mul_of_pos_right m hM.pos)
    have hbelow : m * M ≤ M * 2 ^ (-e).toNat := by
      rw [Nat.mul_comm]
      exact Nat.mul_le_mul_left M hle
    rcases round_below hM hfull hbelow .positive with hz | ⟨m', e', hc, hr, hle'⟩
    · refine .inl ⟨?_, .inr ?_⟩
      · rw [hmul, hz]
        rfl
      · by_contra hbig
        refine round_ne_zero ?_ hz
        have hM2 : 2 ^ 52 ≤ M := by
          rcases hM.full with hf | hf <;> omega
        have hM3 := hM.least
        have hprod : 2 ^ 52 * M ≤ m * M := Nat.mul_le_mul_right M hn1
        by_cases hE : E = -1074
        · calc 2 ^ (-1074 - (E - (-e).toNat)).toNat ≤ 2 ^ 105 := Nat.pow_le_pow_right (by decide) (by omega)
            _ < 2 * (m * M) := by omega
        · calc 2 ^ (-1074 - (E - (-e).toNat)).toNat ≤ 2 ^ 104 := Nat.pow_le_pow_right (by decide) (by omega)
            _ < 2 * (m * M) := by omega
    · refine .inr ⟨m', e', hc, ?_, hle', ?_⟩
      · rw [hmul, hr, hc.unpack_pack]
      · rw [hu, hn.unpack_eq]
        rintro ⟨⟩

theorem signOf_unit (w : UInt64) : signOf (unit w : Float).toModel.unpack = .positive := by
  rcases unit_cases w with hu | ⟨m, e, hn, hu, -⟩
  · rw [hu]
    rfl
  · rw [hu, hn.unpack_eq]
    rfl

theorem unit_beq_zero (w : UInt64) :
    ((unit w : Float) == 0) = true ↔ (unit w : Float).toModel.unpack = .zero .positive := by
  have h0 : (0 : Float).toModel.unpack = .zero .positive := rfl
  rw [beq_eq, h0]
  constructor
  · intro h
    rcases unit_cases w with hu | ⟨m, e, hn, hu, -⟩
    · exact hu
    · rw [hu, hn.unpack_eq] at h
      cases h
  · intro hu
    rw [hu]
    rfl

/-- A share in a finite whole is not above it. -/
theorem unit_mul_le_finite (hM : Canonical M E) (hx : x.toModel.unpack = .finite .positive M E hM.pos)
    (w : UInt64) : (unit w * x : Float).toModel.unpack.le x.toModel.unpack = true := by
  rcases unpack_unit_mul hM hx w with ⟨hz, -⟩ | ⟨m, e, hc, hu, hle, -⟩
  · rw [hz, hx]
    rfl
  · rw [hu, hx]
    show ((compare e E).then (compare m M)).isLE = true
    rcases hle with hlt | ⟨rfl, hle⟩
    · rw [compare_lt_iff_lt.2 hlt]
      rfl
    · rw [compare_eq_iff_eq.2 rfl]
      exact Std.isLE_compare.2 hle

/-- A share in an infinite whole compares with it unless the draw is zero. -/
theorem unit_mul_le_infinity (hx : x.toModel.unpack = .infinity .positive) (w : UInt64) :
    (unit w * x : Float).toModel.unpack.le x.toModel.unpack = !((unit w : Float) == 0) := by
  rw [Bool.eq_iff_iff, Bool.not_eq_true', ← Bool.not_eq_true, unit_beq_zero, unpack_mul, hx]
  rcases unit_cases w with hu | ⟨m, e, hn, hu, -⟩
  · rw [hu]
    simp only [UnpackedFloat.mul]
    exact ⟨by rintro ⟨⟩, fun hn => absurd trivial hn⟩
  · rw [hu, hn.unpack_eq]
    simp only [UnpackedFloat.mul]
    exact ⟨fun _ => by rintro ⟨⟩, fun _ => rfl⟩

theorem unpack_unit_mul_nan (hx : x.toModel.unpack = .notANumber) (w : UInt64) :
    (unit w * x : Float).toModel.unpack = .notANumber := by
  have hm : ∀ v, UnpackedFloat.mul .binary64 v .notANumber = .notANumber := by
    intro v
    cases v <;> rfl
  rw [unpack_mul, hx, hm]
  rfl

theorem unit_mul_infinity_beq_zero (hx : x.toModel.unpack = .infinity .positive) (w : UInt64) :
    ((unit w * x : Float) == 0) = false := by
  rw [beq_eq, unpack_mul, hx]
  rcases unit_cases w with hu | ⟨m, e, hn, hu, -⟩
  · rw [hu]
    simp only [UnpackedFloat.mul]
    rfl
  · rw [hu, hn.unpack_eq]
    simp only [UnpackedFloat.mul]
    rfl

/-- Above the least double with a full significand, a share is zero for the draw zero only. -/
theorem unit_mul_beq_zero (hM : Canonical M E) (hx : x.toModel.unpack = .finite .positive M E hM.pos)
    (hbig : ¬ (E = -1074 ∧ M ≤ 2 ^ 52)) (w : UInt64) :
    ((unit w * x : Float) == 0) = ((unit w : Float) == 0) := by
  have h0 : (0 : Float).toModel.unpack = .zero .positive := rfl
  rw [Bool.eq_iff_iff, unit_beq_zero, beq_eq, h0]
  rcases unpack_unit_mul hM hx w with ⟨hz, hw⟩ | ⟨m, e, hc, hu, -, hw⟩
  · rw [hz]
    exact ⟨fun _ => hw.resolve_right hbig, fun _ => rfl⟩
  · rw [hu]
    exact ⟨by rintro ⟨⟩, fun hn => absurd hn hw⟩

end Random

/-! ## Impossible outcomes -/

namespace Qubit

open RandomSource (draws)

variable (q : Qubit Float)

theorem measuresZero_eq (u : Float) :
    q.measuresZero u = (u * q.norm).toModel.unpack.le q.p0.toModel.unpack := by
  rw [Bool.eq_iff_iff, measuresZero, decide_eq_true_iff]
  exact le_iff _ _

theorem unsigned_p0 : Unsigned q.p0.toModel.unpack := unsigned_mul rfl

theorem unsigned_p1 : Unsigned q.p1.toModel.unpack := unsigned_mul rfl

variable {q}

theorem unpack_norm_of_p1 (h : q.p1.toModel.unpack = .zero .positive) :
    q.norm.toModel.unpack = q.p0.toModel.unpack := by
  show (Float.Model.pack (UnpackedFloat.add .binary64 q.p0.toModel.unpack q.p1.toModel.unpack)).unpack = _
  rw [h, q.unsigned_p0.add_zero, q.unsigned_p0.unpack_pack]

theorem unpack_norm_of_p0 (h : q.p0.toModel.unpack = .zero .positive) :
    q.norm.toModel.unpack = q.p1.toModel.unpack := by
  show (Float.Model.pack (UnpackedFloat.add .binary64 q.p0.toModel.unpack q.p1.toModel.unpack)).unpack = _
  rw [h, q.unsigned_p1.zero_add, q.unsigned_p1.unpack_pack]

theorem measuresZero_of_p1 (h : q.p1.toModel.unpack = .zero .positive) (u : Float) :
    q.measuresZero u = (u * q.norm).toModel.unpack.le q.norm.toModel.unpack := by
  rw [measuresZero_eq, unpack_norm_of_p1 h]

/-- An impossible zero is measured where the share of the draw is zero. -/
theorem measuresZero_of_p0 (h : q.p0.toModel.unpack = .zero .positive) (w : UInt64) :
    q.measuresZero (Random.unit w) = ((Random.unit w * q.norm : Float) == 0) := by
  have hs : signOf q.norm.toModel.unpack = .positive := by
    rw [unpack_norm_of_p0 h]
    exact q.unsigned_p1.signOf_eq
  rw [measuresZero_eq, h, (unsigned_mul ((Random.signOf_unit w).trans hs.symm)).le_zero]
  rfl

theorem unsigned_norm (h : q.p0.toModel.unpack = .zero .positive ∨ q.p1.toModel.unpack = .zero .positive) :
    Unsigned q.norm.toModel.unpack := by
  rcases h with h | h
  · exact unpack_norm_of_p0 h ▸ q.unsigned_p1
  · exact unpack_norm_of_p1 h ▸ q.unsigned_p0

theorem unpack_norm_ne_zero (hq : (q.norm == 0) = false) : q.norm.toModel.unpack ≠ .zero .positive := by
  intro hn
  have hz : (q.norm == 0) = true := by
    rw [beq_eq, hn]
    rfl
  exact Bool.false_ne_true (hq.symm.trans hz)

/-- What an impossible one is measured at, by what the norm is. -/
theorem ones_of_p1 (hq : (q.norm == 0) = false) (h1 : q.p1.toModel.unpack = .zero .positive)
    (words : List UInt64) :
    (q.norm.isFinite = true → q.ones words = 0) ∧
    (q.norm.isInf = true → q.ones words = words.countP fun w => (Random.unit w : Float) == 0) ∧
    (q.norm.isNaN = true → q.ones words = words.length) := by
  have hu := unsigned_norm (.inr h1)
  have hq := unpack_norm_ne_zero hq
  have hfinite : q.norm.isFinite = q.norm.toModel.unpack.isFinite := rfl
  have hinf : q.norm.isInf = q.norm.toModel.unpack.isInf := rfl
  have hnan : q.norm.isNaN = q.norm.toModel.unpack.isNaN := rfl
  simp only [ones, measuresZero_of_p1 h1]
  generalize hn : q.norm.toModel.unpack = u at *
  cases hu with
  | notANumber =>
    rw [hfinite, hinf]
    refine ⟨by rintro ⟨⟩, by rintro ⟨⟩, fun _ => List.countP_eq_length.2 fun w _ => ?_⟩
    rw [Random.unpack_unit_mul_nan hn]
    rfl
  | infinity =>
    rw [hfinite, hnan]
    refine ⟨by rintro ⟨⟩, fun _ => List.countP_congr fun w _ => ?_, by rintro ⟨⟩⟩
    rw [← hn, Random.unit_mul_le_infinity hn, Bool.not_not]
  | zero => exact absurd rfl hq
  | finite hc =>
    rw [hinf, hnan]
    refine ⟨fun _ => List.countP_eq_zero.2 fun w _ => ?_, by rintro ⟨⟩, by rintro ⟨⟩⟩
    rw [← hn, Random.unit_mul_le_finite hc hn]
    exact Bool.false_ne_true

/-- What an impossible zero is measured at, by what the norm is. -/
theorem zeros_of_p0 (hq : (q.norm == 0) = false) (h0 : q.p0.toModel.unpack = .zero .positive)
    (words : List UInt64) :
    (q.zeros words = words.countP fun w => (Random.unit w * q.norm : Float) == 0) ∧
    (q.norm.isFinite = true → leastNormal < q.norm →
      q.zeros words = words.countP fun w => (Random.unit w : Float) == 0) ∧
    (q.norm.isFinite = false → q.zeros words = 0) := by
  have hu := unsigned_norm (.inl h0)
  have hq := unpack_norm_ne_zero hq
  have hfinite : q.norm.isFinite = q.norm.toModel.unpack.isFinite := rfl
  have hz : q.zeros words = words.countP fun w => (Random.unit w * q.norm : Float) == 0 := by
    simp only [zeros, measuresZero_of_p0 h0]
  refine ⟨hz, ?_⟩
  rw [hz]
  generalize hn : q.norm.toModel.unpack = u at *
  cases hu with
  | notANumber =>
    rw [hfinite]
    refine ⟨by rintro ⟨⟩, fun _ => List.countP_eq_zero.2 fun w _ => ?_⟩
    rw [beq_eq, Random.unpack_unit_mul_nan hn]
    exact Bool.false_ne_true
  | infinity =>
    rw [hfinite]
    refine ⟨by rintro ⟨⟩, fun _ => List.countP_eq_zero.2 fun w _ => ?_⟩
    rw [Random.unit_mul_infinity_beq_zero hn]
    exact Bool.false_ne_true
  | zero => exact absurd rfl hq
  | @finite M E hc =>
    rw [hfinite]
    refine ⟨fun _ hlt => List.countP_congr fun w _ => ?_, by rintro ⟨⟩⟩
    have hbig : ¬ (E = -1074 ∧ M ≤ 2 ^ 52) := by
      rintro ⟨rfl, hM⟩
      exact not_leastNormal_lt hn hM hlt
    rw [Random.unit_mul_beq_zero hc hn hbig]

variable {σ : Type} [RandomSource σ]

/-- When an outcome of a state with a norm has probability zero. The outcome one is then not counted
if the norm is finite; if the norm is infinite it is counted at the draws that are zero, and if the
norm is no number at every draw. The outcome zero is counted at the draws whose share of the norm is
zero: if the norm is finite and above the least double with a full significand these are the draws
that are zero, and if it is not finite there are none. -/
theorem impossible_outcome_counts (q : Qubit Float) (hq : (q.norm == 0) = false) (shots : Int) (source : σ) :
    let h := (q.sample shots source).1
    let words := (draws shots.toNat source).1
    let zeroDraws := words.countP fun w => (Random.unit w : Float) == 0
    ((q.p1 == 0) = true →
      (q.norm.isFinite = true → h.one = 0) ∧ (q.norm.isInf = true → h.one = zeroDraws) ∧
        (q.norm.isNaN = true → h.one = words.length)) ∧
    ((q.p0 == 0) = true →
      (h.zero = words.countP fun w => (Random.unit w * q.norm : Float) == 0) ∧
        (q.norm.isFinite = true → leastNormal < q.norm → h.zero = zeroDraws) ∧
        (q.norm.isFinite = false → h.zero = 0)) := by
  intro h words zeroDraws
  have hs : h = _ := congrArg Prod.fst (sample_eq hq shots source)
  rw [hs]
  exact ⟨fun h1 => ones_of_p1 hq (q.unsigned_p1.eq_zero h1) words,
    fun h0 => zeros_of_p0 hq (q.unsigned_p0.eq_zero h0) words⟩

/-- The state `|1⟩` measured three times, at the draws zero, one half and zero: the outcome zero has
no probability and is counted twice. `|0⟩` never measures one at the same draws, but with an amplitude
that is not a number in the place of its own it measures nothing else. -/
theorem impossible_outcome_counts_at_zero_draws :
    let source := Random.Cycle.ofList [0, 4503599627370496, 0]
    let zeroDraws := (draws 3 source).1.countP fun w => (Random.unit w : Float) == 0
    let broken : Qubit Float := ⟨⟨0, 0.0 / 0.0⟩, ⟨0, 0⟩⟩
    zeroDraws = 2 ∧ ((ket1 : Qubit Float).p0 == 0) = true ∧
      ((ket1 : Qubit Float).sample 3 source).1.zero = 2 ∧
      ((ket0 : Qubit Float).p1 == 0) = true ∧ ((ket0 : Qubit Float).sample 3 source).1.one = 0 ∧
      broken.norm.isNaN = true ∧ (broken.p1 == 0) = true ∧ (broken.sample 3 source).1.one = 3 := by
  intro source zeroDraws broken
  have hd : zeroDraws = 2 := by decide +kernel
  have h0 : ((ket1 : Qubit Float).p0 == 0) = true := by decide +kernel
  have h1 : ((ket0 : Qubit Float).p1 == 0) = true := by decide +kernel
  have hb : (broken.p1 == 0) = true := by decide +kernel
  have hn0 : ((ket0 : Qubit Float).norm == 0) = false := by decide +kernel
  have hn1 : ((ket1 : Qubit Float).norm == 0) = false := by decide +kernel
  have hnb : (broken.norm == 0) = false := by decide +kernel
  have hf0 : (ket0 : Qubit Float).norm.isFinite = true := by decide +kernel
  have hf1 : (ket1 : Qubit Float).norm.isFinite = true := by decide +kernel
  have hnan : broken.norm.isNaN = true := by decide +kernel
  have hlt : leastNormal < (ket1 : Qubit Float).norm := by decide +kernel
  have hwords : (draws 3 source).1.length = 3 := by decide +kernel
  refine ⟨hd, h0, ?_, h1, ?_, hnan, hb, ?_⟩
  · exact (((impossible_outcome_counts ket1 hn1 3 source).2 h0).2.1 hf1 hlt).trans hd
  · exact ((impossible_outcome_counts ket0 hn0 3 source).1 h1).1 hf0
  · exact (((impossible_outcome_counts broken hnb 3 source).1 hb).2.2 hnan).trans hwords

/-- An impossible outcome is measured: `|1⟩` at the draw zero. -/
theorem zero_measured_of_zero_draw :
    ¬ ∀ (q : Qubit Float) (shots : Int) (source : Random.Cycle), (q.norm == 0) = false →
      ((q.p0 == 0) = true → (q.sample shots source).1.zero = 0) ∧
      ((q.p1 == 0) = true → (q.sample shots source).1.one = 0) := by
  intro h
  have hz := (h ket1 1 (Random.Cycle.ofList [0]) (by decide +kernel)).1 (by decide +kernel)
  have ho : ((ket1 : Qubit Float).sample 1 (Random.Cycle.ofList [0])).1.zero = 1 := by decide +kernel
  omega

end Qubit

end BlochSphere
