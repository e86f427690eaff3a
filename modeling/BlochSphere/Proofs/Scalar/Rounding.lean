/-
Rounding in double precision. A finite double is a significand and an exponent in canonical form,
and packing such a pair into bits and reading it back gives the pair. Rounding does not pass a
double: what is at most a double is at most it when rounded too. And it reaches zero only from half
the least positive double downwards.
-/
import BlochSphere.Proofs.Scalar.WholeNumbers

namespace BlochSphere.Binary64

open Float.Model Float.Model.UnpackedFloat

/-- The pairs that positive doubles are read as: a full significand, or the least exponent. -/
structure Canonical (m : Nat) (e : Int) : Prop where
  pos : 0 < m
  upper : m < 2 ^ 53
  least : -1074 ≤ e
  greatest : e ≤ 971
  full : 2 ^ 52 ≤ m ∨ e = -1074

variable {m M : Nat} {e E : Int} {s : Sign}

/-! ## Packing and unpacking -/

theorem unpackSign_components (s : Sign) (field : BitVec 11) (fraction : BitVec 52) :
    Sign.ofBitVec (unpackSign (packComponents .binary64 s field fraction)) = s := by
  have h : unpackSign (packComponents .binary64 s field fraction) = s.toBitVec := by
    show (s.toBitVec ++ field ++ fraction).extractLsb' 63 1 = s.toBitVec
    rw [BitVec.extractLsb'_append_eq_of_le (by decide), BitVec.extractLsb'_append_eq_of_le (by decide)]
    exact BitVec.extractLsb'_eq_self
  rw [h]
  cases s <;> rfl

theorem leading_one (fraction : BitVec 52) : (1#1 ++ fraction).toNat = 2 ^ 52 + fraction.toNat := by
  rw [BitVec.toNat_append, ← Nat.shiftLeft_add_eq_or_of_lt fraction.isLt, Nat.shiftLeft_eq]
  rfl

theorem unpack_components (s : Sign) (field : BitVec 11) (fraction : BitVec 52) :
    UnpackedFloat.unpack .binary64 (packComponents .binary64 s field fraction) =
      if field = -1#11 then if fraction = 0#52 then .infinity s else .notANumber
      else if field = 0#11 then
        if h : fraction = 0#52 then .zero s
        else .finite s fraction.toNat (-1074) (by simpa [BitVec.toNat_pos, BitVec.pos_iff_ne_zero])
      else .finite s (1#1 ++ fraction).toNat (field.toNat - 1075)
        (by rw [leading_one]; omega) := by
  unfold UnpackedFloat.unpack
  simp only [unpackMantissa_packComponents, unpackExponent_packComponents, unpackSign_components]
  split
  · rfl
  · split
    · rename_i h0
      subst h0
      rfl
    · rfl

/-- A finite double is read as a canonical pair. -/
theorem canonical_of_unpack {x : Float} {hm : 0 < m} (h : x.toModel.unpack = .finite s m e hm) :
    Canonical m e := by
  change UnpackedFloat.unpack .binary64 x.toModel.toBits.toBitVec = _ at h
  unfold UnpackedFloat.unpack at h
  extract_lets fraction field exponent sign at h
  have hfield : field.toNat < 2 ^ 11 := field.isLt
  have hfraction : fraction.toNat < 2 ^ 52 := fraction.isLt
  have hexponent : exponent = field.toNat - 1075 := rfl
  by_cases hinf : field = -1#11
  · rw [if_pos hinf] at h
    split at h <;> cases h
  · have hne : field.toNat ≠ 2047 := fun hn => hinf (BitVec.eq_of_toNat_eq hn)
    rw [if_neg hinf] at h
    by_cases hzero : field = 0#11
    · have hn : field.toNat = 0 := by rw [hzero]; rfl
      rw [if_pos hzero] at h
      by_cases hf : fraction = 0#52
      · rw [dif_pos hf] at h
        cases h
      · rw [dif_neg hf] at h
        obtain ⟨-, rfl, rfl⟩ := UnpackedFloat.finite.inj h
        exact ⟨hm, by omega, by omega, by omega, .inr (by omega)⟩
    · have hn : field.toNat ≠ 0 := fun hn => hzero (BitVec.eq_of_toNat_eq hn)
      rw [if_neg hzero] at h
      obtain ⟨-, rfl, rfl⟩ := UnpackedFloat.finite.inj h
      rw [leading_one] at hm ⊢
      exact ⟨hm, by omega, by omega, by omega, .inl (by omega)⟩

namespace Canonical

/-- A double with a full significand keeps its exponent field, the others have field zero. -/
theorem pack_eq (h : Canonical m e) (s : Sign) : UnpackedFloat.pack .binary64 (.finite s m e h.pos) =
    packComponents .binary64 s (BitVec.ofNat 11 (if 2 ^ 52 ≤ m then (e + 1075).toNat else 0))
      (BitVec.ofNat 52 m) := by
  have ⟨h0, h1, h2, h3, h4⟩ := h
  have hb : (e + Format.binary64.exponentBias + Format.binary64.mantissaBitsWithoutImplicit).toNat =
      (e + 1075).toNat := by
    simp only [Format.exponentBias]
    omega
  have hfit : ¬ 2 ^ Format.binary64.exponentBits ≤ (e + 1075).toNat + 1 := by
    show ¬ 2 ^ 11 ≤ _
    omega
  simp only [UnpackedFloat.pack, hb, if_neg hfit]
  by_cases hfull : 2 ^ 52 ≤ m
  · have hlog : m.log2 = 52 := (Nat.log2_eq_iff h0.ne').2 ⟨hfull, h1⟩
    rw [if_pos hfull, hlog]
    rfl
  · have hlog : m.log2 < 52 := (Nat.log2_lt h0.ne').2 (by omega)
    have hbits : ¬ m.log2 + 1 = Format.binary64.mantissaBits := by
      show ¬ m.log2 + 1 = 53
      omega
    rw [if_neg hfull, if_neg hbits]

theorem unpack_pack (h : Canonical m e) (s : Sign) :
    (Float.Model.pack (.finite s m e h.pos)).unpack = .finite s m e h.pos := by
  have ⟨h0, h1, h2, h3, h4⟩ := h
  show UnpackedFloat.unpack .binary64 (UnpackedFloat.pack .binary64 (.finite s m e h.pos)) = _
  rw [h.pack_eq, unpack_components]
  by_cases hfull : 2 ^ 52 ≤ m
  · have hf : (BitVec.ofNat 11 (e + 1075).toNat).toNat = (e + 1075).toNat := by
      rw [BitVec.toNat_ofNat]
      omega
    have hm : (BitVec.ofNat 52 m).toNat = m - 2 ^ 52 := by
      rw [BitVec.toNat_ofNat]
      omega
    have hinf : ¬ BitVec.ofNat 11 (e + 1075).toNat = -1#11 := by
      intro hn
      have hn : _ = 2047 := congrArg BitVec.toNat hn
      omega
    have hzero : ¬ BitVec.ofNat 11 (e + 1075).toNat = 0#11 := by
      intro hn
      have hn : _ = 0 := congrArg BitVec.toNat hn
      omega
    rw [if_pos hfull, if_neg hinf, if_neg hzero]
    congr 1
    · rw [leading_one, hm]
      omega
    · rw [hf]
      omega
  · have hm : (BitVec.ofNat 52 m).toNat = m := by
      rw [BitVec.toNat_ofNat]
      omega
    have hne : ¬ BitVec.ofNat 52 m = 0#52 := by
      intro hn
      have hn : _ = 0 := congrArg BitVec.toNat hn
      omega
    rw [if_neg hfull, if_neg (by decide), if_pos (by decide), dif_neg hne]
    congr 1
    omega

end Canonical

/-! ## Taking bits off a significand -/

/-- `m / 2 ^ k`, rounded to the nearest natural number, halves to the even one. -/
def rounded (m k : Nat) : Nat := ((ExtendedMantissa.mk m false false) >>> k).roundedMantissa

/-- What is left after `k + 1` shifts: the quotient, the last bit shifted out, and whether any bit
before it was set. -/
theorem shiftRight_succ (m k : Nat) : (ExtendedMantissa.mk m false false) >>> (k + 1) =
    ⟨m / 2 ^ (k + 1), m / 2 ^ k % 2 != 0, m % 2 ^ k != 0⟩ := by
  induction k with
  | zero => simp [HShiftRight.hShiftRight, Nat.repeat, ExtendedMantissa.shiftRightOne, Nat.mod_one]
  | succ k ih =>
    have hs : (ExtendedMantissa.mk m false false) >>> (k + 1 + 1) =
        ((ExtendedMantissa.mk m false false) >>> (k + 1)).shiftRightOne := rfl
    have hq : m / 2 ^ (k + 1) / 2 = m / 2 ^ (k + 1 + 1) := by
      rw [Nat.div_div_eq_div_mul, ← Nat.pow_succ]
    have hr : m % 2 ^ (k + 1) = m % 2 ^ k + 2 ^ k * (m / 2 ^ k % 2) := Nat.mod_pow_succ
    rw [hs, ih, ExtendedMantissa.shiftRightOne, hq, hr]
    congr 1
    rcases Nat.mod_two_eq_zero_or_one (m / 2 ^ k) with h | h <;> simp [h]

theorem rounded_bounds (m k : Nat) : m / 2 ^ k ≤ rounded m k ∧ rounded m k ≤ m / 2 ^ k + 1 := by
  have hb : ∀ em : ExtendedMantissa, em.mantissa ≤ em.roundedMantissa ∧
      em.roundedMantissa ≤ em.mantissa + 1 := by
    rintro ⟨m, roundBit, stickyBit⟩
    have := Nat.mod_lt m (show 0 < 2 by decide)
    cases roundBit <;> cases stickyBit <;>
      simp [ExtendedMantissa.roundedMantissa, ExtendedMantissa.accuracy, Accuracy.roundToNearestEven]
    omega
  have hm : ((ExtendedMantissa.mk m false false) >>> k).mantissa = m / 2 ^ k := by
    cases k with
    | zero => simp [HShiftRight.hShiftRight, Nat.repeat]
    | succ k => rw [shiftRight_succ]
  exact hm ▸ hb _

/-- Rounding does not pass a whole number from below. -/
theorem rounded_le {k c : Nat} (h : m ≤ c * 2 ^ k) : rounded m k ≤ c := by
  have hk : 0 < 2 ^ k := Nat.two_pow_pos k
  rcases Nat.lt_or_eq_of_le h with hlt | rfl
  · have hq : m / 2 ^ k < c := (Nat.div_lt_iff_lt_mul hk).2 hlt
    have := (rounded_bounds m k).2
    omega
  · rw [rounded, shiftRight_exact]
    exact Nat.le_refl c

theorem le_rounded {k c : Nat} (h : c * 2 ^ k ≤ m) : c ≤ rounded m k :=
  Nat.le_trans ((Nat.le_div_iff_mul_le (Nat.two_pow_pos k)).2 h) (rounded_bounds m k).1

/-- More than a half is not rounded to zero. -/
theorem rounded_pos {k : Nat} (h : 2 ^ k < 2 * m) : 0 < rounded m k := by
  by_cases hm : 2 ^ k ≤ m
  · exact le_rounded (by omega)
  · cases k with
    | zero => omega
    | succ k =>
      have hk : 0 < 2 ^ k := Nat.two_pow_pos k
      rw [Nat.pow_succ] at h hm
      have hq : m / 2 ^ k = 1 := Nat.div_eq_of_lt_le (by omega) (by omega)
      have hr : m % 2 ^ k ≠ 0 := by
        have := Nat.div_add_mod m (2 ^ k)
        rw [hq] at this
        omega
      have hr : (m % 2 ^ k != 0) = true := bne_iff_ne.2 hr
      rw [rounded, shiftRight_succ, hq, hr]
      exact Nat.succ_pos _

/-! ## Rounding to a double -/

/-- How many low bits of `m · 2 ^ e` have no place in a double. -/
def excess (m : Nat) (e : Int) : Nat := (max (m.log2 + e - 52) (-1074) - e).toNat

theorem shift_eq (m : Nat) (e : Int) : shiftToTargetExponent .binary64 m e .exact =
    ((ExtendedMantissa.mk m false false) >>> excess m e, e + excess m e) := by
  have ht : Format.binary64.targetExponent (totalExponent m e) = max (m.log2 + e - 52) (-1074) := by
    simp only [Format.targetExponent, totalExponent, Format.mantissaBits, Format.minExponent]
    omega
  simp only [shiftToTargetExponent, ht, shiftToExponent, ExtendedMantissa.ofMantissaAndAccuracy, excess]

theorem excess_of_lt {r : Nat} (hr : r < 2 ^ 53) (he : -1074 ≤ e) : excess r e = 0 := by
  have hl : r.log2 < 53 := by
    by_cases h0 : r = 0
    · subst h0
      decide
    · exact (Nat.log2_lt h0).2 hr
  unfold excess
  omega

theorem least_le (m : Nat) (e : Int) : -1074 ≤ e + excess m e := by
  unfold excess
  omega

theorem rounded_excess_le (m : Nat) (e : Int) : rounded m (excess m e) ≤ 2 ^ 53 := by
  refine rounded_le ?_
  calc m ≤ 2 ^ (m.log2 + 1) := Nat.le_of_lt Nat.lt_log2_self
    _ ≤ 2 ^ (53 + excess m e) := Nat.pow_le_pow_right (by decide) (by unfold excess; omega)
    _ = 2 ^ 53 * 2 ^ excess m e := Nat.pow_add ..

theorem round_eq (s : Sign) (m : Nat) (e : Int) : roundWithAccuracy .binary64 s m e .exact =
    let r := rounded m (excess m e)
    let k := excess r (e + excess m e)
    let em := (ExtendedMantissa.mk r false false) >>> k
    if h : em.mantissa = 0 then .zero s
    else .finite s em.mantissa (e + excess m e + k) (Nat.pos_of_ne_zero h) := by
  unfold roundWithAccuracy
  simp only [shift_eq]
  rfl

theorem round_of_lt (hr : rounded m (excess m e) < 2 ^ 53) : roundWithAccuracy .binary64 s m e .exact =
    if h : rounded m (excess m e) = 0 then .zero s
    else .finite s (rounded m (excess m e)) (e + excess m e) (Nat.pos_of_ne_zero h) := by
  have hx := excess_of_lt hr (least_le m e)
  rw [round_eq]
  simp only [hx, Nat.cast_zero, Int.add_zero]
  rfl

/-- Rounding up to one bit more than a significand has carries into the exponent. -/
theorem round_of_carry (hr : rounded m (excess m e) = 2 ^ 53) :
    roundWithAccuracy .binary64 s m e .exact = .finite s (2 ^ 52) (e + excess m e + 1) (by decide) := by
  have hx : excess (2 ^ 53) (e + excess m e) = 1 := by
    have := least_le m e
    unfold excess at this ⊢
    rw [Nat.log2_two_pow]
    omega
  rw [round_eq, hr]
  simp only [hx, shiftRight_succ]
  rfl

/-- Rounding does not pass a double: what is at most `M · 2 ^ E` becomes zero or a double that is at
most `M · 2 ^ E`. -/
theorem round_below (hM : Canonical M E) {d : Nat} (h0 : 2 ^ 52 ≤ m) (hm : m ≤ M * 2 ^ d) (s : Sign) :
    roundWithAccuracy .binary64 s m (E - d) .exact = .zero s ∨
    ∃ m' e', ∃ h : Canonical m' e', roundWithAccuracy .binary64 s m (E - d) .exact = .finite s m' e' h.pos ∧
      (e' < E ∨ e' = E ∧ m' ≤ M) := by
  have ⟨_, hM1, hM2, hM3, hM4⟩ := hM
  have hlog : 52 ≤ m.log2 := (Nat.le_log2 (by omega)).2 h0
  have hlogd : m.log2 < 53 + d := by
    refine (Nat.log2_lt (by omega)).2 (Nat.lt_of_le_of_lt hm ?_)
    rw [Nat.pow_add]
    exact Nat.mul_lt_mul_of_pos_right hM1 (Nat.two_pow_pos d)
  -- the exponent of the rounded number, were there no carry
  obtain ⟨t, ht⟩ : ∃ t, t = E - d + excess m (E - d) := ⟨_, rfl⟩
  have htE : t ≤ E := by
    unfold excess at ht
    omega
  have hfull : 2 ^ 52 ≤ rounded m (excess m (E - d)) ∨ t = -1074 := by
    by_cases htl : t = -1074
    · exact .inr htl
    · refine .inl (le_rounded ?_)
      have hk : 52 + excess m (E - d) = m.log2 := by
        unfold excess at ht ⊢
        omega
      rw [← Nat.pow_add, hk]
      exact Nat.log2_self_le (by omega)
  have hle : t = E → rounded m (excess m (E - d)) ≤ M := by
    intro heq
    rw [show excess m (E - d) = d by omega]
    exact rounded_le hm
  have htl : -1074 ≤ t := ht ▸ least_le m (E - d)
  rcases Nat.lt_or_eq_of_le (rounded_excess_le m (E - d)) with hr | hr
  · rw [round_of_lt hr, ← ht]
    by_cases hz : rounded m (excess m (E - d)) = 0
    · exact .inl (dif_pos hz)
    · refine .inr ⟨_, t, ⟨Nat.pos_of_ne_zero hz, hr, htl, by omega, hfull⟩, dif_neg hz, ?_⟩
      rcases Int.lt_or_eq_of_le htE with hlt | heq
      · exact .inl hlt
      · exact .inr ⟨heq, hle heq⟩
  · rw [round_of_carry hr, ← ht]
    have hlt : t < E := by
      refine lt_of_le_of_ne htE fun heq => ?_
      have := hle heq
      omega
    refine .inr ⟨2 ^ 52, t + 1, ⟨by decide, by decide, by omega, by omega, .inl (Nat.le_refl _)⟩, rfl, ?_⟩
    omega

/-- Rounding does not reach zero from more than half the least positive double. -/
theorem round_ne_zero (h : 2 ^ (-1074 - e).toNat < 2 * m) :
    roundWithAccuracy .binary64 s m e .exact ≠ .zero s := by
  have hpos : 0 < rounded m (excess m e) := by
    by_cases hm : 2 ^ excess m e ≤ m
    · exact le_rounded (by omega)
    · have hlog : 2 ^ m.log2 ≤ m := Nat.log2_self_le (by have := Nat.two_pow_pos (-1074 - e).toNat; omega)
      have hlt : m.log2 < excess m e := by
        refine (Nat.pow_lt_pow_iff_right (by decide : 1 < 2)).1 ?_
        omega
      have hx : excess m e = (-1074 - e).toNat := by
        unfold excess at hlt ⊢
        omega
      exact rounded_pos (hx ▸ h)
  rcases Nat.lt_or_eq_of_le (rounded_excess_le m e) with hr | hr
  · rw [round_of_lt hr, dif_neg hpos.ne']
    exact nofun
  · rw [round_of_carry hr]
    exact nofun

/-! ## Numbers without a minus sign -/

/-- What a double without a minus sign is read as, or one that is no number. -/
inductive Unsigned : UnpackedFloat → Prop where
  | notANumber : Unsigned .notANumber
  | infinity : Unsigned (.infinity .positive)
  | zero : Unsigned (.zero .positive)
  | finite {m : Nat} {e : Int} (h : Canonical m e) : Unsigned (.finite .positive m e h.pos)

/-- The sign that is packed; what is no number has none, and is packed with a plus. -/
def signOf : UnpackedFloat → Sign
  | .notANumber => .positive
  | .infinity s => s
  | .zero s => s
  | .finite s .. => s

theorem pack_sign (v : UnpackedFloat) : ∃ field fraction,
    UnpackedFloat.pack .binary64 v = packComponents .binary64 (signOf v) field fraction := by
  cases v with
  | notANumber => exact ⟨_, _, rfl⟩
  | infinity s => exact ⟨_, _, rfl⟩
  | zero s => exact ⟨_, _, rfl⟩
  | finite s m e hm =>
    simp only [UnpackedFloat.pack]
    split
    · exact ⟨_, _, rfl⟩
    · split <;> exact ⟨_, _, rfl⟩

/-- Equal signs cancel in a product. -/
theorem signOf_mul {v u : UnpackedFloat} (h : signOf v = signOf u) :
    signOf (UnpackedFloat.mul .binary64 v u) = .positive := by
  have hs : ∀ {s t : Sign}, s = t → s * t = .positive := by
    rintro s _ rfl
    cases s <;> rfl
  cases v with
  | notANumber => rfl
  | infinity s =>
    cases u with
    | notANumber => rfl
    | zero t => rfl
    | infinity t => exact hs h
    | finite t => exact hs h
  | zero s =>
    cases u with
    | notANumber => rfl
    | infinity t => rfl
    | zero t => exact hs h
    | finite t => exact hs h
  | finite s m e hm =>
    cases u with
    | notANumber => rfl
    | infinity t => exact hs h
    | zero t => exact hs h
    | finite t m' e' hm' =>
      simp only [UnpackedFloat.mul, round_eq]
      split <;> exact hs h

theorem unsigned_of_pack {x : Float} {v : UnpackedFloat} (hv : signOf v = .positive)
    (hx : x.toModel = Float.Model.pack v) : Unsigned x.toModel.unpack := by
  obtain ⟨field, fraction, hp⟩ := pack_sign v
  have hu : x.toModel.unpack = UnpackedFloat.unpack .binary64 (UnpackedFloat.pack .binary64 v) := by
    rw [hx]
    rfl
  rw [hp, hv, unpack_components] at hu
  by_cases hinf : field = -1#11
  · rw [hu, if_pos hinf]
    split
    · exact .infinity
    · exact .notANumber
  · rw [if_neg hinf] at hu
    by_cases hzero : field = 0#11
    · rw [if_pos hzero] at hu
      by_cases hf : fraction = 0#52
      · rw [hu, dif_pos hf]
        exact .zero
      · rw [dif_neg hf] at hu
        exact hu ▸ .finite (canonical_of_unpack hu)
    · rw [if_neg hzero] at hu
      exact hu ▸ .finite (canonical_of_unpack hu)

theorem unsigned_mul {x y : Float} (h : signOf x.toModel.unpack = signOf y.toModel.unpack) :
    Unsigned (x * y).toModel.unpack :=
  unsigned_of_pack (signOf_mul h) rfl

namespace Unsigned

variable {u : UnpackedFloat}

theorem signOf_eq (hu : Unsigned u) : signOf u = .positive := by
  cases hu <;> rfl

theorem unpack_pack (hu : Unsigned u) : (Float.Model.pack u).unpack = u := by
  cases hu with
  | finite h => exact h.unpack_pack .positive
  | _ => rfl

theorem add_zero (hu : Unsigned u) : UnpackedFloat.add .binary64 u (.zero .positive) = u := by
  cases hu <;> rfl

theorem zero_add (hu : Unsigned u) : UnpackedFloat.add .binary64 (.zero .positive) u = u := by
  cases hu <;> rfl

/-- Nothing without a minus sign is below zero. -/
theorem le_zero (hu : Unsigned u) : u.le (.zero .positive) = u.beq (.zero .positive) := by
  cases hu <;> rfl

theorem eq_zero (hu : Unsigned u) (h : u.beq (.zero .positive) = true) :
    u = .zero .positive := by
  cases hu with
  | zero => rfl
  | _ => cases h

end Unsigned

/-! ## Operations on doubles -/

theorem unpack_mul (x y : Float) : (x * y).toModel.unpack =
    (Float.Model.pack (UnpackedFloat.mul .binary64 x.toModel.unpack y.toModel.unpack)).unpack := rfl

theorem lt_iff (x y : Float) : x < y ↔ x.toModel.unpack.lt y.toModel.unpack = true := by
  show Float.lt x y = true ↔ _
  exact decide_eq_true_iff

/-- The least double with a full significand, `2 ^ -1022`. -/
def leastNormal : Float := 2.2250738585072014e-308

theorem unpack_leastNormal : leastNormal.toModel.unpack =
    .finite .positive 4503599627370496 (-1074) (by decide) := by
  have hb : leastNormal.toModel.toBits = 4503599627370496 := by decide +kernel
  show UnpackedFloat.unpack .binary64 leastNormal.toModel.toBits.toBitVec = _
  rw [hb]
  rfl

theorem not_leastNormal_lt {x : Float} {M : Nat} {hM : 0 < M}
    (hx : x.toModel.unpack = .finite .positive M (-1074) hM) (hle : M ≤ 2 ^ 52) : ¬ leastNormal < x := by
  rw [lt_iff, hx, unpack_leastNormal]
  intro h
  have hc : compare 4503599627370496 M = .lt := by
    simpa [UnpackedFloat.lt, UnpackedFloat.compare, Std.compare_self] using h
  have := compare_lt_iff_lt.1 hc
  omega

end BlochSphere.Binary64
