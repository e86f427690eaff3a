/-
Whole numbers in double precision. Up to `2 ^ 53` each of them is a double: its bits say the number,
multiplying it by one does not round, and rounding it down gives it back. So the last step of a path
is reached exactly at its end, however many steps the path is cut into.
-/
import BlochSphere.Proofs.Scalar.UnitInterval

namespace BlochSphere

/-- A scalar in which the number of steps of a path, times a progress of one, is not rounded. -/
class ExactSteps (α : Type) [Scalar α] : Prop where
  floor_one_mul : ∀ n : Nat, n ≤ 2 ^ 53 → Scalar.floor ((1 : α) * Scalar.ofInt n) = n

instance ExactSteps.real : ExactSteps ℝ where
  floor_one_mul n _ := by
    show ⌊(@OfNat.ofNat ℝ 1 (Scalar.instOfNat 1)) * ((n : Int) : ℝ)⌋ = (n : Int)
    rw [Scalar.real_one, one_mul, Int.floor_intCast]

namespace Binary64

open Float.Model Float.Model.UnpackedFloat

/-- The doubles `m · 2 ^ e` with a full significand and no positive exponent. -/
structure Normal (m : Nat) (e : Int) : Prop where
  lower : 2 ^ 52 ≤ m
  upper : m < 2 ^ 53
  least : -1074 ≤ e
  greatest : e ≤ 0

theorem Normal.pos {m : Nat} {e : Int} (h : Normal m e) : 0 < m :=
  Nat.lt_of_lt_of_le (Nat.two_pow_pos 52) h.lower

/-- The double `m · 2 ^ e`. -/
def normal {m : Nat} {e : Int} (h : Normal m e) : Float := ⟨Float.Model.pack (.finite .positive m e h.pos)⟩

variable {m : Nat} {e : Int}

/-! ## Bits -/

theorem Normal.log2 (h : Normal m e) (k : Nat) : (m * 2 ^ k).log2 = 52 + k := by
  have hk : 0 < 2 ^ k := Nat.two_pow_pos k
  have hm := h.pos
  rw [Nat.log2_eq_iff (by positivity), Nat.pow_add, Nat.add_right_comm, Nat.pow_add]
  exact ⟨Nat.mul_le_mul_right _ h.lower, Nat.mul_lt_mul_of_pos_right h.upper hk⟩

theorem Normal.pack_eq (h : Normal m e) : UnpackedFloat.pack .binary64 (.finite .positive m e h.pos) =
    packComponents .binary64 .positive (BitVec.ofNat 11 (e + 1075).toNat) (BitVec.ofNat 52 m) := by
  have ⟨_, _, _, _⟩ := h
  have hlog : m.log2 + 1 = Format.binary64.mantissaBits := by
    have hl := h.log2 0
    rw [Nat.pow_zero, Nat.mul_one] at hl
    rw [hl]
    rfl
  have hb : (e + Format.binary64.exponentBias + Format.binary64.mantissaBitsWithoutImplicit).toNat =
      (e + 1075).toNat := by
    simp only [Format.exponentBias]
    omega
  have hfit : ¬ 2 ^ Format.binary64.exponentBits ≤ (e + 1075).toNat + 1 := by
    show ¬ 2 ^ 11 ≤ _
    omega
  simp only [UnpackedFloat.pack, hb, if_neg hfit, if_pos hlog]

/-- The leading bit of the significand is not stored. -/
theorem Normal.bits (h : Normal m e) :
    (normal h).toBits.toNat = (e + 1075).toNat * 2 ^ 52 + (m - 2 ^ 52) := by
  have ⟨_, _, _, _⟩ := h
  show (UnpackedFloat.pack .binary64 (.finite .positive m e h.pos)).toNat = _
  rw [h.pack_eq, packComponents]
  show ((0#1 ++ BitVec.ofNat 11 (e + 1075).toNat) ++ BitVec.ofNat 52 m).toNat = _
  rw [BitVec.toNat_append, BitVec.toNat_append, ← Nat.shiftLeft_add_eq_or_of_lt (BitVec.isLt _),
    ← Nat.shiftLeft_add_eq_or_of_lt (BitVec.isLt _), BitVec.toNat_ofNat, BitVec.toNat_ofNat,
    BitVec.toNat_ofNat, Nat.shiftLeft_eq, Nat.shiftLeft_eq]
  omega

/-- The three fields of a double, as they are read. -/
theorem read_of_bits {x : Float} {s : Bool} {field fraction : Nat} (h1 : field < 2 ^ 11) (hf : fraction < 2 ^ 52)
    (h : x.toBits.toNat = s.toNat * 2 ^ 63 + field * 2 ^ 52 + fraction) :
    read x = if field = 2047 then if fraction = 0 then .infinite s else .nan
      else if field = 0 then .finite s fraction (-1074)
      else .finite s (fraction + 4503599627370496) (field - 1075) := by
  have hs : (x.toBits >>> 63 == 1) = s := by
    have hn : (x.toBits >>> 63).toNat = s.toNat := by
      rw [UInt64.toNat_shiftRight, h, Nat.shiftRight_eq_div_pow]
      change _ / 2 ^ 63 = _
      omega
    rw [Bool.eq_iff_iff, beq_iff_eq, ← UInt64.toNat_inj, hn]
    cases s <;> decide
  have hfield : ((x.toBits >>> 52) &&& 0x7FF).toNat = field := by
    rw [UInt64.toNat_and, UInt64.toNat_shiftRight, h, Nat.shiftRight_eq_div_pow]
    change (s.toNat * 2 ^ 63 + field * 2 ^ 52 + fraction) / 2 ^ 52 &&& (2 ^ 11 - 1) = field
    rw [Nat.and_two_pow_sub_one_eq_mod]
    omega
  have hfraction : (x.toBits &&& 0xFFFFFFFFFFFFF).toNat = fraction := by
    rw [UInt64.toNat_and, h]
    change (s.toNat * 2 ^ 63 + field * 2 ^ 52 + fraction) &&& (2 ^ 52 - 1) = fraction
    rw [Nat.and_two_pow_sub_one_eq_mod]
    omega
  unfold read
  simp only [hs, hfield, hfraction]

theorem Normal.read_eq (h : Normal m e) : read (normal h) = .finite false m e := by
  have ⟨_, _, _, _⟩ := h
  have hb : (normal h).toBits.toNat = false.toNat * 2 ^ 63 + (e + 1075).toNat * 2 ^ 52 + (m - 2 ^ 52) := by
    rw [h.bits]
    simp
  rw [read_of_bits (by omega) (by omega) hb, if_neg (by omega), if_neg (by omega)]
  congr 1 <;> omega

theorem Normal.unpack_eq (h : Normal m e) :
    (normal h).toModel.unpack = .finite .positive m e h.pos := by
  have ⟨_, _, _, _⟩ := h
  have hfield : (BitVec.ofNat 11 (e + 1075).toNat).toNat = (e + 1075).toNat := by
    rw [BitVec.toNat_ofNat]
    omega
  have hfraction : (1#1 ++ BitVec.ofNat 52 m).toNat = m := by
    rw [BitVec.toNat_append, ← Nat.shiftLeft_add_eq_or_of_lt (BitVec.isLt _), BitVec.toNat_ofNat,
      BitVec.toNat_ofNat, Nat.shiftLeft_eq]
    omega
  have hfinite : BitVec.ofNat 11 (e + 1075).toNat ≠ -1#11 := by
    intro hn
    have hn := congrArg BitVec.toNat hn
    rw [hfield] at hn
    change _ = 2047 at hn
    omega
  have hfull : BitVec.ofNat 11 (e + 1075).toNat ≠ 0#11 := by
    intro hn
    have hn := congrArg BitVec.toNat hn
    rw [hfield] at hn
    change _ = 0 at hn
    omega
  have hs : unpackSign (packComponents .binary64 .positive (BitVec.ofNat 11 (e + 1075).toNat)
      (BitVec.ofNat 52 m)) = 0#1 := by
    show (0#1 ++ BitVec.ofNat 11 (e + 1075).toNat ++ BitVec.ofNat 52 m).extractLsb' 63 1 = 0#1
    rw [BitVec.extractLsb'_append_eq_of_le (by decide), BitVec.extractLsb'_append_eq_of_le (by decide)]
    rfl
  show UnpackedFloat.unpack .binary64 (UnpackedFloat.pack .binary64 (.finite .positive m e h.pos)) = _
  rw [h.pack_eq]
  unfold UnpackedFloat.unpack
  simp only [unpackMantissa_packComponents, unpackExponent_packComponents, hs]
  rw [if_neg hfinite, if_neg hfull]
  simp only [hfraction, hfield]
  congr 1
  simp only [Format.exponentBias]
  omega

/-! ## Rounding that changes nothing -/

theorem shiftRight_exact (k : Nat) :
    ∀ m : Nat, (ExtendedMantissa.mk (m * 2 ^ k) false false) >>> k = ⟨m, false, false⟩ := by
  induction k with
  | zero =>
    intro m
    rw [Nat.pow_zero, Nat.mul_one]
    rfl
  | succ k ih =>
    intro m
    have h := ih (m * 2)
    rw [Nat.mul_assoc, ← Nat.pow_succ'] at h
    show ((ExtendedMantissa.mk (m * 2 ^ (k + 1)) false false) >>> k).shiftRightOne = _
    rw [h]
    simp [ExtendedMantissa.shiftRightOne]

theorem Normal.shift_eq (h : Normal m e) (k : Nat) :
    shiftToTargetExponent .binary64 (m * 2 ^ k) (e - k) .exact = (⟨m, false, false⟩, e) := by
  have ht : Format.binary64.targetExponent (totalExponent (m * 2 ^ k) (e - k)) = e := by
    have hl := h.least
    simp only [Format.targetExponent, totalExponent, Format.mantissaBits, Format.minExponent, h.log2]
    omega
  have hk : (e - (e - k)).toNat = k := by omega
  simp only [shiftToTargetExponent, ht, shiftToExponent, hk, ExtendedMantissa.ofMantissaAndAccuracy,
    shiftRight_exact]
  rw [Int.sub_add_cancel]

/-- Low bits that are all zero are rounded away. -/
theorem Normal.round_eq (h : Normal m e) (k : Nat) (s : Sign) :
    roundWithAccuracy .binary64 s (m * 2 ^ k) (e - k) .exact = .finite s m e h.pos := by
  have h0 := h.shift_eq 0
  simp only [Nat.pow_zero, Nat.mul_one, Nat.cast_zero, Int.sub_zero] at h0
  have hr : (ExtendedMantissa.mk m false false).roundedMantissa = m := rfl
  simp only [roundWithAccuracy, h.shift_eq k, hr, h0]
  exact dif_neg h.pos.ne'

theorem Normal.mul_one (h : Normal m e) {one : Float}
    (h1 : one.toModel.unpack = .finite .positive 4503599627370496 (-52) (by decide)) :
    normal h * one = normal h := by
  show (⟨Float.Model.pack (UnpackedFloat.mul .binary64 (normal h).toModel.unpack one.toModel.unpack)⟩ :
    Float) = _
  rw [h.unpack_eq, h1]
  exact congrArg (fun x => (⟨Float.Model.pack x⟩ : Float)) (h.round_eq 52 .positive)

theorem Normal.one_mul (h : Normal m e) {one : Float}
    (h1 : one.toModel.unpack = .finite .positive 4503599627370496 (-52) (by decide)) :
    one * normal h = normal h := by
  have hr := h.round_eq 52 .positive
  rw [Nat.mul_comm, Int.sub_eq_add_neg, Int.add_comm] at hr
  show (⟨Float.Model.pack (UnpackedFloat.mul .binary64 one.toModel.unpack (normal h).toModel.unpack)⟩ :
    Float) = _
  rw [h.unpack_eq, h1]
  exact congrArg (fun x => (⟨Float.Model.pack x⟩ : Float)) hr

/-! ## Whole numbers -/

/-- A whole number, shifted up until its leading bit is in place. -/
theorem normal_of_nat {n : Nat} (h0 : 0 < n) (h : n < 2 ^ 53) :
    Normal (n * 2 ^ (52 - n.log2)) (n.log2 - 52) := by
  have hl : n.log2 ≤ 52 := Nat.lt_succ_iff.1 ((Nat.log2_lt h0.ne').2 h)
  have h1 : 2 ^ n.log2 ≤ n := Nat.log2_self_le h0.ne'
  have h2 : n < 2 ^ (n.log2 + 1) := Nat.lt_log2_self
  refine ⟨?_, ?_, by omega, by omega⟩
  · calc 2 ^ 52 = 2 ^ n.log2 * 2 ^ (52 - n.log2) := by rw [← Nat.pow_add]; congr 1; omega
      _ ≤ n * 2 ^ (52 - n.log2) := Nat.mul_le_mul_right _ h1
  · calc n * 2 ^ (52 - n.log2) < 2 ^ (n.log2 + 1) * 2 ^ (52 - n.log2) :=
          Nat.mul_lt_mul_of_pos_right h2 (Nat.two_pow_pos _)
      _ = 2 ^ 53 := by rw [← Nat.pow_add]; congr 1; omega

theorem toFloat_eq {n : Nat} (h0 : 0 < n) (h : n < 2 ^ 53) :
    n.toUInt64.toFloat = normal (normal_of_nat h0 h) := by
  have hn : n.toUInt64.toNat = n := by
    rw [Nat.toUInt64, UInt64.toNat_ofNat']
    omega
  have hc : compare (n : Int) 0 = .gt := by
    rw [compare_gt_iff_gt]
    exact_mod_cast h0
  have hl : n.log2 ≤ 52 := Nat.lt_succ_iff.1 ((Nat.log2_lt h0.ne').2 h)
  have ht : Format.binary64.targetExponent (totalExponent n 0) = n.log2 - 52 := by
    simp only [Format.targetExponent, totalExponent, Format.mantissaBits, Format.minExponent]
    omega
  have hd : decreaseExponent n 0 (n.log2 - 52) = (n * 2 ^ (52 - n.log2), (n.log2 : Int) - 52) := by
    have hk : (0 - ((n.log2 : Int) - 52)).toNat = 52 - n.log2 := by omega
    simp only [decreaseExponent, hk, Nat.shiftLeft_eq]
    congr 1
    omega
  have hr := (normal_of_nat h0 h).round_eq 0 .positive
  simp only [Nat.pow_zero, Nat.mul_one, Nat.cast_zero, Int.sub_zero] at hr
  show (⟨Float.Model.pack (UnpackedFloat.ofInt .binary64 (n.toUInt64.toNat : Int))⟩ : Float) = _
  rw [hn]
  unfold UnpackedFloat.ofInt
  simp only [UnpackedFloat.normalize, hc, UnpackedFloat.round, Int.toNat_natCast, ht, hd, hr]
  rfl

/-- The double of a whole number is the number itself. -/
theorem ofInt_eq {n : Nat} (h0 : 0 < n) (h : n < 2 ^ 53) :
    Float.ofInt n = normal (normal_of_nat h0 h) := by
  show Float.ofScientific n false 0 = _
  unfold Float.ofScientific
  rw [dif_pos ⟨h, by decide⟩]
  show n.toUInt64.toFloat * Float.exactlyRepresentablePowersOfTen[0] = _
  rw [toFloat_eq h0 h]
  exact (normal_of_nat h0 h).mul_one rfl

theorem floor_normal_of_nat {n : Nat} (h0 : 0 < n) (h : n < 2 ^ 53) :
    floor (normal (normal_of_nat h0 h)) = n := by
  have hl : n.log2 ≤ 52 := Nat.lt_succ_iff.1 ((Nat.log2_lt h0.ne').2 h)
  have hd : scaleDown (n * 2 ^ (52 - n.log2)) (n.log2 - 52) = n := by
    rcases Nat.lt_or_eq_of_le hl with hlt | heq
    · obtain ⟨k, hk⟩ : ∃ k, n.log2 + (k + 1) = 52 := ⟨51 - n.log2, by omega⟩
      have he : (n.log2 : Int) - 52 = .negSucc k := by omega
      have hs : 52 - n.log2 = k + 1 := by omega
      rw [he, hs]
      show (n * 2 ^ (k + 1)) >>> (k + 1) = n
      rw [Nat.shiftRight_eq_div_pow, Nat.mul_div_cancel _ (Nat.two_pow_pos _)]
    · rw [heq]
      show (n * 2 ^ 0) <<< 0 = n
      rw [Nat.pow_zero, Nat.mul_one, Nat.shiftLeft_zero]
  unfold floor
  rw [(normal_of_nat h0 h).read_eq]
  exact congrArg Int.ofNat hd

instance : ExactSteps Float where
  floor_one_mul n hn := by
    show floor ((@OfNat.ofNat Float 1 (Scalar.instOfNat 1)) * Float.ofInt n) = n
    rcases Nat.eq_zero_or_pos n with rfl | h0
    · decide +kernel
    · rcases Nat.lt_or_eq_of_le hn with hlt | rfl
      · rw [ofInt_eq h0 hlt, Normal.one_mul _ unpack_one, floor_normal_of_nat h0 hlt]
      · -- the first whole number with one bit more than a significand
        decide +kernel

end Binary64

end BlochSphere
