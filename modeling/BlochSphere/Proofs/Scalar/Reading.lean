/-
The two ways to read a double agree: the one that takes its bits apart, and the one that arithmetic is
defined on. What a double is read as, if it is finite, determines the double.
-/
import BlochSphere.Proofs.Scalar.Rounding

namespace BlochSphere.Binary64

open Float.Model Float.Model.UnpackedFloat

/-! ## Fields -/

theorem packComponents_toNat (s : Sign) (field : BitVec 11) (fraction : BitVec 52) :
    (packComponents .binary64 s field fraction).toNat =
      s.toBitVec.toNat * 2 ^ 63 + field.toNat * 2 ^ 52 + fraction.toNat := by
  show ((s.toBitVec ++ field) ++ fraction).toNat = _
  rw [BitVec.toNat_append, BitVec.toNat_append, ← Nat.shiftLeft_add_eq_or_of_lt field.isLt,
    ← Nat.shiftLeft_add_eq_or_of_lt fraction.isLt, Nat.shiftLeft_eq, Nat.shiftLeft_eq]
  omega

/-- Every double is made of the three fields. -/
theorem exists_components (x : Float) : ∃ s field fraction,
    x.toBits.toBitVec = packComponents .binary64 s field fraction := by
  generalize x.toBits.toBitVec = b
  have hs : ∀ sign : BitVec 1, (Sign.ofBitVec sign).toBitVec = sign := by decide
  refine ⟨Sign.ofBitVec (@unpackSign .binary64 b), @unpackExponent .binary64 b,
    @unpackMantissa .binary64 b, BitVec.eq_of_toNat_eq ?_⟩
  have hlt : b.toNat < 2 ^ 64 := b.isLt
  rw [packComponents_toNat, hs]
  simp only [unpackSign, unpackExponent, unpackMantissa, BitVec.toNat_cast, BitVec.extractLsb_toNat,
    Nat.shiftRight_eq_div_pow]
  omega

def isMinus : Sign → Bool
  | .positive => false
  | .negative => true

theorem toBits_of_components {x : Float} {s : Sign} {field : BitVec 11} {fraction : BitVec 52}
    (h : x.toBits.toBitVec = packComponents .binary64 s field fraction) :
    x.toBits.toNat = (isMinus s).toNat * 2 ^ 63 + field.toNat * 2 ^ 52 + fraction.toNat := by
  have hs : (isMinus s).toNat = s.toBitVec.toNat := by cases s <;> rfl
  rw [hs, ← packComponents_toNat, ← h]
  rfl

/-! ## Readings -/

/-- What is read off the bits of a double on which arithmetic works as `u`. -/
def reading : UnpackedFloat → Reading
  | .notANumber => .nan
  | .infinity s => .infinite (isMinus s)
  | .zero s => .finite (isMinus s) 0 (-1074)
  | .finite s m e _ => .finite (isMinus s) m e

theorem read_eq (x : Float) : read x = reading x.toModel.unpack := by
  obtain ⟨s, field, fraction, hc⟩ := exists_components x
  have hu : x.toModel.unpack = _ :=
    (congrArg (UnpackedFloat.unpack .binary64) hc).trans (unpack_components s field fraction)
  have hinf : field = -1#11 ↔ field.toNat = 2047 := ⟨fun h => h ▸ rfl, fun h => BitVec.eq_of_toNat_eq h⟩
  have hfield : field = 0#11 ↔ field.toNat = 0 := ⟨fun h => h ▸ rfl, fun h => BitVec.eq_of_toNat_eq h⟩
  have hfraction : fraction = 0#52 ↔ fraction.toNat = 0 := ⟨fun h => h ▸ rfl, fun h => BitVec.eq_of_toNat_eq h⟩
  rw [read_of_bits field.isLt fraction.isLt (toBits_of_components hc), hu]
  simp only [hinf, hfield, hfraction]
  split_ifs with h2047 h0 h0 h0
  · rfl
  · rfl
  · rw [h0]
    rfl
  · rfl
  · simp only [reading, leading_one]
    congr 1
    omega

theorem isFinite_eq (x : Float) : x.isFinite = !(isInfinite x || x.isNaN) := by
  show x.toModel.unpack.isFinite = !(isInfinite x || x.toModel.unpack.isNaN)
  unfold isInfinite
  rw [read_eq]
  cases x.toModel.unpack <;> rfl

/-- The bits of what is read as finite. -/
theorem toBits_of_read {x : Float} {s : Bool} {m : Nat} {e : Int} (h : read x = .finite s m e) :
    x.toBits.toNat = s.toNat * 2 ^ 63 + (if 2 ^ 52 ≤ m then (e + 1075).toNat * 2 ^ 52 + (m - 2 ^ 52) else m) := by
  obtain ⟨s', field, fraction, hc⟩ := exists_components x
  have hbits := toBits_of_components hc
  have hlt : fraction.toNat < 2 ^ 52 := fraction.isLt
  rw [read_of_bits field.isLt fraction.isLt hbits] at h
  rw [hbits]
  by_cases hinf : field.toNat = 2047
  · rw [if_pos hinf] at h
    split at h <;> cases h
  · rw [if_neg hinf] at h
    by_cases hfield : field.toNat = 0
    · rw [if_pos hfield] at h
      obtain ⟨rfl, rfl, -⟩ := Reading.finite.inj h
      rw [if_neg (by omega), hfield]
      omega
    · rw [if_neg hfield] at h
      obtain ⟨rfl, rfl, rfl⟩ := Reading.finite.inj h
      rw [if_pos (by omega)]
      omega

/-- A finite double is what it is read as. -/
theorem eq_of_read {x y : Float} {s : Bool} {m : Nat} {e : Int} (hx : read x = .finite s m e)
    (hy : read y = .finite s m e) : x = y := by
  have hb : x.toModel.toBits = y.toModel.toBits :=
    UInt64.toNat_inj.1 ((toBits_of_read hx).trans (toBits_of_read hy).symm)
  obtain ⟨⟨a, hvx⟩⟩ := x
  obtain ⟨⟨b, hvy⟩⟩ := y
  cases hb
  rfl

/-- A finite double is worked on as a zero or as a canonical pair. -/
theorem unpack_of_isFinite {x : Float} (hx : x.isFinite = true) : (∃ s, x.toModel.unpack = .zero s) ∨
    ∃ s m e, ∃ h : Canonical m e, x.toModel.unpack = .finite s m e h.pos := by
  change x.toModel.unpack.isFinite = true at hx
  cases hu : x.toModel.unpack with
  | notANumber =>
    rw [hu] at hx
    cases hx
  | infinity s =>
    rw [hu] at hx
    cases hx
  | zero s => exact .inl ⟨s, rfl⟩
  | finite s m e hm => exact .inr ⟨s, m, e, canonical_of_unpack hu, rfl⟩

theorem eq_of_unpack {x y : Float} (hx : x.isFinite = true) (h : x.toModel.unpack = y.toModel.unpack) : x = y := by
  have hread : ∃ s m e, read x = .finite s m e := by
    rw [read_eq]
    rcases unpack_of_isFinite hx with ⟨s, hu⟩ | ⟨s, m, e, hc, hu⟩
    · exact ⟨_, _, _, congrArg reading hu⟩
    · exact ⟨_, _, _, congrArg reading hu⟩
  obtain ⟨s, m, e, hread⟩ := hread
  refine eq_of_read hread ?_
  rw [read_eq, ← h, ← read_eq, hread]

end BlochSphere.Binary64
