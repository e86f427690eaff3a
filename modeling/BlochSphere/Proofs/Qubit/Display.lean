/-
Amplitudes as text. Two amplitudes have the same text exactly if their parts are rounded to the same numbers:
a sum is told by its blanks, an imaginary part by its letter, and what is left of them is the text of a
double, which determines the double. Of the rounding only `RoundingLaws` are used, and rounding to four
decimals is shown to have them.
-/
import BlochSphere.Qubit.Display
import BlochSphere.Proofs.Decimal.Positional
import BlochSphere.Proofs.Scalar.Magnitude

namespace BlochSphere.Display

open Binary64 (Magnitude nearest)
open Decimal (real)

variable {x y : Float} {v v' : ℚ}

/-! ## Four decimals -/

theorem magnitude_tenThousand : Magnitude 10000.0 10000 :=
  ⟨.positive, 5497558138880000, -39, by constructor <;> decide, rfl, by norm_num⟩

/-- Some ten-thousandths are not rounded to zero. -/
theorem nearest_units_pos {n : ℕ} (h : 0 < n) : 0 < nearest (n / 10000) := by
  have hn : (1 : ℚ) ≤ n := by exact_mod_cast h
  have hpow : nearest ((1 : ℕ) * 2 ^ (-14 : ℤ)) = (1 : ℕ) * 2 ^ (-14 : ℤ) :=
    Binary64.nearest_of_lt (by decide) (by decide)
  have hle : ((1 : ℕ) : ℚ) * 2 ^ (-14 : ℤ) ≤ n / 10000 := by
    rw [le_div_iff₀ (by norm_num)]
    refine le_trans ?_ hn
    norm_num
  calc (0 : ℚ) < (1 : ℕ) * 2 ^ (-14 : ℤ) := by positivity
    _ = nearest ((1 : ℕ) * 2 ^ (-14 : ℤ)) := hpow.symm
    _ ≤ nearest (n / 10000) := Binary64.nearest_mono (by positivity) hle

theorem magnitude_units {scaled : Float} (hs : scaled.isFinite = true) (h0 : Binary64.round scaled ≠ 0) :
    ∃ v, Magnitude (Float.ofInt (Binary64.round scaled) / 10000.0) v := by
  obtain ⟨n, hn, hm⟩ := Binary64.magnitude_ofInt_round hs h0
  have hlt : (n : ℚ) / 10000 < 2 ^ (1023 : ℤ) := by
    rw [div_lt_iff₀ (by norm_num)]
    calc (n : ℚ) < 2 ^ (1024 : ℤ) := hm.value_lt
      _ = 2 ^ (1023 : ℤ) * 2 := zpow_add_one₀ two_ne_zero 1023
      _ ≤ 2 ^ (1023 : ℤ) * 10000 := by
        gcongr
        norm_num
  exact ⟨_, hm.div magnitude_tenThousand hlt (nearest_units_pos hn)⟩

/-! ## Parts that are shown -/

/-- The parts of amplitudes that are shown: zero without a sign, or finite and not zero. -/
def Shown (x : Float) : Prop := x = 0.0 ∨ ∃ v, Magnitude x v

theorem shown_round4 (hx : x.isFinite = true) : Shown (round4 x) := by
  unfold round4
  split
  · exact .inl rfl
  · rename_i h0
    have hself := Binary64.exists_magnitude hx (Bool.eq_false_iff.2 h0)
    split
    · exact .inr hself
    · -- of the scaled double only that it is finite matters: what it is rounded to is a double again
      simp only
      generalize x * 10000.0 = scaled
      split
      · exact .inr hself
      · rename_i hscaled
        have hfinite : scaled.isFinite = true := by
          rw [Binary64.isFinite_eq, Bool.eq_false_iff.2 hscaled]
          rfl
        split
        · exact .inl rfl
        · rename_i hunits
          exact .inr (magnitude_units hfinite hunits)

namespace Shown

theorem isFinite (hx : Shown x) : x.isFinite = true := by
  rcases hx with rfl | ⟨v, hv⟩
  · rfl
  · exact hv.isFinite

theorem beq_zero (hx : Shown x) : (x == 0.0) = decide (x = 0.0) := by
  rcases hx with rfl | ⟨v, hv⟩
  · rfl
  · rw [hv.beq_zero, decide_eq_false]
    rintro rfl
    exact absurd hv.beq_zero (by decide)

end Shown

/-! ## Parts as text -/

/-- A finite double is written with digits, points and a minus sign only. -/
theorem notMem_real (hx : x.isFinite = true) {c : Char} (hminus : c ≠ '-') (hpoint : c ≠ '.')
    (hdigit : c.isDigit = false) : c ∉ (real x).toList := by
  obtain ⟨s, m, e, n, -, -, hn, htext, -⟩ := Decimal.toList_real hx
  rw [htext, List.mem_append]
  rintro (hmem | hmem)
  · cases s
    · cases hmem
    · exact hminus (List.mem_singleton.1 hmem)
  · rcases hn.digit_or_point c hmem with h | h
    · rw [hdigit] at h
      cases h
    · exact hpoint h

theorem blank_notMem_real (hx : x.isFinite = true) : ' ' ∉ (real x).toList :=
  notMem_real hx (by decide) (by decide) (by decide)

/-- There is more to the text of a double than its sign. -/
theorem real_ne_sign (hx : x.isFinite = true) (s : Bool) : (real x).toList ≠ Decimal.minus s := by
  obtain ⟨s', m, e, n, -, -, hn, htext, -⟩ := Decimal.toList_real hx
  rw [htext]
  intro h
  have hlast : '-' ∉ n := fun hmem => absurd (hn.digit_or_point '-' hmem) (by decide)
  cases s <;> cases s'
  · exact hn.ne_nil h
  · cases h
  · have hn' : n = ['-'] := h
    exact hlast (hn' ▸ List.mem_singleton_self _)
  · exact hn.ne_nil (List.cons.inj h).2

theorem magnitude_one : Magnitude 1.0 1 :=
  ⟨.positive, 4503599627370496, -52, by constructor <;> decide, rfl, by norm_num⟩

/-- What stands before the letter of an imaginary part. -/
def coefficient (x : Float) : List Char :=
  if x = 1.0 then Decimal.minus false else if x = -1.0 then Decimal.minus true else (real x).toList

theorem toList_imaginary (x : Float) : (imaginary x).toList = coefficient x ++ ['i'] := by
  unfold imaginary coefficient
  rw [magnitude_one.beq_eq_decide, magnitude_one.neg.beq_eq_decide]
  simp only [decide_eq_true_eq]
  split_ifs
  · rfl
  · rfl
  · exact String.toList_append

theorem coefficient_inj (hx : x.isFinite = true) (hy : y.isFinite = true) (h : coefficient x = coefficient y) :
    x = y := by
  unfold coefficient at h
  split_ifs at h with hx1 hy1 hy2 hx2 hy1 hy2 hy1 hy2
  · rw [hx1, hy1]
  · cases h
  · exact absurd h.symm (real_ne_sign hy false)
  · cases h
  · rw [hx2, hy2]
  · exact absurd h.symm (real_ne_sign hy true)
  · exact absurd h (real_ne_sign hx false)
  · exact absurd h (real_ne_sign hx true)
  · exact Decimal.real_inj hx hy (String.toList_inj.1 h)

theorem imaginary_inj (hx : x.isFinite = true) (hy : y.isFinite = true) (h : imaginary x = imaginary y) : x = y := by
  have ht := congrArg String.toList h
  rw [toList_imaginary, toList_imaginary] at ht
  exact coefficient_inj hx hy (List.append_cancel_right ht)

/-! ## Shapes -/

/-- Which parts are written. -/
inductive Shape where
  | real
  | imaginary
  | sum

/-- Parts that are zero are left out, but for a zero that is all there is. -/
def Shape.ofParts (re im : Float) : Shape :=
  if im = 0.0 then .real else if re = 0.0 then .imaginary else .sum

theorem im_eq_zero {re im : Float} (h : Shape.ofParts re im = .real) : im = 0.0 := by
  unfold Shape.ofParts at h
  split_ifs at h with hi
  exact hi

theorem re_eq_zero {re im : Float} (h : Shape.ofParts re im = .imaginary) : re = 0.0 := by
  unfold Shape.ofParts at h
  split_ifs at h with hi hr
  exact hr

theorem im_ne_zero {re im : Float} (h : Shape.ofParts re im = .sum) : im ≠ 0.0 := by
  unfold Shape.ofParts at h
  split_ifs at h with hi hr
  exact hi

/-- Only a sum has blanks, and only an imaginary part has the letter. -/
def Shape.ofText (text : List Char) : Shape :=
  if ' ' ∈ text then .sum else if 'i' ∈ text then .imaginary else .real

/-- The sign of an imaginary part behind a real one, which stands between blanks. -/
def separator (im : Float) : List Char := [' ', if im < 0.0 then '-' else '+', ' ']

/-- The text of an amplitude with the parts `re` and `im`. -/
def textOf (re im : Float) : List Char :=
  match Shape.ofParts re im with
  | .real => (real re).toList
  | .imaginary => (imaginary im).toList
  | .sum => (real re).toList ++ separator im ++ (imaginary (if im < 0.0 then -im else im)).toList

theorem toList_amplitudeBy {round : Float → Float} {a : Amplitude Float} (hre : Shown (round a.re))
    (him : Shown (round a.im)) : (amplitudeBy round a).toList = textOf (round a.re) (round a.im) := by
  unfold amplitudeBy textOf Shape.ofParts
  simp only [hre.beq_zero, him.beq_zero, Bool.and_eq_true, decide_eq_true_eq]
  by_cases hi : round a.im = 0.0
  · by_cases hr : round a.re = 0.0
    · simp only [hi, hr, and_self, if_true]
      rfl
    · simp only [hi, hr, and_true, if_false, if_true]
  · by_cases hr : round a.re = 0.0
    · simp only [hi, hr, and_false, if_false, if_true]
    · simp only [hi, hr, and_self, if_false]
      unfold separator
      split_ifs
      · simp [String.toList_append]
      · simp [String.toList_append]

theorem ofText_textOf {re im : Float} (hre : re.isFinite = true) (him : im.isFinite = true) :
    Shape.ofText (textOf re im) = Shape.ofParts re im := by
  have hletter : 'i' ∉ (real re).toList := notMem_real hre (by decide) (by decide) (by decide)
  have hcoefficient : ' ' ∉ coefficient im := by
    unfold coefficient
    split_ifs
    · decide
    · decide
    · exact blank_notMem_real him
  unfold textOf Shape.ofText
  cases Shape.ofParts re im with
  | real => simp [blank_notMem_real hre, hletter]
  | imaginary => simp [toList_imaginary, hcoefficient]
  | sum => simp [separator]

theorem append_cons_inj {c : Char} {a a' b b' : List Char} (ha : c ∉ a) (ha' : c ∉ a')
    (h : a ++ c :: b = a' ++ c :: b') : a = a' ∧ b = b' := by
  have htake {a b : List Char} (ha : c ∉ a) : (a ++ c :: b).takeWhile (· != c) = a := by
    rw [List.takeWhile_append_of_pos, List.takeWhile_cons_of_neg (by simp), List.append_nil]
    intro x hx
    rw [bne_iff_ne]
    rintro rfl
    exact ha hx
  have heq : a = a' := by rw [← htake (b := b) ha, h, htake ha']
  subst heq
  exact ⟨rfl, (List.cons.inj (List.append_cancel_left h)).2⟩

/-- A sum is cut at its first blank, and then its sign says which imaginary part was written. -/
theorem sum_inj {re im re' im' : Float} (hre : re.isFinite = true) (hre' : re'.isFinite = true)
    (him : Magnitude im v) (him' : Magnitude im' v')
    (h : (real re).toList ++ separator im ++ (imaginary (if im < 0.0 then -im else im)).toList =
      (real re').toList ++ separator im' ++ (imaginary (if im' < 0.0 then -im' else im')).toList) :
    re = re' ∧ im = im' := by
  -- behind the first blank stand the sign, another blank and the imaginary part without its sign
  simp only [separator, List.append_assoc, List.cons_append, List.nil_append] at h
  obtain ⟨hreal, hrest⟩ := append_cons_inj (blank_notMem_real hre) (blank_notMem_real hre') h
  obtain ⟨hsign, himaginary⟩ := List.cons.inj hrest
  have htext := String.toList_inj.1 (List.cons.inj himaginary).2
  refine ⟨Decimal.real_inj hre hre' (String.toList_inj.1 hreal), ?_⟩
  split_ifs at hsign htext
  · exact him.neg_inj him' (imaginary_inj him.neg.isFinite him'.neg.isFinite htext)
  · cases hsign
  · cases hsign
  · exact imaginary_inj him.isFinite him'.isFinite htext

/-- The text of parts determines them. -/
theorem textOf_inj {re im re' im' : Float} (hre : Shown re) (him : Shown im) (hre' : Shown re') (him' : Shown im')
    (h : textOf re im = textOf re' im') : re = re' ∧ im = im' := by
  have hshape : Shape.ofParts re im = Shape.ofParts re' im' := by
    rw [← ofText_textOf hre.isFinite him.isFinite, h, ofText_textOf hre'.isFinite him'.isFinite]
  unfold textOf at h
  rw [← hshape] at h
  cases hs : Shape.ofParts re im with
  | real =>
    rw [hs] at h hshape
    exact ⟨Decimal.real_inj hre.isFinite hre'.isFinite (String.toList_inj.1 h),
      (im_eq_zero hs).trans (im_eq_zero hshape.symm).symm⟩
  | imaginary =>
    rw [hs] at h hshape
    exact ⟨(re_eq_zero hs).trans (re_eq_zero hshape.symm).symm,
      imaginary_inj him.isFinite him'.isFinite (String.toList_inj.1 h)⟩
  | sum =>
    rw [hs] at h hshape
    obtain ⟨v, hv⟩ := him.resolve_left (im_ne_zero hs)
    obtain ⟨v', hv'⟩ := him'.resolve_left (im_ne_zero hshape.symm)
    exact sum_inj hre.isFinite hre'.isFinite hv hv' h

/-! ## Roundings -/

/-- What is known of a rounding of parts: a finite number stays finite, and it does not become the
negative zero. -/
structure RoundingLaws (round : Float → Float) : Prop where
  isFinite : ∀ x : Float, x.isFinite = true → (round x).isFinite = true
  ne_negZero : ∀ x : Float, x.isFinite = true → round x ≠ -0.0

theorem shown_iff : Shown x ↔ x.isFinite = true ∧ x ≠ -0.0 := by
  constructor
  · intro hx
    refine ⟨hx.isFinite, ?_⟩
    rintro rfl
    exact absurd hx.beq_zero (by decide)
  · rintro ⟨hx, hne⟩
    rcases Binary64.unpack_of_isFinite hx with ⟨s, hu⟩ | ⟨s, m, e, hc, hu⟩
    · cases s with
      | negative =>
        have hneg : (-0.0 : Float).toModel.unpack = .zero .negative := by rfl
        exact absurd (Binary64.eq_of_unpack hx (hu.trans hneg.symm)) hne
      | positive => exact .inl (Binary64.eq_of_unpack hx hu)
    · exact .inr ⟨_, s, m, e, hc, hu, rfl⟩

theorem roundingLaws_round4 : RoundingLaws round4 where
  isFinite _ hx := (shown_round4 hx).isFinite
  ne_negZero _ hx := (shown_iff.1 (shown_round4 hx)).2

/-- However parts are rounded, amplitudes have the same text exactly if their parts are rounded to the same
numbers. -/
theorem amplitudeBy_eq_iff_round_eq {round : Float → Float} (laws : RoundingLaws round) (a b : Amplitude Float)
    (ha : a.re.isFinite = true ∧ a.im.isFinite = true) (hb : b.re.isFinite = true ∧ b.im.isFinite = true) :
    amplitudeBy round a = amplitudeBy round b ↔ round a.re = round b.re ∧ round a.im = round b.im := by
  have shown {x : Float} (hx : x.isFinite = true) : Shown (round x) :=
    shown_iff.2 ⟨laws.isFinite x hx, laws.ne_negZero x hx⟩
  constructor
  · intro h
    refine textOf_inj (shown ha.1) (shown ha.2) (shown hb.1) (shown hb.2) ?_
    rw [← toList_amplitudeBy (shown ha.1) (shown ha.2), h, toList_amplitudeBy (shown hb.1) (shown hb.2)]
  · rintro ⟨hre, him⟩
    unfold amplitudeBy
    rw [hre, him]

/-- To four decimals, what is left of a part by the noise of arithmetic is not shown, and signs and letters
are. -/
theorem amplitudeBy_eq_iff_round_eq_noise :
    amplitude ⟨0.70710678, -0.00000000000000001⟩ = amplitude ⟨0.7071, 0.0⟩ ∧
    amplitude ⟨0.5, -1.0⟩ ≠ amplitude ⟨0.5, 1.0⟩ := by
  constructor
  · exact (amplitudeBy_eq_iff_round_eq roundingLaws_round4 _ _ ⟨rfl, rfl⟩ ⟨rfl, rfl⟩).2 (by decide +kernel)
  · intro h
    exact absurd ((amplitudeBy_eq_iff_round_eq roundingLaws_round4 _ _ ⟨rfl, rfl⟩ ⟨rfl, rfl⟩).1 h)
      (by decide +kernel)

end BlochSphere.Display
