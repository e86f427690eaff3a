/-
Numbers as decimal text. A text is made of digits with at most one point among them, behind a minus sign for
what is negative, and it reads back as the number that it was written for. So no two finite doubles have the
same text.
-/
import BlochSphere.Proofs.Decimal.Shortest
import BlochSphere.Proofs.Scalar.Value
import Mathlib.Data.List.TakeWhile

namespace BlochSphere.Decimal

open Binary64 (Canonical nearest)

/-! ## Reading digits -/

/-- The number that digits with a point among them stand for. -/
def amount (text : List Char) : ℚ :=
  let whole := text.takeWhile (· != '.')
  let fraction := (text.dropWhile (· != '.')).tail
  Nat.ofDigitChars 10 (whole ++ fraction) 0 / 10 ^ fraction.length

theorem ne_point {text : List Char} (h : ∀ c ∈ text, c.isDigit = true) : ∀ c ∈ text, (c != '.') = true := by
  intro c hc
  rw [bne_iff_ne]
  rintro rfl
  exact absurd (h _ hc) (by decide)

theorem amount_digits {text : List Char} (h : ∀ c ∈ text, c.isDigit = true) :
    amount text = Nat.ofDigitChars 10 text 0 := by
  have htake : text.takeWhile (· != '.') = text := List.takeWhile_eq_self_iff.2 (ne_point h)
  have hdrop : text.dropWhile (· != '.') = [] := List.dropWhile_eq_nil_iff.2 (ne_point h)
  unfold amount
  simp only [htake, hdrop, List.tail_nil, List.append_nil, List.length_nil, pow_zero, div_one]

theorem amount_point {whole fraction : List Char} (h : ∀ c ∈ whole, c.isDigit = true) :
    amount (whole ++ '.' :: fraction) = Nat.ofDigitChars 10 (whole ++ fraction) 0 / 10 ^ fraction.length := by
  have htake : (whole ++ '.' :: fraction).takeWhile (· != '.') = whole := by
    rw [List.takeWhile_append_of_pos (ne_point h), List.takeWhile_cons_of_neg (by decide), List.append_nil]
  have hdrop : (whole ++ '.' :: fraction).dropWhile (· != '.') = '.' :: fraction := by
    rw [List.dropWhile_append_of_pos (ne_point h), List.dropWhile_cons_of_neg (by decide)]
  unfold amount
  simp only [htake, hdrop, List.tail_cons]

/-! ## Writing digits -/

theorem toList_pushn (c : Char) (n : ℕ) : ("".pushn c n).toList = List.replicate n c := by
  unfold String.pushn
  induction n with
  | zero => rfl
  | succ n ih =>
    rw [Nat.repeat, String.toList_push, ih, List.replicate_succ']

theorem toList_padded (width n : ℕ) :
    (padded width n).toList = List.replicate (width - (Nat.toDigits 10 n).length) '0' ++ Nat.toDigits 10 n := by
  unfold padded
  rw [String.toList_append, toList_pushn, Nat.toList_repr, ← String.length_toList, Nat.toList_repr]

theorem isDigit_repr {n : ℕ} : ∀ c ∈ n.repr.toList, c.isDigit = true := by
  intro c hc
  rw [Nat.toList_repr] at hc
  exact Nat.isDigit_of_mem_toDigits (by decide) le_rfl hc

theorem isDigit_padded {width n : ℕ} : ∀ c ∈ (padded width n).toList, c.isDigit = true := by
  intro c hc
  rw [toList_padded, List.mem_append, List.mem_replicate] at hc
  rcases hc with ⟨-, rfl⟩ | hc
  · decide
  · exact Nat.isDigit_of_mem_toDigits (by decide) le_rfl hc

theorem length_padded {width n : ℕ} (h0 : 0 < width) (h : n < 10 ^ width) : (padded width n).toList.length = width := by
  have hle := (Nat.length_toDigits_le_iff (b := 10) (by decide) h0).2 h
  rw [toList_padded, List.length_append, List.length_replicate, Nat.sub_add_cancel hle]

theorem ofDigitChars_padded (width n : ℕ) : Nat.ofDigitChars 10 (padded width n).toList 0 = n := by
  rw [toList_padded, Nat.ofDigitChars_append, Nat.ofDigitChars_replicate_zero, mul_zero,
    Nat.ofDigitChars_ten_toDigits]

/-- Digits behind the point count as so many units of the last place. -/
theorem amount_withPoint (places units : ℕ) : amount (withPoint places units).toList = units / 10 ^ places := by
  unfold withPoint
  split_ifs with h0
  · rw [amount_digits isDigit_repr, Nat.toList_repr, Nat.ofDigitChars_ten_toDigits, h0, pow_zero, div_one]
  · have hlt : units % pow10 places < 10 ^ places := Nat.mod_lt _ (Nat.pow_pos (by decide))
    have hlength := length_padded (Nat.pos_of_ne_zero h0) hlt
    have hsplit : 10 ^ places * (units / pow10 places) + units % pow10 places = units :=
      Nat.div_add_mod units (10 ^ places)
    have htext : (".").toList = ['.'] := rfl
    rw [String.toList_append, String.toList_append, htext, List.append_assoc, List.singleton_append,
      amount_point isDigit_repr, hlength, Nat.ofDigitChars_append, Nat.ofDigitChars_eq_ofDigitChars_zero,
      hlength, ofDigitChars_padded, Nat.toList_repr, Nat.ofDigitChars_ten_toDigits, hsplit]

theorem amount_positional (d : Digits) : amount d.positional.toList = d.value := by
  obtain ⟨n, e⟩ := d
  unfold Digits.positional Digits.value
  cases e with
  | ofNat k =>
    have hpow : n * pow10 k = n * 10 ^ k := rfl
    simp only
    rw [amount_digits isDigit_repr, Nat.toList_repr, Nat.ofDigitChars_ten_toDigits, hpow]
    push_cast
    rw [Int.ofNat_eq_natCast, zpow_natCast]
  | negSucc k =>
    simp only
    rw [amount_withPoint, zpow_negSucc, div_eq_mul_inv]

/-- A text of digits and points. -/
structure Numeral (text : List Char) : Prop where
  ne_nil : text ≠ []
  digit_or_point : ∀ c ∈ text, c.isDigit = true ∨ c = '.'

theorem numeral_repr (n : ℕ) : Numeral n.repr.toList where
  ne_nil := by
    rw [Nat.toList_repr]
    exact Nat.toDigits_ne_nil
  digit_or_point c hc := .inl (isDigit_repr c hc)

theorem numeral_withPoint (places units : ℕ) : Numeral (withPoint places units).toList := by
  unfold withPoint
  split_ifs
  · exact numeral_repr units
  · have hwhole := numeral_repr (units / pow10 places)
    rw [String.toList_append, String.toList_append]
    refine ⟨by simp, fun c hc => ?_⟩
    rw [List.mem_append, List.mem_append] at hc
    rcases hc with (hc | hc) | hc
    · exact hwhole.digit_or_point c hc
    · exact .inr (List.mem_singleton.1 hc)
    · exact .inl (isDigit_padded c hc)

theorem numeral_positional (d : Digits) : Numeral d.positional.toList := by
  unfold Digits.positional
  split
  · exact numeral_repr _
  · exact numeral_withPoint _ _

/-! ## Doubles -/

/-- What is written before the digits. -/
def minus (s : Bool) : List Char := if s then ['-'] else []

/-- A minus sign is not part of a numeral. -/
theorem Numeral.minus_append_inj {n n' : List Char} {s s' : Bool} (hn : Numeral n) (hn' : Numeral n')
    (h : minus s ++ n = minus s' ++ n') : s = s' ∧ n = n' := by
  have hminus {n : List Char} (hn : Numeral n) (cs : List Char) : n ≠ '-' :: cs := by
    rintro rfl
    exact absurd (hn.digit_or_point '-' List.mem_cons_self) (by decide)
  cases s <;> cases s'
  · exact ⟨rfl, h⟩
  · exact absurd h (hminus hn _)
  · exact absurd h.symm (hminus hn' _)
  · exact ⟨rfl, List.cons.inj h |>.2⟩

/-- A finite double is written as a numeral behind its sign, and the numeral is rounded to it. -/
theorem toList_real {x : Float} (hx : x.isFinite = true) : ∃ s m e n, Binary64.read x = .finite s m e ∧
    (m = 0 ∧ e = -1074 ∨ Canonical m e) ∧ Numeral n ∧ (real x).toList = minus s ++ n ∧
    nearest (amount n) = m * 2 ^ e := by
  have hread := Binary64.read_eq x
  have hminus (s : Bool) : (if s then "-" else "").toList = minus s := by cases s <;> rfl
  rcases Binary64.unpack_of_isFinite hx with ⟨s, hu⟩ | ⟨s, m, e, hc, hu⟩
  · rw [hu] at hread
    refine ⟨_, 0, -1074, "0".toList, hread, .inl ⟨rfl, rfl⟩, numeral_repr 0, ?_, ?_⟩
    · unfold real
      rw [hread]
      simp only [Binary64.reading, String.toList_append, hminus]
      rfl
    · have h0 : amount (Nat.repr 0).toList = 0 := by
        rw [amount_digits isDigit_repr, Nat.toList_repr, Nat.ofDigitChars_ten_toDigits, Nat.cast_zero]
      rw [Nat.cast_zero, zero_mul, ← Binary64.nearest_zero, ← h0]
      rfl
  · rw [hu] at hread
    refine ⟨_, m, e, (shortest m e).positional.toList, hread, .inr hc, numeral_positional _, ?_, ?_⟩
    · unfold real
      rw [hread]
      simp only [Binary64.reading, String.toList_append, hminus, if_neg hc.pos.ne']
    · rw [amount_positional, nearest_shortest hc]

/-- The text of a finite double determines it. -/
theorem real_inj {x y : Float} (hx : x.isFinite = true) (hy : y.isFinite = true) (h : real x = real y) : x = y := by
  obtain ⟨s, m, e, n, hread, hc, hn, htext, hv⟩ := toList_real hx
  obtain ⟨s', m', e', n', hread', hc', hn', htext', hv'⟩ := toList_real hy
  rw [h, htext'] at htext
  obtain ⟨rfl, rfl⟩ := hn'.minus_append_inj hn htext
  rw [hv] at hv'
  -- the same numeral is rounded to one value, and zero is the only value without a canonical pair
  have hpair : m = m' ∧ e = e' := by
    rcases hc with ⟨rfl, rfl⟩ | hc <;> rcases hc' with ⟨rfl, rfl⟩ | hc'
    · exact ⟨rfl, rfl⟩
    · rw [Nat.cast_zero, zero_mul] at hv'
      exact absurd hv' hc'.value_pos.ne
    · rw [Nat.cast_zero, zero_mul] at hv'
      exact absurd hv' hc.value_pos.ne'
    · exact hc.eq_of_value hc' hv'
  obtain ⟨rfl, rfl⟩ := hpair
  exact Binary64.eq_of_read hread hread'

end BlochSphere.Decimal
