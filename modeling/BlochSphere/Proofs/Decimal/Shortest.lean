/-
Shortest decimals read back. The interval of a double holds numbers that are rounded to that double only,
seventeen digits always reach into it, and so the decimal that the search ends with is rounded to the
double it was made for. It has no zeros at its end, as with one digit fewer it would have been found before.
-/
import BlochSphere.Decimal.Shortest
import BlochSphere.Proofs.Scalar.Nearest

namespace BlochSphere.Decimal

open Binary64 (Canonical nearest nearestEven grid)

variable {m : ℕ} {e : ℤ}

/-! ## Ratios as numbers -/

namespace Ratio

def value (r : Ratio) : ℚ := r.num / r.den

theorem den_binary (n : ℕ) (e : ℤ) : 0 < (binary n e).den := by
  cases e with
  | ofNat k => exact Nat.one_pos
  | negSucc k => exact Nat.two_pow_pos (k + 1)

theorem value_binary (n : ℕ) (e : ℤ) : (binary n e).value = n * 2 ^ e := by
  cases e with
  | ofNat k => simp [value, binary, Nat.shiftLeft_eq]
  | negSucc k => simp [value, binary, zpow_negSucc, div_eq_mul_inv]

theorem den_decimal (n : ℕ) (e : ℤ) : 0 < (decimal n e).den := by
  cases e with
  | ofNat k => exact Nat.one_pos
  | negSucc k => exact Nat.pow_pos (by decide)

theorem value_decimal (n : ℕ) (e : ℤ) : (decimal n e).value = n * 10 ^ e := by
  cases e with
  | ofNat k => simp [value, decimal, pow10]
  | negSucc k => simp [value, decimal, pow10, zpow_negSucc, div_eq_mul_inv]

theorem lt_iff {a b : Ratio} (ha : 0 < a.den) (hb : 0 < b.den) : a.lt b = true ↔ a.value < b.value := by
  have ha : (0 : ℚ) < a.den := by exact_mod_cast ha
  have hb : (0 : ℚ) < b.den := by exact_mod_cast hb
  unfold lt value
  rw [decide_eq_true_iff, div_lt_div_iff₀ ha hb]
  exact_mod_cast Iff.rfl

theorem steps_eq (r : Ratio) (e : ℤ) : r.steps e = ⌊r.value / 10 ^ e⌋₊ := by
  unfold value
  cases e with
  | ofNat k =>
    rw [div_div]
    simpa [steps, pow10] using (Nat.floor_div_eq_div (K := ℚ) r.num (r.den * 10 ^ k)).symm
  | negSucc k =>
    rw [zpow_negSucc, div_inv_eq_mul, div_mul_eq_mul_div]
    simpa [steps, pow10] using (Nat.floor_div_eq_div (K := ℚ) (r.num * 10 ^ (k + 1)) r.den).symm

theorem steps_add_one (r : Ratio) (e : ℤ) : r.steps (e + 1) = r.steps e / 10 := by
  rw [steps_eq, steps_eq, zpow_add_one₀ (by norm_num), ← div_div]
  exact_mod_cast Nat.floor_div_natCast (r.value / 10 ^ e) 10

end Ratio

/-! ## The first digit -/

theorem lt_pow_length_repr (n : ℕ) : n < 10 ^ n.repr.length := by
  rw [Nat.repr_eq_ofList_toDigits, String.length_ofList]
  exact (Nat.length_toDigits_le_iff (by decide) Nat.length_toDigits_pos).1 le_rfl

theorem pow_length_repr_le {n : ℕ} (h : 0 < n) : 10 ^ (n.repr.length - 1) ≤ n := by
  rw [Nat.repr_eq_ofList_toDigits, String.length_ofList]
  have hpos : 0 < (Nat.toDigits 10 n).length := Nat.length_toDigits_pos
  rcases Nat.eq_zero_or_pos ((Nat.toDigits 10 n).length - 1) with h0 | h1
  · rw [h0, pow_zero]
    exact h
  · rw [← not_lt, ← Nat.length_toDigits_le_iff (by decide) h1]
    omega

theorem pow_leadingExponent_le {r : Ratio} (hn : 0 < r.num) (hd : 0 < r.den) :
    (10 : ℚ) ^ leadingExponent r ≤ r.value := by
  unfold leadingExponent
  dsimp only
  split
  · -- one digit fewer than the numbers of digits make likely
    have hlow : (10 : ℚ) ^ (r.num.repr.length - 1) ≤ r.num := by exact_mod_cast pow_length_repr_le hn
    have hhigh : (r.den : ℚ) ≤ 10 ^ r.den.repr.length := by exact_mod_cast (lt_pow_length_repr r.den).le
    have hlen : 0 < r.num.repr.length := by
      rw [Nat.repr_eq_ofList_toDigits, String.length_ofList]
      exact Nat.length_toDigits_pos
    have hd : (0 : ℚ) < r.den := by exact_mod_cast hd
    have hexp : (r.num.repr.length : ℤ) - r.den.repr.length - 1 =
        (r.num.repr.length - 1 : ℕ) - (r.den.repr.length : ℤ) := by omega
    rw [Ratio.value, hexp, zpow_sub₀ (by norm_num), zpow_natCast, zpow_natCast]
    gcongr
  · rename_i h
    rw [Ratio.lt_iff hd (Ratio.den_decimal _ _), Ratio.value_decimal, Nat.cast_one, one_mul, not_lt] at h
    exact h

theorem lt_pow_leadingExponent {r : Ratio} (hd : 0 < r.den) : r.value < 10 ^ (leadingExponent r + 1) := by
  unfold leadingExponent
  dsimp only
  split
  · rename_i h
    rw [Ratio.lt_iff hd (Ratio.den_decimal _ _), Ratio.value_decimal, Nat.cast_one, one_mul] at h
    rwa [sub_add_cancel]
  · have hhigh : (r.num : ℚ) < 10 ^ r.num.repr.length := by exact_mod_cast lt_pow_length_repr r.num
    have hlow : (10 : ℚ) ^ (r.den.repr.length - 1) ≤ r.den := by exact_mod_cast pow_length_repr_le hd
    have hlen : 0 < r.den.repr.length := by
      rw [Nat.repr_eq_ofList_toDigits, String.length_ofList]
      exact Nat.length_toDigits_pos
    have hexp : (r.num.repr.length : ℤ) - r.den.repr.length + 1 =
        (r.num.repr.length : ℤ) - (r.den.repr.length - 1 : ℕ) := by omega
    rw [Ratio.value, hexp, zpow_sub₀ (by norm_num), zpow_natCast, zpow_natCast]
    exact div_lt_div₀ hhigh hlow (by positivity) (by positivity)

/-! ## The interval of a double -/

/-- How far the interval of `m · 2 ^ e` goes down, in units of its last place. -/
def reach (m : ℕ) (e : ℤ) : ℚ := if m = 2 ^ 52 ∧ -1074 < e then 1 / 4 else 1 / 2

theorem holds_iff (h0 : 0 < m) {r : Ratio} (hr : 0 < r.den) : (Interval.of m e).holds r = true ↔
    if m % 2 = 0 then (m - reach m e) * 2 ^ e ≤ r.value ∧ r.value ≤ (m + 1 / 2) * 2 ^ e
    else (m - reach m e) * 2 ^ e < r.value ∧ r.value < (m + 1 / 2) * 2 ^ e := by
  have hquarter : (2 : ℚ) ^ (e - 2) = 2 ^ e / 4 := by
    rw [zpow_sub₀ two_ne_zero]
    norm_num
  have hlow : (Interval.of m e).low.value = (m - reach m e) * 2 ^ e := by
    unfold Interval.of reach
    dsimp only
    rw [Ratio.value_binary, hquarter]
    simp only [Bool.and_eq_true, beq_iff_eq, decide_eq_true_eq]
    norm_num only
    split <;> rw [Nat.cast_sub (by omega)] <;> push_cast <;> ring
  have hhigh : (Interval.of m e).high.value = (m + 1 / 2) * 2 ^ e := by
    unfold Interval.of
    dsimp only
    rw [Ratio.value_binary, hquarter]
    push_cast
    ring
  have hclosed : (Interval.of m e).closed = true ↔ m % 2 = 0 := by simp [Interval.of]
  have hlt : (Interval.of m e).low.lt r = true ↔ _ := Ratio.lt_iff (Ratio.den_binary _ _) hr
  have hlt' : r.lt (Interval.of m e).low = true ↔ _ := Ratio.lt_iff hr (Ratio.den_binary _ _)
  have hgt : (Interval.of m e).high.lt r = true ↔ _ := Ratio.lt_iff (Ratio.den_binary _ _) hr
  have hgt' : r.lt (Interval.of m e).high = true ↔ _ := Ratio.lt_iff hr (Ratio.den_binary _ _)
  rw [hlow] at hlt hlt'
  rw [hhigh] at hgt hgt'
  unfold Interval.holds
  simp only [hclosed]
  split
  · rw [Bool.and_eq_true, Bool.not_eq_true', Bool.not_eq_true', ← Bool.not_eq_true, ← Bool.not_eq_true,
      hlt', hgt, not_lt, not_lt]
  · rw [Bool.and_eq_true, hlt, hgt']

/-! ## Rounding in the interval -/

/-- Halves are rounded to even numbers only. -/
theorem nearestEven_eq {y : ℚ} (hy : 0 ≤ y) (hlow : m - 1 / 2 ≤ y) (hhigh : y ≤ m + 1 / 2)
    (heven : m % 2 = 0 ∨ m - 1 / 2 < y ∧ y < m + 1 / 2) : nearestEven y = m := by
  unfold nearestEven
  rcases lt_or_ge y m with hlt | hge
  · obtain ⟨k, rfl⟩ : ∃ k, m = k + 1 := Nat.exists_eq_succ_of_ne_zero (by rintro rfl; simp at hlt; linarith)
    push_cast at hlow hlt heven
    have hfloor : ⌊y⌋₊ = k := (Nat.floor_eq_iff hy).2 ⟨by linarith, hlt⟩
    rw [hfloor, if_neg (by linarith)]
    split
    · rfl
    · have := heven.resolve_right fun h => by linarith
      omega
  · have hfloor : ⌊y⌋₊ = m := (Nat.floor_eq_iff hy).2 ⟨hge, by linarith⟩
    rw [hfloor]
    split
    · rfl
    · rw [if_neg (by linarith)]
      have := heven.resolve_right fun h => by linarith
      omega

/-- A number between a double and the next has the double's last place. -/
theorem grid_eq (h : Canonical m e) {x : ℚ} (hle : m * 2 ^ e ≤ x) (hlt : x < (m + 1) * 2 ^ e) : grid x = e := by
  have hlog := Binary64.log_eq h.pos hle hlt
  have hleast := h.least
  unfold grid
  rw [hlog]
  rcases h.full with hfull | hleast
  · rw [(Nat.log2_eq_iff h.pos.ne').2 ⟨hfull, h.upper⟩]
    omega
  · have := (Nat.log2_lt h.pos.ne').2 h.upper
    omega

/-- Just below a double the last place is still the double's, or half of it below a power of two. -/
theorem grid_below (h : Canonical m e) {x : ℚ} (hle : (m - reach m e) * 2 ^ e ≤ x) (hlt : x < m * 2 ^ e) :
    grid x = if m = 2 ^ 52 ∧ -1074 < e then e - 1 else e := by
  unfold reach at hle
  split_ifs at hle ⊢ with hpow
  · obtain ⟨rfl, he⟩ := hpow
    have hc : Canonical (2 ^ 53 - 1) (e - 1) :=
      ⟨by decide, by decide, by omega, by have := h.greatest; omega, .inl (by decide)⟩
    have hhalf : (2 : ℚ) ^ e = 2 * 2 ^ (e - 1) := by
      rw [zpow_sub_one₀ two_ne_zero]
      ring
    have hcast : ((2 ^ 53 - 1 : ℕ) : ℚ) = 2 ^ 53 - 1 := by norm_num
    have hunit : (0 : ℚ) < 2 ^ (e - 1) := by positivity
    push_cast at hle hlt
    rw [hhalf] at hle hlt
    refine grid_eq hc ?_ ?_
    · rw [hcast]
      linarith
    · rw [hcast]
      linarith
  · have hunit : (0 : ℚ) < 2 ^ e := by positivity
    rcases Nat.lt_or_eq_of_le (Nat.succ_le_of_lt h.pos) with h1 | rfl
    · have hc : Canonical (m - 1) e := by
        refine ⟨by omega, by have := h.upper; omega, h.least, h.greatest, ?_⟩
        rcases h.full with hf | hf
        · have := h.least
          omega
        · exact .inr hf
      have hcast : ((m - 1 : ℕ) : ℚ) = m - 1 := by
        rw [Nat.cast_sub (by omega), Nat.cast_one]
      refine grid_eq hc ?_ ?_
      · rw [hcast]
        linarith
      · rw [hcast]
        linarith
    · have he : e = -1074 := h.full.resolve_left (by decide)
      have hx : 0 < x := lt_of_lt_of_le (by norm_num; positivity) hle
      have := (Int.lt_zpow_iff_log_lt (b := 2) one_lt_two (x := e) hx).1 (by simpa using hlt)
      unfold grid
      omega

/-- What the interval of a double holds is rounded to that double. -/
theorem nearest_of_holds (h : Canonical m e) {r : Ratio} (hr : 0 < r.den)
    (hold : (Interval.of m e).holds r = true) : nearest r.value = m * 2 ^ e := by
  have hunit : (0 : ℚ) < 2 ^ e := by positivity
  rw [holds_iff h.pos hr] at hold
  have hlow : (m - reach m e) * 2 ^ e ≤ r.value := by
    split at hold
    · exact hold.1
    · exact hold.1.le
  have hhigh : r.value ≤ (m + 1 / 2) * 2 ^ e := by
    split at hold
    · exact hold.2
    · exact hold.2.le
  have heven : m % 2 = 0 ∨ (m - reach m e) * 2 ^ e < r.value ∧ r.value < (m + 1 / 2) * 2 ^ e := by
    split at hold
    · exact .inl ‹_›
    · exact .inr hold
  generalize r.value = x at hlow hhigh heven
  have hm : (1 : ℚ) ≤ m := by exact_mod_cast h.pos
  have hreach : reach m e ≤ 1 / 2 := by
    unfold reach
    split <;> norm_num
  have hx : 0 < x := lt_of_lt_of_le (mul_pos (by linarith) hunit) hlow
  unfold nearest
  rcases le_or_gt ((m : ℚ) * 2 ^ e) x with hle | hlt
  · rw [grid_eq h hle (by linarith), nearestEven_eq (m := m) (by positivity)]
    · rw [le_div_iff₀ hunit]
      linarith
    · rwa [div_le_iff₀ hunit]
    · rw [lt_div_iff₀ hunit, div_lt_iff₀ hunit]
      refine heven.imp_right fun hs => ⟨?_, hs.2⟩
      linarith
  · rw [grid_below h hlow hlt]
    unfold reach at hlow heven
    split_ifs at hlow heven ⊢ with hpow
    · -- half a unit below a power of two, which has an even significand also in the smaller unit
      obtain ⟨rfl, -⟩ := hpow
      have hunit' : (0 : ℚ) < 2 ^ (e - 1) := by positivity
      have hhalf : (2 : ℚ) ^ e = 2 * 2 ^ (e - 1) := by
        rw [zpow_sub_one₀ two_ne_zero]
        ring
      push_cast at hlow hlt
      rw [hhalf] at hlow hlt ⊢
      rw [nearestEven_eq (m := 2 ^ 53) (by positivity)]
      · push_cast
        ring
      · rw [le_div_iff₀ hunit']
        push_cast
        linarith
      · rw [div_le_iff₀ hunit']
        push_cast
        linarith
      · exact .inl (by decide)
    · rw [nearestEven_eq (m := m) (by positivity)]
      · rwa [le_div_iff₀ hunit]
      · rwa [div_le_iff₀ hunit]
      · rwa [lt_div_iff₀ hunit, div_lt_iff₀ hunit]

/-! ## The search -/

/-- What is found on a grid is one of the number's two neighbours there, and it is in the interval. -/
theorem onGrid_spec {v : Ratio} {i : Interval} {d : Digits} (h : onGrid v i e = some d) :
    d.exponent = e ∧ i.holds (Ratio.decimal d.digits e) = true ∧
      (d.digits = v.steps e ∧ v.steps e ≠ 0 ∨ d.digits = v.steps e + 1) := by
  unfold onGrid at h
  dsimp only at h
  have down (hd : (v.steps e != 0 && i.holds (Ratio.decimal (v.steps e) e)) = true) :
      v.steps e ≠ 0 ∧ i.holds (Ratio.decimal (v.steps e) e) = true := by
    rwa [Bool.and_eq_true, bne_iff_ne] at hd
  split at h
  · rename_i hdown hup
    obtain ⟨h0, hdown⟩ := down hdown
    split_ifs at h <;> cases h
    · exact ⟨rfl, hdown, .inl ⟨rfl, h0⟩⟩
    · exact ⟨rfl, hup, .inr rfl⟩
    · exact ⟨rfl, hdown, .inl ⟨rfl, h0⟩⟩
    · exact ⟨rfl, hup, .inr rfl⟩
  · rename_i hdown _
    obtain ⟨h0, hdown⟩ := down hdown
    cases h
    exact ⟨rfl, hdown, .inl ⟨rfl, h0⟩⟩
  · rename_i _ hup
    cases h
    exact ⟨rfl, hup, .inr rfl⟩
  · cases h

theorem onGrid_holds {v : Ratio} {i : Interval} {d : Digits} (h : onGrid v i e = some d) :
    i.holds (Ratio.decimal d.digits d.exponent) = true := by
  obtain ⟨rfl, hh, -⟩ := onGrid_spec h
  exact hh

theorem isSome_onGrid {v : Ratio} {i : Interval}
    (h : v.steps e ≠ 0 ∧ i.holds (Ratio.decimal (v.steps e) e) = true ∨
      i.holds (Ratio.decimal (v.steps e + 1) e) = true) : (onGrid v i e).isSome = true := by
  unfold onGrid
  dsimp only
  split
  · split_ifs <;> rfl
  · rfl
  · rfl
  · rename_i hdown hup
    rcases h with ⟨h0, hd⟩ | hu
    · rw [bne_iff_ne.2 h0, hd] at hdown
      cases hdown
    · rw [hu] at hup
      cases hup

theorem searchGrids_holds {v : Ratio} {i : Interval} {turns k : ℕ} (hk : k < turns)
    (h : (onGrid v i (e - k)).isSome = true) :
    i.holds (Ratio.decimal (searchGrids v i turns e).digits (searchGrids v i turns e).exponent) = true := by
  induction turns generalizing e k with
  | zero => omega
  | succ turns ih =>
    unfold searchGrids
    cases hd : onGrid v i e with
    | some d => exact onGrid_holds hd
    | none =>
      cases k with
      | zero => simp [hd] at h
      | succ k =>
        refine ih (k := k) (by omega) ?_
        have : e - 1 - (k : ℤ) = e - (k + 1 : ℕ) := by push_cast; ring
        rwa [this]

/-- The numbers strictly between the ends of the interval of `m · 2 ^ e`. -/
def Inside (m : ℕ) (e : ℤ) (x : ℚ) : Prop := (m - reach m e) * 2 ^ e < x ∧ x < (m + 1 / 2) * 2 ^ e

/-- Steps of the seventeenth digit are small enough not to pass over the interval. -/
theorem seventeenth_digit (h : Canonical m e) {S : ℚ} (hS : 0 < S) (hle : S * 10 ^ 16 ≤ m * 2 ^ e) :
    let n := ⌊m * 2 ^ e / S⌋₊
    n ≠ 0 ∧ Inside m e (n * S) ∨ Inside m e ((n + 1 : ℕ) * S) := by
  intro n
  have hunit : (0 : ℚ) < 2 ^ e := by positivity
  have hdown : n * S ≤ m * 2 ^ e := (le_div_iff₀ hS).1 (Nat.floor_le (by positivity))
  have hup : m * 2 ^ e < (n + 1) * S := (div_lt_iff₀ hS).1 (Nat.lt_floor_add_one _)
  have h0 : n ≠ 0 := by
    refine Nat.pos_iff_ne_zero.1 (Nat.floor_pos.2 ?_)
    rw [le_div_iff₀ hS]
    linarith
  unfold Inside reach
  push_cast
  split_ifs with hpow
  · obtain ⟨rfl, -⟩ := hpow
    push_cast at hle hdown hup ⊢
    refine .inr ⟨?_, ?_⟩ <;> linarith
  · have hm : (m : ℚ) * 2 ^ e < 2 ^ 53 * 2 ^ e := by
      gcongr
      exact_mod_cast h.upper
    rcases lt_or_ge (((m : ℚ) - 1 / 2) * 2 ^ e) (n * S) with hlt | hge
    · exact .inl ⟨h0, hlt, by linarith⟩
    · refine .inr ⟨?_, ?_⟩ <;> linarith

theorem holds_of_inside (h0 : 0 < m) (n : ℕ) (p : ℤ) (h : Inside m e (n * 10 ^ p)) :
    (Interval.of m e).holds (Ratio.decimal n p) = true := by
  rw [← Ratio.value_decimal] at h
  rw [holds_iff h0 (Ratio.den_decimal n p)]
  split
  · exact ⟨h.1.le, h.2.le⟩
  · exact h

/-- The grid of the seventeenth digit has a point in the interval. -/
theorem isSome_onGrid_seventeenth (h : Canonical m e) : (onGrid (Ratio.binary m e) (Interval.of m e)
    (leadingExponent (Ratio.binary m e) + 1 - (17 : ℕ))).isSome = true := by
  have hnum : 0 < (Ratio.binary m e).num := by
    have h0 := h.pos
    cases e with
    | ofNat k => exact Nat.pos_of_ne_zero (by simp [Ratio.binary, Nat.shiftLeft_eq]; omega)
    | negSucc k => exact h0
  have hlead := pow_leadingExponent_le hnum (Ratio.den_binary m e)
  refine isSome_onGrid ?_
  generalize leadingExponent (Ratio.binary m e) = L at hlead ⊢
  have hgrid : L + 1 - (17 : ℕ) = L - (16 : ℕ) := by omega
  have hsplit : (10 : ℚ) ^ (L - (16 : ℕ)) * 10 ^ 16 = 10 ^ L := by
    rw [zpow_sub₀ (by norm_num), zpow_natCast]
    field_simp
  rw [Ratio.value_binary, ← hsplit] at hlead
  have hsteps := seventeenth_digit h (by positivity) hlead
  rw [← Ratio.value_binary, ← Ratio.steps_eq] at hsteps
  rw [hgrid]
  exact hsteps.imp (fun hd => ⟨hd.1, holds_of_inside h.pos _ _ hd.2⟩) (holds_of_inside h.pos _ _)

theorem shortest_holds (h : Canonical m e) :
    (Interval.of m e).holds (Ratio.decimal (shortest m e).digits (shortest m e).exponent) = true :=
  searchGrids_holds (k := 17) (by decide) (isSome_onGrid_seventeenth h)

/-! ## The last digit -/

/-- What ends with a zero is found on the next coarser grid already. -/
theorem isSome_onGrid_add_one (h0 : 0 < m) {v : Ratio} {p : ℤ} {d : Digits}
    (h : onGrid v (Interval.of m e) p = some d) (hten : d.digits % 10 = 0) :
    (onGrid v (Interval.of m e) (p + 1)).isSome = true := by
  obtain ⟨-, hholds, hdigits⟩ := onGrid_spec h
  obtain ⟨q, hq⟩ := Nat.dvd_of_mod_eq_zero hten
  have hvalue : (Ratio.decimal q (p + 1)).value = (Ratio.decimal d.digits p).value := by
    rw [Ratio.value_decimal, Ratio.value_decimal, hq, zpow_add_one₀ (by norm_num)]
    push_cast
    ring
  have hcoarse : (Interval.of m e).holds (Ratio.decimal q (p + 1)) = true := by
    rw [holds_iff h0 (Ratio.den_decimal _ _)] at hholds ⊢
    rwa [hvalue]
  refine isSome_onGrid ?_
  rw [Ratio.steps_add_one]
  rcases hdigits with ⟨hd, hne⟩ | hd
  · have hdown : v.steps p / 10 = q := by omega
    rw [hdown]
    exact .inl ⟨by omega, hcoarse⟩
  · have hup : v.steps p / 10 + 1 = q := by omega
    rw [hup]
    exact .inr hcoarse

theorem searchGrids_mod_ten (h0 : 0 < m) {v : Ratio} {turns k : ℕ} {p : ℤ} (hk : k < turns)
    (h : (onGrid v (Interval.of m e) (p - k)).isSome = true)
    (hp : onGrid v (Interval.of m e) (p + 1) = none ∨ v.steps p = 0) :
    (searchGrids v (Interval.of m e) turns p).digits % 10 ≠ 0 := by
  induction turns generalizing p k with
  | zero => omega
  | succ turns ih =>
    unfold searchGrids
    cases hd : onGrid v (Interval.of m e) p with
    | some d =>
      rcases hp with hnone | hsteps
      · intro hten
        have hsome := isSome_onGrid_add_one h0 hd hten
        rw [hnone] at hsome
        cases hsome
      · obtain ⟨-, -, hdigits⟩ := onGrid_spec hd
        show d.digits % 10 ≠ 0
        omega
    | none =>
      cases k with
      | zero => simp [hd] at h
      | succ k =>
        refine ih (k := k) (by omega) ?_ ?_
        · have hgrid : p - 1 - (k : ℤ) = p - (k + 1 : ℕ) := by omega
          rwa [hgrid]
        · rw [sub_add_cancel]
          exact .inl hd

/-- The shortest decimal of a double has no zero at its end. -/
theorem shortest_mod_ten (h : Canonical m e) : (shortest m e).digits % 10 ≠ 0 := by
  refine searchGrids_mod_ten h.pos (k := 17) (by decide) (isSome_onGrid_seventeenth h) (.inr ?_)
  rw [Ratio.steps_eq, Nat.floor_eq_zero, div_lt_one (by positivity)]
  exact lt_pow_leadingExponent (Ratio.den_binary m e)

/-- The number that a decimal stands for. -/
def Digits.value (d : Digits) : ℚ := d.digits * 10 ^ d.exponent

/-- The shortest decimal of a double is rounded to that double. -/
theorem nearest_shortest (h : Canonical m e) : nearest (shortest m e).value = m * 2 ^ e := by
  have := nearest_of_holds h (Ratio.den_decimal _ _) (shortest_holds h)
  rwa [Ratio.value_decimal] at this

end BlochSphere.Decimal
