/-
The running average of gate durations. Each update divides an average that was itself rounded down, so the
errors add up; yet the average is never above the mean, and behind it by half a nanosecond at most for each
duration before the last. The same two bounds keep every intermediate result within 64 bits.
-/
import BlochSphere.Metrics
import Mathlib.Algebra.Order.BigOperators.Group.List
import Mathlib.Data.List.Induction
import Mathlib.Tactic.Linarith
import Mathlib.Tactic.Ring

namespace BlochSphere.Metrics

/-- The sum of some durations, in integer arithmetic. -/
def total (durations : List Duration) : Int := (durations.map Int64.toInt).sum

theorem total_concat (durations : List Duration) (d : Duration) :
    total (durations ++ [d]) = total durations + d.toInt := by
  simp [total]

/-- All that is computed for the average after one more duration is what integer arithmetic gives. -/
structure Exact (m : Metrics) (d : Duration) : Prop where
  count : (Int64.ofNat m.gatesCompleted).toInt = m.gatesCompleted
  next : (Int64.ofNat (m.gatesCompleted + 1)).toInt = m.gatesCompleted + 1
  product : (m.average * Int64.ofNat m.gatesCompleted).toInt = m.average.toInt * m.gatesCompleted
  sum : (m.average * Int64.ofNat m.gatesCompleted + d).toInt = m.average.toInt * m.gatesCompleted + d.toInt
  quotient : (m.recordCompleted d).average.toInt =
    (m.average.toInt * m.gatesCompleted + d.toInt) / (m.gatesCompleted + 1)

/-! ## One duration more -/

section Step

variable {m : Metrics} {d : Duration} {n : Nat}

/-- Numbers of 64 bits without a sign are computed as they are. -/
theorem bmod_eq {x : Int} (h0 : 0 ≤ x) (h : x < 2 ^ 63) : x.bmod (2 ^ 64) = x :=
  Int.bmod_eq_of_le (by omega) (by omega)

theorem exact_of_lt (h0 : 0 ≤ m.average.toInt) (hd : 0 ≤ d.toInt) (hn : m.gatesCompleted + 1 < 2 ^ 63)
    (hs : m.average.toInt * m.gatesCompleted + d.toInt < 2 ^ 63) : m.Exact d := by
  have hcount : (Int64.ofNat m.gatesCompleted).toInt = m.gatesCompleted :=
    Int64.toInt_ofNat_of_lt (by omega)
  have hnext : (Int64.ofNat (m.gatesCompleted + 1)).toInt = m.gatesCompleted + 1 :=
    Int64.toInt_ofNat_of_lt hn
  have hp : 0 ≤ m.average.toInt * m.gatesCompleted := by positivity
  have hproduct : (m.average * Int64.ofNat m.gatesCompleted).toInt = m.average.toInt * m.gatesCompleted := by
    rw [Int64.toInt_mul, hcount, bmod_eq hp (by omega)]
  have hsum : (m.average * Int64.ofNat m.gatesCompleted + d).toInt =
      m.average.toInt * m.gatesCompleted + d.toInt := by
    rw [Int64.toInt_add, hproduct, bmod_eq (by omega) hs]
  refine ⟨hcount, hnext, hproduct, hsum, ?_⟩
  show ((m.average * Int64.ofNat m.gatesCompleted + d) / Int64.ofNat (m.gatesCompleted + 1)).toInt = _
  rw [Int64.toInt_div, hsum, hnext, Int.tdiv_eq_ediv_of_nonneg (by omega)]
  refine bmod_eq (Int.ediv_nonneg (by omega) (by omega)) ?_
  exact lt_of_le_of_lt (Int.ediv_le_self _ (by omega)) hs

end Step

/-! ## Drift -/

/-- How far the average of some durations is from their mean, in multiples of their number: never above it,
and behind it by half a nanosecond at most for each duration before the last. -/
structure Drift (durations : List Duration) (m : Metrics) : Prop where
  count : m.gatesCompleted = durations.length
  nonneg : 0 ≤ m.average.toInt
  upper : durations.length * m.average.toInt ≤ total durations
  lower : 2 * total durations ≤ 2 * (durations.length * m.average.toInt) + durations.length * (durations.length - 1)

namespace Drift

variable {durations : List Duration} {m : Metrics} {d : Duration}

theorem lower_half (h : Drift durations m) :
    total durations - durations.length * (durations.length - 1) / 2 ≤ durations.length * m.average.toInt := by
  have hlower := h.lower
  omega

theorem exact (h : Drift durations m) (hd : 0 ≤ d.toInt) (hn : durations.length + 1 < 2 ^ 63)
    (hs : total (durations ++ [d]) < 2 ^ 63) : m.Exact d := by
  have hupper := h.upper
  rw [total_concat] at hs
  rw [← h.count, mul_comm] at hupper
  exact exact_of_lt h.nonneg hd (h.count ▸ hn) (by omega)

/-- Dividing loses less than the divisor: one nanosecond for each duration that was counted before. -/
theorem step (h : Drift durations m) (hd : 0 ≤ d.toInt) (hn : durations.length + 1 < 2 ^ 63)
    (hs : total (durations ++ [d]) < 2 ^ 63) : Drift (durations ++ [d]) (m.recordCompleted d) := by
  have hq := (h.exact hd hn hs).quotient
  obtain ⟨hcount, hnonneg, hupper, hlower⟩ := h
  rw [hcount] at hq
  have hlength : ((durations ++ [d]).length : ℤ) = durations.length + 1 := by simp
  have hpos : (0 : ℤ) < durations.length + 1 := by omega
  have hx : 0 ≤ m.average.toInt * durations.length + d.toInt := by positivity
  have hle := Int.mul_ediv_self_le (x := m.average.toInt * durations.length + d.toInt) hpos.ne'
  have hlt := Int.lt_mul_ediv_self_add (x := m.average.toInt * durations.length + d.toInt) hpos
  rw [← hq] at hle hlt
  constructor
  · simp [recordCompleted, hcount]
  · rw [hq]
    exact Int.ediv_nonneg hx hpos.le
  · rw [hlength, total_concat]
    linarith
  · rw [hlength, total_concat]
    have hsquare : ((durations.length : ℤ) + 1) * (durations.length + 1 - 1) =
        durations.length * (durations.length - 1) + 2 * durations.length := by ring
    rw [hsquare]
    linarith

theorem foldl (durations : List Duration) : durations.length < 2 ^ 63 → (∀ d ∈ durations, 0 ≤ d) →
    total durations < 2 ^ 63 → Drift durations (durations.foldl recordCompleted new) := by
  induction durations using List.reverseRecOn with
  | nil => exact fun _ _ _ => ⟨rfl, le_rfl, by simp [total], by simp [total]⟩
  | append_singleton durations d ih =>
    intro hn hpos hs
    have hd : 0 ≤ d.toInt := Int64.le_iff_toInt_le.1 (hpos d (by simp))
    rw [List.length_append, List.length_singleton] at hn
    rw [List.foldl_concat]
    refine (ih (by omega) (fun d hd => hpos d (by simp [hd])) ?_).step hd hn hs
    rw [total_concat] at hs
    omega

end Drift

theorem total_mono {front durations : List Duration} (h : front <+: durations) (hpos : ∀ d ∈ durations, 0 ≤ d) :
    total front ≤ total durations := by
  obtain ⟨back, rfl⟩ := h
  have hback : 0 ≤ total back := by
    refine List.sum_nonneg fun x hx => ?_
    obtain ⟨d, hd, rfl⟩ := List.mem_map.1 hx
    exact Int64.le_iff_toInt_le.1 (hpos d (by simp [hd]))
  have happend : total (front ++ back) = total front + total back := by simp [total]
  omega

/-! ## The most drift -/

/-- Durations of one, two, three and so on nanoseconds. -/
def staircase (n : Nat) : List Duration := (List.range n).map fun k => Int64.ofNat (k + 1)

theorem staircase_succ (n : Nat) : staircase (n + 1) = staircase n ++ [Int64.ofNat (n + 1)] := by
  simp [staircase, List.range_succ]

theorem total_staircase (n : Nat) : n < 2 ^ 63 → 2 * total (staircase n) = n * (n + 1) := by
  induction n with
  | zero => exact fun _ => rfl
  | succ n ih =>
    intro hn
    rw [staircase_succ, total_concat, Int64.toInt_ofNat_of_lt hn, mul_add, ih (by omega)]
    push_cast
    ring

/-- The average of a staircase stays at its first step. -/
theorem average_staircase (n : Nat) : (n + 1) * (n + 2) / 2 < 2 ^ 63 →
    let m := (staircase (n + 1)).foldl recordCompleted new
    m.gatesCompleted = n + 1 ∧ m.average.toInt = 1 := by
  induction n with
  | zero => exact fun _ => ⟨rfl, rfl⟩
  | succ n ih =>
    intro hn
    have hsquare : (n + 1 + 1) * (n + 1 + 2) = n * n + 5 * n + 6 := by ring
    have hbefore : (n + 1) * (n + 2) = n * n + 3 * n + 2 := by ring
    obtain ⟨hcount, haverage⟩ := ih (by omega)
    have hd : (Int64.ofNat (n + 2)).toInt = n + 2 := Int64.toInt_ofNat_of_lt (by omega)
    rw [staircase_succ, List.foldl_concat]
    generalize (staircase (n + 1)).foldl recordCompleted new = m at *
    have hexact : m.Exact (Int64.ofNat (n + 2)) := by
      refine exact_of_lt (by omega) (by omega) (by omega) ?_
      rw [haverage, one_mul]
      omega
    refine ⟨congrArg (· + 1) hcount, hexact.quotient.trans ?_⟩
    rw [haverage, hcount, hd, Int.ediv_eq_iff_of_pos (by omega)]
    omega

theorem staircase_nonneg {n : Nat} (hn : n < 2 ^ 63) : ∀ d ∈ staircase n, 0 ≤ d := by
  intro d hd
  obtain ⟨i, hi, rfl⟩ := List.mem_map.1 hd
  rw [List.mem_range] at hi
  rw [Int64.le_iff_toInt_le, Int64.toInt_ofNat_of_lt (by omega)]
  exact Int.natCast_nonneg _

/-- No durations are averaged further behind their mean than a staircase. -/
theorem staircase_drift {n : Nat} (h0 : 0 < n) (hn : n * (n + 1) / 2 < 2 ^ 63) :
    total (staircase n) < 2 ^ 63 ∧ n * ((staircase n).foldl recordCompleted new).average.toInt =
      total (staircase n) - (n * (n - 1) / 2 : Int) := by
  obtain _ | k := n
  · exact absurd h0 (Nat.lt_irrefl 0)
  · have hsquare : (k + 1) * (k + 1 + 1) = k * k + 3 * k + 2 := by ring
    have htotal := total_staircase (k + 1) (by omega)
    have hbefore : ((k + 1 : ℕ) : ℤ) * ((k + 1 : ℕ) - 1) = k * k + k := by
      push_cast
      ring
    have hafter : ((k + 1 : ℕ) : ℤ) * ((k + 1 : ℕ) + 1) = k * k + 3 * k + 2 := by
      push_cast
      ring
    rw [(average_staircase k hn).2, hbefore]
    rw [hafter] at htotal
    rw [hsquare] at hn
    constructor <;> omega

/-- The running average drifts, and no further than this. Durations whose sum fits into 64 bits, and that are
no more than 64 bits can count, are averaged without an overflow in any step. The average is never above the
mean, and behind it by half a nanosecond at most for each duration before the last. For every number of
durations there are some that are averaged as far behind as that. -/
theorem average_drift_bounded :
    (∀ durations : List Duration, durations.length < 2 ^ 63 → (∀ d ∈ durations, 0 ≤ d) →
      total durations < 2 ^ 63 →
      let n : Int := durations.length
      let average := (durations.foldl recordCompleted new).average.toInt
      (∀ front d, front ++ [d] <+: durations → (front.foldl recordCompleted new).Exact d) ∧
      total durations - n * (n - 1) / 2 ≤ n * average ∧ n * average ≤ total durations) ∧
    ∀ n : Nat, 0 < n → n * (n + 1) / 2 < 2 ^ 63 →
      ∃ durations : List Duration, durations.length = n ∧ (∀ d ∈ durations, 0 ≤ d) ∧
        total durations < 2 ^ 63 ∧
        n * (durations.foldl recordCompleted new).average.toInt = total durations - (n * (n - 1) / 2 : Int) := by
  constructor
  · intro durations hn hpos hs n average
    have h := Drift.foldl durations hn hpos hs
    refine ⟨fun front d hfront => ?_, ?_, h.upper⟩
    · have hlength := hfront.length_le
      have htotal := total_mono hfront hpos
      have hd : 0 ≤ d.toInt := Int64.le_iff_toInt_le.1 (hpos d (hfront.mem (by simp)))
      rw [List.length_append, List.length_singleton] at hlength
      have hconcat := total_concat front d
      exact (Drift.foldl front (by omega) (fun d hd => hpos d (hfront.mem (by simp [hd]))) (by omega)).exact hd
        (by omega) (by omega)
    · exact h.lower_half
  · intro n h0 hn
    have hle : n * 2 ≤ n * (n + 1) := Nat.mul_le_mul_left n (by omega)
    have hlength : n < 2 ^ 63 := by omega
    exact ⟨staircase n, by simp [staircase], staircase_nonneg hlength, staircase_drift h0 hn⟩

/-- The average of three, zero and five nanoseconds is two, and three durations of one, two and three
nanoseconds are averaged as far behind their mean as any three. -/
theorem average_drift_bounded_of_three :
    let durations : List Duration := [3, 0, 5]
    durations.length < 2 ^ 63 ∧ (∀ d ∈ durations, 0 ≤ d) ∧ total durations < 2 ^ 63 ∧
      ([3, 0].foldl recordCompleted new).Exact 5 ∧ (durations.foldl recordCompleted new).average.toInt = 2 ∧
      total durations - 3 * (3 - 1) / 2 ≤ 3 * 2 ∧ 3 * 2 ≤ total durations ∧
      ∃ durations : List Duration, durations.length = 3 ∧
        3 * (durations.foldl recordCompleted new).average.toInt = total durations - 3 * (3 - 1) / 2 := by
  intro durations
  have hn : durations.length < 2 ^ 63 := by decide
  have hpos : ∀ d ∈ durations, 0 ≤ d := by
    simp only [durations, List.forall_mem_cons]
    exact ⟨by decide, by decide, by decide, nofun⟩
  have hs : total durations < 2 ^ 63 := by decide
  have haverage : (durations.foldl recordCompleted new).average.toInt = 2 := by decide +kernel
  obtain ⟨hbounded, htight⟩ := average_drift_bounded
  obtain ⟨hexact, hlower, hupper⟩ := hbounded durations hn hpos hs
  obtain ⟨staircase, hlength, -, -, hattained⟩ := htight 3 (by decide) (by decide)
  rw [haverage] at hlower hupper
  exact ⟨hn, hpos, hs, hexact [3, 0] 5 (List.prefix_refl _), haverage, hlower, hupper, staircase, hlength,
    hattained⟩

end BlochSphere.Metrics
