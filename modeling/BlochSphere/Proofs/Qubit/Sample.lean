/-
What sampling counts, and what it uses of its random source. A state with a norm takes one draw for
each shot: a draw whose share of the norm is not above the probability of zero measures zero, every
other one measures one. Without a norm, and without shots, nothing is drawn. So two samplings one
after the other count what one sampling with the shots of both would have counted, and leave the
source where that one would have left it.
-/
import BlochSphere.Qubit.Sample

namespace BlochSphere

/-! ## Draws -/

namespace RandomSource

variable {σ : Type} [RandomSource σ]

/-- The next `n` draws of a source, and the source after them. -/
def draws : Nat → σ → List UInt64 × σ
  | 0, source => ([], source)
  | n + 1, source =>
    let (draw, source) := next source
    let (more, source) := draws n source
    (draw :: more, source)

theorem draws_succ (n : Nat) (source : σ) : draws (n + 1) source =
    ((next source).1 :: (draws n (next source).2).1, (draws n (next source).2).2) := rfl

@[simp] theorem length_draws (n : Nat) : ∀ source : σ, (draws n source).1.length = n := by
  induction n with
  | zero => exact fun _ => rfl
  | succ n ih =>
    intro source
    rw [draws_succ, List.length_cons, ih]

theorem draws_add (a b : Nat) : ∀ source : σ, draws (a + b) source =
    ((draws a source).1 ++ (draws b (draws a source).2).1, (draws b (draws a source).2).2) := by
  induction a with
  | zero =>
    intro source
    rw [Nat.zero_add]
    rfl
  | succ a ih =>
    intro source
    rw [Nat.succ_add, draws_succ, ih]
    rfl

end RandomSource

/-! ## Counts -/

namespace Qubit

open RandomSource (draws draws_succ length_draws draws_add)

variable {α : Type} [Scalar α] {σ : Type} [RandomSource σ]

/-- Whether the number `u` of the unit interval measures zero. What does not compare measures one. -/
def measuresZero (q : Qubit α) (u : α) : Bool := decide (u * q.norm ≤ q.p0)

/-- How many of some draws measure zero. -/
def zeros (q : Qubit α) (words : List UInt64) : Nat :=
  words.countP fun w => q.measuresZero (Random.unit w)

/-- How many of some draws measure one. -/
def ones (q : Qubit α) (words : List UInt64) : Nat :=
  words.countP fun w => !q.measuresZero (Random.unit w)

theorem zeros_append (q : Qubit α) (xs ys : List UInt64) : q.zeros (xs ++ ys) = q.zeros xs + q.zeros ys :=
  List.countP_append

theorem ones_append (q : Qubit α) (xs ys : List UInt64) : q.ones (xs ++ ys) = q.ones xs + q.ones ys :=
  List.countP_append

theorem zeros_add_ones (q : Qubit α) (words : List UInt64) : q.zeros words + q.ones words = words.length := by
  rw [List.length_eq_countP_add_countP fun w => q.measuresZero (Random.unit w)]
  simp only [zeros, ones, Bool.not_eq_true, Bool.decide_eq_false]

theorem measure_eq (q : Qubit α) (n : Nat) : ∀ (zeros ones : Nat) (source : σ),
    measure q.p0 q.norm n zeros ones source =
      ((zeros + q.zeros (draws n source).1, ones + q.ones (draws n source).1), (draws n source).2) := by
  induction n with
  | zero => exact fun _ _ _ => rfl
  | succ n ih =>
    intro zeros ones source
    rcases hn : RandomSource.next source with ⟨draw, rest⟩
    rw [measure, draws_succ, hn]
    by_cases hd : Random.unit draw * q.norm ≤ q.p0
    · simp [ih, hd, Qubit.zeros, Qubit.ones, measuresZero]
      omega
    · simp [ih, hd, Qubit.zeros, Qubit.ones, measuresZero]
      omega

theorem sample_of_norm_zero {q : Qubit α} (hq : (q.norm == 0) = true) (shots : Int) (source : σ) :
    q.sample shots source = (⟨0, 0, shots, q.p0, q.p1⟩, source) := by
  have hq : (q.p0 + q.p1 == 0) = true := hq
  rw [sample, if_pos (by rw [hq, Bool.true_or])]

/-- What sampling a state with a norm gives. A number of shots that is not positive counts as none. -/
theorem sample_eq {q : Qubit α} (hq : (q.norm == 0) = false) (shots : Int) (source : σ) :
    q.sample shots source =
      (⟨q.zeros (draws shots.toNat source).1, q.ones (draws shots.toNat source).1, shots, q.p0, q.p1⟩,
        (draws shots.toNat source).2) := by
  have hq : (q.p0 + q.p1 == 0) = false := hq
  unfold sample
  by_cases hs : shots ≤ 0
  · rw [if_pos (by rw [decide_eq_true hs, Bool.or_true]), Int.toNat_of_nonpos hs]
    rfl
  · have hm : measure q.p0 (q.p0 + q.p1) shots.toNat 0 0 source = _ := q.measure_eq shots.toNat 0 0 source
    rw [if_neg (by rw [hq, decide_eq_false hs]; exact Bool.false_ne_true)]
    simp only [hm, Nat.zero_add]

/-- Sampling is additive over shots and draws once for each shot: the counts of two samplings one
after the other are those of one sampling with the shots of both, which leaves the source in the
same state. A state without norm and a number of shots that is not positive give empty counts and
leave the source as it was; otherwise exactly `shots` draws are taken, and the zeros are those of
them whose share of the norm is not above the probability of zero. -/
theorem sample_adds_up (q : Qubit α) (source : σ) :
    (∀ a b : Nat,
      let first := q.sample a source
      let second := q.sample b first.2
      let both := q.sample (a + b) source
      both.1.zero = first.1.zero + second.1.zero ∧ both.1.one = first.1.one + second.1.one ∧
        both.2 = second.2) ∧
    ∀ shots : Int,
      let (h, after) := q.sample shots source
      let (words, spent) := draws shots.toNat source
      ((q.norm == 0) = true ∨ shots ≤ 0) ∧ h.zero = 0 ∧ h.one = 0 ∧ after = source ∨
      ((q.norm == 0) = false ∧ 0 < shots) ∧ (h.zero + h.one : Int) = shots ∧ after = spent ∧
        words.length = shots ∧ h.zero = words.countP fun w => decide (Random.unit w * q.norm ≤ q.p0) := by
  cases hq : q.norm == 0 with
  | true =>
    constructor
    · intro a b
      simp only [sample_of_norm_zero hq, and_self]
    · intro shots
      rw [sample_of_norm_zero hq]
      exact .inl ⟨.inl rfl, rfl, rfl, rfl⟩
  | false =>
    constructor
    · intro a b
      simp only [sample_eq hq, ← Int.natCast_add, Int.toNat_natCast, draws_add, zeros_append, ones_append,
        and_self]
    · intro shots
      have hz := q.zeros_add_ones (draws shots.toNat source).1
      rw [length_draws] at hz
      rw [sample_eq hq]
      by_cases hs : shots ≤ 0
      · rw [Int.toNat_of_nonpos hs]
        exact .inl ⟨.inr hs, rfl, rfl, rfl⟩
      · have hl := length_draws shots.toNat source
        exact .inr ⟨⟨rfl, by omega⟩, by dsimp only; omega, rfl, by omega, rfl⟩

end Qubit

end BlochSphere
