/-
How many keyframes a rotation reports as reached, and how many it has passed. The first number is computed
by multiplying and rounding down, the second by comparing with the progress of each keyframe, which is a
quotient. In exact arithmetic they are the same. In double precision the product and the quotients are
rounded, and at the end of a step either of them may be on the wrong side of it.
-/
import BlochSphere.Proofs.Easing
import BlochSphere.Proofs.Engine.Path

namespace BlochSphere

/-! ## Keyframes passed -/

section Passed

variable {α : Type} [Scalar α]

/-- How many keyframes of its path a rotation has passed. -/
def Rotation.passed (r : Rotation α) : Nat := r.path.countP (·.progress ≤ r.progress)

theorem countP_range_of_lt_iff {f : Nat → Bool} {c m : Nat} (hc : c ≤ m) (h : ∀ i < m, f i = true ↔ i < c) :
    (List.range m).countP f = c := by
  obtain ⟨d, rfl⟩ := Nat.exists_eq_add_of_le hc
  have hfront : (List.range c).countP f = c := by
    conv_rhs => rw [← List.length_range (n := c)]
    rw [List.countP_eq_length]
    intro i hi
    rw [List.mem_range] at hi
    exact (h i (by omega)).2 hi
  have hback : ((List.range d).map (c + ·)).countP f = 0 := by
    rw [List.countP_eq_zero]
    intro i hi
    obtain ⟨j, hj, rfl⟩ := List.mem_map.1 hi
    rw [List.mem_range] at hj
    rw [h (c + j) (by omega)]
    omega
  rw [List.range_add, List.countP_append, hfront, hback, Nat.add_zero]

namespace RotationPath.Even

variable {n c : Nat} {p : RotationPath α} {r : Rotation α}

/-- The keyframes are as far as the ends of steps, whatever is counted. -/
theorem countP_progress (h : p.Even n) (f : α → Bool) :
    p.keyframes.countP (fun k => f k.progress) = (List.range (n + 1)).countP (fun i => f (Scalar.step i n)) := by
  have hu : p.keyframes.countP (fun k => f k.progress) = p.unmarked.keyframes.countP (fun k => f k.progress) := by
    show _ = (p.keyframes.map Keyframe.unmarked).countP _
    rw [Array.countP_map]
    rfl
  rw [hu, h]
  show (Array.ofFn _).countP _ = _
  rw [← Array.countP_toList, Array.toList_ofFn, List.ofFn_eq_map, List.countP_map, ← List.map_coe_finRange_eq_range,
    List.countP_map]
  rfl

/-- A rotation has passed `c` keyframes if it has passed the ends of the first `c` steps and no others. -/
theorem passed_eq (h : p.Even n) (hpath : r.path = p.keyframes) (hc : c ≤ n + 1)
    (hstep : ∀ i ≤ n, Scalar.step i n ≤ r.progress ↔ i < c) : r.passed = c := by
  unfold Rotation.passed
  rw [hpath, h.countP_progress (fun t => decide (t ≤ r.progress))]
  refine countP_range_of_lt_iff hc fun i hi => ?_
  rw [decide_eq_true_iff]
  exact hstep i (Nat.lt_succ_iff.1 hi)

end RotationPath.Even

theorem Engine.reachedAt_of_floor {n k : Nat} {t : α} (h : Scalar.floor (t * Scalar.ofInt n) = (k : Int))
    (hk : k ≤ n) : reachedAt n (n + 1) t = k + 1 := by
  unfold reachedAt
  simp only [h]
  rw [if_neg (by omega)]
  omega

end Passed

/-! ## Exact arithmetic -/

theorem Engine.real_reachedAt {n : Nat} {t : ℝ} (h0 : 0 ≤ t) (h1 : t ≤ 1) :
    reachedAt n (n + 1) t = ⌊t * n⌋₊ + 1 := by
  refine reachedAt_of_floor ?_ (Nat.floor_le_of_le (mul_le_of_le_one_left n.cast_nonneg h1))
  show ⌊t * ((n : ℤ) : ℝ)⌋ = _
  rw [Int.cast_natCast, Int.natCast_floor_eq_floor (by positivity)]

theorem Scalar.real_clamp_mem (t : ℝ) :
    let t := clamp (@OfNat.ofNat ℝ 0 (instOfNat 0)) (@OfNat.ofNat ℝ 1 (instOfNat 1)) t
    0 ≤ t ∧ t ≤ 1 := by
  rw [real_zero, real_one]
  rcases le_total t 0 with h | h
  · simp [real_clamp_of_le h]
  · rcases le_total 1 t with h1 | h1
    · simp [real_clamp_of_ge h1]
    · rw [real_clamp_of_mem h h1]
      exact ⟨h, h1⟩

/-- In exact arithmetic the keyframes that are reached are those that are passed. -/
theorem RotationPath.Even.real_passed {n : Nat} {p : RotationPath ℝ} {r : Rotation ℝ} (h : p.Even n) (h0 : 0 < n)
    (hpath : r.path = p.keyframes) (ht0 : 0 ≤ r.progress) (ht1 : r.progress ≤ 1) :
    r.passed = ⌊r.progress * n⌋₊ + 1 := by
  have hn : (0 : ℝ) < n := by exact_mod_cast h0
  refine h.passed_eq hpath ?_ fun i _ => ?_
  · have hle : ⌊r.progress * n⌋₊ ≤ n := Nat.floor_le_of_le (mul_le_of_le_one_left n.cast_nonneg ht1)
    omega
  · rw [Scalar.real_step, div_le_iff₀ hn, Nat.lt_succ_iff, Nat.le_floor_iff (by positivity)]

/-! ## Double precision -/

/-- How the keyframes that are reached compare with those that are passed. -/
inductive Rotation.Counted (n : Nat) (r : Rotation Float) : Prop where
  | exact (h : r.reached = r.passed)
  -- the product is rounded up to the number of the keyframe that comes next
  | early (h : r.reached = r.passed + 1) (hstep : r.progress < Scalar.step r.passed n)
    (hproduct : (r.progress * Scalar.ofInt n == Scalar.ofInt r.passed) = true)
  -- the progress is that of a keyframe, whose number the product falls short of
  | late (h : r.reached + 1 = r.passed) (hstep : (r.progress == Scalar.step r.reached n) = true)
    (hproduct : r.progress * Scalar.ofInt n < Scalar.ofInt r.reached)

namespace Binary64

variable {n : ℕ} {t : Float} {v : ℚ}

theorem floor_mul_le (n : ℕ) (hv : v ≤ 1) : ⌊v * n⌋₊ ≤ n :=
  Nat.floor_le_of_le (mul_le_of_le_one_left n.cast_nonneg hv)

theorem nearest_mul_le (hv : v ≤ 1) (h0 : 0 ≤ v) (hn : n < 2 ^ 53) : nearest (v * n) ≤ n := by
  have h := nearest_mono (mul_nonneg h0 n.cast_nonneg) (mul_le_of_le_one_left (n.cast_nonneg (α := ℚ)) hv)
  rwa [nearest_natCast hn] at h

theorem denotes_mul_ofInt (hd : Denotes t v) (hv : v ≤ 1) (hn : n < 2 ^ 53) :
    Denotes (t * Scalar.ofInt n) (nearest (v * n)) := by
  refine hd.mul (denotes_ofInt hn) ?_
  have hle : v * n ≤ n := mul_le_of_le_one_left n.cast_nonneg hv
  have hlt : (n : ℚ) < 2 ^ (53 : ℤ) := by exact_mod_cast hn
  exact (hle.trans_lt hlt).trans (zpow_lt_zpow_right₀ one_lt_two (by decide))

theorem reachedAt_eq (hd : Denotes t v) (hv : v ≤ 1) (hn : n < 2 ^ 53) :
    Engine.reachedAt n (n + 1) t = ⌊nearest (v * n)⌋₊ + 1 := by
  refine Engine.reachedAt_of_floor ?_ (Nat.floor_le_of_le (nearest_mul_le hv hd.nonneg hn))
  rw [Int.natCast_floor_eq_floor (nearest_nonneg _)]
  exact (denotes_mul_ofInt hd hv hn).floor_eq

/-- Rounding moves the product to the next whole number at most. -/
theorem nearest_mul_le_succ (h0 : 0 ≤ v) (hv : v ≤ 1) (hn : n + 1 < 2 ^ 53) :
    nearest (v * n) ≤ ⌊v * n⌋₊ + 1 := by
  have hle := floor_mul_le n hv
  have h := nearest_mono (mul_nonneg h0 n.cast_nonneg) (Nat.lt_floor_add_one (v * n)).le
  rwa [← Nat.cast_succ, nearest_natCast (by omega), Nat.cast_succ] at h

theorem floor_nearest (h0 : 0 ≤ v) (hv : v ≤ 1) (hn : n + 1 < 2 ^ 53) :
    ⌊nearest (v * n)⌋₊ = if nearest (v * n) = ⌊v * n⌋₊ + 1 then ⌊v * n⌋₊ + 1 else ⌊v * n⌋₊ := by
  have hpos : 0 ≤ v * n := mul_nonneg h0 n.cast_nonneg
  have hle := floor_mul_le n hv
  have hlow := nearest_mono (Nat.cast_nonneg _) (Nat.floor_le hpos)
  rw [nearest_natCast (by omega)] at hlow
  split
  · rename_i h
    rw [h, ← Nat.cast_succ, Nat.floor_natCast]
  · rename_i h
    exact (Nat.floor_eq_iff (nearest_nonneg _)).2 ⟨hlow, lt_of_le_of_ne (nearest_mul_le_succ h0 hv hn) h⟩

/-- A step that ends after `v` is not rounded to before `v`. -/
theorem le_nearest_div (hd : Denotes t v) (h0 : 0 < n) {i : ℕ} (hi : ⌊v * n⌋₊ < i) :
    v ≤ nearest ((i : ℚ) / n) := by
  have hlt : v < (i : ℚ) / n := by
    rw [lt_div_iff₀ (by exact_mod_cast h0)]
    exact (Nat.floor_lt (mul_nonneg hd.nonneg n.cast_nonneg)).1 hi
  have h := nearest_mono hd.nonneg hlt.le
  rwa [hd.nearest_eq] at h

/-- The steps that end at `v` or before, once rounded: those that do so exactly, and the next one if it is
rounded to `v`. -/
theorem nearest_div_le_iff (hd : Denotes t v) (h0 : 0 < n) (hn : n < 2 ^ 53) {i : ℕ} (hi : i ≤ n) :
    nearest ((i : ℚ) / n) ≤ v ↔
      i < if ⌊v * n⌋₊ + 1 ≤ n ∧ nearest ((⌊v * n⌋₊ + 1 : ℕ) / n) = v then ⌊v * n⌋₊ + 2 else ⌊v * n⌋₊ + 1 := by
  rcases Nat.lt_trichotomy i (⌊v * n⌋₊ + 1) with hlt | rfl | hgt
  · have hle : (i : ℚ) / n ≤ v := by
      rw [div_le_iff₀ (by exact_mod_cast h0)]
      exact (Nat.le_floor_iff (mul_nonneg hd.nonneg n.cast_nonneg)).1 (Nat.lt_succ_iff.1 hlt)
    have h := nearest_mono (by positivity) hle
    rw [hd.nearest_eq] at h
    refine iff_of_true h ?_
    split <;> omega
  · have h := le_nearest_div hd h0 (Nat.lt_succ_self ⌊v * n⌋₊)
    constructor
    · intro hle
      rw [if_pos ⟨hi, le_antisymm hle h⟩]
      omega
    · split
      · rename_i hlate
        exact fun _ => hlate.2.le
      · omega
  · have h := le_nearest_div hd h0 (Nat.lt_succ_self ⌊v * n⌋₊)
    refine iff_of_false (not_le.2 (h.trans_lt (nearest_div_lt hgt hi hn))) ?_
    split <;> omega

end Binary64

namespace RotationPath.Even

open Binary64

variable {n : Nat} {p : RotationPath Float} {r : Rotation Float} {v : ℚ}

theorem double_passed (h : p.Even n) (h0 : 0 < n) (hn : n < 2 ^ 53) (hpath : r.path = p.keyframes)
    (hd : Denotes r.progress v) (hv : v ≤ 1) :
    r.passed =
      if ⌊v * n⌋₊ + 1 ≤ n ∧ nearest ((⌊v * n⌋₊ + 1 : ℕ) / n) = v then ⌊v * n⌋₊ + 2 else ⌊v * n⌋₊ + 1 := by
  refine h.passed_eq hpath ?_ fun i hi => ?_
  · have hle := floor_mul_le n hv
    split <;> omega
  · rw [(denotes_step hi h0 hn).le_iff hd]
    exact nearest_div_le_iff hd h0 hn hi

theorem counted (h : p.Even n) (h0 : 0 < n) (hn : n + 1 < 2 ^ 53) (hpath : r.path = p.keyframes)
    (hr : r.reached = Engine.reachedAt n (n + 1) r.progress) (hd : Denotes r.progress v) (hv : v ≤ 1) :
    r.Counted n := by
  have hpassed := h.double_passed h0 (by omega) hpath hd hv
  rw [reachedAt_eq hd hv (by omega), floor_nearest hd.nonneg hv hn] at hr
  have hproduct := denotes_mul_ofInt hd hv (show n < 2 ^ 53 by omega)
  by_cases hup : nearest (v * n) = ⌊v * n⌋₊ + 1
  · have hnext : ⌊v * n⌋₊ + 1 ≤ n := by
      have hle := nearest_mul_le hv hd.nonneg (show n < 2 ^ 53 by omega)
      rw [hup] at hle
      exact_mod_cast hle
    rw [if_pos hup] at hr
    by_cases hdown : nearest ((⌊v * n⌋₊ + 1 : ℕ) / n) = v
    · rw [if_pos ⟨hnext, hdown⟩] at hpassed
      exact .exact (by omega)
    · rw [if_neg fun hc => hdown hc.2] at hpassed
      refine .early (by omega) ?_ ?_
      · rw [hpassed, hd.lt_iff (denotes_step hnext h0 (by omega))]
        exact lt_of_le_of_ne (le_nearest_div hd h0 (Nat.lt_succ_self _)) (Ne.symm hdown)
      · rw [hpassed]
        refine (hproduct.beq_iff (denotes_ofInt (by omega))).2 ?_
        rw [hup, Nat.cast_succ]
  · rw [if_neg hup] at hr
    by_cases hdown : ⌊v * n⌋₊ + 1 ≤ n ∧ nearest ((⌊v * n⌋₊ + 1 : ℕ) / n) = v
    · rw [if_pos hdown] at hpassed
      refine .late (by omega) ?_ ?_
      · rw [hr, hd.beq_iff (denotes_step hdown.1 h0 (by omega)), hdown.2]
      · rw [hr]
        refine (hproduct.lt_iff (denotes_ofInt (by omega))).2 ?_
        rw [Nat.cast_succ]
        exact lt_of_le_of_ne (nearest_mul_le_succ hd.nonneg hv hn) hup
    · rw [if_neg hdown] at hpassed
      exact .exact (by omega)

/-- Where the number of steps is a power of two, neither the product nor the quotients are rounded. -/
theorem passed_of_two_pow (h : p.Even n) (hn : n + 1 < 2 ^ 53) (hpath : r.path = p.keyframes)
    (hr : r.reached = Engine.reachedAt n (n + 1) r.progress) (hd : Denotes r.progress v) (hv : v ≤ 1) {j : Nat}
    (hj : n = 2 ^ j) : r.reached = r.passed := by
  have h0 : 0 < n := hj ▸ Nat.two_pow_pos j
  have hn2 : (n : ℚ) = 2 ^ (j : ℤ) := by
    rw [hj, zpow_natCast]
    norm_num
  have hproduct : nearest (v * n) = v * n := by
    obtain ⟨m, e, hm, he, rfl⟩ := hd.exists_eq
    rw [hn2, mul_assoc, ← zpow_add₀ two_ne_zero]
    exact nearest_of_lt hm (by omega)
  have hquotient : ∀ k : ℕ, k < 2 ^ 53 → nearest ((k : ℚ) / n) = k / n := by
    intro k hk
    have hj53 : j < 53 := (Nat.pow_lt_pow_iff_right (Nat.lt_succ_self 1)).1 (hj ▸ (by omega : n < 2 ^ 53))
    rw [hn2, div_eq_mul_inv, ← zpow_neg]
    exact nearest_of_lt hk (by omega)
  have hlate : ¬ (⌊v * n⌋₊ + 1 ≤ n ∧ nearest ((⌊v * n⌋₊ + 1 : ℕ) / n) = v) := by
    rintro ⟨hle, heq⟩
    rw [hquotient _ (by omega), div_eq_iff (by exact_mod_cast h0.ne'), Nat.cast_succ] at heq
    exact absurd heq (Nat.lt_floor_add_one (v * n)).ne'
  rw [hr, reachedAt_eq hd hv (by omega), hproduct, h.double_passed h0 (by omega) hpath hd hv, if_neg hlate]

end RotationPath.Even

/-! ## Runs -/

namespace Tour

open Binary64

/-- What a rotation in double precision is read off. -/
theorem double_rotation {n : Nat} (h0 : 0 < n) {calls : List (EngineCall Float)} {q : Query Float}
    {rotation : Rotation Float} {turned : Engine Float} (hq : (q.t == q.t) = true)
    (hok : ((new n : Tour Float).run calls).engine.rotationAt q.request q.t = .ok (rotation, turned)) :
    n + 1 < 2 ^ 53 ∧ ∃ (p : RotationPath Float) (v : ℚ), p.Even n ∧ rotation.path = p.keyframes ∧
      rotation.reached = Engine.reachedAt n (n + 1) rotation.progress ∧
      rotation.progress = Scalar.clamp 0 1 q.t ∧ Denotes rotation.progress v ∧ v ≤ 1 := by
  rcases rotationAt_even h0 calls q with ⟨hlong, p, turned', hp, heven, hr⟩ | ⟨⟨fault, hfault⟩, -⟩
  · rw [hok] at hr
    cases hr
    obtain ⟨v, hv, hd⟩ := denotes_clamp hq
    have hbound : Engine.maxKeyframes < 2 ^ 53 := by decide
    exact ⟨by omega, p, v, heven, rfl, rfl, rfl, hd, hv⟩
  · rw [hok] at hfault
    cases hfault

/-- The keyframes that are reached are those that are passed, up to rounding. After any calls a query is answered,
unless a path of so many keyframes cannot be made. In exact arithmetic the two numbers are the same. In
double precision the keyframes reached are between one and all of them and never fewer at a later progress,
and they are those passed but for one keyframe at the end of a step, where the product is rounded over the end
or short of it. Where the number of steps is a power of two they are the same again. -/
theorem reached_counts_passed (n : Nat) (h0 : 0 < n) :
    (∀ (calls : List (EngineCall ℝ)) (q : Query ℝ),
      let e := ((new n : Tour ℝ).run calls).engine
      (∃ rotation turned, e.rotationAt q.request q.t = .ok (rotation, turned) ∧
        rotation.reached = rotation.passed) ∨
      (∃ fault, e.rotationAt q.request q.t = .error fault) ∧ Engine.maxKeyframes < n + 1) ∧
    (∀ (calls : List (EngineCall Float)) (q : Query Float), (q.t == q.t) = true →
      let e := ((new n : Tour Float).run calls).engine
      (∃ rotation turned, e.rotationAt q.request q.t = .ok (rotation, turned) ∧
        1 ≤ rotation.reached ∧ rotation.reached ≤ n + 1 ∧ rotation.Counted n ∧
        ∀ j, n = 2 ^ j → rotation.reached = rotation.passed) ∨
      (∃ fault, e.rotationAt q.request q.t = .error fault) ∧ Engine.maxKeyframes < n + 1) ∧
    ∀ (calls calls' : List (EngineCall Float)) (q q' : Query Float) (rotation rotation' : Rotation Float)
      (turned turned' : Engine Float),
      ((new n : Tour Float).run calls).engine.rotationAt q.request q.t = .ok (rotation, turned) →
      ((new n : Tour Float).run calls').engine.rotationAt q'.request q'.t = .ok (rotation', turned') →
      q.t ≤ q'.t → rotation.reached ≤ rotation'.reached := by
  refine ⟨?_, ?_, ?_⟩
  · intro calls q e
    rcases rotationAt_even h0 calls q with ⟨-, p, turned, -, heven, hok⟩ | hfault
    · obtain ⟨ht0, ht1⟩ := Scalar.real_clamp_mem q.t
      refine .inl ⟨_, _, hok, ?_⟩
      rw [heven.real_passed h0 rfl ht0 ht1]
      exact Engine.real_reachedAt ht0 ht1
    · exact .inr hfault
  · intro calls q hq e
    rcases rotationAt_even h0 calls q with ⟨-, p, turned, -, -, hok⟩ | hfault
    · obtain ⟨hn, p, v, heven, hpath, hr, -, hd, hv⟩ := double_rotation h0 hq hok
      have hle := Nat.floor_le_of_le (nearest_mul_le hv hd.nonneg (show n < 2 ^ 53 by omega))
      have hreached := hr.trans (reachedAt_eq hd hv (by omega))
      exact .inl ⟨_, _, hok, by omega, by omega, heven.counted h0 hn hpath hr hd hv,
        fun j hj => heven.passed_of_two_pow hn hpath hr hd hv hj⟩
    · exact .inr hfault
  · intro calls calls' q q' rotation rotation' turned turned' hok hok' hle
    obtain ⟨hq, hq'⟩ := beq_self_of_le hle
    obtain ⟨hn, p, v, -, -, hr, hprogress, hd, hv⟩ := double_rotation h0 hq hok
    obtain ⟨-, p', v', -, -, hr', hprogress', hd', hv'⟩ := double_rotation h0 hq' hok'
    have hmono : v ≤ v' := clamp_mono hle (hprogress ▸ hd) (hprogress' ▸ hd')
    rw [hr, hr', reachedAt_eq hd hv (by omega), reachedAt_eq hd' hv' (by omega)]
    have hproduct : v * n ≤ v' * n := by gcongr
    exact Nat.succ_le_succ (Nat.floor_mono (nearest_mono (mul_nonneg hd.nonneg n.cast_nonneg) hproduct))

/-- Seven steps, none of which ends at a double but the last. -/
theorem reached_counts_passed_of_seven :
    let e := ((new 7 : Tour Float).run [.rotate ⟨1, .h, 1⟩]).engine
    0 < 7 ∧ ((0.25 : Float) == 0.25) = true ∧ ((0.5 : Float) == 0.5) = true ∧ (0.25 : Float) ≤ 0.5 ∧
      ∃ rotation turned rotation' turned', e.rotationAt ⟨2, Gate.x.code⟩ 0.25 = .ok (rotation, turned) ∧
        e.rotationAt ⟨2, Gate.x.code⟩ 0.5 = .ok (rotation', turned') ∧
        rotation.Counted 7 ∧ rotation'.Counted 7 ∧ rotation.reached ≤ rotation'.reached := by
  intro e
  obtain ⟨-, hdouble, hmono⟩ := reached_counts_passed 7 (by decide)
  have ht : ((0.25 : Float) == 0.25) = true := by decide +kernel
  have ht' : ((0.5 : Float) == 0.5) = true := by decide +kernel
  have hle : (0.25 : Float) ≤ 0.5 := by decide +kernel
  rcases hdouble [.rotate ⟨1, .h, 1⟩] ⟨2, .x, 0.25⟩ ht with ⟨rotation, turned, hok, -, -, hc, -⟩ | ⟨-, hlong⟩
  · rcases hdouble [.rotate ⟨1, .h, 1⟩] ⟨2, .x, 0.5⟩ ht' with ⟨rotation', turned', hok', -, -, hc', -⟩ | ⟨-, hlong⟩
    · exact ⟨by decide, ht, ht', hle, rotation, turned, rotation', turned', hok, hok', hc, hc',
        hmono _ _ _ _ _ _ _ _ hok hok' hle⟩
    · exact absurd hlong (by decide)
  · exact absurd hlong (by decide)

/-- At the end of the fifteenth of twenty-two steps sixteen keyframes are passed and fifteen are reached. Just
before the end of the fifth of six steps five are passed and six are reached. -/
theorem passed_keyframe_not_reached :
    (∃ rotation turned, (Engine.new 22 : Engine Float).rotationAt ⟨1, Gate.x.code⟩ 0.6818181818181818 =
      .ok (rotation, turned) ∧ rotation.reached = 15 ∧ rotation.passed = 16) ∧
    ∃ rotation turned, (Engine.new 6 : Engine Float).rotationAt ⟨1, Gate.x.code⟩ 0.8333333333333333 =
      .ok (rotation, turned) ∧ rotation.reached = 6 ∧ rotation.passed = 5 := by
  constructor
  · refine ⟨_, _, rfl, ?_, ?_⟩ <;> decide +kernel
  · refine ⟨_, _, rfl, ?_, ?_⟩ <;> decide +kernel

end Tour

end BlochSphere
