/-
The 95th percentile of gate durations. The window holds the last durations, up to its size, in the
order in which they came; the place computed in double precision is 95 hundredths of their number,
rounded down, for every number of durations that a window can hold; and what stands at a place of the
sorted window is the order statistic of that place.
-/
import BlochSphere.Metrics
import Mathlib.Data.List.DropRight
import Mathlib.Data.List.GetD

namespace BlochSphere.Metrics

/-! ## The window -/

theorem slide_rtake (durations : List Duration) (d : Duration) :
    slide (durations.rtake windowSize) d = (durations ++ [d]).rtake windowSize := by
  unfold slide
  simp only [List.rtake, List.length_append, List.length_drop, List.length_singleton, windowSize]
  generalize hl : durations.length = n
  by_cases h : 256 < n - (n - 256) + 1
  · rw [if_pos h, List.drop_append_of_le_length (by rw [List.length_drop]; omega),
      List.drop_append_of_le_length (by omega), List.drop_drop, show n + 1 - 256 = n - 256 + 1 by omega]
  · rw [if_neg h, List.drop_append_of_le_length (by omega), show n + 1 - 256 = n - 256 by omega]

theorem window_foldl (durations : List Duration) :
    (durations.foldl recordCompleted new).window = durations.rtake windowSize := by
  induction durations using List.reverseRecOn with
  | nil => rfl
  | append_singleton durations d ih =>
    rw [List.foldl_concat, ← slide_rtake, ← ih]
    rfl

theorem p95_foldl {durations : List Duration} (hn : durations ≠ []) :
    (durations.foldl recordCompleted new).p95 = percentile (durations.rtake windowSize) := by
  obtain ⟨durations, d, rfl⟩ := List.eq_nil_or_concat' durations |>.resolve_left hn
  rw [← window_foldl, List.foldl_concat]
  rfl

/-! ## The place -/

/-- In double precision 0.95 is not quite 95 hundredths, and no product with the size of a window
comes out in a different whole number for it. -/
theorem floor_index {n : Nat} (h : n ≤ windowSize) :
    (Binary64.floor (Float.ofNat n * 0.95)).toNat = 95 * n / 100 := by
  have hall : ∀ n : Fin 257, (Binary64.floor (Float.ofNat n * 0.95)).toNat = 95 * n.val / 100 := by
    decide +kernel
  exact hall ⟨n, Nat.lt_succ_of_le h⟩

theorem p95Index_eq {n : Nat} (h0 : 0 < n) (h : n ≤ windowSize) : p95Index n = 95 * n / 100 := by
  unfold p95Index
  rw [floor_index h]
  exact if_neg (by omega)

/-! ## Order statistics -/

section Sorted

variable {below above : List Duration} {x : Duration}

/-- In a sorted list, only what stands before an entry is less than it. -/
theorem countP_lt_le (hs : (below ++ x :: above).Pairwise (· ≤ ·)) :
    (below ++ x :: above).countP (fun d => decide (d < x)) ≤ below.length := by
  obtain ⟨-, hx, -⟩ := List.pairwise_append.1 hs
  have habove : (x :: above).countP (fun d => decide (d < x)) = 0 := by
    refine List.countP_eq_zero.2 ?_
    intro d hd
    rw [decide_eq_true_iff, Int64.not_lt]
    rcases List.mem_cons.1 hd with rfl | hd
    · exact Int64.le_refl d
    · exact (List.pairwise_cons.1 hx).1 d hd
  rw [List.countP_append, habove, Nat.add_zero]
  exact List.countP_le_length

/-- In a sorted list, an entry and what stands before it are at most the entry. -/
theorem lt_countP_le (hs : (below ++ x :: above).Pairwise (· ≤ ·)) :
    below.length < (below ++ x :: above).countP (fun d => decide (d ≤ x)) := by
  obtain ⟨-, -, hcross⟩ := List.pairwise_append.1 hs
  have hbelow : below.countP (fun d => decide (d ≤ x)) = below.length := by
    refine List.countP_eq_length.2 ?_
    intro d hd
    exact decide_eq_true (hcross d hd x (List.mem_cons_self ..))
  have hx : 0 < (x :: above).countP (fun d => decide (d ≤ x)) :=
    List.countP_pos_iff.2 ⟨x, List.mem_cons_self .., decide_eq_true (Int64.le_refl x)⟩
  rw [List.countP_append, hbelow]
  omega

end Sorted

theorem pairwise_sorted (window : List Duration) :
    (window.mergeSort fun a b => decide (a ≤ b)).Pairwise (· ≤ ·) := by
  have htrans : ∀ a b c : Duration,
      decide (a ≤ b) = true → decide (b ≤ c) = true → decide (a ≤ c) = true := by
    intro a b c hab hbc
    exact decide_eq_true (Int64.le_trans (of_decide_eq_true hab) (of_decide_eq_true hbc))
  have htotal : ∀ a b : Duration, (decide (a ≤ b) || decide (b ≤ a)) = true := by
    intro a b
    rw [Bool.or_eq_true, decide_eq_true_iff, decide_eq_true_iff]
    exact Int64.le_total a b
  exact (List.pairwise_mergeSort htrans htotal window).imp of_decide_eq_true

/-- The percentile of a window is its order statistic of the computed place. -/
theorem percentile_spec {window : List Duration} (hk : p95Index window.length < window.length) :
    percentile window ∈ window ∧
    window.countP (fun d => decide (d < percentile window)) ≤ p95Index window.length ∧
    p95Index window.length < window.countP (fun d => decide (d ≤ percentile window)) := by
  have hperm := List.mergeSort_perm window fun a b => decide (a ≤ b)
  have hs := pairwise_sorted window
  have hp : percentile window =
      (window.mergeSort fun a b => decide (a ≤ b)).getD (p95Index window.length) 0 := by
    rw [percentile, hperm.length_eq]
  generalize p95Index window.length = k at hk hp ⊢
  generalize (window.mergeSort fun a b => decide (a ≤ b)) = sorted at hperm hs hp
  rw [← hperm.length_eq] at hk
  have hsplit : sorted = sorted.take k ++ percentile window :: sorted.drop (k + 1) := by
    rw [hp, List.getD_eq_getElem _ _ hk, ← List.drop_eq_getElem_cons hk, List.take_append_drop]
  have hlength : (sorted.take k).length = k := by
    rw [List.length_take]
    omega
  generalize sorted.take k = below at hsplit hlength
  generalize sorted.drop (k + 1) = above at hsplit
  subst hsplit hlength
  -- sorting keeps what is in the window, and so every count over it
  rw [← hperm.mem_iff, ← hperm.countP_eq, ← hperm.countP_eq]
  exact ⟨List.mem_append_right _ (List.mem_cons_self ..), countP_lt_le hs, lt_countP_le hs⟩

/-- The 95th percentile after any durations, `m` of them in the window: the window holds the last `m`
durations in their order; the computed place is `95 m / 100`, rounded down, which is a place of the
window, so that it is not moved to the last one; and the percentile is an entry of the window with no
more entries below it than the place says and with more entries up to it. -/
theorem p95_is_order_statistic (durations : List Duration) (hn : durations ≠ []) :
    let m := min durations.length 256
    let k := 95 * m / 100
    let metrics := durations.foldl recordCompleted new
    metrics.window = durations.rtake m ∧ metrics.window.length = m ∧
    (Binary64.floor (Float.ofNat m * 0.95)).toNat = k ∧ k < m ∧ p95Index m = k ∧
    metrics.p95 ∈ metrics.window ∧
    metrics.window.countP (fun d => decide (d < metrics.p95)) ≤ k ∧
    k + 1 ≤ metrics.window.countP (fun d => decide (d ≤ metrics.p95)) := by
  intro m k metrics
  have hm0 : 0 < m := Nat.lt_min.2 ⟨List.length_pos_of_ne_nil hn, by decide⟩
  have hm : m ≤ windowSize := Nat.min_le_right _ _
  have hk : p95Index m = k := p95Index_eq hm0 hm
  have hkm : k < m := by omega
  have hw : metrics.window = durations.rtake windowSize := window_foldl durations
  have hlength : metrics.window.length = m := by
    rw [hw, List.rtake, List.length_drop, windowSize]
    omega
  have hlast : metrics.window = durations.rtake m := by
    have hdrop : durations.length - 256 = durations.length - m := by omega
    rw [hw, List.rtake, List.rtake, windowSize, hdrop]
  have hp : metrics.p95 = percentile metrics.window := by
    rw [hw]
    exact p95_foldl hn
  refine ⟨hlast, hlength, floor_index hm, hkm, hk, ?_⟩
  have hplace : p95Index metrics.window.length < metrics.window.length := by
    rw [hlength, hk]
    exact hkm
  have hspec := percentile_spec hplace
  rw [hlength, hk, ← hp] at hspec
  exact hspec

/-- The percentile after three hundred durations, of which forty-four have left the window. -/
theorem p95_is_order_statistic_of_three_hundred :
    let durations := (List.range 300).map Int64.ofNat
    let metrics := durations.foldl recordCompleted new
    durations ≠ [] ∧ metrics.window = durations.rtake 256 ∧ metrics.p95 ∈ metrics.window ∧
    metrics.window.countP (fun d => decide (d < metrics.p95)) ≤ 243 ∧
    244 ≤ metrics.window.countP (fun d => decide (d ≤ metrics.p95)) := by
  intro durations metrics
  have hl : durations.length = 300 := by rw [List.length_map, List.length_range]
  have hn : durations ≠ [] := List.ne_nil_of_length_pos (by omega)
  have h := p95_is_order_statistic durations hn
  rw [hl] at h
  exact ⟨hn, h.1, h.2.2.2.2.2⟩

end BlochSphere.Metrics
