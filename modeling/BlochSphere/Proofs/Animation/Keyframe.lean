/-
Markers on a path. A path is inked up to a keyframe when exactly the keyframes up to it, without the
first one, have markers. A rotation that has reached further is due for the keyframes between, in
their order; placing markers for them inks the path up to where the rotation is. No mark that is made
on the way is refused.
-/
import BlochSphere.Proofs.Engine
import BlochSphere.Proofs.Quat

namespace BlochSphere

variable {ρ α : Type} [Scalar α]

/-! ## Where the markers of gates belong -/

/-- The points of the keyframes of a gate that starts at `start` and is cut into `n` steps, from the
first step to the `k`-th. -/
def Gate.stops (g : Gate) (start : Quat α) (n k : Nat) : List (Vec3 α) :=
  (List.range' 1 k).map fun i => (Engine.keyframe start (g.turn * start) n i).point

theorem Gate.stops_add (g : Gate) (start : Quat α) (n k j : Nat) :
    g.stops start n (k + j) = g.stops start n k ++
      (List.range' (k + 1) j).map fun i => (Engine.keyframe start (g.turn * start) n i).point := by
  unfold stops
  rw [← List.map_append, Nat.add_comm k 1, List.range'_append_1]

/-- The points of all keyframes of gates in turn, without those that they start from. -/
def tour (n : Nat) : Quat α → List Gate → List (Vec3 α)
  | _, [] => []
  | start, g :: gates => g.stops start n n ++ tour n (g.turn * start) gates

theorem tour_concat (n : Nat) (gates : List Gate) (g : Gate) :
    ∀ start : Quat α, tour n start (gates ++ [g]) =
      tour n start gates ++ g.stops (start.turnAll gates) n n := by
  induction gates with
  | nil =>
    intro start
    exact List.append_nil _
  | cons first gates ih =>
    intro start
    show first.stops start n n ++ tour n (first.turn * start) (gates ++ [g]) = _
    rw [ih, ← List.append_assoc]
    rfl

/-! ## Inked paths -/

/-- The path has `n` steps, and of its keyframes those from the second to the one after `k` steps have
markers. -/
structure RotationPath.Inked (p : RotationPath α) (n k : Nat) : Prop where
  size : p.keyframes.size = n + 1
  le : k ≤ n
  point : ∀ i x, p.keyframes[i]? = some x → x.point = (Engine.keyframe p.start p.target n i).point
  rendered : ∀ i x, p.keyframes[i]? = some x → (x.rendered = true ↔ 1 ≤ i ∧ i ≤ k)

namespace RotationPath

variable {p : RotationPath α} {n k : Nat}

theorem inked_new (g : Applied) (start target : Quat α) (n : Nat) :
    (Engine.path g start target n).Inked n 0 := by
  have hk (i : Nat) (x : Keyframe α) (h : (Engine.path g start target n).keyframes[i]? = some x) :
      x = Engine.keyframe start target n i := by
    unfold Engine.path at h
    rw [Array.getElem?_ofFn] at h
    split at h
    · exact (Option.some.inj h).symm
    · cases h
  refine ⟨Array.size_ofFn, Nat.zero_le n, fun i x h => ?_, fun i x h => ?_⟩
  · rw [hk i x h]
    rfl
  · rw [hk i x h]
    have hr : (Engine.keyframe start target n i).rendered = false := rfl
    rw [hr]
    constructor
    · nofun
    · omega

/-- The keyframe where a path starts has no marker. -/
theorem Inked.first (h : p.Inked n k) {x : Keyframe α} (hx : p.keyframes[0]? = some x) :
    x.marker = noMarker := by
  by_contra hm
  have hr : x.rendered = true := bne_iff_ne.2 hm
  have hi := ((h.rendered 0 x hx).1 hr).1
  omega

theorem Inked.exists (h : p.Inked n k) {i : Nat} (hi : i ≤ n) : ∃ x, p.keyframes[i]? = some x := by
  have hs : i < p.keyframes.size := by
    rw [h.size]
    omega
  exact ⟨_, Array.getElem?_eq_getElem hs⟩

/-- One more keyframe gets a marker. -/
theorem Inked.mark (h : p.Inked n k) (hk : k < n) {handle : Handle} (hh : handle ≠ noMarker) :
    { p with keyframes := p.keyframes.modify (k + 1) ({ · with marker := handle }) }.Inked n (k + 1) := by
  have old {i : Nat} {x : Keyframe α}
      (hx : (p.keyframes.modify (k + 1) ({ · with marker := handle }))[i]? = some x) :
      ∃ y, p.keyframes[i]? = some y ∧ x = if k + 1 = i then { y with marker := handle } else y := by
    rw [Array.getElem?_modify] at hx
    split at hx
    · rename_i hi
      obtain ⟨y, hy, rfl⟩ := Option.map_eq_some_iff.1 hx
      exact ⟨y, hy, (if_pos hi).symm⟩
    · rename_i hi
      exact ⟨x, hx, (if_neg hi).symm⟩
  refine ⟨?_, hk, fun i x hx => ?_, fun i x hx => ?_⟩
  · rw [Array.size_modify]
    exact h.size
  · obtain ⟨y, hy, rfl⟩ := old hx
    have hp := h.point i y hy
    split <;> exact hp
  · obtain ⟨y, hy, rfl⟩ := old hx
    have hr := h.rendered i y hy
    split
    · rename_i hi
      have hm : ({ y with marker := handle } : Keyframe α).rendered = true := bne_iff_ne.2 hh
      rw [hm]
      constructor
      · omega
      · exact fun _ => rfl
    · rw [hr]
      omega

end RotationPath

/-! ## The keyframes that are due -/

theorem range_behind (k m : Nat) :
    ((List.range' 1 m).filterMap fun i => if i ≤ k then none else some i) = List.range' (k + 1) (m - k) := by
  induction m with
  | zero =>
    rw [Nat.zero_sub]
    rfl
  | succ m ih =>
    rw [List.range'_1_concat, List.filterMap_append, ih]
    by_cases hm : 1 + m ≤ k
    · have h0 : m + 1 - k = 0 ∧ m - k = 0 := by omega
      rw [h0.1, h0.2, List.filterMap_cons, if_pos hm]
      rfl
    · have h1 : m + 1 - k = (m - k) + 1 ∧ k + 1 + (m - k) = 1 + m := by omega
      rw [h1.1, List.range'_1_concat, h1.2, List.filterMap_cons, if_neg hm]
      rfl

namespace Animator

omit [Scalar α] in
theorem mem_due {rotation : Rotation α} {i : Nat} {x : Keyframe α} (h : (i, x) ∈ due rotation) :
    rotation.path[i]? = some x := by
  obtain ⟨j, _, hj⟩ := List.mem_filterMap.1 h
  split at hj
  · rename_i y hy
    split at hj
    · cases hj
    · cases hj
      exact hy
  · cases hj

variable {p : RotationPath α} {n k : Nat}

/-- The keyframes between the last one with a marker and the last one reached are due, in order. -/
theorem due_fst (h : p.Inked n k) {rotation : Rotation α} (hp : rotation.path = p.keyframes)
    (hr : rotation.reached ≤ n + 1) :
    (due rotation).map Prod.fst = List.range' (k + 1) (rotation.reached - 1 - k) := by
  unfold due
  rw [List.map_filterMap, ← range_behind]
  refine List.filterMap_congr fun i hi => ?_
  have hi := List.mem_range'_1.1 hi
  obtain ⟨x, hx⟩ := h.exists (show i ≤ n by omega)
  have hrendered := h.rendered i x hx
  rw [← hp] at hx
  simp only [hx]
  by_cases hk : i ≤ k
  · rw [if_pos hk, if_pos (hrendered.2 ⟨hi.1, hk⟩)]
    rfl
  · rw [if_neg hk, if_neg (fun hx => hk (hrendered.1 hx).2)]
    rfl

theorem due_points (h : p.Inked n k) {rotation : Rotation α} (hp : rotation.path = p.keyframes)
    (hr : rotation.reached ≤ n + 1) : (due rotation).map (fun d => d.2.point) =
      (List.range' (k + 1) (rotation.reached - 1 - k)).map
        fun i => (Engine.keyframe p.start p.target n i).point := by
  rw [← due_fst h hp hr, List.map_map]
  refine List.map_congr_left fun d hd => ?_
  have hx := mem_due hd
  rw [hp] at hx
  exact h.point d.1 d.2 hx

/-! ## Placing markers -/

variable [Renderer ρ α]

omit [Scalar α] in
theorem place_points (g : Applied) (keyframes : List (Nat × Keyframe α)) :
    ∀ (e : Engine α) (r : ρ),
      (place g keyframes e r).1.map Marker.point = keyframes.map fun d => d.2.point := by
  induction keyframes with
  | nil => exact fun _ _ => rfl
  | cons d rest ih =>
    intro e r
    obtain ⟨i, x⟩ := d
    simp only [place, List.map_cons]
    rw [ih]

/-- What the engine answers to the mark that is made when the markers of `front` are placed. -/
def marks (g : Applied) (front : List (Nat × Keyframe α)) (engine : Engine α) (renderer : ρ)
    (next : Nat × Keyframe α) : Bool :=
  let (_, engine, renderer) := place g front engine renderer
  (engine.markRendered g next.1 (Renderer.addMarker renderer next.2.point).1).1

omit [Scalar α] [Renderer ρ α] in
theorem markRendered_true {e : Engine α} {g : Applied} {q : RotationPath α} {i : Nat}
    (hq : e.active = some q) (hg : q.gate.seq = g.seq) (hi : i < q.keyframes.size) (handle : Handle) :
    e.markRendered g i handle = (true, { e with
      active := some { q with keyframes := q.keyframes.modify i ({ · with marker := handle }) } }) := by
  unfold Engine.markRendered
  have hc : (decide (q.gate.seq = g.seq) && decide (0 ≤ (i : Int)) &&
      decide ((i : Int) < q.keyframes.size)) = true := by
    simp [hg, hi]
  simp only [hq, hc, if_true, Int.toNat_natCast]

omit [Scalar α] in
/-- Marks on keyframes of the path in flight are never refused. -/
theorem marks_true (g : Applied) (front : List (Nat × Keyframe α)) :
    ∀ (e : Engine α) (r : ρ) (q : RotationPath α) (next : Nat × Keyframe α), e.active = some q →
      q.gate.seq = g.seq → (∀ d ∈ front ++ [next], d.1 < q.keyframes.size) →
      marks g front e r next = true := by
  induction front with
  | nil =>
    intro e r q next hq hg hs
    show (e.markRendered g next.1 _).1 = true
    rw [markRendered_true hq hg (hs next List.mem_cons_self)]
  | cons d front ih =>
    intro e r q next hq hg hs
    obtain ⟨i, x⟩ := d
    have hi : i < q.keyframes.size := hs (i, x) List.mem_cons_self
    unfold marks
    simp only [place, markRendered_true hq hg hi]
    refine ih _ _ _ next rfl (by exact hg) fun d hd => ?_
    rw [Array.size_modify]
    exact hs d (List.mem_cons_of_mem _ hd)

/-- Markers placed for the next keyframes ink the path up to the last of them. -/
theorem place_inked (g : Applied) (keyframes : List (Nat × Keyframe α)) :
    ∀ (e : Engine α) (r : ρ) (q : RotationPath α) (k : Nat), e.active = some q → q.gate.seq = g.seq →
      q.Inked n k → keyframes.map Prod.fst = List.range' (k + 1) keyframes.length →
      k + keyframes.length ≤ n → (∀ m ∈ (place g keyframes e r).1, m.handle ≠ noMarker) →
      ∃ q', (place g keyframes e r).2.1.active = some q' ∧ q'.bare = q.bare ∧
        q'.Inked n (k + keyframes.length) := by
  induction keyframes with
  | nil => exact fun e r q k hq _ hk _ _ _ => ⟨q, hq, rfl, hk⟩
  | cons d rest ih =>
    intro e r q k hq hg hk hd hn hm
    obtain ⟨i, x⟩ := d
    rw [List.length_cons] at hn hd ⊢
    rw [List.map_cons, List.range'_succ] at hd
    obtain ⟨rfl, hrest⟩ := List.cons.inj hd
    have hi : k + 1 < q.keyframes.size := by
      rw [hk.size]
      omega
    simp only [place, markRendered_true hq hg hi] at hm ⊢
    obtain ⟨q', hq', hb, hk'⟩ := ih _ _ _ _ rfl (by exact hg)
      (hk.mark (by omega) (hm _ List.mem_cons_self)) hrest (by omega)
      fun m hmem => hm m (List.mem_cons_of_mem _ hmem)
    refine ⟨q', hq', hb, ?_⟩
    rw [Nat.add_assoc, Nat.add_comm 1] at hk'
    exact hk'

end Animator

end BlochSphere
