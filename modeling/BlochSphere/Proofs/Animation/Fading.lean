/-
The trail fades. A weight depends on the place of its entry and on the length of the trail, so one more entry
changes them all; still, no trail is ever seen whose weights are not those of its present length. In exact
arithmetic the weights of a trail rise from the oldest entry to the newest, which has weight one, and as the
trail grows behind an entry its weight falls.
-/
import BlochSphere.Proofs.Easing
import BlochSphere.Proofs.Animation.Event

namespace BlochSphere

/-! ## Weights by place -/

section Weighed

variable {α : Type} [Scalar α]

/-- Every entry has the weight of its place in a trail of this length. -/
def Weighed (trail : List (TrailPoint α)) : Prop :=
  ∀ (i : Nat) (p : TrailPoint α), trail[i]? = some p →
    p.weight = Easing.outQuad (Scalar.ofInt (i + 1) / Scalar.ofInt trail.length)

theorem Weighed.nil : Weighed ([] : List (TrailPoint α)) := nofun

theorem weighed_weigh (trail : List (TrailPoint α)) : Weighed (weigh trail) := by
  intro i p h
  have hlength : (weigh trail).length = trail.length := List.length_mapIdx
  unfold weigh at h
  rw [List.getElem?_mapIdx, Option.map_eq_some_iff] at h
  obtain ⟨q, -, rfl⟩ := h
  rw [hlength]

end Weighed

/-! ## Weights in exact arithmetic -/

/-- The weights are positive, rise from the oldest entry to the newest, and end with one. -/
structure Fading (trail : List (TrailPoint ℝ)) : Prop where
  mem : ∀ p ∈ trail, 0 < p.weight ∧ p.weight ≤ 1
  rising : trail.Pairwise fun p q => p.weight < q.weight
  newest : ∀ p, trail.getLast? = some p → p.weight = 1

namespace Weighed

variable {trail : List (TrailPoint ℝ)} {i : Nat} {p : TrailPoint ℝ}

theorem weight_eq (h : Weighed trail) (hi : trail[i]? = some p) :
    p.weight = Easing.outQuad ((i + 1) / trail.length : ℝ) := by
  rw [h i p hi]
  show Easing.outQuad (((i + 1 : Int) : ℝ) / ((trail.length : Int) : ℝ)) = _
  push_cast
  rfl

/-- The place of an entry as a part of the trail. -/
theorem place_mem (hi : trail[i]? = some p) :
    (0 : ℝ) < (i + 1) / trail.length ∧ ((i + 1) / trail.length : ℝ) ≤ 1 := by
  obtain ⟨hlt, -⟩ := List.getElem?_eq_some_iff.1 hi
  have hn : (0 : ℝ) < trail.length := by exact_mod_cast (Nat.zero_le i).trans_lt hlt
  have hle : (i + 1 : ℝ) ≤ trail.length := by exact_mod_cast hlt
  exact ⟨by positivity, (div_le_one hn).2 hle⟩

theorem fading (h : Weighed trail) : Fading trail := by
  have ease := Easing.outQuad_reparametrises
  refine ⟨fun p hp => ?_, ?_, fun p hp => ?_⟩
  · obtain ⟨i, hi⟩ := List.getElem?_of_mem hp
    obtain ⟨hpos, hle⟩ := place_mem hi
    rw [h.weight_eq hi]
    refine ⟨?_, (ease.mem _).2⟩
    have hrise := ease.strict 0 _ le_rfl hpos hle
    rwa [ease.of_nonpos 0 le_rfl] at hrise
  · rw [List.pairwise_iff_getElem]
    intro i j hi hj hij
    have hi' : trail[i]? = some trail[i] := List.getElem?_eq_getElem hi
    have hj' : trail[j]? = some trail[j] := List.getElem?_eq_getElem hj
    rw [h.weight_eq hi', h.weight_eq hj']
    refine ease.strict _ _ (place_mem hi').1.le ?_ (place_mem hj').2
    have hn : (0 : ℝ) < trail.length := by exact_mod_cast (Nat.zero_le i).trans_lt hi
    have hlt : (i + 1 : ℝ) < j + 1 := by exact_mod_cast Nat.succ_lt_succ hij
    exact div_lt_div_of_pos_right hlt hn
  · rw [List.getLast?_eq_getElem?] at hp
    obtain ⟨hlt, -⟩ := List.getElem?_eq_some_iff.1 hp
    have hplace : (((trail.length - 1 : Nat) : ℝ) + 1) / trail.length = 1 := by
      have hn : (trail.length : ℝ) ≠ 0 := by
        exact_mod_cast (show trail.length ≠ 0 by omega)
      rw [div_eq_one_iff_eq hn]
      exact_mod_cast Nat.sub_add_cancel (show 1 ≤ trail.length by omega)
    rw [h.weight_eq hp, hplace, ease.of_one_le 1 le_rfl]

/-- In a longer trail the same place has less weight. -/
theorem weight_le {trail' : List (TrailPoint ℝ)} {p' : TrailPoint ℝ} (h : Weighed trail)
    (h' : Weighed trail') (hi : trail[i]? = some p) (hi' : trail'[i]? = some p')
    (hlength : trail.length ≤ trail'.length) : p'.weight ≤ p.weight := by
  obtain ⟨hlt, -⟩ := List.getElem?_eq_some_iff.1 hi
  have hn : (0 : ℝ) < trail.length := by exact_mod_cast (Nat.zero_le i).trans_lt hlt
  have hle : (trail.length : ℝ) ≤ trail'.length := by exact_mod_cast hlength
  rw [h.weight_eq hi, h'.weight_eq hi']
  apply Easing.outQuad_reparametrises.mono
  exact div_le_div_of_nonneg_left (by positivity) hn hle

end Weighed

/-! ## Weights along the frames -/

namespace Frame

variable {α : Type}

/-- Without a clearing, what is known only grows. -/
theorem known_prefix (start : List (Marker α)) (frames more : List (Frame α))
    (h : ∀ f ∈ more, f.cleared = false) : known start frames <+: known start (frames ++ more) := by
  induction more using List.reverseRecOn with
  | nil => rw [List.append_nil]
  | append_singleton more f ih =>
    rw [← List.append_assoc, known_concat, learn_of_shown (h f (by simp))]
    exact (ih fun g hg => h g (List.mem_append_left _ hg)).trans (List.prefix_append _ _)

/-- Until a clearing comes, every entry of the trail of a frame stays in its place in the trails after it. -/
theorem Coherent.stays {start : List (Marker α)} {frames front between : List (Frame α)} {f g : Frame α}
    (h : Coherent start frames) (hp : front ++ f :: (between ++ [g]) <+: frames)
    (hc : ∀ k ∈ f :: (between ++ [g]), k.cleared = false) {i : Nat} {p : TrailPoint α}
    (hi : f.trail[i]? = some p) :
    f.trail.length ≤ g.trail.length ∧ ∃ q, g.trail[i]? = some q ∧ q.placed = p.placed := by
  have hsplit : front ++ f :: (between ++ [g]) = (front ++ [f]) ++ (between ++ [g]) :=
    List.append_cons ..
  rw [hsplit] at hp
  have hf : f.markers = known start (front ++ [f]) :=
    h front f ((List.prefix_append _ _).trans hp) (hc f List.mem_cons_self)
  have hg : g.markers = known start ((front ++ [f]) ++ (between ++ [g])) := by
    rw [← List.append_assoc] at hp ⊢
    exact h _ g hp (hc g (by simp))
  have hgrown : f.markers <+: g.markers := by
    rw [hf, hg]
    exact known_prefix start _ _ fun k hk => hc k (List.mem_cons_of_mem _ hk)
  constructor
  · simpa [markers] using hgrown.length_le
  · have hm : g.markers[i]? = some p.placed := by
      obtain ⟨rest, hrest⟩ := hgrown
      have hm : f.markers[i]? = some p.placed := by
        unfold markers
        rw [List.getElem?_map, hi]
        rfl
      rw [← hrest, List.getElem?_append_left (List.getElem?_eq_some_iff.1 hm).1, hm]
    unfold markers at hm
    rwa [List.getElem?_map, Option.map_eq_some_iff] at hm

/-- The trail of the last frame. -/
def lastTrail (frames : List (Frame α)) : List (TrailPoint α) :=
  (frames.getLast?.map Frame.trail).getD []

theorem lastTrail_concat (frames : List (Frame α)) (f : Frame α) :
    lastTrail (frames ++ [f]) = f.trail := by
  unfold lastTrail
  rw [List.getLast?_concat]
  rfl

end Frame

namespace Animator

section Current

variable {ρ α : Type} [Scalar α] [Renderer ρ α]

/-- The trail is that of the last frame that was handed over, and every frame had the weights of its time. -/
structure Current (a : Animator (Traced ρ α) α) : Prop where
  trail : a.trail = Frame.lastTrail a.handed
  frames : ∀ f ∈ a.handed, Weighed f.trail
  followed : a.Followed [] a.handed

theorem Current.react (a : Animator (Traced ρ α) α) (e : Event) (h : a.Current) : (a.react e).Current := by
  have change := a.react_change e
  refine ⟨?_, fun f hf => ?_, change.followed h.followed⟩
  · cases change with
    | none _ ht hh =>
      rw [ht, hh]
      exact h.trail
    | frame _ _ _ ht hh => rw [ht, hh, Frame.lastTrail_concat]
    | clearing _ ht hh =>
      rw [ht, hh, Frame.lastTrail_concat]
      rfl
  · rcases change.mem_handed hf with hf | rfl | ⟨active, b, s, _, hs, rfl⟩
    · exact h.frames f hf
    · exact .nil
    · -- a shot is weighed after its markers were added
      obtain ⟨_, hshot⟩ := shot_spec hs
      rw [hshot.trail]
      exact weighed_weigh _

omit [Renderer ρ α] in
theorem Current.weighed {a : Animator (Traced ρ α) α} (h : a.Current) : Weighed a.trail := by
  rw [h.trail]
  rcases List.eq_nil_or_concat a.handed with hn | ⟨front, f, hc⟩
  · rw [hn]
    exact .nil
  · have hf := h.frames f (by rw [hc]; simp)
    rw [hc, List.concat_eq_append, Frame.lastTrail_concat]
    exact hf

theorem Current.reactAll (duration : Duration) (resolution : Int) (renderer : ρ) (now : Int)
    (events : List Event) :
    ((new duration resolution ⟨renderer, []⟩ now : Animator (Traced ρ α) α).reactAll events).Current :=
  reactAll_induction Current.react events _ ⟨rfl, nofun, ⟨rfl, .nil []⟩⟩

end Current

/-- Weights are always current and fade. In every run, the trail is that of the last frame that the renderer was
handed, and in the trail as in every frame each entry has the weight of its place. In exact arithmetic, weights
are in the unit interval and not zero, they rise up to the newest entry, which has weight one, and until a
reset no entry gets more weight in a later frame. The run is traced, which changes nothing of it. -/
theorem trail_fades :
    (∀ {ρ α : Type} [Scalar α] [Renderer ρ α] (duration : Duration) (resolution : Int) (renderer : ρ)
      (now : Int) (events : List Event),
      let a : Animator (Traced ρ α) α := (new duration resolution ⟨renderer, []⟩ now).reactAll events
      a.mapRenderer Traced.renderer = (new duration resolution renderer now).reactAll events ∧
      a.trail = Frame.lastTrail a.handed ∧ Weighed a.trail ∧ ∀ f ∈ a.handed, Weighed f.trail) ∧
    ∀ {ρ : Type} [Renderer ρ ℝ] (duration : Duration) (resolution : Int) (renderer : ρ) (now : Int)
      (events : List Event),
      let a : Animator (Traced ρ ℝ) ℝ := (new duration resolution ⟨renderer, []⟩ now).reactAll events
      Fading a.trail ∧ (∀ f ∈ a.handed, Fading f.trail) ∧
      ∀ front f between g, front ++ f :: (between ++ [g]) <+: a.handed →
        (∀ k ∈ f :: (between ++ [g]), k.cleared = false) →
        ∀ (i : Nat) (p : TrailPoint ℝ), f.trail[i]? = some p →
        ∃ q, g.trail[i]? = some q ∧ q.placed = p.placed ∧ q.weight ≤ p.weight := by
  constructor
  · intro ρ α _ _ duration resolution renderer now events a
    have h : a.Current := .reactAll duration resolution renderer now events
    have traced := reactAll_mapRenderer Traced.answersAlike events
      (new duration resolution ⟨renderer, []⟩ now : Animator (Traced ρ α) α)
    exact ⟨traced.symm, h.trail, h.weighed, h.frames⟩
  · intro ρ _ duration resolution renderer now events a
    have h : a.Current := .reactAll duration resolution renderer now events
    refine ⟨h.weighed.fading, fun f hf => (h.frames f hf).fading, fun front f between g hp hc i p hi => ?_⟩
    obtain ⟨hlength, q, hq, hplaced⟩ := h.followed.coherent.stays hp hc hi
    have hmem {k : Frame ℝ} (hk : k ∈ f :: (between ++ [g])) : k ∈ a.handed :=
      hp.subset (List.mem_append_right _ hk)
    have hf := h.frames f (hmem List.mem_cons_self)
    have hg := h.frames g (hmem (by simp))
    exact ⟨q, hq, hplaced, hf.weight_le hg hi hq hlength⟩

/-- A request gets half of its way and then to its end, and after that one that names no gate faults. -/
theorem trail_fades_halfway :
    let events : List Event := [.queue ⟨0⟩, .callback 0, .clock 600000000, .callback 0, .queue ⟨99⟩,
      .clock 1000000000, .callback 0, .callback 0]
    let a : Animator (Traced (Discard Float) Float) Float :=
      (new 1000000000 2 ⟨Discard.new, []⟩ 0).reactAll events
    a.handed.map (fun f => f.trail.map TrailPoint.marker) = [[], [0], [0, 1]] ∧
    a.active.map (fun x => x.gate.code) = some ⟨99⟩ ∧ Weighed a.trail ∧ ∀ f ∈ a.handed, Weighed f.trail := by
  intro events a
  have htrails : a.handed.map (fun f => f.trail.map TrailPoint.marker) = [[], [0], [0, 1]] := by
    decide +kernel
  have hactive : a.active.map (fun x => x.gate.code) = some ⟨99⟩ := by decide +kernel
  have hrun : a = (new 1000000000 2 ⟨Discard.new, []⟩ 0).reactAll events := rfl
  -- the run itself is no longer needed, and unifying with it would run it again
  clear_value a
  obtain ⟨-, -, hw, hf⟩ := trail_fades.1 1000000000 2 (Discard.new : Discard Float) 0 events
  rw [← hrun] at hw hf
  exact ⟨htrails, hactive, hw, hf⟩

end Animator

end BlochSphere
