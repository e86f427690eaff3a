/-
The trail, and the frames that show it. A frame shows the whole trail and says which of its markers
are new, so what is on the picture can be read from the last frame or put together from the new
markers of all frames since the last clearing. Both ways lead to the same markers, in the same order,
in every run and for every renderer.
-/
import BlochSphere.Proofs.Animation.Stage

namespace BlochSphere

variable {ρ α : Type}

/-! ## Frames as news -/

/-- The marker of a point of the trail. -/
def TrailPoint.placed (p : TrailPoint α) : Marker α := ⟨p.marker, p.point⟩

namespace Frame

/-- The markers that the trail of a frame shows, the oldest first. -/
def markers (f : Frame α) : List (Marker α) := f.trail.map TrailPoint.placed

/-- The markers known after one more frame, going by the markers that it says are new. -/
def learn (known : List (Marker α)) (f : Frame α) : List (Marker α) :=
  if f.cleared then [] else known ++ f.newMarkers

/-- The markers known after a list of frames, when those of `start` were known before. -/
def known (start : List (Marker α)) (frames : List (Frame α)) : List (Marker α) :=
  frames.foldl learn start

theorem known_concat (start : List (Marker α)) (frames : List (Frame α)) (f : Frame α) :
    known start (frames ++ [f]) = learn (known start frames) f := by
  unfold known
  rw [List.foldl_append, List.foldl_cons, List.foldl_nil]

theorem learn_of_cleared {f : Frame α} (h : f.cleared = true) (known : List (Marker α)) :
    learn known f = [] := if_pos h

theorem learn_of_shown {f : Frame α} (h : f.cleared = false) (known : List (Marker α)) :
    learn known f = known ++ f.newMarkers := if_neg (by rw [h]; nofun)

/-- Every frame shows exactly the markers that are known with it. -/
def Coherent (start : List (Marker α)) (frames : List (Frame α)) : Prop :=
  ∀ front f, front ++ [f] <+: frames → f.cleared = false → f.markers = known start (front ++ [f])

theorem Coherent.nil (start : List (Marker α)) : Coherent start [] := by
  intro front f h
  exact absurd (List.prefix_nil.1 h) (List.concat_ne_nil f front)

theorem Coherent.concat {start : List (Marker α)} {frames : List (Frame α)} {f : Frame α}
    (h : Coherent start frames)
    (hf : f.cleared = false → f.markers = known start frames ++ f.newMarkers) :
    Coherent start (frames ++ [f]) := by
  intro front g hg hc
  rcases List.prefix_concat_iff.1 hg with heq | hg
  · obtain ⟨rfl, hgf⟩ := List.append_inj' heq rfl
    obtain rfl : g = f := List.singleton_inj.1 hgf
    rw [known_concat, learn_of_shown hc]
    exact hf hc
  · exact h front g hg hc

/-- From one frame to the next the trail grows by the new markers, unless it was cleared. -/
theorem Coherent.grows {start : List (Marker α)} {frames front : List (Frame α)} {f g : Frame α}
    (h : Coherent start frames) (hp : front ++ [f, g] <+: frames) (hf : f.cleared = false)
    (hg : g.cleared = false) : g.markers = f.markers ++ g.newMarkers := by
  have hp' : (front ++ [f]) ++ [g] <+: frames := by
    rw [List.append_assoc]
    exact hp
  rw [h (front ++ [f]) g hp' hg, known_concat, learn_of_shown hg,
    h front f ((List.prefix_append _ _).trans hp') hf]

end Frame

/-! ## What is handed to the renderer -/

namespace Call

variable [Scalar α]

/-- The frame that a call hands to the renderer. A clearing counts as the frame that tells of it. -/
def frame? : Call α → Option (Frame α)
  | marker _ => none
  | shown frame => some frame
  | refused frame => some frame
  | clear => some Frame.clearing

/-- The frames handed to the renderer, whether or not it took them. -/
def handed (calls : List (Call α)) : List (Frame α) := calls.filterMap frame?

theorem handed_append (front back : List (Call α)) :
    handed (front ++ back) = handed front ++ handed back := List.filterMap_append

theorem handed_markers (markers : List (Marker α)) : handed (markers.map marker) = [] := by
  rw [handed, List.filterMap_map, List.filterMap_eq_nil_iff]
  exact fun _ _ => rfl

end Call

variable [Scalar α] [Renderer ρ α]

theorem Traced.render_handed {t t' : Traced ρ α} {f : Frame α} {result : Except Fault Unit}
    (h : Renderer.render t f = (result, t')) : Call.handed t'.calls = Call.handed t.calls ++ [f] := by
  rcases result with fault | _
  · rw [Traced.render_error h, Call.handed_append]
    rfl
  · rw [Traced.render_ok h, Call.handed_append]
    rfl

omit [Renderer ρ α] in
/-- Weighing a trail moves no point. -/
theorem weigh_placed (trail : List (TrailPoint α)) :
    (weigh trail).map TrailPoint.placed = trail.map TrailPoint.placed := by
  apply List.ext_getElem
  · simp [weigh]
  · intro i hi hj
    simp [weigh, TrailPoint.placed]

namespace Animator

/-- The markers of the trail, the oldest first. -/
def markers (a : Animator ρ α) : List (Marker α) := a.trail.map TrailPoint.placed

/-- The frames handed to the renderer since the run began. -/
def handed (a : Animator (Traced ρ α) α) : List (Frame α) := Call.handed a.renderer.calls

theorem shot_cleared {a : Animator ρ α} {active : Active} {s : Shot ρ α} (h : a.shot active = .ok s) :
    s.frame.cleared = false := by
  unfold shot at h
  split at h
  · cases h
  · cases h
    rfl

/-- The frame of a shot shows the trail with the new markers. -/
theorem shot_markers {a : Animator ρ α} {active : Active} {s : Shot ρ α} (h : a.shot active = .ok s) :
    s.frame.markers = a.markers ++ s.frame.newMarkers := by
  obtain ⟨_, hs⟩ := shot_spec h
  unfold Frame.markers markers
  rw [hs.trail, weigh_placed, List.map_append, List.map_map]
  congr 1
  exact List.map_id _

theorem shot_handed {a : Animator (Traced ρ α) α} {active : Active} {s : Shot (Traced ρ α) α}
    (h : a.shot active = .ok s) : Call.handed s.renderer.calls = a.handed := by
  rw [shot_calls h, Call.handed_append, Call.handed_markers, List.append_nil]
  rfl

/-- A callback leaves trail and renderer alone, or it hands one shot to the renderer. -/
theorem FrameStep.hands {a : Animator ρ α} {generation : UInt64}
    {outcome : Except Fault Unit × Animator ρ α} (h : FrameStep a generation outcome) :
    (outcome.2.trail = a.trail ∧ outcome.2.renderer = a.renderer) ∨
    ∃ (active : Active) (b : Animator ρ α) (s : Shot ρ α) (result : Except Fault Unit) (r : ρ),
      a.activate = some (active, b) ∧ b.shot active = .ok s ∧
      Renderer.render s.renderer s.frame = (result, r) ∧
      outcome.2.trail = s.frame.trail ∧ outcome.2.renderer = r := by
  cases h with
  | ignored => exact .inl ⟨rfl, rfl⟩
  | drained => exact .inl ⟨rfl, rfl⟩
  | blocked _ hb _ =>
    left
    rw [activate_eq hb]
    exact ⟨rfl, rfl⟩
  | refused _ hb hs hr => exact .inr ⟨_, _, _, _, _, hb, hs, hr, rfl, rfl⟩
  | shown _ hb hs hr _ => exact .inr ⟨_, _, _, _, _, hb, hs, hr, rfl, rfl⟩
  | passed _ hb hs hr _ _ => exact .inr ⟨_, _, _, _, _, hb, hs, hr, rfl, rfl⟩
  | ended _ hb hs hr _ _ => exact .inr ⟨_, _, _, _, _, hb, hs, hr, rfl, rfl⟩

/-! ## Following the frames -/

/-- Whoever knew the markers of `start` and followed the frames since then knows the trail. -/
structure Followed (start : List (Marker α)) (frames : List (Frame α)) (a : Animator ρ α) : Prop where
  trail : a.markers = Frame.known start frames
  coherent : Frame.Coherent start frames

variable {start : List (Marker α)} {frames : List (Frame α)}

omit [Scalar α] [Renderer ρ α] in
theorem Followed.of_trail {a c : Animator ρ α} (h : a.Followed start frames) (ht : c.trail = a.trail) :
    c.Followed start frames := by
  refine ⟨?_, h.coherent⟩
  rw [← h.trail]
  exact congrArg (List.map TrailPoint.placed) ht

/-- One more frame was handed to the renderer. -/
theorem Followed.shot {a b c : Animator ρ α} {active : Active} {s : Shot ρ α}
    (h : a.Followed start frames) (hb : a.activate = some (active, b)) (hs : b.shot active = .ok s)
    (ht : c.trail = s.frame.trail) : c.Followed start (frames ++ [s.frame]) := by
  have hm : s.frame.markers = Frame.known start frames ++ s.frame.newMarkers := by
    have hba : b.markers = a.markers := by
      rw [activate_eq hb]
      rfl
    rw [shot_markers hs, hba, h.trail]
  refine ⟨?_, h.coherent.concat fun _ => hm⟩
  rw [Frame.known_concat, Frame.learn_of_shown (shot_cleared hs), ← hm]
  exact congrArg (List.map TrailPoint.placed) ht

theorem Followed.reset {a : Animator ρ α} (h : a.Followed start frames) :
    a.reset.2.Followed start (frames ++ [Frame.clearing]) := by
  obtain ⟨metrics, hr⟩ := a.reset_snd
  refine ⟨?_, h.coherent.concat nofun⟩
  rw [Frame.known_concat, Frame.learn_of_cleared rfl, hr]
  rfl

end Animator

/-! ## Runs -/

namespace Stage

/-- Only a reset clears; any other move leaves trail and renderer alone, or hands one shot to the
renderer. -/
theorem step_hands (s : Stage ρ α) {m : Move} (hm : m ≠ .reset) :
    ((s.step m).animator.trail = s.animator.trail ∧
      (s.step m).animator.renderer = s.animator.renderer) ∨
    ∃ (active : Active) (b : Animator ρ α) (shot : Shot ρ α) (result : Except Fault Unit) (r : ρ),
      s.animator.activate = some (active, b) ∧ b.shot active = .ok shot ∧
      Renderer.render shot.renderer shot.frame = (result, r) ∧
      (s.step m).animator.trail = shot.frame.trail ∧ (s.step m).animator.renderer = r := by
  cases m with
  | queue g =>
    left
    show (s.animator.queue g.code).2.trail = _ ∧ (s.animator.queue g.code).2.renderer = _
    rw [Animator.queue_eq]
    exact ⟨rfl, rfl⟩
  | reset => exact absurd rfl hm
  | clock now => exact .inl ⟨rfl, rfl⟩
  | take => exact .inl ⟨rfl, rfl⟩
  | fire i =>
    rcases s.fire_animator i with ha | ⟨generation, ha⟩
    · left
      show (s.fire i).animator.trail = _ ∧ (s.fire i).animator.renderer = _
      rw [ha]
      exact ⟨rfl, rfl⟩
    · have hands := (s.animator.frame_step generation).hands
      rw [← ha] at hands
      exact hands

/-- A traced run is followed by its own frames. -/
theorem Followed.step {start : List (Marker α)} (s : Stage (Traced ρ α) α) (m : Move)
    (h : s.animator.Followed start s.animator.handed) :
    (s.step m).animator.Followed start (s.step m).animator.handed := by
  by_cases hm : m = .reset
  · subst hm
    obtain ⟨metrics, hr⟩ := s.animator.reset_snd
    have hh : s.animator.reset.2.handed = s.animator.handed ++ [Frame.clearing] := by
      unfold Animator.handed
      rw [hr, Traced.clear_calls, Call.handed_append]
      rfl
    show s.animator.reset.2.Followed start s.animator.reset.2.handed
    rw [hh]
    exact h.reset
  · rcases s.step_hands hm with ⟨ht, hr⟩ | ⟨active, b, shot, result, r, hb, hs, hrender, ht, hr⟩
    · have hh : (s.step m).animator.handed = s.animator.handed := by
        unfold Animator.handed
        rw [hr]
      rw [hh]
      exact h.of_trail ht
    · have hh : (s.step m).animator.handed = s.animator.handed ++ [shot.frame] := by
        unfold Animator.handed
        rw [hr, Traced.render_handed hrender, Animator.shot_handed hs, Animator.activate_eq hb]
        rfl
      rw [hh]
      exact h.shot hb hs ht

end Stage

end BlochSphere
