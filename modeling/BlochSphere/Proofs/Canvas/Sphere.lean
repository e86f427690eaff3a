/-
What a canvas draws of an animation. In exact arithmetic an animator shows no point and places no marker outside
the sphere. So a canvas draws trail and state of it inside the outline, where they are on the screen and clear of
the text, whichever of the frames it has taken in and however old they are. There is a trail to draw: a gate that
is given its time leaves a marker for each of its steps.
-/
import BlochSphere.Proofs.Canvas.Layout
import BlochSphere.Proofs.Animation.Elapsed
import BlochSphere.Proofs.Animation.Event
import BlochSphere.Proofs.Animation.Keyframe
import BlochSphere.Proofs.Canvas
import BlochSphere.Proofs.Engine.Reached
import BlochSphere.Proofs.Engine.Sphere

namespace BlochSphere

/-! ## Frames -/

/-- No point that the frame tells of is outside the sphere. -/
structure Frame.InBall (f : Frame ℝ) : Prop where
  point : f.point.norm ≤ 1
  markers : ∀ m ∈ f.newMarkers, m.point.norm ≤ 1

theorem Frame.inBall_clearing : (Frame.clearing : Frame ℝ).InBall := by
  refine ⟨?_, nofun⟩
  rw [Vec3.norm_eq]
  simp [Frame.clearing, Frame.bare]

namespace Animator

variable {ρ : Type} [Renderer ρ ℝ]

theorem place_onSphere (g : Applied) (keyframes : List (Nat × Keyframe ℝ)) :
    ∀ (e : Engine ℝ) (r : ρ), e.OnSphere → (place g keyframes e r).2.1.OnSphere := by
  induction keyframes with
  | nil => exact fun _ _ h => h
  | cons d rest ih =>
    intro e r h
    obtain ⟨i, k⟩ := d
    simp only [place]
    exact ih _ _ (h.mark g i _)

theorem shot_point {a : Animator ρ ℝ} {active : Active} {s : Shot ρ ℝ} (h : a.shot active = .ok s) :
    s.frame.point = s.rotation.point := by
  unfold shot at h
  split at h
  · cases h
  · cases h
    rfl

/-- A shot shows a point of the sphere and places its markers on keyframes of a path on the sphere. -/
theorem shot_onSphere {a : Animator ρ ℝ} {active : Active} {s : Shot ρ ℝ} (h : a.engine.OnSphere)
    (hs : a.shot active = .ok s) : s.engine.OnSphere ∧ s.frame.InBall := by
  obtain ⟨turned, hshot⟩ := shot_spec hs
  obtain ⟨hrotation, hturned⟩ := h.rotationAt hshot.rotation
  constructor
  · have hplaced := place_onSphere active.gate (due s.rotation) turned a.renderer hturned
    rwa [hshot.placed] at hplaced
  · refine ⟨?_, fun m hm => ?_⟩
    · rw [shot_point hs]
      exact hrotation.point.le
    · have hpoints := place_points active.gate (due s.rotation) turned a.renderer
      rw [hshot.placed] at hpoints
      have hpoint : m.point ∈ (due s.rotation).map fun d => d.2.point := by
        rw [← hpoints]
        exact List.mem_map_of_mem hm
      obtain ⟨d, hd, hdm⟩ := List.mem_map.1 hpoint
      rw [← hdm]
      exact (hrotation.path d.2 (Array.mem_of_getElem? (mem_due hd))).point.le

/-- Neither the engine nor any frame that was handed over leaves the sphere. -/
structure OnSphere (a : Animator (Traced ρ ℝ) ℝ) : Prop where
  engine : a.engine.OnSphere
  frames : ∀ f ∈ a.handed, f.InBall

theorem OnSphere.react (a : Animator (Traced ρ ℝ) ℝ) (e : Event) (h : a.OnSphere) : (a.react e).OnSphere := by
  have change := a.react_change e
  have shot {active : Active} {b : Animator (Traced ρ ℝ) ℝ} {s : Shot (Traced ρ ℝ) ℝ}
      (hb : a.activate = some (active, b)) (hs : b.shot active = .ok s) : s.engine.OnSphere ∧ s.frame.InBall := by
    refine shot_onSphere ?_ hs
    rw [activate_eq hb]
    exact h.engine
  refine ⟨?_, fun f hf => ?_⟩
  · cases change with
    | none he _ _ =>
      rw [he]
      exact h.engine
    | frame hb hs he _ _ =>
      rw [he]
      exact (shot hb hs).1
    | clearing he _ _ =>
      rw [he]
      exact .reset a.engine
  · rcases change.mem_handed hf with hf | rfl | ⟨active, b, s, hb, hs, rfl⟩
    · exact h.frames f hf
    · exact Frame.inBall_clearing
    · exact (shot hb hs).2

theorem OnSphere.reactAll (duration : Duration) (resolution : Int) (renderer : ρ) (now : Int)
    (events : List Event) :
    ((new duration resolution ⟨renderer, []⟩ now : Animator (Traced ρ ℝ) ℝ).reactAll events).OnSphere :=
  reactAll_induction OnSphere.react events _ ⟨.new resolution, nofun⟩

/-! ## A gate in two frames -/

section Shots

variable {ρ : Type} [Renderer ρ ℝ] {a : Animator ρ ℝ} {active : Active} {p : RotationPath ℝ} {k : Nat}

/-- In exact arithmetic a shot of a path with `k` markers is due those of the other steps up to its progress. -/
theorem real_shot (hp : a.engine.pathFor active.gate = .ok p) (hi : p.Inked a.engine.resolution k)
    (h0 : 0 ≤ a.progress active) (h1 : a.progress active ≤ 1) :
    ∃ s turned, a.shot active = .ok s ∧ a.ShotOf active s turned ∧ turned.resolution = a.engine.resolution ∧
      turned.active = some p ∧
      (due s.rotation).length = ⌊a.progress active * a.engine.resolution⌋₊ - k := by
  cases hs : a.shot active with
  | error fault =>
    have hr := shot_error.1 hs
    unfold Engine.rotationAt at hr
    rw [hp] at hr
    cases hr
  | ok s =>
    obtain ⟨turned, hof⟩ := shot_spec hs
    have hr := hof.rotation
    unfold Engine.rotationAt at hr
    simp only [Scalar.real_zero, Scalar.real_one, Scalar.real_clamp_of_mem h0 h1, hp, hi.size,
      Engine.real_reachedAt h0 h1, Except.ok.injEq, Prod.mk.injEq] at hr
    obtain ⟨hrotation, hturned⟩ := hr
    have hpath : s.rotation.path = p.keyframes := by rw [← hrotation]
    have hreached : s.rotation.reached = ⌊a.progress active * a.engine.resolution⌋₊ + 1 := by rw [← hrotation]
    have hfloor : ⌊a.progress active * a.engine.resolution⌋₊ ≤ a.engine.resolution :=
      Nat.floor_le_of_le (mul_le_of_le_one_left (Nat.cast_nonneg _) h1)
    have hdue := congrArg List.length (due_fst hi hpath (by omega))
    rw [List.length_map, List.length_range', hreached, Nat.add_sub_cancel] at hdue
    exact ⟨s, turned, rfl, hof, by rw [← hturned], by rw [← hturned], hdue⟩

/-- At its start a path gets no marker. -/
theorem real_shot_start (hp : a.engine.pathFor active.gate = .ok p) (hi : p.Inked a.engine.resolution 0)
    (h : a.progress active = 0) :
    ∃ s, a.shot active = .ok s ∧ s.frame.newMarkers = [] ∧ s.frame.complete = false ∧
      s.engine.resolution = a.engine.resolution ∧ s.engine.active = some p ∧ s.renderer = a.renderer := by
  obtain ⟨s, turned, hs, hof, hresolution, hactive, hdue⟩ := real_shot hp hi h.ge (h.trans_le zero_le_one)
  rw [h, zero_mul, Nat.floor_zero, Nat.zero_sub, List.length_eq_zero_iff] at hdue
  have hplaced := hof.placed
  rw [hdue] at hplaced
  obtain ⟨hmarkers, hplaced⟩ := Prod.mk.inj hplaced
  obtain ⟨rfl, hrenderer⟩ := Prod.mk.inj hplaced
  refine ⟨s, hs, hmarkers.symm, ?_, hresolution, hactive, hrenderer.symm⟩
  rw [hof.complete, h, Scalar.real_one]
  exact decide_eq_false (not_le.2 zero_lt_one)

/-- At its end it gets all markers that are left. -/
theorem real_shot_end (hp : a.engine.pathFor active.gate = .ok p) (hi : p.Inked a.engine.resolution k)
    (h : a.progress active = 1) :
    ∃ s, a.shot active = .ok s ∧ s.frame.newMarkers.length = a.engine.resolution - k ∧
      s.frame.complete = true := by
  obtain ⟨s, turned, hs, hof, -, -, hdue⟩ := real_shot hp hi (zero_le_one.trans_eq h.symm) h.le
  rw [h, one_mul, Nat.floor_natCast] at hdue
  refine ⟨s, hs, ?_, ?_⟩
  · have hpoints := congrArg List.length (place_points active.gate (due s.rotation) turned a.renderer)
    rwa [hof.placed, List.length_map, List.length_map, hdue] at hpoints
  · rw [hof.complete, h, Scalar.real_one]
    exact decide_eq_true le_rfl

end Shots

/-- A gate that is given its time between two callbacks is shown in two frames, and the second of them brings a
marker for each step. -/
theorem handed_of_two_callbacks {d : Duration} (hd : 0 < d.toInt) {n : Nat} (h0 : 0 < n)
    (hn : n + 1 ≤ Engine.maxKeyframes) (gate : Gate) :
    ((new d n ⟨Discard.new, []⟩ 0 : Animator (Traced (Discard ℝ) ℝ) ℝ).reactAll
      [.queue gate.code, .callback 0, .clock d.toInt, .callback 0]).handed.map
        (fun f => f.newMarkers.length) = [0, n] := by
  let active : Active := ⟨⟨1, gate.code⟩, 0⟩
  let queued : Animator (Traced (Discard ℝ) ℝ) ℝ := (new d n ⟨Discard.new, []⟩ 0).react (.queue gate.code)
  let b : Animator (Traced (Discard ℝ) ℝ) ℝ := { queued with active := some active, pending := [] }
  have hsteps : b.engine.resolution = n := Engine.new_resolution h0
  have hcode : active.gate.code = gate.code := rfl
  have hpath := Engine.newPath_of_gate (e := b.engine) hcode (by omega)
  have hinked := RotationPath.inked_new active.gate b.engine.current (gate.turn * b.engine.current)
    b.engine.resolution
  obtain ⟨s, hs, hmarkers, hcomplete, hresolution, hactive, hrenderer⟩ :=
    real_shot_start (a := b) hpath hinked (progressAt_start hd)
  have hlive : queued.Live 0 := ⟨rfl, rfl⟩
  have hfirst := FrameStep.frame_eq (.shown hlive rfl hs rfl hcomplete)
  -- then the clock is set to the end of the gate
  have hover : (progressAt (Duration.between 0 d.toInt) d : ℝ) = 1 := progressAt_of_ge hd (by omega)
  obtain ⟨c, hrun, hlive', hactivate, hpending, hengine, hhanded, hend⟩ : ∃ c,
      (queued.frame 0).2.setClock d.toInt = c ∧ c.Live 0 ∧ c.activate = some (active, c) ∧ c.pending = [] ∧
        c.engine = s.engine ∧ c.handed = [s.frame] ∧ c.progress active = 1 := by
    refine ⟨_, rfl, ?_⟩
    rw [hfirst]
    refine ⟨⟨rfl, rfl⟩, rfl, rfl, rfl, ?_, hover⟩
    show Call.handed (s.renderer.calls ++ [.shown s.frame]) = _
    rw [hrenderer]
    rfl
  rw [← hengine] at hresolution hactive
  obtain ⟨last, hs', hmarkers', hcomplete'⟩ := real_shot_end (Engine.pathFor_in_flight hactive rfl)
    (by rw [hresolution]; exact hinked) hend
  have hlast := FrameStep.frame_eq (.ended hlive' hactivate hs' rfl hcomplete' hpending)
  have hframes : (c.frame 0).2.handed = [s.frame, last.frame] := by
    rw [hlast]
    show Call.handed (last.renderer.calls ++ [.shown last.frame]) = _
    rw [Call.handed_append, shot_handed hs', hhanded]
    rfl
  show List.map _ (((queued.frame 0).2.setClock d.toInt).frame 0).2.handed = _
  rw [hrun, hframes, List.map_cons, List.map_cons, hmarkers, hmarkers', hresolution, hsteps]
  rfl

end Animator

/-! ## Pictures -/

namespace Canvas

/-- The canvas knows of no point outside the sphere. -/
structure InBall (c : Canvas ℝ) : Prop where
  markers : ∀ e ∈ c.markers, e.2.norm ≤ 1
  last : ∀ f, c.last = some f → f.point.norm ≤ 1

theorem InBall.apply {c : Canvas ℝ} (h : c.InBall) {f : Frame ℝ} (hf : f.InBall) : (c.apply f).InBall := by
  cases hc : f.cleared with
  | true =>
    obtain ⟨hm, hl⟩ := apply_of_cleared hc c
    refine ⟨?_, ?_⟩
    · rw [hm]
      exact nofun
    · rw [hl]
      exact nofun
  | false =>
    obtain ⟨hm, hl⟩ := apply_of_shown hc c
    refine ⟨fun e he => ?_, fun g hg => ?_⟩
    · rw [hm] at he
      rcases mem_place he with he | he
      · exact h.markers e he
      · obtain ⟨m, hm, rfl⟩ := List.mem_map.1 he
        exact hf.markers m hm
    · rw [hl] at hg
      cases hg
      exact hf.point

theorem inBall_after {frames : List (Frame ℝ)} (h : ∀ f ∈ frames, f.InBall) : (after frames).InBall := by
  induction frames using List.reverseRecOn with
  | nil => exact ⟨nofun, nofun⟩
  | append_singleton frames f ih =>
    rw [after_concat]
    exact (ih fun g hg => h g (List.mem_append_left _ hg)).apply (h f (by simp))

/-- All but the names of states is drawn inside, as long as no point is outside the sphere. -/
theorem InBall.sphere {c : Canvas ℝ} (h : c.InBall) {rest : Vec3 ℝ} (hr : rest.norm ≤ 1) {width height : Int}
    (hw : 2 ≤ width) (hh : 8 ≤ height) {stroke : Stroke} (hs : stroke ∈ c.sphere rest width height) :
    stroke ∈ (Layout.ofSize width height : Layout ℝ).labels ∨ Inside width height stroke := by
  simp only [Canvas.sphere, List.mem_append] at hs
  rcases hs with ((hs | hs) | hs) | hs
  · exact .inr (Layout.circles_inside hw hh hs)
  · exact .inl hs
  · right
    unfold trail at hs
    split at hs
    · cases hs
    · obtain ⟨p, -, hs⟩ := List.mem_filterMap.1 hs
      obtain ⟨place, hp, rfl⟩ := Option.map_eq_some_iff.1 hs
      exact Layout.plot_inside hw hh (h.markers _ (lookup_mem hp)) _ _
  · right
    rw [List.mem_singleton.1 hs]
    refine Layout.plot_inside hw hh ?_ _ _
    cases hl : c.last with
    | none => exact hr
    | some f => exact h.last f hl

/-- On every screen that has room for text and sphere, all that is drawn of the sphere is on the screen and clear
of the text: every point within the sphere, the outline and the equator, and the trail and the state of every
animation, shown by a canvas that has taken in any of its frames. -/
theorem sphere_clear_of_text (width height : Int) (hw : 2 ≤ width) (hh : 8 ≤ height) :
    let l : Layout ℝ := .ofSize width height
    (∀ (p : Vec3 ℝ) (glyph : Char) (style : Style), p.norm ≤ 1 → Inside width height (l.plot p glyph style)) ∧
    (∀ stroke ∈ l.circles, Inside width height stroke) ∧
    ∀ {ρ : Type} [Renderer ρ ℝ] (duration : Duration) (resolution : Int) (renderer : ρ) (now : Int)
      (events : List Event) (frames : List (Frame ℝ)),
      let a : Animator (Traced ρ ℝ) ℝ := (Animator.new duration resolution ⟨renderer, []⟩ now).reactAll events
      (∀ f ∈ frames, f ∈ a.handed) →
      ∀ stroke ∈ (after frames).sphere a.orientation.point width height,
        stroke ∈ l.labels ∨ Inside width height stroke ∧ stroke.y < height - textRows := by
  intro l
  refine ⟨fun p glyph style hp => Layout.plot_inside hw hh hp glyph style,
    fun stroke hs => Layout.circles_inside hw hh hs, ?_⟩
  intro ρ _ duration resolution renderer now events frames a hframes stroke hs
  have h : a.OnSphere := .reactAll duration resolution renderer now events
  have hrest : a.orientation.point.norm ≤ 1 := (Quat.norm_point h.engine.current).le
  have hball : (after frames).InBall := inBall_after fun f hf => h.frames f (hframes f hf)
  exact (hball.sphere hrest hw hh hs).imp_right fun hin => ⟨hin, hin.above_text⟩

/-- A common screen, after a gate was shown with the markers of its two steps. -/
theorem sphere_clear_of_text_with_trail :
    let a : Animator (Traced (Discard ℝ) ℝ) ℝ := (Animator.new 1000000000 2 ⟨Discard.new, []⟩ 0).reactAll
      [.queue Gate.h.code, .callback 0, .clock 1000000000, .callback 0]
    (2 : Int) ≤ 80 ∧ (8 : Int) ≤ 24 ∧ (Vec3.northPole : Vec3 ℝ).norm ≤ 1 ∧
    Inside 80 24 ((Layout.ofSize 80 24 : Layout ℝ).plot Vec3.northPole '◉' .yellowBold) ∧
    a.handed.map (fun f => f.newMarkers.length) = [0, 2] ∧
    ∀ stroke ∈ (after a.handed).sphere a.orientation.point 80 24,
      stroke ∈ (Layout.ofSize 80 24 : Layout ℝ).labels ∨ Inside 80 24 stroke ∧ stroke.y < 24 - textRows := by
  intro a
  have hpole : (Vec3.northPole : Vec3 ℝ).norm ≤ 1 := by
    rw [Vec3.norm_eq]
    simp [Vec3.northPole]
  obtain ⟨hplot, -, hrun⟩ := sphere_clear_of_text 80 24 (by decide) (by decide)
  refine ⟨by decide, by decide, hpole, hplot _ _ _ hpole, ?_, ?_⟩
  · exact Animator.handed_of_two_callbacks (d := 1000000000) (n := 2) (by decide) (by decide) (by decide) .h
  · exact hrun 1000000000 2 Discard.new 0 _ a.handed fun _ hf => hf

end Canvas

end BlochSphere
