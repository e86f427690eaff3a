/-
The marker never leaves the sphere. In exact arithmetic every orientation that an engine commits, answers
or puts on a path is of length one, so every point that is drawn for it has distance one from the centre,
along runs of every length. The invariant is about the two ends of the path in flight: what lies between
them is interpolated, and markers move nothing.
-/
import BlochSphere.Proofs.Engine.Visits
import BlochSphere.Proofs.Quat.Length

namespace BlochSphere

/-! ## On the sphere -/

/-- The orientation is of length one and its point is on the sphere. -/
structure Keyframe.OnSphere (k : Keyframe ℝ) : Prop where
  orientation : k.orientation.abs = 1
  point : k.point.norm = 1

structure RotationPath.OnSphere (p : RotationPath ℝ) : Prop where
  start : p.start.abs = 1
  target : p.target.abs = 1
  keyframes : ∀ k ∈ p.keyframes, k.OnSphere

/-- The orientation and the point of the answer, and of every keyframe of its path, are on the sphere. -/
structure Rotation.OnSphere (r : Rotation ℝ) : Prop where
  orientation : r.orientation.abs = 1
  point : r.point.norm = 1
  path : ∀ k ∈ r.path, k.OnSphere

structure Engine.OnSphere (e : Engine ℝ) : Prop where
  current : e.current.abs = 1
  active : ∀ p ∈ e.active, p.OnSphere

/-- Markers have no part in it. -/
theorem RotationPath.OnSphere.of_unmarked {p q : RotationPath ℝ} (h : p.OnSphere)
    (hu : q.unmarked = p.unmarked) : q.OnSphere := by
  have hstart : q.unmarked.start = p.unmarked.start := by rw [hu]
  have htarget : q.unmarked.target = p.unmarked.target := by rw [hu]
  refine ⟨(congrArg Quat.abs hstart).trans h.start, (congrArg Quat.abs htarget).trans h.target, fun k hk => ?_⟩
  have hm : k.unmarked ∈ p.unmarked.keyframes := by
    rw [← hu]
    exact Array.mem_map_of_mem hk
  obtain ⟨k', hk', heq⟩ := Array.mem_map.1 hm
  have horientation : k.unmarked.orientation = k'.unmarked.orientation := by rw [heq]
  have hpoint : k.unmarked.point = k'.unmarked.point := by rw [heq]
  obtain ⟨ho, hp⟩ := h.keyframes k' hk'
  exact ⟨(congrArg Quat.abs horientation).trans ho, (congrArg Vec3.norm hpoint).trans hp⟩

namespace Engine

variable {e : Engine ℝ} {g : Applied}

/-- Only the code of a gate has a path, and the path turns the committed orientation as the gate does. -/
theorem newPath_turns {p : RotationPath ℝ} (h : e.newPath g = .ok p) :
    ∃ gate : Gate, p = path g e.current (gate.turn * e.current) e.resolution := by
  unfold newPath GateCode.turn GateCode.gate at h
  cases hc : g.code.gate? with
  | none =>
    rw [hc] at h
    cases h
  | some gate =>
    rw [hc] at h
    simp only [Except.map] at h
    split at h
    · cases h
    · cases h
      exact ⟨gate, rfl⟩

theorem keyframe_onSphere {start target : Quat ℝ} (hs : start.abs = 1) (ht : target.abs = 1)
    (resolution i : Nat) : (keyframe start target resolution i).OnSphere := by
  have ho : (keyframe start target resolution i).orientation.abs = 1 := by
    unfold keyframe
    dsimp only
    split
    · exact hs
    · split
      · exact ht
      · exact Quat.abs_slerp hs ht _
  exact ⟨ho, Quat.norm_point ho⟩

theorem path_onSphere {start target : Quat ℝ} (hs : start.abs = 1) (ht : target.abs = 1) (g : Applied)
    (resolution : Nat) : (path g start target resolution).OnSphere := by
  refine ⟨hs, ht, fun k hk => ?_⟩
  obtain ⟨i, rfl⟩ := Array.mem_ofFn.1 hk
  exact keyframe_onSphere hs ht resolution i

namespace OnSphere

theorem new (resolution : Int) : (Engine.new resolution : Engine ℝ).OnSphere := ⟨Quat.abs_identity, nofun⟩

theorem reset (e : Engine ℝ) : e.reset.OnSphere := ⟨Quat.abs_identity, nofun⟩

theorem mark (h : e.OnSphere) (g : Applied) (index : Int) (handle : Handle) :
    (e.markRendered g index handle).2.OnSphere := by
  cases hp : e.active with
  | none =>
    unfold markRendered
    rw [hp]
    exact h
  | some p =>
    obtain ⟨q, hq, he⟩ := markRendered_unmarked hp g index handle
    rw [he]
    refine ⟨h.current, fun q' hm => ?_⟩
    cases hm
    exact (h.active p hp).of_unmarked hq

/-- The path of a request, in flight or new, leads from one orientation of length one to another. -/
theorem pathFor (h : e.OnSphere) {p : RotationPath ℝ} (hp : e.pathFor g = .ok p) : p.OnSphere := by
  by_cases hf : ∃ q, e.active = some q ∧ q.gate.seq = g.seq
  · obtain ⟨q, hq, hs⟩ := hf
    rw [pathFor_in_flight hq hs] at hp
    cases hp
    exact h.active _ hq
  · rw [pathFor_new fun q hq hs => hf ⟨q, hq, hs⟩] at hp
    obtain ⟨gate, rfl⟩ := newPath_turns hp
    exact path_onSphere h.current (Quat.abs_mul_eq_one gate.abs_turn h.current) g e.resolution

theorem rotationAt (h : e.OnSphere) {t : ℝ} {rotation : Rotation ℝ} {turned : Engine ℝ}
    (hok : e.rotationAt g t = .ok (rotation, turned)) : rotation.OnSphere ∧ turned.OnSphere := by
  unfold Engine.rotationAt at hok
  cases hp : e.pathFor g with
  | error fault =>
    simp only [hp] at hok
    cases hok
  | ok p =>
    simp only [hp] at hok
    cases hok
    have hs := h.pathFor hp
    have ho : ∀ t : ℝ, (orientationAt p t).abs = 1 := by
      intro t
      unfold orientationAt
      split
      · exact hs.start
      · split
        · exact hs.target
        · exact Quat.abs_slerp hs.start hs.target _
    refine ⟨⟨ho _, Quat.norm_point (ho _), hs.keyframes⟩, ?_, fun q hq => ?_⟩
    · show (if _ then p.target else e.current).abs = 1
      split
      · exact hs.target
      · exact h.current
    · cases hq
      exact hs

end OnSphere

end Engine

/-! ## Runs -/

namespace Tour

theorem step_onSphere {s : Tour ℝ} (h : s.engine.OnSphere) (call : EngineCall ℝ) :
    (s.step call).engine.OnSphere := by
  cases call with
  | rotate q =>
    rcases s.step_rotate q with ⟨fault, _, hs⟩ | ⟨rotation, turned, hok, hs⟩
    · rw [hs]
      exact h
    · rw [hs]
      exact (h.rotationAt hok).2
  | mark g index handle => exact h.mark g index handle
  | reset => exact .reset s.engine

theorem run_onSphere (calls : List (EngineCall ℝ)) :
    ∀ {s : Tour ℝ}, s.engine.OnSphere → (s.run calls).engine.OnSphere := by
  induction calls with
  | nil => exact fun h => h
  | cons call calls ih => exact fun h => ih (step_onSphere h call)

/-- The marker never leaves the sphere. After any calls, the committed orientation is of length one and
shows a point of the sphere, and every query is answered by a rotation whose orientation, point and path
are on the sphere, unless a path of so many keyframes cannot be made. -/
theorem never_leaves_sphere (resolution : Int) (calls : List (EngineCall ℝ)) :
    let e := ((new resolution : Tour ℝ).run calls).engine
    e.current.abs = 1 ∧ e.point.norm = 1 ∧
    ∀ q : Query ℝ,
      (∃ rotation turned, e.rotationAt q.request q.t = .ok (rotation, turned) ∧ rotation.OnSphere) ∨
      (∃ fault, e.rotationAt q.request q.t = .error fault) ∧ Engine.maxKeyframes < e.resolution + 1 := by
  intro e
  have h : e.OnSphere := run_onSphere calls (.new resolution)
  refine ⟨h.current, Quat.norm_point h.current, fun q => ?_⟩
  cases hq : e.rotationAt q.request q.t with
  | error fault => exact .inr ⟨⟨fault, rfl⟩, Engine.rotationAt_error q.request_code hq⟩
  | ok answer =>
    obtain ⟨rotation, turned⟩ := answer
    exact .inl ⟨rotation, turned, rfl, (h.rotationAt hq).1⟩

end Tour

end BlochSphere
