/-
The rotation engine as an animator uses it. Markers change nothing but the keyframes of the path in
flight, so an engine is known, but for markers, by its resolution, its committed orientation and
the two ends of that path; a shot leaves that path in flight and commits its target at the end.
-/
import BlochSphere.Proofs.Animation.Step

namespace BlochSphere

variable {ρ α : Type}

/-- A path but for its keyframes. -/
def RotationPath.bare (p : RotationPath α) : RotationPath α := { p with keyframes := #[] }

namespace Engine

/-- An engine but for the keyframes of its path. -/
def bare (e : Engine α) : Engine α := { e with active := e.active.map RotationPath.bare }

theorem eq_of_bare {e : Engine α} {resolution : Nat} {current : Quat α} {p : RotationPath α}
    (h : e.bare = bare ⟨resolution, current, some p⟩) :
    ∃ q, q.bare = p.bare ∧ e = ⟨resolution, current, some q⟩ := by
  obtain ⟨_, _, active⟩ := e
  cases active with
  | none => cases h
  | some q =>
    simp only [bare, Option.map_some, Engine.mk.injEq, Option.some.injEq] at h
    obtain ⟨rfl, rfl, hq⟩ := h
    exact ⟨q, hq, rfl⟩

theorem markRendered_bare (e : Engine α) (g : Applied) (index : Int) (handle : Handle) :
    (e.markRendered g index handle).2.bare = e.bare := by
  unfold markRendered
  split
  · rfl
  · rename_i path hp
    split
    · unfold bare
      rw [hp]
      rfl
    · rfl

variable [Scalar α]

theorem turn_of_gate {g : Applied} {gate : Gate} (hg : g.code = gate.code) :
    (g.code.turn : Except Fault (Quat α)) = .ok gate.turn := by
  unfold GateCode.turn GateCode.gate
  rw [hg, GateCode.gate?_code]
  rfl

/-- A gate has a path unless the path would have too many keyframes. -/
theorem newPath_of_gate {e : Engine α} {g : Applied} {gate : Gate} (hg : g.code = gate.code)
    (hr : ¬ maxKeyframes < e.resolution + 1) :
    e.newPath g = .ok (path g e.current (gate.turn * e.current) e.resolution) := by
  unfold newPath
  simp only [turn_of_gate hg, if_neg hr]

theorem newPath_ok {e : Engine α} {g : Applied} {gate : Gate} {p : RotationPath α}
    (hg : g.code = gate.code) (h : e.newPath g = .ok p) :
    p = path g e.current (gate.turn * e.current) e.resolution := by
  by_cases hr : maxKeyframes < e.resolution + 1
  · unfold newPath at h
    split at h
    · cases h
    · rw [if_pos hr] at h
      cases h
  · rw [newPath_of_gate hg hr] at h
    cases h
    rfl

theorem pathFor_in_flight {e : Engine α} {g : Applied} {p : RotationPath α} (h : e.active = some p)
    (hs : p.gate.seq = g.seq) : e.pathFor g = .ok p := by
  unfold pathFor
  rw [h]
  exact if_pos hs

theorem pathFor_new {e : Engine α} {g : Applied}
    (h : ∀ p, e.active = some p → p.gate.seq ≠ g.seq) : e.pathFor g = e.newPath g := by
  unfold pathFor
  cases hp : e.active with
  | none => rfl
  | some p => exact if_neg (h p hp)

theorem pathFor_error {e : Engine α} {g : Applied} {fault : Fault} (h : e.pathFor g = .error fault) :
    e.newPath g = .error fault := by
  rw [← pathFor_new fun p hp hs => ?_]
  · exact h
  · rw [pathFor_in_flight hp hs] at h
    cases h

/-- The path of a gate is the one in flight for its number, or a new one from the committed orientation. -/
theorem pathFor_cases {e : Engine α} {g : Applied} {gate : Gate} {p : RotationPath α}
    (hg : g.code = gate.code) (h : e.pathFor g = .ok p) :
    e.active = some p ∧ p.gate.seq = g.seq ∨
    (∀ q, e.active = some q → q.gate.seq ≠ g.seq) ∧
      p = path g e.current (gate.turn * e.current) e.resolution := by
  by_cases hf : ∃ q, e.active = some q ∧ q.gate.seq = g.seq
  · obtain ⟨q, hq, hs⟩ := hf
    rw [pathFor_in_flight hq hs] at h
    cases h
    exact .inl ⟨hq, hs⟩
  · have hnew : ∀ q, e.active = some q → q.gate.seq ≠ g.seq := fun q hq hs => hf ⟨q, hq, hs⟩
    rw [pathFor_new hnew] at h
    exact .inr ⟨hnew, newPath_ok hg h⟩

/-- For a gate, only the number of its keyframes can stand in the way of a rotation. -/
theorem rotationAt_error {e : Engine α} {g : Applied} {gate : Gate} {t : α} {fault : Fault}
    (hg : g.code = gate.code) (h : e.rotationAt g t = .error fault) :
    maxKeyframes < e.resolution + 1 := by
  unfold rotationAt at h
  split at h
  · rename_i hp
    by_cases hr : maxKeyframes < e.resolution + 1
    · exact hr
    · have hn := pathFor_error hp
      rw [newPath_of_gate hg hr] at hn
      cases hn
  · cases h

/-- The end of a path commits its target. -/
theorem rotationAt_ok {e turned : Engine α} {g : Applied} {t : α} {rotation : Rotation α}
    (h : e.rotationAt g t = .ok (rotation, turned)) :
    ∃ p, e.pathFor g = .ok p ∧
      turned = ⟨e.resolution, if Scalar.clamp 0 1 t == 1 then p.target else e.current, some p⟩ := by
  unfold rotationAt at h
  split at h
  · cases h
  · rename_i p hp
    cases h
    exact ⟨p, hp, rfl⟩

theorem rotationAt_path {e turned : Engine α} {g : Applied} {t : α} {rotation : Rotation α}
    {p : RotationPath α} (h : e.rotationAt g t = .ok (rotation, turned)) (hp : e.pathFor g = .ok p) :
    rotation.path = p.keyframes ∧
      rotation.reached = reachedAt e.resolution p.keyframes.size (Scalar.clamp 0 1 t) := by
  unfold rotationAt at h
  simp only [hp] at h
  cases h
  exact ⟨rfl, rfl⟩

/-- The path of a request is known by its number. -/
theorem pathFor_seq {e : Engine α} {g : Applied} {p : RotationPath α} (h : e.pathFor g = .ok p) :
    p.gate.seq = g.seq := by
  have new (hn : e.newPath g = .ok p) : p.gate.seq = g.seq := by
    unfold newPath at hn
    split at hn
    · cases hn
    · split at hn
      · cases hn
      · cases hn
        rfl
  unfold pathFor at h
  split at h
  · split at h
    · rename_i hs
      cases h
      exact hs
    · exact new h
  · exact new h

end Engine

namespace Animator

variable [Renderer ρ α]

theorem place_bare (g : Applied) (keyframes : List (Nat × Keyframe α)) :
    ∀ (e : Engine α) (r : ρ), (place g keyframes e r).2.1.bare = e.bare := by
  induction keyframes with
  | nil => exact fun _ _ => rfl
  | cons k rest ih =>
    intro e r
    obtain ⟨i, k⟩ := k
    simp only [place]
    rw [ih, Engine.markRendered_bare]

variable [Scalar α]

/-- The engine after a shot: its path is in flight, and committed if the progress is at the end. -/
theorem shot_engine {a : Animator ρ α} {active : Active} {s : Shot ρ α}
    (h : a.shot active = .ok s) :
    ∃ p q, a.engine.pathFor active.gate = .ok p ∧ q.bare = p.bare ∧
      s.engine = ⟨a.engine.resolution,
        if Scalar.clamp 0 1 (a.progress active) == 1 then p.target else a.engine.current, some q⟩ := by
  obtain ⟨turned, hs⟩ := shot_spec h
  have hb := place_bare active.gate (due s.rotation) turned a.renderer
  rw [hs.placed] at hb
  obtain ⟨p, hp, rfl⟩ := Engine.rotationAt_ok hs.rotation
  obtain ⟨q, hq, he⟩ := Engine.eq_of_bare hb
  exact ⟨p, q, hp, hq, he⟩

end Animator

end BlochSphere
