/-
What each operation does to an animator. Requests and resets are told by the fields they change. The
next frame of a request is put together as a shot: the rotation at the present time, with its
markers placed, and what is to be published. Only then is it handed to the renderer, which may
refuse it. `FrameStep` lists every way in which a callback can end; what holds along all runs is
shown from that list, and nothing else opens `frame`.
-/
import BlochSphere.Animator

namespace BlochSphere

/-- The next frame of a request before it is shown, with the engine and the renderer after its
markers were placed. -/
structure Shot (ρ α : Type) where
  elapsed : Duration
  rotation : Rotation α
  engine : Engine α
  renderer : ρ
  frame : Frame α

namespace Animator

variable {ρ α : Type}

/-! ## Requests -/

section Queue

variable (a : Animator ρ α) (code : GateCode)

/-- Only an idle animator requests a callback for a new request. -/
theorem queue_eq : a.queue code = (⟨a.seq + 1, code⟩, { a with
    seq := a.seq + 1
    pending := a.pending ++ [⟨a.seq + 1, code⟩]
    metrics := a.metrics.recordQueued
    phase := .running
    callbacks := match a.phase with
      | .idle => a.callbacks.request a.generation
      | .running => a.callbacks }) := by
  obtain ⟨_, _, _, _, _, _, phase, _, _, _, _, _⟩ := a
  cases phase <;> rfl

@[simp] theorem queue_fst : (a.queue code).1 = ⟨a.seq + 1, code⟩ := by
  rw [queue_eq]

@[simp] theorem queue_seq : (a.queue code).2.seq = a.seq + 1 := by
  rw [queue_eq]

@[simp] theorem queue_pending : (a.queue code).2.pending = a.pending ++ [⟨a.seq + 1, code⟩] := by
  rw [queue_eq]

@[simp] theorem queue_active : (a.queue code).2.active = a.active := by
  rw [queue_eq]

@[simp] theorem queue_engine : (a.queue code).2.engine = a.engine := by
  rw [queue_eq]

@[simp] theorem queue_renderer : (a.queue code).2.renderer = a.renderer := by
  rw [queue_eq]

@[simp] theorem queue_generation : (a.queue code).2.generation = a.generation := by
  rw [queue_eq]

@[simp] theorem queue_phase : (a.queue code).2.phase = .running := by
  rw [queue_eq]

theorem queue_callbacks_idle (h : a.phase = .idle) :
    (a.queue code).2.callbacks.pending = a.callbacks.pending ++ [a.generation] := by
  rw [queue_eq, h]
  rfl

theorem queue_callbacks_running (h : a.phase = .running) :
    (a.queue code).2.callbacks.pending = a.callbacks.pending := by
  rw [queue_eq, h]

end Queue

/-! ## Resets -/

section Reset

variable [Renderer ρ α] [Scalar α] (a : Animator ρ α)

/-- Whether or not the renderer faults while it is cleared, everything but the metrics is reset. -/
theorem reset_snd : ∃ metrics, a.reset.2 = { a with
    pending := []
    active := none
    trail := []
    engine := a.engine.reset
    phase := .idle
    generation := a.generation + 1
    renderer := (Renderer.clear a.renderer : Except Fault Unit × ρ).2
    metrics := metrics } := by
  unfold reset
  rcases (Renderer.clear a.renderer : Except Fault Unit × ρ) with ⟨_ | _, r⟩
  · exact ⟨a.metrics, rfl⟩
  · exact ⟨a.metrics.recordReset, rfl⟩

/-- A reset that faults does not count. -/
theorem reset_metrics :
    a.reset.2.metrics = a.metrics ∨ a.reset.2.metrics = a.metrics.recordReset := by
  unfold reset
  rcases (Renderer.clear a.renderer : Except Fault Unit × ρ) with ⟨_ | _, r⟩
  · exact .inl rfl
  · exact .inr rfl

end Reset

/-! ## The active request -/

/-- The request that is being shown, as a list of at most one. -/
def current (a : Animator ρ α) : List Applied := a.active.toList.map Active.gate

theorem current_of_active {a : Animator ρ α} {active : Active} (h : a.active = some active) :
    a.current = [active.gate] := by
  unfold current
  rw [h]
  rfl

theorem current_of_none {a : Animator ρ α} (h : a.active = none) : a.current = [] := by
  unfold current
  rw [h]
  rfl

theorem current_length (a : Animator ρ α) : a.current.length ≤ 1 := by
  unfold current
  cases a.active <;> simp

theorem activate_of_active {a : Animator ρ α} {active : Active} (h : a.active = some active) :
    a.activate = some (active, a) := by
  unfold activate
  rw [h]

theorem activate_of_pending {a : Animator ρ α} {next : Applied} {rest : List Applied}
    (ha : a.active = none) (hp : a.pending = next :: rest) : a.activate =
      some (⟨next, a.now⟩, { a with active := some ⟨next, a.now⟩, pending := rest }) := by
  unfold activate
  rw [ha, hp]

/-- Either there was an active request and nothing changes, or there was none and the first pending
one starts now. -/
theorem activate_cases {a b : Animator ρ α} {active : Active} (h : a.activate = some (active, b)) :
    (a.active = some active ∧ b = a) ∨
    (a.active = none ∧ a.pending = active.gate :: b.pending ∧ active.start = a.now ∧
      b = { a with active := some active, pending := b.pending }) := by
  cases ha : a.active with
  | some active' =>
    rw [activate_of_active ha] at h
    cases h
    exact .inl ⟨rfl, rfl⟩
  | none =>
    cases hp : a.pending with
    | nil =>
      unfold activate at h
      rw [ha, hp] at h
      cases h
    | cons next rest =>
      rw [activate_of_pending ha hp] at h
      cases h
      exact .inr ⟨rfl, rfl, rfl, rfl⟩

/-- Activation touches nothing but the active request and the pending ones. -/
theorem activate_eq {a b : Animator ρ α} {active : Active} (h : a.activate = some (active, b)) :
    b = { a with active := some active, pending := b.pending } := by
  rcases activate_cases h with ⟨ha, rfl⟩ | ⟨_, _, _, hb⟩
  · rw [← ha]
  · exact hb

theorem activate_active {a b : Animator ρ α} {active : Active} (h : a.activate = some (active, b)) :
    b.active = some active := by
  rw [activate_eq h]

/-- Nothing is left to do exactly when no request can be activated. -/
theorem activate_eq_none {a : Animator ρ α} : a.activate = none ↔ a.active = none ∧ a.pending = [] := by
  constructor
  · intro h
    cases ha : a.active with
    | some active => rw [activate_of_active ha] at h; cases h
    | none =>
      cases hp : a.pending with
      | nil => exact ⟨rfl, rfl⟩
      | cons next rest => rw [activate_of_pending ha hp] at h; cases h
  · rintro ⟨ha, hp⟩
    unfold activate
    rw [ha, hp]

/-- The requests that are not done. -/
def todo (a : Animator ρ α) : List Applied := a.current ++ a.pending

theorem activate_todo {a b : Animator ρ α} {active : Active} (h : a.activate = some (active, b)) :
    b.todo = a.todo := by
  rcases activate_cases h with ⟨_, rfl⟩ | ⟨ha, hp, _, _⟩
  · rfl
  · unfold todo
    rw [current_of_active (activate_active h), current_of_none ha, hp]
    rfl

/-! ## Shots -/

variable [Scalar α]

/-- How far a request is at the present time. -/
def progress (a : Animator ρ α) (active : Active) : α :=
  progressAt (Duration.between active.start a.now) a.duration

/-- The animator after a shot was handed to its renderer, which has become `renderer`. -/
def expose (a : Animator ρ α) (s : Shot ρ α) (renderer : ρ) : Animator ρ α :=
  { a with engine := s.engine, renderer := renderer, trail := s.frame.trail }

variable [Renderer ρ α]

/-- The next frame of a request. -/
def shot (a : Animator ρ α) (active : Active) : Except Fault (Shot ρ α) :=
  match a.engine.rotationAt active.gate (a.progress active) with
  | .error fault => .error fault
  | .ok (rotation, engine) =>
    let (markers, engine, renderer) := place active.gate (due rotation) engine a.renderer
    .ok {
      elapsed := Duration.between active.start a.now
      rotation := rotation
      engine := engine
      renderer := renderer
      frame := {
        gate := active.gate
        progress := a.progress active
        orientation := rotation.orientation
        point := rotation.point
        trail := weigh (a.trail ++ markers.map fun m => ⟨m.point, m.handle, 0⟩)
        newMarkers := markers
        complete := decide (1 ≤ a.progress active)
        queued := a.pending.length
        cleared := false } }

/-- What is known of a shot: where its rotation comes from, and what of it is published. -/
structure ShotOf (a : Animator ρ α) (active : Active) (s : Shot ρ α) (turned : Engine α) : Prop where
  rotation : a.engine.rotationAt active.gate (a.progress active) = .ok (s.rotation, turned)
  placed : place active.gate (due s.rotation) turned a.renderer =
    (s.frame.newMarkers, s.engine, s.renderer)
  elapsed : s.elapsed = Duration.between active.start a.now
  gate : s.frame.gate = active.gate
  progress : s.frame.progress = a.progress active
  complete : s.frame.complete = decide (1 ≤ a.progress active)
  trail : s.frame.trail = weigh (a.trail ++ s.frame.newMarkers.map fun m => ⟨m.point, m.handle, 0⟩)
  queued : s.frame.queued = a.pending.length

theorem shot_spec {a : Animator ρ α} {active : Active} {s : Shot ρ α} (h : a.shot active = .ok s) :
    ∃ turned, ShotOf a active s turned := by
  unfold shot at h
  split at h
  · cases h
  · rename_i rotation turned hr
    cases h
    exact ⟨turned, hr, rfl, rfl, rfl, rfl, rfl, rfl, rfl⟩

/-- A shot fails only where its rotation does. -/
theorem shot_error {a : Animator ρ α} {active : Active} {fault : Fault} :
    a.shot active = .error fault ↔
      a.engine.rotationAt active.gate (a.progress active) = .error fault := by
  unfold shot
  cases a.engine.rotationAt active.gate (a.progress active) with
  | error e => simp only [Except.error.injEq]
  | ok r => exact ⟨nofun, nofun⟩

theorem advance_eq (a : Animator ρ α) (active : Active) :
    a.advance active =
      match a.shot active with
      | .error fault => (.error fault, a)
      | .ok s =>
        match Renderer.render s.renderer s.frame with
        | (.error fault, r) => (.error fault, a.expose s r)
        | (.ok (), r) =>
          let shown := { a.expose s r with metrics := a.metrics.recordFrame }
          if s.frame.complete then
            let (more, shown) := shown.finish s.elapsed
            (.ok more, shown)
          else (.ok true, shown) := by
  have hp : progressAt (Duration.between active.start a.now) a.duration = a.progress active := rfl
  simp only [advance, shot, hp]
  cases a.engine.rotationAt active.gate (a.progress active) with
  | error fault => rfl
  | ok r =>
    simp only
    generalize Renderer.render (_ : ρ) _ = shown
    obtain ⟨_ | _, renderer⟩ := shown <;> rfl

/-! ## Every way a callback can end -/

/-- A callback does something only if it is of the present generation and the animator runs. -/
def Live (a : Animator ρ α) (generation : UInt64) : Prop :=
  generation = a.generation ∧ a.phase = .running

/-- The outcomes of a callback. `b` is the animator with its active request, `s` the shot of that
request and `r` the renderer after it was handed the shot. -/
inductive FrameStep (a : Animator ρ α) (generation : UInt64) :
    Except Fault Unit × Animator ρ α → Prop where
  | ignored (hl : ¬ a.Live generation) : FrameStep a generation (.ok (), a)
  | drained (hl : a.Live generation) (hn : a.activate = none) :
    FrameStep a generation (.ok (), { a with phase := .idle })
  | blocked {active : Active} {b : Animator ρ α} {fault : Fault} (hl : a.Live generation)
    (hb : a.activate = some (active, b)) (hs : b.shot active = .error fault) :
    FrameStep a generation (.error fault, b)
  | refused {active : Active} {b : Animator ρ α} {s : Shot ρ α} {fault : Fault} {r : ρ}
    (hl : a.Live generation) (hb : a.activate = some (active, b)) (hs : b.shot active = .ok s)
    (hr : Renderer.render s.renderer s.frame = (.error fault, r)) :
    FrameStep a generation (.error fault, b.expose s r)
  | shown {active : Active} {b : Animator ρ α} {s : Shot ρ α} {r : ρ}
    (hl : a.Live generation) (hb : a.activate = some (active, b)) (hs : b.shot active = .ok s)
    (hr : Renderer.render s.renderer s.frame = (.ok (), r)) (hc : s.frame.complete = false) :
    FrameStep a generation
      (.ok (), requestFrame { b.expose s r with metrics := b.metrics.recordFrame })
  | passed {active : Active} {b : Animator ρ α} {s : Shot ρ α} {r : ρ}
    (hl : a.Live generation) (hb : a.activate = some (active, b)) (hs : b.shot active = .ok s)
    (hr : Renderer.render s.renderer s.frame = (.ok (), r)) (hc : s.frame.complete = true)
    (hp : b.pending ≠ []) :
    FrameStep a generation
      (.ok (), requestFrame { b.expose s r with
        metrics := b.metrics.recordFrame.recordCompleted s.elapsed
        active := none })
  | ended {active : Active} {b : Animator ρ α} {s : Shot ρ α} {r : ρ}
    (hl : a.Live generation) (hb : a.activate = some (active, b)) (hs : b.shot active = .ok s)
    (hr : Renderer.render s.renderer s.frame = (.ok (), r)) (hc : s.frame.complete = true)
    (hp : b.pending = []) :
    FrameStep a generation
      (.ok (), { b.expose s r with
        metrics := b.metrics.recordFrame.recordCompleted s.elapsed
        active := none
        phase := .idle })

theorem frame_of_not_live {a : Animator ρ α} {generation : UInt64} (h : ¬ a.Live generation) :
    a.frame generation = (.ok (), a) := by
  unfold frame
  rw [if_pos]
  by_cases hg : generation = a.generation
  · have hp : a.phase ≠ .running := fun hp => h ⟨hg, hp⟩
    simp [hp]
  · simp [hg]

theorem frame_of_live {a : Animator ρ α} {generation : UInt64} (h : a.Live generation) :
    a.frame generation =
      match a.activate with
      | none => (.ok (), { a with phase := .idle })
      | some (active, b) =>
        match b.advance active with
        | (.error fault, c) => (.error fault, c)
        | (.ok true, c) => (.ok (), c.requestFrame)
        | (.ok false, c) => (.ok (), c) := by
  unfold frame
  exact if_neg (by simp [h.1, h.2])

/-- An outcome on the list is what the callback does. -/
theorem FrameStep.frame_eq {a : Animator ρ α} {generation : UInt64}
    {outcome : Except Fault Unit × Animator ρ α} (h : FrameStep a generation outcome) :
    a.frame generation = outcome := by
  cases h with
  | ignored hl => exact frame_of_not_live hl
  | drained hl hn => simp only [frame_of_live hl, hn]
  | blocked hl hb hs => simp only [frame_of_live hl, hb, advance_eq, hs]
  | refused hl hb hs hr => simp only [frame_of_live hl, hb, advance_eq, hs, hr]
  | shown hl hb hs hr hc =>
    simp only [frame_of_live hl, hb, advance_eq, hs, hr, hc, Bool.false_eq_true, if_false]
  | @passed active b s r hl hb hs hr hc hp =>
    obtain ⟨next, rest, hp⟩ := List.exists_cons_of_ne_nil hp
    simp only [frame_of_live hl, hb, advance_eq, hs, hr, hc, if_true, finish, expose, hp]
  | ended hl hb hs hr hc hp =>
    simp only [frame_of_live hl, hb, advance_eq, hs, hr, hc, if_true, finish, expose, hp]

/-- What the callback does is on the list. -/
theorem frame_step (a : Animator ρ α) (generation : UInt64) :
    FrameStep a generation (a.frame generation) := by
  have total : ∃ outcome, FrameStep a generation outcome := by
    by_cases hl : a.Live generation
    · cases hb : a.activate with
      | none => exact ⟨_, .drained hl hb⟩
      | some p =>
        obtain ⟨active, b⟩ := p
        cases hs : b.shot active with
        | error fault => exact ⟨_, .blocked hl hb hs⟩
        | ok s =>
          rcases hr : Renderer.render s.renderer s.frame with ⟨fault | _, r⟩
          · exact ⟨_, .refused hl hb hs hr⟩
          · cases hc : s.frame.complete with
            | false => exact ⟨_, .shown hl hb hs hr hc⟩
            | true =>
              -- a completed request ends the run exactly when none is waiting
              by_cases hp : b.pending = []
              · exact ⟨_, .ended hl hb hs hr hc hp⟩
              · exact ⟨_, .passed hl hb hs hr hc hp⟩
    · exact ⟨_, .ignored hl⟩
  obtain ⟨outcome, h⟩ := total
  rw [h.frame_eq]
  exact h

/-- No callback hands out a number or starts a generation. -/
theorem FrameStep.kept {a : Animator ρ α} {generation : UInt64}
    {outcome : Except Fault Unit × Animator ρ α} (h : FrameStep a generation outcome) :
    outcome.2.seq = a.seq ∧ outcome.2.generation = a.generation := by
  have kept {active : Active} {b : Animator ρ α} (hb : a.activate = some (active, b)) :
      b.seq = a.seq ∧ b.generation = a.generation := by
    rw [activate_eq hb]
    exact ⟨rfl, rfl⟩
  cases h with
  | ignored => exact ⟨rfl, rfl⟩
  | drained => exact ⟨rfl, rfl⟩
  | blocked _ hb _ => exact kept hb
  | refused _ hb _ _ => exact (kept hb :)
  | shown _ hb _ _ _ => exact (kept hb :)
  | passed _ hb _ _ _ _ => exact (kept hb :)
  | ended _ hb _ _ _ _ => exact (kept hb :)

end Animator

end BlochSphere
