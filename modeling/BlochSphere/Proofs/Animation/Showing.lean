/-
Showings: the frames of a run by the request they show and by the time on the clock. A reel watches an
animator from outside. When a request becomes active a showing begins, stamped with the present time,
and every frame that is handed to the renderer is added to the last showing with the time of its
handing. What one callback does to the showings is told once, for all its outcomes.
-/
import BlochSphere.Proofs.Animation.Stage

namespace BlochSphere

/-- A frame that was handed to the renderer at some time, and whether the renderer took it. -/
structure Exposure (α : Type) where
  time : Int
  frame : Frame α
  taken : Bool

namespace Exposure

variable {α : Type}

/-- The frame completes its request. -/
def finishes (k : Exposure α) : Bool := k.taken && k.frame.complete

end Exposure

/-- A request that became active at time `start`, with its frames in their order. -/
structure Showing (α : Type) where
  gate : Applied
  start : Int
  exposures : List (Exposure α)

variable {ρ α : Type}

/-- The frame that a call hands to the renderer, and whether the renderer took it. -/
def Call.exposed? : Call α → Option (Frame α × Bool)
  | shown frame => some (frame, true)
  | refused frame => some (frame, false)
  | marker _ => none
  | clear => none

theorem Call.exposed_markers (markers : List (Marker α)) :
    (markers.map Call.marker).filterMap Call.exposed? = [] := by
  rw [List.filterMap_map, List.filterMap_eq_nil_iff]
  exact fun _ _ => rfl

namespace Showing

/-- How long the request took, once it was completed. -/
def durations (sh : Showing α) : List Duration :=
  (sh.exposures.filter Exposure.finishes).map fun k => Duration.between sh.start k.time

def expose (sh : Showing α) (exposures : List (Exposure α)) : Showing α :=
  { sh with exposures := sh.exposures ++ exposures }

theorem expose_nil (sh : Showing α) : sh.expose [] = sh := by
  unfold expose
  rw [List.append_nil]

theorem durations_expose (sh : Showing α) (k : Exposure α) : (sh.expose [k]).durations =
    sh.durations ++ if k.finishes then [Duration.between sh.start k.time] else [] := by
  unfold durations expose
  rw [List.filter_append, List.map_append]
  cases hk : k.finishes <;> simp [hk]

/-- Adds exposures to the last showing. -/
def exposeLast (exposures : List (Exposure α)) : List (Showing α) → List (Showing α)
  | [] => []
  | [sh] => [sh.expose exposures]
  | sh :: next :: rest => sh :: exposeLast exposures (next :: rest)

theorem exposeLast_concat (exposures : List (Exposure α)) (front : List (Showing α)) (sh : Showing α) :
    exposeLast exposures (front ++ [sh]) = front ++ [sh.expose exposures] := by
  induction front with
  | nil => rfl
  | cons first front ih =>
    cases front with
    | nil => rfl
    | cons next rest => exact congrArg (first :: ·) ih

theorem exposeLast_nil (showings : List (Showing α)) : exposeLast [] showings = showings := by
  rcases List.eq_nil_or_concat showings with rfl | ⟨front, sh, rfl⟩
  · rfl
  · rw [List.concat_eq_append, exposeLast_concat, expose_nil]

/-- The showing that begins when an animator that was `a` has become `b`. -/
def begun (a b : Animator ρ α) : List (Showing α) :=
  match a.active, b.active with
  | none, some active => [⟨active.gate, a.now, []⟩]
  | _, _ => []

theorem begun_of_active {a : Animator ρ α} {active : Active} (h : a.active = some active)
    (b : Animator ρ α) : (begun a b : List (Showing α)) = [] := by
  unfold begun
  rw [h]

theorem begun_of_idle {a b : Animator ρ α} (h : a.active = none → b.active = none) :
    (begun a b : List (Showing α)) = [] := by
  unfold begun
  cases ha : a.active with
  | some active => rfl
  | none => rw [h ha]

theorem begun_eq {a b : Animator ρ α} {active : Active} (ha : a.active = none)
    (hb : b.active = some active) : begun a b = [⟨active.gate, a.now, ([] : List (Exposure α))⟩] := by
  unfold begun
  rw [ha, hb]

/-- The showings when an animator that was `a` has become `b`. -/
def watch (a b : Animator (Traced ρ α) α) (showings : List (Showing α)) : List (Showing α) :=
  let news := b.renderer.calls.drop a.renderer.calls.length
  exposeLast ((news.filterMap Call.exposed?).map fun (frame, taken) => ⟨a.now, frame, taken⟩)
    (showings ++ begun a b)

end Showing

/-- A stage that is watched. -/
structure Reel (ρ α : Type) where
  stage : Stage (Traced ρ α) α
  showings : List (Showing α)

namespace Reel

variable [Scalar α]

def new (duration : Duration) (resolution : Int) (renderer : ρ) (now : Int) : Reel ρ α :=
  ⟨Stage.new duration resolution ⟨renderer, []⟩ now, []⟩

variable [Renderer ρ α]

def step (r : Reel ρ α) (m : Move) : Reel ρ α :=
  let next := r.stage.step m
  ⟨next, Showing.watch r.stage.animator next.animator r.showings⟩

def run (r : Reel ρ α) (moves : List Move) : Reel ρ α := moves.foldl step r

/-- Watching changes nothing. -/
theorem run_stage (moves : List Move) : ∀ r : Reel ρ α, (r.run moves).stage = r.stage.run moves := by
  induction moves with
  | nil => exact fun _ => rfl
  | cons m moves ih => exact fun r => ih (r.step m)

end Reel

/-! ## One callback -/

/-- What the metrics say of the durations of completed requests. -/
def Metrics.timing (m : Metrics) : Metrics :=
  { Metrics.new with
    gatesCompleted := m.gatesCompleted, average := m.average, p95 := m.p95, window := m.window }

theorem Engine.rotationAt_eq_error [Scalar α] {e : Engine α} {g : Applied} {t : α} {fault : Fault} :
    e.rotationAt g t = .error fault ↔ e.pathFor g = .error fault := by
  unfold rotationAt
  cases e.pathFor g with
  | error _ => simp
  | ok path => exact ⟨nofun, nofun⟩

namespace Animator

/-- On its way from `a` to `b` the animator handed these frames to its renderer. -/
def Exposes (a b : Animator (Traced ρ α) α) (exposed : List (Frame α × Bool)) : Prop :=
  ∃ news, b.renderer.calls = a.renderer.calls ++ news ∧ news.filterMap Call.exposed? = exposed

theorem Exposes.of_renderer {a b : Animator (Traced ρ α) α} (h : b.renderer = a.renderer) :
    a.Exposes b [] :=
  ⟨[], by rw [h, List.append_nil], rfl⟩

theorem Exposes.watch {a b : Animator (Traced ρ α) α} {exposed : List (Frame α × Bool)}
    (h : a.Exposes b exposed) (showings : List (Showing α)) : Showing.watch a b showings =
      Showing.exposeLast (exposed.map fun (frame, taken) => ⟨a.now, frame, taken⟩)
        (showings ++ Showing.begun a b) := by
  obtain ⟨news, hc, rfl⟩ := h
  unfold Showing.watch
  rw [hc, List.drop_left]

/-- The showings stay as they are where no frame is shown and no request becomes active. -/
theorem Exposes.watch_nil {a b : Animator (Traced ρ α) α} (h : a.Exposes b [])
    (hn : a.active = none → b.active = none) (showings : List (Showing α)) :
    Showing.watch a b showings = showings := by
  rw [h.watch, Showing.begun_of_idle hn, List.append_nil, List.map_nil, Showing.exposeLast_nil]

/-- The animator `b` is what `a` has become by handing over a frame of the request `active`. -/
structure Exposed (a : Animator (Traced ρ α) α) (active : Active) (frame : Frame α) (taken : Bool)
    (b : Animator (Traced ρ α) α) : Prop where
  exposes : a.Exposes b [(frame, taken)]
  now : b.now = a.now
  duration : b.duration = a.duration
  remains : b.active = if taken && frame.complete then none else some active
  timing : b.metrics.timing = if taken && frame.complete
    then a.metrics.timing.recordCompleted (Duration.between active.start a.now) else a.metrics.timing

variable [Scalar α] [Renderer ρ α] {a : Animator (Traced ρ α) α}

/-- A reset clears the picture and shows nothing. -/
theorem Exposes.reset (a : Animator (Traced ρ α) α) : a.Exposes a.reset.2 [] := by
  obtain ⟨metrics, hr⟩ := a.reset_snd
  rw [hr]
  exact ⟨[.clear], rfl, rfl⟩

/-- A callback finds nothing to do, or it cannot get the path of the active request, or it hands over
one frame of it. -/
theorem FrameStep.exposes {generation : UInt64} {outcome : Except Fault Unit × Animator (Traced ρ α) α}
    (h : FrameStep a generation outcome) :
    ((¬ a.Live generation ∨ a.activate = none) ∧ ∃ phase, outcome.2 = { a with phase := phase }) ∨
    (∃ active fault, a.activate = some (active, outcome.2) ∧ outcome.2.shot active = .error fault) ∨
    ∃ active b s taken, a.activate = some (active, b) ∧ b.shot active = .ok s ∧
      b.Exposed active s.frame taken outcome.2 ∧ outcome.1.isOk = taken := by
  have told {active : Active} {b : Animator (Traced ρ α) α} {s : Shot (Traced ρ α) α} {t : Traced ρ α}
      {call : Call α} (hs : b.shot active = .ok s) (ht : t.calls = s.renderer.calls ++ [call]) :
      ∃ news, t.calls = b.renderer.calls ++ news ∧
        news.filterMap Call.exposed? = [call].filterMap Call.exposed? := by
    refine ⟨s.frame.newMarkers.map Call.marker ++ [call], ?_, ?_⟩
    · rw [ht, shot_calls hs, List.append_assoc]
    · rw [List.filterMap_append, Call.exposed_markers, List.nil_append]
  have completed {active : Active} {b : Animator (Traced ρ α) α} {s : Shot (Traced ρ α) α}
      (hs : b.shot active = .ok s) : (b.metrics.recordFrame.recordCompleted s.elapsed).timing =
        b.metrics.timing.recordCompleted (Duration.between active.start b.now) := by
    obtain ⟨_, hshot⟩ := shot_spec hs
    rw [hshot.elapsed]
    rfl
  cases h with
  | ignored hl => exact .inl ⟨.inl hl, a.phase, rfl⟩
  | drained _ hn => exact .inl ⟨.inr hn, .idle, rfl⟩
  | blocked _ hb hs => exact .inr (.inl ⟨_, _, hb, hs⟩)
  | refused _ hb hs hr =>
    exact .inr (.inr ⟨_, _, _, false, hb, hs,
      ⟨told hs (Traced.render_error hr), rfl, rfl, (activate_active hb :), rfl⟩, rfl⟩)
  | shown _ hb hs hr hc =>
    refine .inr (.inr ⟨_, _, _, true, hb, hs, ⟨told hs (Traced.render_ok hr), rfl, rfl, ?_, ?_⟩, rfl⟩)
    · rw [hc]
      exact (activate_active hb :)
    · rw [hc]
      rfl
  | passed _ hb hs hr hc _ =>
    refine .inr (.inr ⟨_, _, _, true, hb, hs, ⟨told hs (Traced.render_ok hr), rfl, rfl, ?_, ?_⟩, rfl⟩)
    · rw [hc]
      rfl
    · rw [hc]
      exact completed hs
  | ended _ hb hs hr hc _ =>
    refine .inr (.inr ⟨_, _, _, true, hb, hs, ⟨told hs (Traced.render_ok hr), rfl, rfl, ?_, ?_⟩, rfl⟩)
    · rw [hc]
      rfl
    · rw [hc]
      exact completed hs

end Animator

end BlochSphere
