/-
The animator: a queue of gate requests that is worked off one at a time. While it runs it keeps one
frame callback requested; each callback moves the active request on by the clock, places markers
for the keyframes it passed and publishes a frame. A reset starts a new generation, and callbacks
of older generations do nothing.
-/
import BlochSphere.Metrics
import BlochSphere.Renderer
import BlochSphere.Schedule

namespace BlochSphere

inductive Phase where
  | idle
  | running
  deriving DecidableEq, Repr

/-- The request that is being shown, and when that began. -/
structure Active where
  gate : Applied
  start : Int
  deriving DecidableEq, Repr

/-- An animator with its clock, its outstanding callbacks and its renderer. A callback is known by
the generation it was requested in. -/
structure Animator (ρ α : Type) where
  duration : Duration
  now : Int
  callbacks : FrameQueue UInt64
  renderer : ρ
  engine : Engine α
  metrics : Metrics
  phase : Phase
  pending : List Applied
  active : Option Active
  trail : List (TrailPoint α)
  seq : UInt64
  generation : UInt64

namespace Animator

variable {ρ α : Type} [Scalar α]

/-- An idle animator at time `now`. -/
def new (duration : Duration) (resolution : Int) (renderer : ρ) (now : Int) : Animator ρ α where
  duration := duration
  now := now
  callbacks := FrameQueue.empty
  renderer := renderer
  engine := Engine.new resolution
  metrics := Metrics.new
  phase := .idle
  pending := []
  active := none
  trail := []
  seq := 0
  generation := 0

def advanceClock (a : Animator ρ α) (ns : Int) : Animator ρ α := { a with now := a.now + ns }

def setClock (a : Animator ρ α) (now : Int) : Animator ρ α := { a with now := now }

/-- The committed orientation. -/
def orientation (a : Animator ρ α) : Quat α := a.engine.current

def requestFrame (a : Animator ρ α) : Animator ρ α :=
  { a with callbacks := a.callbacks.request a.generation }

/-- Puts a request behind the pending ones. An idle animator starts to run. -/
def queue (a : Animator ρ α) (code : GateCode) : Applied × Animator ρ α :=
  let applied : Applied := ⟨a.seq + 1, code⟩
  let a := { a with
    seq := a.seq + 1
    pending := a.pending ++ [applied]
    metrics := a.metrics.recordQueued }
  match a.phase with
  | .idle => (applied, requestFrame { a with phase := .running })
  | .running => (applied, a)

/-! ## One frame -/

/-- The progress after `elapsed` of `duration`: eased, and one when the time is over. -/
def progressAt (elapsed duration : Duration) : α :=
  let x : α := Scalar.ofInt elapsed.toInt / Scalar.ofInt duration.toInt
  if x < 1 then Easing.inOutCubic x else 1

/-- The keyframes a rotation has passed that have no marker yet, with their places. The first
keyframe, where the path starts, never gets one. -/
def due (rotation : Rotation α) : List (Nat × Keyframe α) :=
  (List.range' 1 (rotation.reached - 1)).filterMap fun i =>
    match rotation.path[i]? with
    | some k => if k.rendered then none else some (i, k)
    | none => none

/-- Ends the active request after `elapsed`. Says whether another frame is needed. -/
def finish (a : Animator ρ α) (elapsed : Duration) : Bool × Animator ρ α :=
  let a := { a with metrics := a.metrics.recordCompleted elapsed, active := none }
  match a.pending with
  | [] => (false, { a with phase := .idle })
  | _ :: _ => (true, a)

/-- The active request; when there is none, the first pending one becomes active now. -/
def activate (a : Animator ρ α) : Option (Active × Animator ρ α) :=
  match a.active, a.pending with
  | some active, _ => some (active, a)
  | none, next :: pending =>
    let active : Active := ⟨next, a.now⟩
    some (active, { a with active := some active, pending := pending })
  | none, [] => none

variable [Renderer ρ α]

/-- Places a marker for each of the keyframes and tells the engine of it. -/
def place (g : Applied) : List (Nat × Keyframe α) → Engine α → ρ → List (Marker α) × Engine α × ρ
  | [], engine, renderer => ([], engine, renderer)
  | (i, k) :: rest, engine, renderer =>
    let (handle, renderer) := Renderer.addMarker renderer k.point
    let (_, engine) := engine.markRendered g i handle
    let (markers, engine, renderer) := place g rest engine renderer
    (⟨handle, k.point⟩ :: markers, engine, renderer)

/-- Shows the active request at the present time. Says whether another frame is needed. -/
def advance (a : Animator ρ α) (active : Active) : Except Fault Bool × Animator ρ α :=
  let elapsed := Duration.between active.start a.now
  let t : α := progressAt elapsed a.duration
  match a.engine.rotationAt active.gate t with
  | .error fault => (.error fault, a)
  | .ok (rotation, engine) =>
    let (markers, engine, renderer) := place active.gate (due rotation) engine a.renderer
    let trail := weigh (a.trail ++ markers.map fun m => ⟨m.point, m.handle, 0⟩)
    let complete := decide (1 ≤ t)
    let (shown, renderer) := Renderer.render renderer {
      gate := active.gate
      progress := t
      orientation := rotation.orientation
      point := rotation.point
      trail := trail
      newMarkers := markers
      complete := complete
      queued := a.pending.length
      cleared := false }
    let a := { a with engine, renderer, trail }
    match shown with
    | .error fault => (.error fault, a)
    | .ok () =>
      let a := { a with metrics := a.metrics.recordFrame }
      if complete then
        let (more, a) := a.finish elapsed
        (.ok more, a)
      else (.ok true, a)

/-- Runs a callback that was requested in `generation`. -/
def frame (a : Animator ρ α) (generation : UInt64) : Except Fault Unit × Animator ρ α :=
  if generation != a.generation || a.phase != .running then (.ok (), a)
  else
    match a.activate with
    | none => (.ok (), { a with phase := .idle })
    | some (active, a) =>
      match a.advance active with
      | (.error fault, a) => (.error fault, a)
      | (.ok true, a) => (.ok (), a.requestFrame)
      | (.ok false, a) => (.ok (), a)

/-! ## Batches of frames -/

/-- Runs callbacks in order. A fault ends the batch. -/
def runBatch : List UInt64 → Animator ρ α → Except Fault Unit × Animator ρ α
  | [], a => (.ok (), a)
  | generation :: rest, a =>
    match a.frame generation with
    | (.error fault, a) => (.error fault, a)
    | (.ok (), a) => runBatch rest a

/-- Runs the outstanding callbacks once. Returns how many there were. -/
def step (a : Animator ρ α) : Except Fault Nat × Animator ρ α :=
  let (batch, callbacks) := a.callbacks.take
  match runBatch batch { a with callbacks := callbacks } with
  | (.error fault, a) => (.error fault, a)
  | (.ok (), a) => (.ok batch.length, a)

/-- Drops all work, the trail and the path in flight, returns to rest and starts a new generation.
The renderer is cleared last, and the reset counts once that is done. -/
def reset (a : Animator ρ α) : Except Fault Unit × Animator ρ α :=
  let (cleared, renderer) := Renderer.clear a.renderer
  let a := { a with
    pending := []
    active := none
    trail := []
    engine := a.engine.reset
    phase := .idle
    generation := a.generation + 1
    renderer := renderer }
  match cleared with
  | .error fault => (.error fault, a)
  | .ok () => (.ok (), { a with metrics := a.metrics.recordReset })

end Animator

end BlochSphere
