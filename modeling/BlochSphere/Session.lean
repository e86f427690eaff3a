/-
Sessions: a view with everything around it that can be driven by hand. The watch moves only when
told to, callbacks run only when stepped, and frames go to one of three surfaces.
-/
import BlochSphere.Broadcast
import BlochSphere.View

namespace BlochSphere

/-- Where the frames of a session go. -/
inductive Surface (α : Type) where
  | recorder (r : Recorder α)
  | discard (d : Discard α)
  | broadcast (b : Broadcaster α)

namespace Surface

variable {α : Type} [Scalar α]

def addMarker (s : Surface α) (p : Vec3 α) : Handle × Surface α :=
  match s with
  | recorder r => let (h, r) := Renderer.addMarker r p; (h, recorder r)
  | discard d => let (h, d) := Renderer.addMarker d p; (h, discard d)
  | broadcast b => let (h, b) := Renderer.addMarker b p; (h, broadcast b)

def render (s : Surface α) (frame : Frame α) : Except Fault Unit × Surface α :=
  match s with
  | recorder r => let (e, r) := Renderer.render r frame; (e, recorder r)
  | discard d => let (e, d) := Renderer.render d frame; (e, discard d)
  | broadcast b => let (e, b) := Renderer.render b frame; (e, broadcast b)

def clear (s : Surface α) : Except Fault Unit × Surface α :=
  match s with
  | recorder r => let (e, r) := Renderer.clear r; (e, recorder r)
  | discard d => let (e, d) := Renderer.clear d; (e, discard d)
  | broadcast b => let (e, b) := Renderer.clear b; (e, broadcast b)

instance : Renderer (Surface α) α := ⟨addMarker, render, clear⟩

end Surface

/-- `onWatch` says whether the animation reads the watch, `stepped` whether its callbacks wait for
this session's steps; `taken` holds the last channel that each subscriber was given. -/
structure Session (α : Type) where
  view : View (Surface α) α
  watch : Int
  onWatch : Bool
  stepped : Bool
  taken : List (String × Nat)

namespace Session

variable {α : Type} [Scalar α]

def new (config : Config) (surface : Surface α) (onWatch stepped : Bool) : Session α :=
  ⟨View.new config surface 0, 0, onWatch, stepped, []⟩

def animator (s : Session α) : Animator (Surface α) α := s.view.animator

def withAnimator (s : Session α) (a : Animator (Surface α) α) : Session α :=
  { s with view := { s.view with animator := a } }

/-- The number of callbacks that wait for a step. -/
def callbacks (s : Session α) : Nat :=
  if s.stepped then s.animator.callbacks.pending.length else 0

/-- The time on the watch. -/
def now (s : Session α) : Duration := Duration.between 0 s.watch

/-! ## Time and steps -/

def setWatch (s : Session α) (watch : Int) : Session α :=
  let s := { s with watch := watch }
  if s.onWatch then { s with view := s.view.setClock watch } else s

def advance (s : Session α) (ns : Int) : Session α := s.setWatch (s.watch + ns)

def step (s : Session α) : Except Fault Nat × Session α :=
  if s.stepped then
    let (result, view) := s.view.step
    (result, { s with view := view })
  else (.ok 0, s)

/-- Steps and then moves the watch, while callbacks wait and at most `n` times. Adds the number of
times to `count`. -/
def run (ns : Int) : (n count : Nat) → Session α → Except Fault Nat × Session α
  | 0, count, s => (.ok count, s)
  | n + 1, count, s =>
    if s.callbacks = 0 then (.ok count, s)
    else
      match s.step with
      | (.error fault, s) => (.error fault, s)
      | (.ok _, s) => run ns n (count + 1) (s.advance ns)

def queue (s : Session α) (code : GateCode) : Applied × Session α :=
  let (applied, a) := s.animator.queue code
  (applied, s.withAnimator a)

/-- For each duration queues the gate, steps, lets the duration pass and steps again. -/
def cycle (code : GateCode) : List Int → Session α → Except Fault Unit × Session α
  | [], s => (.ok (), s)
  | ns :: rest, s =>
    match (s.queue code).2.step with
    | (.error fault, s) => (.error fault, s)
    | (.ok _, s) =>
      match (s.advance ns).step with
      | (.error fault, s) => (.error fault, s)
      | (.ok _, s) => cycle code rest s

/-! ## The view and its animation -/

def apply (s : Session α) (name : List UInt8) : Except UnknownGate Unit × Session α :=
  let (result, view) := s.view.apply name
  (result, { s with view := view })

def reset (s : Session α) : Except Fault Unit × Session α :=
  let (result, view) := s.view.reset
  (result, { s with view := view })

/-- Resets the animation alone. -/
def resetAnimator (s : Session α) : Except Fault Unit × Session α :=
  let (result, a) := s.animator.reset
  (result, s.withAnimator a)

def setShowEstimates (s : Session α) (shown : Bool) : Session α :=
  { s with view := s.view.setShowEstimates shown }

/-! ## Subscribers -/

def broadcaster? (s : Session α) : Option (Broadcaster α) :=
  match s.animator.renderer with
  | .broadcast b => some b
  | _ => none

def withBroadcaster (s : Session α) (b : Broadcaster α) : Session α :=
  s.withAnimator { s.animator with renderer := .broadcast b }

/-- Lets the broadcaster of a session, if it has one, do something. -/
def broadcast (s : Session α) (f : Broadcaster α → Except Fault Unit × Broadcaster α) :
    Except Fault Unit × Session α :=
  match s.broadcaster? with
  | none => (.ok (), s)
  | some b =>
    let (result, b) := f b
    (result, s.withBroadcaster b)

/-- Subscribes and remembers the channel. -/
def subscribe (s : Session α) (id : String) (size : Int) (filter : Option (Frame α → Bool)) :
    Except Fault Unit × Session α :=
  match s.broadcaster? with
  | none => (.ok (), s)
  | some b =>
    match b.subscribe id size filter with
    | (.error fault, b) => (.error fault, s.withBroadcaster b)
    | (.ok channel, b) =>
      (.ok (), { s.withBroadcaster b with taken := (id, channel) :: s.taken })

/-- Takes what is buffered on the channel last given to a subscriber, if it ever got one. -/
def drain (s : Session α) (id : String) : Option (List (Frame α) × Bool) × Session α :=
  match s.broadcaster?, s.taken.lookup id with
  | some b, some channel =>
    let (taken, b) := b.drain channel
    (some taken, s.withBroadcaster b)
  | _, _ => (none, s)

def addMarker (s : Session α) : Handle × Session α :=
  match s.broadcaster? with
  | none => (noMarker, s)
  | some b =>
    let (handle, b) := b.addMarker
    (handle, s.withBroadcaster b)

end Session

end BlochSphere
