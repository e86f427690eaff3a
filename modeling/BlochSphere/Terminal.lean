/-
A terminal: a view whose frames reach a canvas through a subscription, and a screen that the canvas
is drawn on after every frame.
-/
import BlochSphere.Canvas.Footer
import BlochSphere.Session

namespace BlochSphere

/-- `shows` counts the pictures that were drawn. -/
structure Terminal where
  session : Session Float
  canvas : Canvas Float
  source : Random.Pcg
  screen : Canvas.Screen
  shows : Nat

namespace Terminal

/-- The name of the canvas among the subscribers. -/
def subscriber : String := "terminal"

/-- How many frames can wait for the canvas. -/
def bufferSize : Int := 64

def new (config : Config) (width height : Int) : Terminal where
  session :=
    let session := Session.new config (.broadcast Broadcaster.new) true true
    (session.subscribe subscriber bufferSize none).2
  canvas := Canvas.new
  source := ⟨1, 2⟩
  screen := Canvas.Screen.new width height
  shows := 0

/-- Draws the canvas. -/
def draw (t : Terminal) : Terminal :=
  let (picture, source) := t.canvas.picture t.session.view t.source t.screen.width t.screen.height
  { t with source, screen := t.screen.display picture, shows := t.shows + 1 }

/-- Takes one frame in and draws it. -/
def receive (t : Terminal) (frame : Frame Float) : Terminal :=
  { t with canvas := t.canvas.apply frame }.draw

/-- Takes in every frame that waits. -/
def deliver (t : Terminal) : Terminal :=
  match t.session.drain subscriber with
  | (some (frames, _), session) => frames.foldl receive { t with session }
  | (none, session) => { t with session }

def resize (t : Terminal) (width height : Int) : Terminal :=
  { t with screen := t.screen.resize width height }

/-- Shows estimates if they were not shown, in the canvas and in the view. -/
def toggleEstimates (t : Terminal) : Terminal :=
  let canvas := t.canvas.toggleEstimates
  { t with canvas, session := t.session.setShowEstimates canvas.showEstimates }

def apply (t : Terminal) (name : List UInt8) : Except UnknownGate Unit × Terminal :=
  let (result, session) := t.session.apply name
  (result, { t with session })

def reset (t : Terminal) : Except Fault Unit × Terminal :=
  let (result, session) := t.session.reset
  (result, { t with session })

def step (t : Terminal) : Except Fault Nat × Terminal :=
  let (result, session) := t.session.step
  (result, { t with session })

def advance (t : Terminal) (ns : Int) : Terminal := { t with session := t.session.advance ns }

/-- Steps and moves the watch, while anything is left to do and at most `n` times. -/
def run (t : Terminal) (ns : Int) (n : Nat) : Except Fault Nat × Terminal :=
  let (result, session) := t.session.run ns n 0
  (result, { t with session })

/-- Shows the animation to its end, frame by frame, in at most `n` frames of `ns` nanoseconds. -/
def play (ns : Int) : (n : Nat) → Terminal → Terminal
  | 0, t => t
  | n + 1, t =>
    if t.session.callbacks = 0 then t
    else play ns n ((t.step.2.advance ns).deliver)

/-- The message line. -/
def status (t : Terminal) : String := Canvas.status t.session.view

/-! ## Keys -/

/-- What a key does: `q` quits, `r` resets, `e` shows or hides estimates, and every other key names
a gate. -/
def key (t : Terminal) (c : Char) : Option Terminal :=
  if c == 'q' || c == 'Q' then none
  else if c == 'r' || c == 'R' then some t.reset.2.deliver.draw
  else if c == 'e' || c == 'E' then some t.toggleEstimates.draw
  else some (t.apply (Text.Utf8.encode (String.ofList [c]))).2.draw

/-- Takes keys in turn until one of them quits. -/
def keys (t : Terminal) : List Char → Option Terminal
  | [] => some t
  | c :: rest =>
    match t.key c with
    | none => none
    | some t => t.keys rest

/-- The screen as lines of text. -/
def lines (t : Terminal) : List String :=
  t.screen.rows.map fun row => String.ofList (row.map fun cell => (cell.map (·.glyph)).getD ' ')

end Terminal

end BlochSphere
