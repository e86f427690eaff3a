/-
The lines of text under the sphere: the state and its probabilities, the gates applied, the frame
that is shown, sampled estimates and the last message.
-/
import BlochSphere.Canvas
import BlochSphere.Decimal.Fixed
import BlochSphere.Qubit.Display
import BlochSphere.View

namespace BlochSphere.Canvas

/-- The column in which the lines start. -/
def margin : Int := 1

def probabilities (q : Qubit Float) : String :=
  "P(0) = " ++ Decimal.fixed 4 q.p0 ++ "  P(1) = " ++ Decimal.fixed 4 q.p1

/-- A frame in short: gate, number, percentage, and how much waits and is marked. -/
def progress (frame : Frame Float) (markers : Nat) : String :=
  frame.gate.code.name ++ " #" ++ frame.gate.seq.toNat.repr ++ "  " ++
    Decimal.alignRight 3 (Decimal.fixed 0 (frame.progress * 100)) ++ "%  queued " ++
    frame.queued.repr ++ "  markers " ++ markers.repr

/-- Outcomes of a measurement beside what was to be expected. -/
def outcomes (h : Histogram Float) : String :=
  let (zero, one) := h.estimates
  h.shots.repr ++ " shots: |0⟩ " ++ h.zero.repr ++ " (≈" ++ Decimal.fixed 0 zero ++ ")  |1⟩ " ++
    h.one.repr ++ " (≈" ++ Decimal.fixed 0 one ++ ")"

variable {ρ σ : Type} [RandomSource σ]

/-- The line of estimates, if the canvas shows it and the view has any. -/
def estimatesLine (c : Canvas Float) (v : View ρ Float) (source : σ) : Option String × σ :=
  if c.showEstimates then
    let (h, source) := v.estimates source
    (h.map outcomes, source)
  else (none, source)

/-- The message of the last refused name; empty if there was none. -/
def status (v : View ρ Float) : String :=
  match v.reports.getLast? with
  | some e => e.message
  | none => ""

/-- All lines of text, the first of them in the given row. -/
def footer (c : Canvas Float) (v : View ρ Float) (estimates : Option String) (row : Int) :
    List Stroke :=
  let line (offset : Int) (style : Style) (s : String) := text margin (row + offset) style s
  let frameLine := match c.last with
    | some frame => line 3 .gray (progress frame c.markers.length)
    | none => []
  let estimatesLine := match estimates with
    | some s => line 4 .gray s
    | none => []
  line 0 .plain ("ψ = " ++ Display.state v.qubit) ++ line 1 .plain (probabilities v.qubit) ++
    line 2 .plain ("gates: " ++ " ".intercalate (v.history.map Gate.name)) ++
    frameLine ++ estimatesLine ++ line 5 .red (status v)

/-- The whole picture. -/
def picture (c : Canvas Float) (v : View ρ Float) (source : σ) (width height : Int) :
    List Stroke × σ :=
  let (estimates, source) := estimatesLine c v source
  let rest := v.animator.orientation.point
  (c.sphere rest width height ++ c.footer v estimates (height - textRows), source)

end BlochSphere.Canvas
