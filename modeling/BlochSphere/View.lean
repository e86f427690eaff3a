/-
A view of one qubit: its state, the gates applied so far and their animation. Names that no gate
has are reported and change nothing else.
-/
import BlochSphere.Animator
import BlochSphere.Config
import BlochSphere.Gate.Parse
import BlochSphere.Qubit.Sample

namespace BlochSphere

/-- `reports` are the refused names, in the order in which they came. -/
structure View (ρ α : Type) where
  shots : Int
  qubit : Qubit α
  history : List Gate
  showEstimates : Bool
  animator : Animator ρ α
  reports : List UnknownGate

namespace View

variable {ρ α : Type} [Scalar α]

/-- A view of `|0⟩` at time `now`. -/
def new (config : Config) (renderer : ρ) (now : Int) : View ρ α where
  shots := config.shots
  qubit := Qubit.ket0
  history := []
  showEstimates := config.showEstimates
  animator := Animator.new config.rotationDuration config.pathResolution renderer now
  reports := []

/-- Applies the named gate to the state and queues its animation. -/
def apply (v : View ρ α) (name : List UInt8) : Except UnknownGate Unit × View ρ α :=
  match Gate.parse name with
  | .error e =>
    (.error e, { v with
      reports := v.reports ++ [e]
      animator := { v.animator with metrics := v.animator.metrics.recordRejected } })
  | .ok g =>
    (.ok (), { v with
      qubit := v.qubit.apply g
      history := v.history ++ [g]
      animator := (v.animator.queue g.code).2 })

/-- Back to `|0⟩` with no history and an idle animation. -/
def reset [Renderer ρ α] (v : View ρ α) : Except Fault Unit × View ρ α :=
  let (result, animator) := v.animator.reset
  (result, { v with qubit := Qubit.ket0, history := [], animator := animator })

def setShowEstimates (v : View ρ α) (shown : Bool) : View ρ α := { v with showEstimates := shown }

/-- Measures the state for the configured number of shots, if estimates are shown. -/
def estimates {σ : Type} [RandomSource σ] (v : View ρ α) (source : σ) :
    Option (Histogram α) × σ :=
  if v.showEstimates then
    let (h, source) := v.qubit.sample v.shots source
    (some h, source)
  else (none, source)

/-! ## Stepping the animation -/

def advanceClock (v : View ρ α) (ns : Int) : View ρ α :=
  { v with animator := v.animator.advanceClock ns }

def setClock (v : View ρ α) (now : Int) : View ρ α :=
  { v with animator := v.animator.setClock now }

def step [Renderer ρ α] (v : View ρ α) : Except Fault Nat × View ρ α :=
  let (result, animator) := v.animator.step
  (result, { v with animator := animator })

end View

end BlochSphere
