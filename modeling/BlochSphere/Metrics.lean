/-
Metrics of an animation: counters, the running average of gate durations, and the duration that
95 of 100 recent gates stay below.
-/
import BlochSphere.Duration
import BlochSphere.Scalar.Binary64

namespace BlochSphere

/-- `window` holds the last durations in the order in which they came. The counters are without a limit of
their own: none of them gets beyond the number of calls, so that 64 bits hold them. -/
structure Metrics where
  gatesQueued : Nat
  gatesCompleted : Nat
  gatesRejected : Nat
  framesPublished : Nat
  resets : Nat
  average : Duration
  p95 : Duration
  window : List Duration

namespace Metrics

def new : Metrics := ⟨0, 0, 0, 0, 0, 0, 0, []⟩

def windowSize : Nat := 256

def recordQueued (m : Metrics) : Metrics := { m with gatesQueued := m.gatesQueued + 1 }

def recordRejected (m : Metrics) : Metrics := { m with gatesRejected := m.gatesRejected + 1 }

def recordFrame (m : Metrics) : Metrics := { m with framesPublished := m.framesPublished + 1 }

def recordReset (m : Metrics) : Metrics := { m with resets := m.resets + 1 }

/-- The average of `n + 1` durations from that of the first `n`, in 64-bit arithmetic with division
toward zero. -/
def nextAverage (average : Duration) (n : Nat) (d : Duration) : Duration :=
  (average * Int64.ofNat n + d) / Int64.ofNat (n + 1)

/-- The window after one more duration. -/
def slide (window : List Duration) (d : Duration) : List Duration :=
  let longer := window ++ [d]
  if windowSize < longer.length then longer.drop 1 else longer

/-- The place of the 95th percentile among `n` sorted durations: 0.95 times `n` in double precision,
rounded down, and the last place at most. -/
def p95Index (n : Nat) : Nat :=
  let i := (Binary64.floor (Float.ofNat n * 0.95)).toNat
  if n ≤ i then n - 1 else i

/-- The 95th percentile of a window. -/
def percentile (window : List Duration) : Duration :=
  let sorted := window.mergeSort fun a b => decide (a ≤ b)
  sorted.getD (p95Index sorted.length) 0

def recordCompleted (m : Metrics) (d : Duration) : Metrics :=
  let window := slide m.window d
  { m with
    gatesCompleted := m.gatesCompleted + 1
    average := nextAverage m.average m.gatesCompleted d
    p95 := percentile window
    window := window }

end Metrics

end BlochSphere
