/-
Simulated measurements: a histogram of outcomes over a number of shots, and the counts that the
state's probabilities lead one to expect.
-/
import BlochSphere.Qubit
import BlochSphere.Random

namespace BlochSphere

/-- Outcome counts, with the probabilities of the state that was measured. -/
structure Histogram (α : Type) where
  zero : Nat
  one : Nat
  shots : Int
  p0 : α
  p1 : α

namespace Histogram

variable {α : Type} [Scalar α]

/-- A histogram of nothing. -/
def empty : Histogram α := ⟨0, 0, 0, 0, 0⟩

/-- The expected counts of zeros and ones. -/
def estimates (h : Histogram α) : α × α :=
  (h.p0 * Scalar.ofInt h.shots, h.p1 * Scalar.ofInt h.shots)

end Histogram

namespace Qubit

variable {α : Type} [Scalar α] {σ : Type} [RandomSource σ]

/-- Makes `n` draws and counts their outcomes on from `zeros` and `ones`: a draw measures zero when
its share of `total` is not above `p0`, and one otherwise. -/
def measure (p0 total : α) : (n : Nat) → (zeros ones : Nat) → σ → (Nat × Nat) × σ
  | 0, zeros, ones, source => ((zeros, ones), source)
  | n + 1, zeros, ones, source =>
    let (draw, source) := RandomSource.next source
    if Random.unit draw * total ≤ p0 then measure p0 total n (zeros + 1) ones source
    else measure p0 total n zeros (ones + 1) source

/-- Measures the state `shots` times without changing it. A state without norm, and a number of
shots that is not positive, give empty counts and use no draw. -/
def sample (q : Qubit α) (shots : Int) (source : σ) : Histogram α × σ :=
  let total := q.p0 + q.p1
  if total == 0 || shots ≤ 0 then (⟨0, 0, shots, q.p0, q.p1⟩, source)
  else
    let ((zeros, ones), source) := measure q.p0 total shots.toNat 0 0 source
    (⟨zeros, ones, shots, q.p0, q.p1⟩, source)

end Qubit

end BlochSphere
