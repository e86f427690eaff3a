/-
Random sources: anything that yields 64-bit draws one after another. Two sources are given, a
permuted congruential generator and a fixed list of draws that starts over at its end.
-/
import BlochSphere.Scalar

namespace BlochSphere

class RandomSource (σ : Type) where
  next : σ → UInt64 × σ

namespace Random

/-- The draw as a number of the half-open unit interval: its low 53 bits over `2 ^ 53`. -/
def unit {α : Type} [Scalar α] (draw : UInt64) : α :=
  Scalar.ofInt (((draw <<< 11) >>> 11).toNat : Int) / Scalar.ofInt 9007199254740992

/-- A permuted congruential generator with 128 bits of state. -/
structure Pcg where
  hi : UInt64
  lo : UInt64
  deriving DecidableEq, Repr

namespace Pcg

def multiplier : Nat := 2549297995355413924 * 18446744073709551616 + 4865540595714422341

def increment : Nat := 6364136223846793005 * 18446744073709551616 + 1442695040888963407

/-- The state as one number. -/
def toNat (g : Pcg) : Nat := g.hi.toNat * 18446744073709551616 + g.lo.toNat

/-- One step of the linear congruence, modulo `2 ^ 128`. -/
def step (g : Pcg) : Pcg :=
  let state := g.toNat * multiplier + increment
  ⟨UInt64.ofNat (state / 18446744073709551616), UInt64.ofNat state⟩

/-- The output permutation of a state. -/
def output (g : Pcg) : UInt64 :=
  let hi := g.hi ^^^ (g.hi >>> 32)
  let hi := hi * 0xda942042e4dd58b5
  let hi := hi ^^^ (hi >>> 48)
  hi * (g.lo ||| 1)

end Pcg

instance : RandomSource Pcg where
  next g :=
    let g := g.step
    (g.output, g)

/-- Draws that are handed out in order, over and over. -/
structure Cycle where
  draws : List UInt64
  ahead : List UInt64

def Cycle.ofList (draws : List UInt64) : Cycle := ⟨draws, draws⟩

instance : RandomSource Cycle where
  next c :=
    match c.ahead with
    | draw :: ahead => (draw, ⟨c.draws, ahead⟩)
    | [] =>
      match c.draws with
      | draw :: ahead => (draw, ⟨c.draws, ahead⟩)
      | [] => (0, c)

end Random

end BlochSphere
