/-
Gate codes: the one-byte numbers that gates are requested by. Six of them name a gate; the others
can be requested and named, but have no matrix and no rotation.
-/
import BlochSphere.Gate

namespace BlochSphere

structure GateCode where
  byte : UInt8
  deriving DecidableEq, Repr

def Gate.code : Gate → GateCode
  | x => ⟨0⟩
  | y => ⟨1⟩
  | z => ⟨2⟩
  | s => ⟨3⟩
  | t => ⟨4⟩
  | h => ⟨5⟩

namespace GateCode

def gate? (c : GateCode) : Option Gate :=
  match c.byte with
  | 0 => some .x
  | 1 => some .y
  | 2 => some .z
  | 3 => some .s
  | 4 => some .t
  | 5 => some .h
  | _ => none

theorem gate?_code (g : Gate) : g.code.gate? = some g := by
  cases g <;> rfl

/-- The gate's name, or the number of a code that names none. -/
def name (c : GateCode) : String :=
  match c.gate? with
  | some g => g.name
  | none => "Gate(" ++ c.byte.toNat.repr ++ ")"

end GateCode

/-- One request to apply a gate. The sequence number tells requests for the same gate apart. -/
structure Applied where
  seq : UInt64
  code : GateCode
  deriving DecidableEq, Repr

end BlochSphere
