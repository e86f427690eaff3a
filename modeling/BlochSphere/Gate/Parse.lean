/-
Gate names as users write them. A name is one letter, in either case, with blanks around it; every
other text is refused with an error that quotes it.
-/
import BlochSphere.Gate
import BlochSphere.Text.Blank
import BlochSphere.Text.Quoted
import BlochSphere.Text.Upper

namespace BlochSphere

/-- A name that no gate has, as it was given. -/
structure UnknownGate where
  name : List UInt8
  deriving DecidableEq, Repr

def UnknownGate.message (e : UnknownGate) : String :=
  "unknown gate: " ++ Text.quoted (Text.Utf8.decode e.name)

namespace Gate

/-- The gate of a name. -/
def ofName? : String → Option Gate
  | "X" => some x
  | "Y" => some y
  | "Z" => some z
  | "S" => some s
  | "T" => some t
  | "H" => some h
  | _ => none

/-- Reads a gate's name from bytes. Blanks around it do not count, and neither does its case. -/
def parse (name : List UInt8) : Except UnknownGate Gate :=
  match ofName? (Text.upper (Text.trim (Text.Utf8.decode name))) with
  | some g => .ok g
  | none => .error ⟨name⟩

end Gate

end BlochSphere
