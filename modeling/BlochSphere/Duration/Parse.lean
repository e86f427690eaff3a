/-
Durations as users write them: a sign, then one or more numbers with units, such as `1h2m3.5s`.
-/
import BlochSphere.Duration
import BlochSphere.Text.Quoted

namespace BlochSphere.Duration

inductive ParseError where
  | invalid
  | missingUnit
  | unknownUnit (unit : String)
  deriving DecidableEq, Repr

/-- The message for an error in the text `input`. -/
def ParseError.message (input : String) : ParseError → String
  | invalid => "time: invalid duration " ++ Text.quotedBytes input
  | missingUnit => "time: missing unit in duration " ++ Text.quotedBytes input
  | unknownUnit unit =>
    "time: unknown unit " ++ Text.quotedBytes unit ++ " in duration " ++ Text.quotedBytes input

/-- Nanoseconds of a unit. -/
def unitOf? (name : String) : Option Nat :=
  match name with
  | "ns" => some 1
  | "us" | "µs" | "μs" => some 1000
  | "ms" => some 1000000
  | "s" => some 1000000000
  | "m" => some 60000000000
  | "h" => some 3600000000000
  | _ => none

/-! ## Terms -/

/-- A number with its unit, as it is written. -/
structure Term where
  whole : List Char
  fraction : List Char
  unit : List Char

def isNumeric (c : Char) : Bool := c == '.' || c.isDigit

/-- The digits after a point, if one comes next, and what follows them. -/
def splitFraction : List Char → List Char × List Char
  | '.' :: rest => (rest.takeWhile Char.isDigit, rest.dropWhile Char.isDigit)
  | rest => ([], rest)

/-- Splits off the first term: digits, a fraction, and everything up to the next number. -/
def splitTerm (cs : List Char) : Term × List Char :=
  let (fraction, rest) := splitFraction (cs.dropWhile Char.isDigit)
  (⟨cs.takeWhile Char.isDigit, fraction, rest.takeWhile (!isNumeric ·)⟩,
    rest.dropWhile (!isNumeric ·))

theorem length_splitFraction (cs : List Char) : (splitFraction cs).2.length ≤ cs.length := by
  unfold splitFraction
  split
  · simp only [List.length_cons]
    have := (List.dropWhile_sublist Char.isDigit (l := ‹List Char›)).length_le
    omega
  · simp

/-- A term with a unit leaves less to read. -/
theorem length_splitTerm (cs : List Char) (h : (splitTerm cs).1.unit ≠ []) :
    (splitTerm cs).2.length < cs.length := by
  simp only [splitTerm] at h ⊢
  have fraction := length_splitFraction (cs.dropWhile Char.isDigit)
  have whole := (List.dropWhile_sublist Char.isDigit (l := cs)).length_le
  generalize (splitFraction (cs.dropWhile Char.isDigit)).2 = rest at h fraction ⊢
  have split := congrArg List.length
    (List.takeWhile_append_dropWhile (p := fun c => !isNumeric c) (l := rest))
  have unit := List.length_pos_iff.mpr h
  simp only [List.length_append] at split
  omega

/-- The number that decimal digits write. -/
def digitsValue (digits : List Char) : Nat :=
  digits.foldl (fun n c => n * 10 + (c.toNat - '0'.toNat)) 0

/-- Digits of a fraction as a number and the power of ten it is over. Digits past what 63 bits hold
are left out. -/
def fractionValue (digits : List Char) : Nat × Float :=
  let (n, scale, _) := digits.foldl (fun (n, scale, full) c =>
    if full || 922337203685477580 < n then (n, scale, true)
    else
      let longer := n * 10 + (c.toNat - '0'.toNat)
      if 9223372036854775808 < longer then (n, scale, true) else (longer, scale * 10.0, false))
    (0, 1.0, false)
  (n, scale)

/-- The bound that no part of a duration may pass. -/
def bound : Nat := 9223372036854775808

/-- The nanoseconds of a term. Fractions are computed in double precision. -/
def Term.value (t : Term) : Except ParseError Nat :=
  let whole := digitsValue t.whole
  if bound < whole || (t.whole.isEmpty && t.fraction.isEmpty) then .error .invalid
  else if t.unit.isEmpty then .error .missingUnit
  else
    match unitOf? (String.ofList t.unit) with
    | none => .error (.unknownUnit (String.ofList t.unit))
    | some unit =>
      if bound / unit < whole then .error .invalid
      else
        let (fraction, scale) := fractionValue t.fraction
        let extra := (Float.ofNat fraction * (Float.ofNat unit / scale)).toUInt64.toNat
        let total := whole * unit + if fraction = 0 then 0 else extra
        if bound < total then .error .invalid else .ok total

/-- Adds up the terms of a duration in 64 bits. -/
def terms (cs : List Char) (sum : Nat) : Except ParseError Nat :=
  match cs with
  | [] => .ok sum
  | c :: rest =>
    let split := splitTerm (c :: rest)
    match split.1.value with
    | .error e => .error e
    | .ok n =>
      let sum := (sum + n) % 18446744073709551616
      if bound < sum then .error .invalid
      else if _h : split.1.unit = [] then .error .missingUnit
      else terms split.2 sum
termination_by cs.length
decreasing_by exact length_splitTerm (c :: rest) ‹_›

/-! ## Whole durations -/

def splitSign : List Char → Bool × List Char
  | '-' :: rest => (true, rest)
  | '+' :: rest => (false, rest)
  | rest => (false, rest)

/-- Reads a duration. A bare zero needs no unit. -/
def parse (input : String) : Except ParseError Duration :=
  let (negative, body) := splitSign input.toList
  if body = ['0'] then .ok 0
  else if body.isEmpty then .error .invalid
  else
    match terms body 0 with
    | .error e => .error e
    | .ok n =>
      if negative then .ok (Int64.ofInt (-(n : Int)))
      else if n = bound then .error .invalid
      else .ok (Int64.ofInt n)

end BlochSphere.Duration
