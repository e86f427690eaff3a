/-
The values of YAML scalars. A plain scalar that looks like a null, a truth value, a number or a
point in time is one; everything else is a string. A tag can ask for a string, and otherwise has to
agree with the looks.
-/
import BlochSphere.Text.Base64
import BlochSphere.Text.Utf8
import BlochSphere.Yaml.Timestamp
import BlochSphere.Yaml.Token

namespace BlochSphere.Yaml

inductive Value where
  | null
  | bool (b : Bool)
  | int (n : Int)
  | float (x : Float)
  | timestamp
  | merge
  | str (s : String)

/-- The tag of a value. -/
def Value.tag : Value → String
  | null => "!!null"
  | bool _ => "!!bool"
  | int _ => "!!int"
  | float _ => "!!float"
  | timestamp => "!!timestamp"
  | merge => "!!merge"
  | str _ => "!!str"

/-! ## Words -/

/-- Values that are written as words. -/
def wordValue? : String → Option Value
  | "" | "~" | "null" | "Null" | "NULL" => some .null
  | "true" | "True" | "TRUE" => some (.bool true)
  | "false" | "False" | "FALSE" => some (.bool false)
  | ".nan" | ".NaN" | ".NAN" => some (.float (0.0 / 0.0))
  | ".inf" | ".Inf" | ".INF" | "+.inf" | "+.Inf" | "+.INF" => some (.float (1.0 / 0.0))
  | "-.inf" | "-.Inf" | "-.INF" => some (.float (-1.0 / 0.0))
  | "<<" => some .merge
  | _ => none

/-! ## Integers -/

/-- The value of a digit up to `z`. -/
def digitValue? (c : Char) : Option Nat :=
  if '0' ≤ c && c ≤ '9' then some (c.toNat - '0'.toNat)
  else if 'a' ≤ c && c ≤ 'z' then some (c.toNat - 'a'.toNat + 10)
  else if 'A' ≤ c && c ≤ 'Z' then some (c.toNat - 'A'.toNat + 10)
  else none

/-- A number in a base from its digits. -/
def natFrom (base : Nat) : List Char → (value : Nat) → Option Nat
  | [], value => some value
  | c :: rest, value =>
    match digitValue? c with
    | some d => if d < base then natFrom base rest (value * base + d) else none
    | none => none

def nonempty (cs : List Char) : Option (List Char) := if cs.isEmpty then none else some cs

/-- A natural number in the base that its first characters say: `0b`, `0o`, `0x` or a zero for
octal digits. -/
def natural? : List Char → Option Nat
  | [] => none
  | '0' :: c :: d :: rest =>
    if c == 'b' || c == 'B' then natFrom 2 (d :: rest) 0
    else if c == 'o' || c == 'O' then natFrom 8 (d :: rest) 0
    else if c == 'x' || c == 'X' then natFrom 16 (d :: rest) 0
    else natFrom 8 (c :: d :: rest) 0
  | '0' :: rest => natFrom 8 rest 0
  | cs => natFrom 10 cs 0

/-- A signed number is kept to 64 bits with the sign. -/
def signed? (negative : Bool) (n : Option Nat) : Option Int :=
  match n with
  | none => none
  | some n =>
    if negative then (if n ≤ 9223372036854775808 then some (-(n : Int)) else none)
    else if n ≤ 9223372036854775807 then some n else none

/-- A number without a sign is kept to 64 bits. -/
def unsigned? (n : Option Nat) : Option Int :=
  match n with
  | some n => if n ≤ 18446744073709551615 then some (n : Int) else none
  | none => none

/-- A number in a fixed base with a sign after the letter of the base. -/
def signAfterBase? (base : Nat) : List Char → Option Int
  | '+' :: cs => signed? false (nonempty cs >>= (natFrom base · 0))
  | '-' :: cs => signed? true (nonempty cs >>= (natFrom base · 0))
  | _ => none

/-- Integers: with a sign or without, in any of the four bases. -/
def integer? : List Char → Option Int
  | '+' :: cs => signed? false (natural? cs)
  | '-' :: cs => signed? true (natural? cs)
  | cs => unsigned? (natural? cs)

/-! ## Floats -/

/-- A decimal as it is written: digits around the point and an exponent. -/
structure Decimal where
  negative : Bool
  whole : List Char
  fraction : List Char
  exponent : Int

def decimalDigits (cs : List Char) : Nat :=
  cs.foldl (fun n c => n * 10 + (c.toNat - '0'.toNat)) 0

/-- The exponent at the end of a decimal. -/
def exponent? : List Char → Option Int
  | [] => some 0
  | e :: cs =>
    if e == 'e' || e == 'E' then
      let (negative, digits) := match cs with
        | '+' :: cs => (false, cs)
        | '-' :: cs => (true, cs)
        | cs => (false, cs)
      if digits.isEmpty || !digits.all Char.isDigit then none
      else
        let n : Int := decimalDigits digits
        some (if negative then -n else n)
    else none

/-- Reads a decimal: digits, a point with more digits, an exponent. A point before the first digit
has to be followed by one. -/
def decimal? (cs : List Char) : Option Decimal :=
  let (negative, cs) := match cs with
    | '+' :: cs => (false, cs)
    | '-' :: cs => (true, cs)
    | cs => (false, cs)
  let whole := cs.takeWhile Char.isDigit
  match cs.dropWhile Char.isDigit with
  | '.' :: rest =>
    let fraction := rest.takeWhile Char.isDigit
    if whole.isEmpty && fraction.isEmpty then none
    else (exponent? (rest.dropWhile Char.isDigit)).map (⟨negative, whole, fraction, ·⟩)
  | rest => if whole.isEmpty then none else (exponent? rest).map (⟨negative, whole, [], ·⟩)

/-- The double nearest to a decimal. There is none for a decimal that is too large, and one that is
much too small is zero. -/
def Decimal.toFloat? (d : Decimal) : Option Float :=
  let digits := (d.whole ++ d.fraction).dropWhile (· == '0')
  let exponent := d.exponent - d.fraction.length
  let size := digits.length + exponent
  if digits.isEmpty || size < -330 then some (if d.negative then -0.0 else 0.0)
  else if 310 < size then none
  else
    let x := Float.ofScientific (decimalDigits digits) (exponent < 0) exponent.natAbs
    if x.isInf then none else some (if d.negative then -x else x)

/-- Drops underscores, which have to stand between digits. -/
def dropUnderscores : (afterDigit : Bool) → List Char → Option (List Char)
  | _, [] => some []
  | afterDigit, '_' :: d :: rest =>
    if afterDigit && d.isDigit then (dropUnderscores true rest).map (d :: ·) else none
  | _, c :: rest => if c == '_' then none else (dropUnderscores c.isDigit rest).map (c :: ·)

def float? (cs : List Char) : Option Value :=
  match decimal? cs with
  | some d => d.toFloat?.map .float
  | none => none

/-! ## Scalars -/

/-- A number, by its first digit or sign. Underscores do not count. -/
def number? (text : String) : Option Value :=
  let cs := text.toList.filter (· != '_')
  match integer? cs with
  | some n => some (.int n)
  | none =>
    match float? cs with
    | some x => some x
    | none =>
      match cs with
      | '0' :: 'b' :: cs => (signAfterBase? 2 cs).map .int
      | '0' :: 'o' :: cs => (signAfterBase? 8 cs).map .int
      | _ => none

/-- What a plain scalar looks like. -/
def implicit (timestamps : Bool) (text : String) : Value :=
  match wordValue? text with
  | some v => v
  | none =>
    match text.toList with
    | '.' :: rest => ((dropUnderscores false ('.' :: rest)).bind float?).getD (.str text)
    | c :: _ =>
      if c.isDigit || c == '+' || c == '-' then
        if timestamps && Timestamp.isTimestamp text then .timestamp
        else (number? text).getD (.str text)
      else .str text
    | [] => .null

/-- The text that bytes in base 64 stand for. -/
def binaryText? (text : String) : Option String :=
  (Text.Base64.decode text).map fun bytes => Text.Symbol.toText (Text.Utf8.decode bytes)

/-- The value of a scalar. -/
def valueOf (tag : Option String) (style : Style) (text : String) : Except Malformed Value :=
  match tag with
  | none => .ok (if style = .plain then implicit true text else .str text)
  | some "!!str" => .ok (.str text)
  | some "!!binary" =>
    match binaryText? text with
    | some s => .ok (.str s)
    | none => .error .undecodable
  | some tag =>
    let v := implicit (tag == "!!timestamp") text
    if v.tag == tag then .ok v
    else
      match v with
      | .int n =>
        if tag == "!!float" && n ≤ 9223372036854775807 then .ok (.float (Float.ofInt n))
        else .error .undecodable
      | _ => .error .undecodable

end BlochSphere.Yaml
