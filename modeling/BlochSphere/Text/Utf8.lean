/-
Text that arrives as bytes. Bytes are read as UTF-8 characters; a byte that belongs to no character
is kept as it is, so that reading loses nothing.
-/

namespace BlochSphere.Text

/-- A character, or a byte that is part of none. -/
inductive Symbol where
  | char (c : Char)
  | stray (b : UInt8)
  deriving DecidableEq, Repr

namespace Utf8

/-- Whether `b` can follow the first byte of a character. -/
def isTail (b : UInt8) : Bool := 0x80 ≤ b && b ≤ 0xBF

def two (a b : UInt8) : Nat := (a.toNat - 0xC0) * 64 + (b.toNat - 0x80)

def three (a b c : UInt8) : Nat :=
  (a.toNat - 0xE0) * 4096 + (b.toNat - 0x80) * 64 + (c.toNat - 0x80)

def four (a b c d : UInt8) : Nat :=
  (a.toNat - 0xF0) * 262144 + (b.toNat - 0x80) * 4096 + (c.toNat - 0x80) * 64 + (d.toNat - 0x80)

/-- Two bytes that make a character: no shorter spelling exists. -/
def isTwo (a b : UInt8) : Bool := 0xC2 ≤ a && a ≤ 0xDF && isTail b

/-- Three bytes that make a character: no shorter spelling exists and it is no surrogate. -/
def isThree (a b c : UInt8) : Bool :=
  0xE0 ≤ a && a ≤ 0xEF && isTail b && isTail c &&
    (a != 0xE0 || 0xA0 ≤ b) && (a != 0xED || b ≤ 0x9F)

/-- Four bytes that make a character: no shorter spelling exists and it is in range. -/
def isFour (a b c d : UInt8) : Bool :=
  0xF0 ≤ a && a ≤ 0xF4 && isTail b && isTail c && isTail d &&
    (a != 0xF0 || 0x90 ≤ b) && (a != 0xF4 || b ≤ 0x8F)

/-- The character that starts with the byte `a` before the bytes `rest`, and how many of those
belong to it. -/
def first? (a : UInt8) (rest : List UInt8) : Option (Char × Nat) :=
  if a < 0x80 then some (Char.ofNat a.toNat, 0)
  else match rest with
    | b :: c :: d :: _ =>
      if isTwo a b then some (Char.ofNat (two a b), 1)
      else if isThree a b c then some (Char.ofNat (three a b c), 2)
      else if isFour a b c d then some (Char.ofNat (four a b c d), 3)
      else none
    | [b, c] =>
      if isTwo a b then some (Char.ofNat (two a b), 1)
      else if isThree a b c then some (Char.ofNat (three a b c), 2)
      else none
    | [b] => if isTwo a b then some (Char.ofNat (two a b), 1) else none
    | [] => none

/-- Reads bytes after the first `skip` of them. -/
def decodeAfter : (skip : Nat) → List UInt8 → List Symbol
  | _, [] => []
  | skip + 1, _ :: rest => decodeAfter skip rest
  | 0, a :: rest =>
    match first? a rest with
    | some (c, used) => .char c :: decodeAfter used rest
    | none => .stray a :: decodeAfter 0 rest

/-- Reads bytes from left to right. A byte at which no character starts is stray, and reading goes
on with the byte after it. -/
def decode (bytes : List UInt8) : List Symbol := decodeAfter 0 bytes

/-- The bytes of a text. -/
def encode (s : String) : List UInt8 := s.toUTF8.toList

end Utf8

/-- The character, or the replacement character for a stray byte. -/
def Symbol.toChar : Symbol → Char
  | .char c => c
  | .stray _ => Char.ofNat 0xFFFD

def Symbol.toText (symbols : List Symbol) : String := String.ofList (symbols.map Symbol.toChar)

end BlochSphere.Text
