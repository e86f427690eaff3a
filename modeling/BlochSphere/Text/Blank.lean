/-
Blank characters and trimming. Blank are the characters with the Unicode property `White_Space`.
-/
import BlochSphere.Text.Utf8

namespace BlochSphere.Text

def isBlank (c : Char) : Bool :=
  let n := c.toNat
  (0x09 ≤ n && n ≤ 0x0D) || n == 0x20 || n == 0x85 || n == 0xA0 || n == 0x1680 ||
    (0x2000 ≤ n && n ≤ 0x200A) || n == 0x2028 || n == 0x2029 || n == 0x202F || n == 0x205F ||
    n == 0x3000

/-- A stray byte is never blank. -/
def Symbol.isBlank : Symbol → Bool
  | .char c => Text.isBlank c
  | .stray _ => false

/-- The symbols without the blank ones at both ends. -/
def trim (symbols : List Symbol) : List Symbol :=
  ((symbols.dropWhile Symbol.isBlank).reverse.dropWhile Symbol.isBlank).reverse

end BlochSphere.Text
