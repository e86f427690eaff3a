/-
Quoted text for messages: in quotes, with the quote, the backslash and everything that does not
print written as escapes.
-/
import BlochSphere.Text.Printable
import BlochSphere.Text.Utf8

namespace BlochSphere.Text

/-- The `width` lowest hexadecimal digits of `n`, in lower case. -/
def hexDigits : (width n : Nat) → List Char
  | 0, _ => []
  | width + 1, n => hexDigits width (n / 16) ++ [Nat.digitChar (n % 16)]

/-- A character that does not print, as an escape: by its letter if it has one, else by two, four
or eight digits of its code. -/
def escapeChar (c : Char) : List Char :=
  match c.toNat with
  | 0x07 => ['\\', 'a']
  | 0x08 => ['\\', 'b']
  | 0x0C => ['\\', 'f']
  | 0x0A => ['\\', 'n']
  | 0x0D => ['\\', 'r']
  | 0x09 => ['\\', 't']
  | 0x0B => ['\\', 'v']
  | n =>
    if n < 0x20 || n == 0x7F then '\\' :: 'x' :: hexDigits 2 n
    else if n < 0x10000 then '\\' :: 'u' :: hexDigits 4 n
    else '\\' :: 'U' :: hexDigits 8 n

/-- One symbol as it stands between the quotes `quote`. -/
def quoteSymbol (quote : Char) : Symbol → List Char
  | .stray b => '\\' :: 'x' :: hexDigits 2 b.toNat
  | .char c =>
    if c == quote || c == '\\' then ['\\', c]
    else if isPrintable c then [c]
    else escapeChar c

/-- The symbols in double quotes. -/
def quoted (symbols : List Symbol) : String :=
  String.ofList ('"' :: symbols.flatMap (quoteSymbol '"') ++ ['"'])

/-- A text in double quotes. -/
def quotedString (s : String) : String := quoted (s.toList.map .char)

/-- A character in single quotes. -/
def quotedChar (c : Char) : String :=
  String.ofList ('\'' :: quoteSymbol '\'' (.char c) ++ ['\''])

/-- A text in double quotes with every byte outside the ASCII characters written as an escape. -/
def quotedBytes (s : String) : String :=
  let symbol (c : Char) : List Char :=
    if c.toNat < 0x20 || 0x80 ≤ c.toNat then
      (Utf8.encode (String.ofList [c])).flatMap fun b => '\\' :: 'x' :: hexDigits 2 b.toNat
    else if c == '"' || c == '\\' then ['\\', c]
    else [c]
  String.ofList ('"' :: s.toList.flatMap symbol ++ ['"'])

end BlochSphere.Text
