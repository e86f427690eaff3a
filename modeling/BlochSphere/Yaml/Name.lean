/-
Names in a YAML text: anchors and aliases, tags, and the directives at the head of a document. Each
reader takes the characters after its indicator and returns what follows the name.
-/
import BlochSphere.Yaml.Scalar

namespace BlochSphere.Yaml

/-! ## Anchors and aliases -/

/-- Whether a name may stop here: at white space, the end or one of some indicators. -/
def endsName : List Char → Bool
  | [] => true
  | c :: _ => isBlank c || isBreak c || "?:,]\x7d%@\x60".toList.contains c

/-- Reads the name of an anchor or an alias. -/
def readName (cs : List Char) : Except Malformed (String × List Char) :=
  let name := cs.takeWhile isWord
  let rest := cs.dropWhile isWord
  if name.isEmpty || !endsName rest then .error .badName else .ok (String.ofList name, rest)

/-! ## Tags -/

/-- Characters of a tag apart from escapes. -/
def isTagChar (c : Char) : Bool := isWord c || ";/?:@&=+$,.!~*'()[]".toList.contains c

/-- How many bytes follow the first byte of an escaped character, and the bits it contributes. -/
def leadByte? (byte : Nat) : Option (Nat × Nat) :=
  if byte < 0x80 then some (0, byte)
  else if 0xC0 ≤ byte && byte < 0xE0 then some (1, byte - 0xC0)
  else if 0xE0 ≤ byte && byte < 0xF0 then some (2, byte - 0xE0)
  else if 0xF0 ≤ byte && byte < 0xF8 then some (3, byte - 0xF0)
  else none

/-- The character of an escaped code, the replacement character if there is none. -/
def escapedChar (code : Nat) : Char := (charOf? code).getD '\ufffd'

/-- Reads the characters of a tag. Escapes give UTF-8 bytes in hexadecimal; `left` bytes are still
missing of a character whose bits so far are `bits`. The text has the newest character first. -/
def tagCharsFrom :
    List Char → (left bits : Nat) → (text : List Char) →
      Except Malformed (List Char × List Char)
  | '%' :: a :: b :: rest, left, bits, text =>
    match hexDigit? a, hexDigit? b with
    | some high, some low =>
      let byte := high * 16 + low
      if left = 0 then
        match leadByte? byte with
        | some (0, code) => tagCharsFrom rest 0 0 (escapedChar code :: text)
        | some (more, bits) => tagCharsFrom rest more bits text
        | none => .error .badTag
      else if 0x80 ≤ byte && byte < 0xC0 then
        let bits := bits * 64 + (byte - 0x80)
        if left = 1 then tagCharsFrom rest 0 0 (escapedChar bits :: text)
        else tagCharsFrom rest (left - 1) bits text
      else .error .badTag
    | _, _ => .error .badTag
  | '%' :: _, _, _, _ => .error .badTag
  | c :: rest, left, bits, text =>
    if left ≠ 0 then .error .badTag
    else if isTagChar c then tagCharsFrom rest left bits (c :: text)
    else .ok (text, c :: rest)
  | [], left, _, text => if left ≠ 0 then .error .badTag else .ok (text, [])

/-- Reads a tag or an expansion that has one character at least. -/
def readTagChars (cs : List Char) : Except Malformed (String × List Char) :=
  match tagCharsFrom cs 0 0 [] with
  | .error e => .error e
  | .ok ([], _) => .error .badTag
  | .ok (text, rest) => .ok (ofReversed text, rest)

/-- Reads a tag after its exclamation mark: a verbatim tag between angle brackets, a suffix after a
handle that ends in another mark, or a suffix alone. A lone mark is the tag `!` with no handle. -/
def readTag (cs : List Char) : Except Malformed (TokenKind × List Char) :=
  let read : Except Malformed (TokenKind × List Char) :=
    match cs with
    | '<' :: cs =>
      match readTagChars cs with
      | .error e => .error e
      | .ok (text, '>' :: rest) => .ok (.tag "" text, rest)
      | .ok _ => .error .badTag
    | _ =>
      let word := cs.takeWhile isWord
      match cs.dropWhile isWord with
      | '!' :: rest =>
        match readTagChars rest with
        | .error e => .error e
        | .ok (suffix, rest) => .ok (.tag (String.ofList ('!' :: word ++ ['!'])) suffix, rest)
      | rest =>
        match tagCharsFrom rest 0 0 word.reverse with
        | .error e => .error e
        | .ok ([], rest) => .ok (.tag "" "!", rest)
        | .ok (text, rest) => .ok (.tag "!" (ofReversed text), rest)
  match read with
  | .error e => .error e
  | .ok (tag, rest) => if atGap rest then .ok (tag, rest) else .error .badTag

/-! ## Directives -/

/-- Reads a number of one or two digits. -/
def readVersionNumber (cs : List Char) : Except Malformed (Nat × List Char) :=
  let digits := cs.takeWhile Char.isDigit
  if digits.isEmpty || 2 < digits.length then .error .badDirective
  else .ok (digits.foldl (fun n c => n * 10 + (c.toNat - '0'.toNat)) 0, cs.dropWhile Char.isDigit)

def readVersion (cs : List Char) : Except Malformed (TokenKind × List Char) :=
  match readVersionNumber (cs.dropWhile isBlank) with
  | .ok (major, '.' :: rest) =>
    match readVersionNumber rest with
    | .ok (minor, rest) => .ok (.version major minor, rest)
    | .error e => .error e
  | .ok _ => .error .badDirective
  | .error e => .error e

/-- The handle that a tag directive defines: `!`, `!!` or a word between two marks. -/
def readHandle : List Char → Except Malformed (String × List Char)
  | '!' :: cs =>
    let word := cs.takeWhile isWord
    match cs.dropWhile isWord with
    | '!' :: rest => .ok (String.ofList ('!' :: word ++ ['!']), rest)
    | rest => if word.isEmpty then .ok ("!", rest) else .error .badDirective
  | _ => .error .badDirective

def readTagDirective (cs : List Char) : Except Malformed (TokenKind × List Char) :=
  match readHandle (cs.dropWhile isBlank) with
  | .error e => .error e
  | .ok (_, []) => .error .badDirective
  | .ok (handle, c :: rest) =>
    if !isBlank c then .error .badDirective
    else
      match readTagChars (rest.dropWhile isBlank) with
      | .error e => .error e
      | .ok (expansion, rest) =>
        if atGap rest then .ok (.tagDirective handle expansion, rest) else .error .badDirective

/-- Reads a directive after its percent sign, to the end of its line. -/
def readDirective (cs : List Char) : Except Malformed (TokenKind × List Char) :=
  let name := String.ofList (cs.takeWhile isWord)
  let rest := cs.dropWhile isWord
  if !atGap rest then .error .badDirective
  else
    let read :=
      if name == "YAML" then readVersion rest
      else if name == "TAG" then readTagDirective rest
      else .error .badDirective
    match read with
    | .error e => .error e
    | .ok (directive, rest) =>
      let rest := dropComment rest
      if atLineEnd rest then .ok (directive, dropBreak rest) else .error .badDirective

end BlochSphere.Yaml
