/-
The text of YAML scalars. Plain and quoted scalars fold their line breaks; block scalars keep or
fold them line by line. Each reader takes the characters after its opening indicator and returns
the text with what follows it.
-/
import BlochSphere.Yaml.Token

namespace BlochSphere.Yaml

/-! ## White space inside scalars -/

/-- White space that was read and may turn out to be part of the text: blanks on one line, or line
breaks, of which the first is missing when it was escaped. Both lists have the newest first. -/
inductive Gap where
  | none
  | blanks (read : List Char)
  | lines (first : Option Char) (more : List Char)

namespace Gap

def addBlank (c : Char) : Gap → Gap
  | none => blanks [c]
  | blanks read => blanks (c :: read)
  | lines first more => lines first more

def addBreak (c : Char) : Gap → Gap
  | lines first more => lines first (breakChar c :: more)
  | _ => lines (some (breakChar c)) []

def isNone : Gap → Bool
  | none => true
  | _ => false

def isLines : Gap → Bool
  | lines _ _ => true
  | _ => false

/-- What the gap contributes to the text, newest first: one line feed folds to a space, more of
them lose the first. -/
def folded : Gap → List Char
  | none => []
  | blanks read => read
  | lines (some '\n') [] => [' ']
  | lines (some '\n') more => more
  | lines (some c) more => more ++ [c]
  | lines Option.none more => more

end Gap

/-- The text of a scalar, what follows it, and whether reading went on to another line. -/
structure Scanned where
  text : String
  rest : List Char
  broke : Bool

def ofReversed (text : List Char) : String := String.ofList text.reverse

/-! ## Plain scalars -/

/-- Whether `c` ends a plain scalar before `rest`. -/
def endsPlain (flow : Bool) (c : Char) (rest : List Char) : Bool :=
  (c == ':' && atGap rest) ||
    (flow && (c == ',' || c == '?' || c == '[' || c == ']' || c == '\x7b' || c == '\x7d'))

/-- Reads a plain scalar that belongs to lines indented by `indent` at least. -/
def plainFrom (flow : Bool) (indent : Nat) :
    List Char → (column : Nat) → Gap → (text : List Char) → Except Malformed Scanned
  | [], _, gap, text => .ok ⟨ofReversed text, [], gap.isLines⟩
  | '\r' :: '\n' :: rest, _, gap, text => plainFrom flow indent rest 0 (gap.addBreak '\n') text
  | c :: rest, column, gap, text =>
    if isBreak c then plainFrom flow indent rest 0 (gap.addBreak c) text
    else if isBlank c then
      if gap.isLines && column < indent && c == '\t' then .error .tabInIndentation
      else plainFrom flow indent rest (column + 1) (gap.addBlank c) text
    else if
        (gap.isLines && !flow && column < indent) ||
        (!gap.isNone && column == 0 && isDocumentMark (c :: rest)) ||
        (!gap.isNone && c == '#') || endsPlain flow c rest then
      .ok ⟨ofReversed text, c :: rest, gap.isLines⟩
    else plainFrom flow indent rest (column + 1) .none (c :: gap.folded ++ text)

/-! ## Quoted scalars -/

/-- What is being read: text after a gap, or the digits of an escape. -/
inductive QuoteMode where
  | gap (g : Gap)
  | code (left value : Nat)

def hexDigit? (c : Char) : Option Nat :=
  if '0' ≤ c && c ≤ '9' then some (c.toNat - '0'.toNat)
  else if 'a' ≤ c && c ≤ 'f' then some (c.toNat - 'a'.toNat + 10)
  else if 'A' ≤ c && c ≤ 'F' then some (c.toNat - 'A'.toNat + 10)
  else none

/-- The character of a code point, if it is one. -/
def charOf? (code : Nat) : Option Char :=
  if h : code.isValidChar then some (Char.ofNatAux code h) else none

/-- Escapes of a double-quoted scalar that stand for one character. -/
def escape? : Char → Option Char
  | '0' => some '\x00'
  | 'a' => some '\x07'
  | 'b' => some '\x08'
  | 't' | '\t' => some '\t'
  | 'n' => some '\n'
  | 'v' => some '\x0b'
  | 'f' => some '\x0c'
  | 'r' => some '\r'
  | 'e' => some '\x1b'
  | ' ' => some ' '
  | '"' => some '"'
  | '\'' => some '\''
  | '/' => some '/'
  | '\\' => some '\\'
  | 'N' => some '\u0085'
  | '_' => some '\u00a0'
  | 'L' => some '\u2028'
  | 'P' => some '\u2029'
  | _ => none

/-- How many digits follow an escape by code. -/
def codeLength? : Char → Option Nat
  | 'x' => some 2
  | 'u' => some 4
  | 'U' => some 8
  | _ => none

/-- Reads a single-quoted scalar after its opening quote. -/
def singleFrom :
    List Char → (column : Nat) → Gap → (text : List Char) → Except Malformed Scanned
  | [], _, _, _ => .error .unclosedQuote
  | '\r' :: '\n' :: rest, _, gap, text => singleFrom rest 0 (gap.addBreak '\n') text
  | '\'' :: '\'' :: rest, column, gap, text =>
    singleFrom rest (column + 2) .none ('\'' :: gap.folded ++ text)
  | c :: rest, column, gap, text =>
    if isBreak c then singleFrom rest 0 (gap.addBreak c) text
    else if isBlank c then singleFrom rest (column + 1) (gap.addBlank c) text
    else if column == 0 && isDocumentMark (c :: rest) then .error .unclosedQuote
    else if c == '\'' then .ok ⟨ofReversed (gap.folded ++ text), rest, false⟩
    else singleFrom rest (column + 1) .none (c :: gap.folded ++ text)

/-- Reads a double-quoted scalar after its opening quote. -/
def doubleFrom :
    List Char → (column : Nat) → QuoteMode → (text : List Char) → Except Malformed Scanned
  | [], _, _, _ => .error .unclosedQuote
  | c :: rest, column, .code left value, text =>
    match hexDigit? c with
    | none => .error .badEscape
    | some digit =>
      let value := value * 16 + digit
      if left = 1 then
        match charOf? value with
        | none => .error .badEscape
        | some escaped => doubleFrom rest (column + 1) (.gap .none) (escaped :: text)
      else doubleFrom rest (column + 1) (.code (left - 1) value) text
  | '\r' :: '\n' :: rest, _, .gap gap, text => doubleFrom rest 0 (.gap (gap.addBreak '\n')) text
  | '\\' :: '\r' :: '\n' :: rest, _, .gap gap, text =>
    doubleFrom rest 0 (.gap (.lines none [])) (gap.folded ++ text)
  | '\\' :: e :: rest, column, .gap gap, text =>
    if isBreak e then doubleFrom rest 0 (.gap (.lines none [])) (gap.folded ++ text)
    else
      match escape? e, codeLength? e with
      | some escaped, _ =>
        doubleFrom rest (column + 2) (.gap .none) (escaped :: gap.folded ++ text)
      | none, some length =>
        doubleFrom rest (column + 2) (.code length 0) (gap.folded ++ text)
      | none, none => .error .badEscape
  | c :: rest, column, .gap gap, text =>
    if isBreak c then doubleFrom rest 0 (.gap (gap.addBreak c)) text
    else if isBlank c then doubleFrom rest (column + 1) (.gap (gap.addBlank c)) text
    else if column == 0 && isDocumentMark (c :: rest) then .error .unclosedQuote
    else if c == '"' then .ok ⟨ofReversed (gap.folded ++ text), rest, false⟩
    else doubleFrom rest (column + 1) (.gap .none) (c :: gap.folded ++ text)

/-! ## Block scalars -/

/-- What happens to the line breaks at the end of a block scalar. -/
inductive Chomping where
  | strip
  | clip
  | keep

/-- The indicators after `|` or `>`. -/
structure BlockHeader where
  chomping : Chomping
  increment : Option Nat

def chomping? : Char → Option Chomping
  | '+' => some .keep
  | '-' => some .strip
  | _ => none

/-- Reads the indicators of a block scalar: an increment from one to nine and a chomping sign, each
optional and in either order. -/
def readHeader : List Char → Except Malformed (BlockHeader × List Char)
  | a :: rest =>
    match chomping? a with
    | some chomping =>
      match rest with
      | b :: more =>
        if b == '0' then .error .badBlockHeader
        else if b.isDigit then .ok (⟨chomping, some (b.toNat - '0'.toNat)⟩, more)
        else .ok (⟨chomping, none⟩, rest)
      | [] => .ok (⟨chomping, none⟩, rest)
    | none =>
      if a == '0' then .error .badBlockHeader
      else if a.isDigit then
        let increment := some (a.toNat - '0'.toNat)
        match rest with
        | b :: more =>
          match chomping? b with
          | some chomping => .ok (⟨chomping, increment⟩, more)
          | none => .ok (⟨.clip, increment⟩, rest)
        | [] => .ok (⟨.clip, increment⟩, rest)
      else .ok (⟨.clip, none⟩, a :: rest)
  | [] => .ok (⟨.clip, none⟩, [])

/-- The rest of a line that may hold only blanks and a comment, without its break. -/
def dropComment (rest : List Char) : List Char :=
  let rest := rest.dropWhile isBlank
  match rest with
  | '#' :: _ => rest.dropWhile (!isBreak ·)
  | _ => rest

/-- A block scalar while it is read. An indentation of zero is not known yet; `widest` is the widest
margin so far, `leading` the break of the last line, `trailing` the breaks of empty lines after it;
text and breaks have the newest first. -/
structure BlockState where
  indent : Nat
  widest : Nat
  column : Nat
  inLine : Bool
  leadingBlank : Bool
  leading : List Char
  trailing : List Char
  text : List Char

namespace BlockState

def start (indent : Nat) : BlockState := ⟨indent, 0, 0, false, false, [], [], []⟩

/-- Settles the indentation: the widest margin seen, and at least `least`. -/
def settle (least : Nat) (s : BlockState) : BlockState :=
  if s.indent = 0 then { s with indent := if s.widest < least then least else s.widest } else s

/-- Begins a line with the character `c`. Between two lines that do not start with a blank, a
folded scalar turns one line feed into a space. -/
def beginLine (literal : Bool) (c : Char) (s : BlockState) : BlockState :=
  let folds := !literal && !s.leadingBlank && !isBlank c && s.leading == ['\n']
  let joint := if folds then (if s.trailing.isEmpty then [' '] else []) else s.leading
  { s with
    inLine := true
    leadingBlank := isBlank c
    leading := []
    trailing := []
    text := c :: s.trailing ++ joint ++ s.text }

/-- The text, with the breaks at its end as the header says. -/
def finish (chomping : Chomping) (s : BlockState) : String :=
  match chomping with
  | .strip => ofReversed s.text
  | .clip => ofReversed (s.leading ++ s.text)
  | .keep => ofReversed (s.trailing ++ s.leading ++ s.text)

end BlockState

/-- Reads the lines of a block scalar. `least` is the least indentation that they can have. -/
def blockFrom (literal : Bool) (least : Nat) :
    List Char → BlockState → Except Malformed (BlockState × List Char)
  | [], s => .ok (s, [])
  | '\r' :: '\n' :: rest, s =>
    if s.inLine then
      blockFrom literal least rest { s with inLine := false, column := 0, leading := ['\n'] }
    else blockFrom literal least rest { s with column := 0, trailing := '\n' :: s.trailing }
  | c :: rest, s =>
    if isBreak c then
      if s.inLine then
        blockFrom literal least rest { s with inLine := false, column := 0, leading := [breakChar c] }
      else blockFrom literal least rest { s with column := 0, trailing := breakChar c :: s.trailing }
    else if s.inLine then blockFrom literal least rest { s with text := c :: s.text }
    else if (s.indent = 0 || s.column < s.indent) && c == ' ' then
      let column := s.column + 1
      let widest := if s.widest < column then column else s.widest
      blockFrom literal least rest { s with column, widest }
    else if (s.indent = 0 || s.column < s.indent) && c == '\t' then .error .tabInIndentation
    else
      let s := s.settle least
      if s.column = s.indent then blockFrom literal least rest (s.beginLine literal c)
      else .ok (s, c :: rest)

/-- Reads a block scalar after its `|` or `>`, inside lines indented by `parent`. -/
def readBlock (literal : Bool) (parent : Int) (cs : List Char) : Except Malformed Scanned :=
  match readHeader cs with
  | .error e => .error e
  | .ok (header, rest) =>
    let rest := dropComment rest
    if !atLineEnd rest then .error .badBlockHeader
    else
      let base := parent.toNat
      let indent := match header.increment with
        | some increment => base + increment
        | none => 0
      let least := if parent < 0 then 1 else (parent + 1).toNat
      match blockFrom literal least (dropBreak rest) (.start indent) with
      | .error e => .error e
      | .ok (s, rest) => .ok ⟨s.finish header.chomping, rest, true⟩

end BlochSphere.Yaml
