/-
Tokens of a YAML text: indicators, structure that follows from indentation, and scalars with the
text they stand for.
-/

namespace BlochSphere.Yaml

/-- What is wrong with a text that is not YAML. -/
inductive Malformed where
  | controlCharacter
  | unexpectedCharacter
  | tabInIndentation
  | missingColon
  | misplacedIndicator
  | unclosedQuote
  | badEscape
  | badBlockHeader
  | badName
  | badTag
  | badDirective
  | unexpectedToken
  | unknownAlias
  | selfContained
  | undecodable
  | mergeOfNoMapping
  | excessiveAliasing
  deriving DecidableEq, Repr

def Malformed.message : Malformed → String
  | controlCharacter => "control characters are not allowed"
  | unexpectedCharacter => "found character that cannot start any token"
  | tabInIndentation => "found a tab character where an indentation space is expected"
  | missingColon => "could not find expected ':'"
  | misplacedIndicator => "this indicator is not allowed in this context"
  | unclosedQuote => "found unexpected end of a quoted scalar"
  | badEscape => "found unknown escape character"
  | badBlockHeader => "found an invalid block scalar header"
  | badName => "found an invalid anchor or alias"
  | badTag => "found an invalid or undefined tag"
  | badDirective => "found an invalid directive"
  | unexpectedToken => "did not find expected node content"
  | unknownAlias => "unknown anchor referenced"
  | selfContained => "anchor value contains itself"
  | undecodable => "cannot decode value as its tag says"
  | mergeOfNoMapping => "map merge requires map or sequence of maps as the value"
  | excessiveAliasing => "document contains excessive aliasing"

/-- How a scalar is written. -/
inductive Style where
  | plain
  | quoted
  | block
  deriving DecidableEq, Repr

inductive TokenKind where
  | streamStart
  | streamEnd
  | version (major minor : Nat)
  | tagDirective (handle expansion : String)
  | documentStart
  | documentEnd
  | blockSequenceStart
  | blockMappingStart
  | blockEnd
  | flowSequenceStart
  | flowSequenceEnd
  | flowMappingStart
  | flowMappingEnd
  | blockEntry
  | flowEntry
  | key
  | value
  | reference (name : String)
  | anchor (name : String)
  | tag (handle suffix : String)
  | scalar (text : String) (style : Style)
  deriving DecidableEq, Repr

/-- A token and the line it starts on, from zero. -/
structure Token where
  kind : TokenKind
  line : Nat
  deriving DecidableEq, Repr

/-- A place in a text. Lines and columns are counted from zero, the index counts characters. -/
structure Mark where
  index : Nat
  line : Nat
  column : Nat
  deriving DecidableEq, Repr

/-! ## Characters -/

def isBreak (c : Char) : Bool :=
  c == '\n' || c == '\r' || c == '\u0085' || c == '\u2028' || c == '\u2029'

def isBlank (c : Char) : Bool := c == ' ' || c == '\t'

/-- The end, a line break or a blank comes next. -/
def atGap : List Char → Bool
  | [] => true
  | c :: _ => isBlank c || isBreak c

/-- The end or a line break comes next. -/
def atLineEnd : List Char → Bool
  | [] => true
  | c :: _ => isBreak c

/-- Characters of anchors, tag handles and directive names. -/
def isWord (c : Char) : Bool := c.isAlphanum || c == '_' || c == '-'

/-- A byte order mark. -/
def isByteOrderMark (c : Char) : Bool := c == '\ufeff'

/-- Characters that a text may hold. -/
def isAllowed (c : Char) : Bool :=
  let n := c.toNat
  n == 0x09 || n == 0x0A || n == 0x0D || (0x20 ≤ n && n ≤ 0x7E) || n == 0x85 ||
    (0xA0 ≤ n && n ≤ 0xFFFD) || 0x10000 ≤ n

/-- Three dashes or three dots on their own, which start and end documents. -/
def isDocumentMark : List Char → Bool
  | '-' :: '-' :: '-' :: rest => atGap rest
  | '.' :: '.' :: '.' :: rest => atGap rest
  | _ => false

/-- A line break as it counts in a scalar: most are one line feed. -/
def breakChar (c : Char) : Char :=
  if c == '\u2028' || c == '\u2029' then c else '\n'

/-- The rest after a line break, if one comes next. -/
def dropBreak : List Char → List Char
  | '\r' :: '\n' :: rest => rest
  | c :: rest => if isBreak c then rest else c :: rest
  | [] => []

/-- The place after reading some characters. -/
def Mark.after : Mark → List Char → Mark
  | m, [] => m
  | m, '\r' :: '\n' :: rest => Mark.after ⟨m.index + 2, m.line + 1, 0⟩ rest
  | m, c :: rest =>
    if isBreak c then Mark.after ⟨m.index + 1, m.line + 1, 0⟩ rest
    else Mark.after ⟨m.index + 1, m.line, m.column + 1⟩ rest

end BlochSphere.Yaml
