/-
A YAML text as a stream of tokens. Indentation turns into the starts and ends of block collections,
and a key is recognised only when its colon is met, so that its tokens are put in front of tokens
that were read before.
-/
import BlochSphere.Yaml.Name

namespace BlochSphere.Yaml

/-- A token that turns out to start a key if a colon follows it on its line. The key is required
where nothing else can stand. -/
structure Candidate where
  number : Nat
  required : Bool
  mark : Mark

/-- A key has its colon on its own line and within 1024 characters. -/
def Candidate.inReach (k : Candidate) (m : Mark) : Bool :=
  !(k.mark.line < m.line || k.mark.index + 1024 < m.index)

/-- A text that is read up to `mark`. Outside of all collections the indentation is -1. There is
one candidate for a key at most in the innermost flow collection, and one in each collection
around it. -/
structure Scan where
  rest : List Char
  mark : Mark
  tokens : Array Token
  indent : Int
  outerIndents : List Int
  key : Option Candidate
  outerKeys : List (Option Candidate)
  keyAllowed : Bool

namespace Scan

def start (cs : List Char) : Scan where
  rest := cs
  mark := ⟨0, 0, 0⟩
  tokens := #[⟨.streamStart, 0⟩]
  indent := -1
  outerIndents := []
  key := none
  outerKeys := []
  keyAllowed := true

/-- Inside a flow collection indentation means nothing. -/
def inFlow (s : Scan) : Bool := !s.outerKeys.isEmpty

def column (s : Scan) : Int := s.mark.column

/-- Goes on to a rest of the text. -/
def goTo (rest : List Char) (s : Scan) : Scan :=
  { s with rest, mark := s.mark.after (s.rest.take (s.rest.length - rest.length)) }

def push (kind : TokenKind) (s : Scan) : Scan :=
  { s with tokens := s.tokens.push ⟨kind, s.mark.line⟩ }

/-! ## Between tokens -/

inductive SkipMode where
  | space
  | comment
  | towardsComment

/-- Only blanks and line breaks come before the next comment. -/
def commentFollows : List Char → Bool
  | [] => false
  | c :: rest => c == '#' || ((isBlank c || isBreak c) && commentFollows rest)

/-- Skips spaces, comments and line breaks, tabs where they cannot be taken for indentation, and a
byte order mark at the start of a line. Returns the rest and whether a key may start there. -/
def skipFrom (flow : Bool) :
    SkipMode → List Char → (column : Nat) → (keyAllowed : Bool) → List Char × Bool
  | _, [], _, keyAllowed => ([], keyAllowed)
  | .towardsComment, c :: rest, column, keyAllowed =>
    if c == '#' then skipFrom flow .comment rest column keyAllowed
    else skipFrom flow .towardsComment rest column keyAllowed
  | .comment, c :: rest, column, keyAllowed =>
    if !isBreak c then skipFrom flow .comment rest column keyAllowed
    else if commentFollows rest then skipFrom flow .towardsComment rest column keyAllowed
    else skipFrom flow .space rest 0 (keyAllowed || !flow)
  | .space, c :: rest, column, keyAllowed =>
    if c == ' ' || (c == '\t' && (flow || !keyAllowed)) || (isByteOrderMark c && column == 0) then
      skipFrom flow .space rest (column + 1) keyAllowed
    else if c == '#' then skipFrom flow .comment rest column keyAllowed
    else if isBreak c then skipFrom flow .space rest 0 (keyAllowed || !flow)
    else (c :: rest, keyAllowed)

def skipSpace (s : Scan) : Scan :=
  let (rest, keyAllowed) := skipFrom s.inFlow .space s.rest s.mark.column s.keyAllowed
  { s.goTo rest with keyAllowed }

/-- Skips a comment that follows a token on its line. -/
def skipLineComment (s : Scan) : Scan :=
  match s.rest.dropWhile isBlank with
  | '#' :: rest => s.goTo (rest.dropWhile (!isBreak ·))
  | _ => s

/-! ## Keys and indentation -/

/-- Gives up the candidate for a key. -/
def dropKey (s : Scan) : Except Malformed Scan :=
  match s.key with
  | some k => if k.required then .error .missingColon else .ok { s with key := none }
  | none => .ok s

/-- Makes the next token the candidate for a key, where a key may start. -/
def saveKey (s : Scan) : Except Malformed Scan :=
  if !s.keyAllowed then .ok s
  else
    match s.dropKey with
    | .error e => .error e
    | .ok s =>
      let required := !s.inFlow && s.indent == s.column
      .ok { s with key := some ⟨s.tokens.size, required, s.mark⟩ }

/-- Starts a block collection at a column deeper than the current indentation. -/
def roll (column : Int) (number line : Nat) (kind : TokenKind) (s : Scan) : Scan :=
  if s.inFlow || column ≤ s.indent then s
  else
    { s with
      indent := column
      outerIndents := s.indent :: s.outerIndents
      tokens := s.tokens.insertIdxIfInBounds number ⟨kind, line⟩ }

/-- The block collections that end at a column: how many, and the indentation that remains. -/
def closedAt (column : Int) : Int → List Int → Nat × Int × List Int
  | indent, [] => (0, indent, [])
  | indent, outer :: more =>
    if indent ≤ column then (0, indent, outer :: more)
    else
      let (closed, rest) := closedAt column outer more
      (closed + 1, rest)

/-- Ends the block collections that are deeper than a column. -/
def unroll (column : Int) (s : Scan) : Scan :=
  if s.inFlow then s
  else
    let (closed, indent, outerIndents) := closedAt column s.indent s.outerIndents
    { s with
      indent
      outerIndents
      tokens := s.tokens ++ Array.replicate closed ⟨.blockEnd, s.mark.line⟩ }

/-! ## Tokens -/

/-- Reads an indicator of one character. -/
def indicator (kind : TokenKind) (rest : List Char) (s : Scan) : Scan := (s.push kind).goTo rest

/-- A directive, or a mark between documents: it ends everything that is open. -/
def betweenDocuments (s : Scan) : Except Malformed Scan :=
  match (s.unroll (-1)).dropKey with
  | .error e => .error e
  | .ok s => .ok { s with keyAllowed := false }

def openFlow (kind : TokenKind) (rest : List Char) (s : Scan) : Except Malformed Scan :=
  match s.saveKey with
  | .error e => .error e
  | .ok s =>
    let s := { s with key := none, outerKeys := s.key :: s.outerKeys, keyAllowed := true }
    .ok (s.indicator kind rest)

def closeFlow (kind : TokenKind) (rest : List Char) (s : Scan) : Except Malformed Scan :=
  match s.dropKey with
  | .error e => .error e
  | .ok s =>
    let s := match s.outerKeys with
      | key :: outerKeys => { s with key, outerKeys }
      | [] => s
    .ok ({ s with keyAllowed := false }.indicator kind rest)

def flowEntry (rest : List Char) (s : Scan) : Except Malformed Scan :=
  match s.dropKey with
  | .error e => .error e
  | .ok s => .ok ({ s with keyAllowed := true }.indicator .flowEntry rest)

def blockEntry (rest : List Char) (s : Scan) : Except Malformed Scan :=
  if !s.inFlow && !s.keyAllowed then .error .misplacedIndicator
  else
    match (s.roll s.column s.tokens.size s.mark.line .blockSequenceStart).dropKey with
    | .error e => .error e
    | .ok s => .ok ({ s with keyAllowed := true }.indicator .blockEntry rest)

def explicitKey (rest : List Char) (s : Scan) : Except Malformed Scan :=
  if !s.inFlow && !s.keyAllowed then .error .misplacedIndicator
  else
    match (s.roll s.column s.tokens.size s.mark.line .blockMappingStart).dropKey with
    | .error e => .error e
    | .ok s => .ok ({ s with keyAllowed := !s.inFlow }.indicator .key rest)

/-- A colon after a candidate turns it into a key; any other belongs to an explicit key. -/
def value (rest : List Char) (s : Scan) : Except Malformed Scan :=
  let explicit : Except Malformed Scan :=
    if !s.inFlow && !s.keyAllowed then .error .misplacedIndicator
    else
      let s := s.roll s.column s.tokens.size s.mark.line .blockMappingStart
      .ok ({ s with keyAllowed := !s.inFlow }.indicator .value rest)
  match s.key with
  | none => explicit
  | some k =>
    if k.inReach s.mark then
      let tokens := s.tokens.insertIdxIfInBounds k.number ⟨.key, k.mark.line⟩
      let s := { s with tokens, key := none, keyAllowed := false }
      let s := s.roll k.mark.column k.number k.mark.line .blockMappingStart
      .ok (s.indicator .value rest)
    else if k.required then .error .missingColon
    else explicit

/-- A token that may start a key and after which none may start. -/
def keyToken (kind : TokenKind) (rest : List Char) (s : Scan) : Except Malformed Scan :=
  match s.saveKey with
  | .error e => .error e
  | .ok s => .ok ({ s with keyAllowed := false }.indicator kind rest)

def named (kind : String → TokenKind) (rest : List Char) (s : Scan) : Except Malformed Scan :=
  match readName rest with
  | .error e => .error e
  | .ok (name, rest) => s.keyToken (kind name) rest

def tag (rest : List Char) (s : Scan) : Except Malformed Scan :=
  match readTag rest with
  | .error e => .error e
  | .ok (kind, rest) => s.keyToken kind rest

def quoted (text : Except Malformed Scanned) (s : Scan) : Except Malformed Scan :=
  match text with
  | .error e => .error e
  | .ok text => s.keyToken (.scalar text.text .quoted) text.rest

def plain (s : Scan) : Except Malformed Scan :=
  match plainFrom s.inFlow (s.indent + 1).toNat s.rest s.mark.column .none [] with
  | .error e => .error e
  | .ok text =>
    match s.keyToken (.scalar text.text .plain) text.rest with
    | .error e => .error e
    | .ok s => .ok { s with keyAllowed := text.broke }

def block (literal : Bool) (rest : List Char) (s : Scan) : Except Malformed Scan :=
  match s.dropKey with
  | .error e => .error e
  | .ok s =>
    match readBlock literal s.indent rest with
    | .error e => .error e
    | .ok text =>
      .ok ({ s with keyAllowed := true }.indicator (.scalar text.text .block) text.rest)

/-- Whether a plain scalar can start with `c` before `rest`. -/
def startsPlain (flow : Bool) (c : Char) (rest : List Char) : Bool :=
  if c == '-' then !atGap rest
  else if c == '?' || c == ':' then !flow && !atGap rest
  else !(isBlank c || isBreak c || ",[]\x7b\x7d#&*!|>'\"%@\x60".toList.contains c)

/-- Reads a token that is neither a directive nor a mark between documents. -/
def content (c : Char) (rest : List Char) (s : Scan) : Except Malformed Scan :=
  if c == '[' then s.openFlow .flowSequenceStart rest
  else if c == '\x7b' then s.openFlow .flowMappingStart rest
  else if c == ']' then s.closeFlow .flowSequenceEnd rest
  else if c == '\x7d' then s.closeFlow .flowMappingEnd rest
  else if c == ',' then s.flowEntry rest
  else if c == '-' && atGap rest then s.blockEntry rest
  else if c == '?' && (s.inFlow || atGap rest) then s.explicitKey rest
  else if c == ':' && (s.inFlow || atGap rest) then s.value rest
  else if c == '*' then s.named .reference rest
  else if c == '&' then s.named .anchor rest
  else if c == '!' then s.tag rest
  else if c == '|' && !s.inFlow then s.block true rest
  else if c == '>' && !s.inFlow then s.block false rest
  else if c == '\'' then s.quoted (singleFrom rest (s.mark.column + 1) .none [])
  else if c == '"' then s.quoted (doubleFrom rest (s.mark.column + 1) (.gap .none) [])
  else if startsPlain s.inFlow c rest then s.plain
  else .error .unexpectedCharacter

/-- Whether a comment may follow the last token on its line: not after the dash of an entry, and not
where reading has gone on to another line. -/
def takesComment (s : Scan) : Bool :=
  match s.tokens.back? with
  | some ⟨.blockEntry, _⟩ => false
  | some ⟨.scalar _ .plain, _⟩ => !s.keyAllowed
  | some ⟨.scalar _ .block, _⟩ => false
  | _ => true

/-- Reads the token that starts with `c`. -/
def token (c : Char) (rest : List Char) (s : Scan) : Except Malformed Scan :=
  if s.mark.column = 0 && c == '%' then
    match s.betweenDocuments with
    | .error e => .error e
    | .ok s =>
      match readDirective rest with
      | .error e => .error e
      | .ok (kind, rest) => .ok (s.indicator kind rest)
  else if s.mark.column = 0 && isDocumentMark (c :: rest) then
    match s.betweenDocuments with
    | .error e => .error e
    | .ok s =>
      let kind := if c == '-' then .documentStart else .documentEnd
      .ok (s.indicator kind (rest.drop 2))
  else
    match s.content c rest with
    | .error e => .error e
    | .ok s => .ok (if s.takesComment then s.skipLineComment else s)

/-- Ends everything at the end of the text. -/
def finish (s : Scan) : Except Malformed (List Token) :=
  match (s.unroll (-1)).dropKey with
  | .error e => .error e
  | .ok s => .ok (s.push .streamEnd).tokens.toList

/-! ## The stream -/

/-- The tokens that are certain when reading fails after them: the last two may still change, and
so may everything from a candidate for a key on. -/
def certain (s : Scan) : List Token :=
  let open? (k : Option Candidate) : Option Nat :=
    match k with
    | some k => if k.required || k.inReach s.mark then some k.number else none
    | none => none
  let bound := (s.key :: s.outerKeys).filterMap open? |>.foldl
    (fun least n => if n < least then n else least) (s.tokens.size - 2)
  s.tokens.toList.take bound

/-- Reads on to the end, or to the first error. -/
def run (s : Scan) : List Token :=
  let t := s.skipSpace
  let t := t.unroll t.column
  match t.rest with
  | [] =>
    match t.finish with
    | .error _ => s.certain
    | .ok tokens => tokens
  | c :: rest =>
    match t.token c rest with
    | .error _ => s.certain
    | .ok next => if next.rest.length < s.rest.length then next.run else s.certain
termination_by s.rest.length

end Scan

/-- The tokens of a text, as far as they can be told: a text that ends in an error has no end of
the stream. A byte order mark at the start does not count, and no text may hold control
characters. -/
def tokensOf (text : String) : Except Malformed (List Token) :=
  let cs := text.toList
  if cs.all isAllowed then
    let cs := match cs with
      | c :: rest => if isByteOrderMark c then rest else c :: rest
      | [] => []
    .ok (Scan.start cs).run
  else .error .controlCharacter

end BlochSphere.Yaml
