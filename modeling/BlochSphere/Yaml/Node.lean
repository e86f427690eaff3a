/-
YAML documents as trees. A node that has an anchor is numbered, and an alias refers to the number,
so that a node can also be used inside itself.
-/
import BlochSphere.Yaml.Stream

namespace BlochSphere.Yaml

/-- A node with its explicit tag, if it has one, and its line, from one. -/
inductive Node where
  | scalar (tag : Option String) (line : Nat) (style : Style) (text : String)
  | sequence (tag : Option String) (line : Nat) (items : List Node)
  | mapping (tag : Option String) (line : Nat) (entries : List (Node × Node))
  | reference (line : Nat) (name : String) (target : Nat)

namespace Node

/-- A node that is left out. -/
def empty (line : Nat) : Node := .scalar none (line + 1) .plain ""

def line : Node → Nat
  | scalar _ line _ _ | sequence _ line _ | mapping _ line _ | reference line _ _ => line

end Node

/-- A document: its root, the nodes that have anchors, and how many tokens it was read from. -/
structure Document where
  root : Node
  anchored : List (Nat × Node)
  size : Nat

/-- The node that an alias refers to. -/
def Document.target? (d : Document) (number : Nat) : Option Node := d.anchored.lookup number

/-! ## Reading tokens -/

/-- What names stand for: anchors by number, newest first, the nodes that have them, and the
expansions of tag handles. -/
structure Names where
  anchors : List (String × Nat)
  anchored : List (Nat × Node)
  handles : List (String × String)

/-- A result with the names known after it and the tokens that follow. -/
structure Read (α : Type) where
  value : α
  names : Names
  rest : List Token

/-- What may stand before the content of a node. -/
structure Properties where
  anchor : Option String
  tag : Option (String × String)
  line : Nat

def Properties.isEmpty (p : Properties) : Bool := p.anchor.isNone && p.tag.isNone

/-- Tags of the YAML repository are written with two marks. -/
def shortTag (tag : String) : String :=
  let repository := "tag:yaml.org,2002:".toList
  if repository.isPrefixOf tag.toList then
    "!!" ++ String.ofList (tag.toList.drop repository.length)
  else tag

/-- The tag of a node: none if it is left out or `!`. -/
def Names.resolveTag (names : Names) : Option (String × String) → Except Malformed (Option String)
  | none => .ok none
  | some ("", suffix) => .ok (if suffix == "!" then none else some (shortTag suffix))
  | some (handle, suffix) =>
    match names.handles.lookup handle with
    | none => .error .badTag
    | some expansion =>
      let tag := expansion ++ suffix
      .ok (if tag == "!" then none else some (shortTag tag))

/-- Numbers the anchor of a node that starts. -/
def Names.bind (names : Names) : Option String → Names × Option Nat
  | none => (names, none)
  | some anchor =>
    let number := names.anchors.length
    ({ names with anchors := (anchor, number) :: names.anchors }, some number)

/-- Keeps a node that is read under its number. -/
def Read.keep (number : Option Nat) (r : Read Node) : Read Node :=
  match number with
  | none => r
  | some n => { r with names := { r.names with anchored := (n, r.value) :: r.names.anchored } }

/-- Where a node stands: whether block collections may start there, and whether a sequence may
start there without being indented. -/
structure Position where
  block : Bool
  indentless : Bool

/-- Tokens that stand where a node is left out. -/
def endsBlockItem : TokenKind → Bool
  | .blockEntry | .blockEnd => true
  | _ => false

def endsIndentlessItem : TokenKind → Bool
  | .blockEntry | .key | .value | .blockEnd => true
  | _ => false

def endsBlockEntry : TokenKind → Bool
  | .key | .value | .blockEnd => true
  | _ => false

def endsFlowKey : TokenKind → Bool
  | .value | .flowEntry | .flowMappingEnd => true
  | _ => false

def endsFlowValue : TokenKind → Bool
  | .flowEntry | .flowMappingEnd => true
  | _ => false

def endsPairValue : TokenKind → Bool
  | .flowEntry | .flowSequenceEnd => true
  | _ => false

/-- After an entry of a flow collection: whether the collection goes on, and what follows. -/
def separator (close : TokenKind) : List Token → Except Malformed (Bool × List Token)
  | ⟨kind, _⟩ :: rest =>
    if kind = close then .ok (false, rest)
    else if kind = .flowEntry then .ok (true, rest)
    else .error .unexpectedToken
  | [] => .error .unexpectedToken

/-- A node that has properties and no content before `ts`. -/
def Properties.alone (p : Properties) (tag : Option String) (names : Names) (ts : List Token) :
    Except Malformed (Read Node) :=
  if p.isEmpty || ts.isEmpty then .error .unexpectedToken
  else .ok ⟨.scalar tag (p.line + 1) .plain "", names, ts⟩

mutual

/-- Reads one node. -/
def readNode (p : Position) (names : Names) : List Token → Except Malformed (Read Node)
  | ⟨.reference name, line⟩ :: rest =>
    match names.anchors.lookup name with
    | some target => .ok ⟨.reference (line + 1) name target, names, rest⟩
    | none => .error .unknownAlias
  | ⟨.anchor anchor, line⟩ :: ⟨.tag handle suffix, _⟩ :: rest
  | ⟨.tag handle suffix, line⟩ :: ⟨.anchor anchor, _⟩ :: rest =>
    readContent p names ⟨some anchor, some (handle, suffix), line⟩ rest
  | ⟨.anchor anchor, line⟩ :: rest => readContent p names ⟨some anchor, none, line⟩ rest
  | ⟨.tag handle suffix, line⟩ :: rest =>
    readContent p names ⟨none, some (handle, suffix), line⟩ rest
  | ⟨kind, line⟩ :: rest => readContent p names ⟨none, none, line⟩ (⟨kind, line⟩ :: rest)
  | [] => .error .unexpectedToken
termination_by ts => (ts.length, 2)

/-- Reads the content of a node after its properties. -/
def readContent (p : Position) (names : Names) (properties : Properties) (ts : List Token) :
    Except Malformed (Read Node) := do
  let tag ← names.resolveTag properties.tag
  let line := properties.line + 1
  let (names, number) := names.bind properties.anchor
  let node ← match ts with
    | ⟨.scalar text style, _⟩ :: rest => pure ⟨.scalar tag line style text, names, rest⟩
    | ⟨.flowSequenceStart, _⟩ :: rest => do
      let items ← readFlowItems names rest
      pure { items with value := .sequence tag line items.value }
    | ⟨.flowMappingStart, _⟩ :: rest => do
      let entries ← readFlowEntries names rest
      pure { entries with value := .mapping tag line entries.value }
    | ⟨.blockSequenceStart, _⟩ :: rest =>
      if p.block then do
        let items ← readBlockItems names rest
        pure { items with value := .sequence tag line items.value }
      else properties.alone tag names ts
    | ⟨.blockMappingStart, _⟩ :: rest =>
      if p.block then do
        let entries ← readBlockEntries names rest
        pure { entries with value := .mapping tag line entries.value }
      else properties.alone tag names ts
    | ⟨.blockEntry, l⟩ :: rest =>
      if p.indentless then do
        let items ← readIndentlessItems names (⟨.blockEntry, l⟩ :: rest)
        pure { items with value := .sequence tag line items.value }
      else properties.alone tag names ts
    | _ => properties.alone tag names ts
  pure (node.keep number)
termination_by (ts.length, 1)

/-- Reads one node unless the next token says that it is left out. -/
def readOptional (ends : TokenKind → Bool) (p : Position) (names : Names) (line : Nat) :
    List Token → Except Malformed (Read Node)
  | [] => .error .unexpectedToken
  | ⟨kind, l⟩ :: rest =>
    if ends kind then .ok ⟨.empty line, names, ⟨kind, l⟩ :: rest⟩
    else readNode p names (⟨kind, l⟩ :: rest)
termination_by ts => (ts.length, 3)

/-- Reads the value of an entry after its key. Without a colon there is none. -/
def readValue (ends : TokenKind → Bool) (p : Position) (names : Names) :
    List Token → Except Malformed (Read Node)
  | [] => .error .unexpectedToken
  | ⟨.value, line⟩ :: rest => readOptional ends p names line rest
  | t :: rest => .ok ⟨.empty t.line, names, t :: rest⟩
termination_by ts => (ts.length, 3)

/-- Reads the items of a block sequence. -/
def readBlockItems (names : Names) : List Token → Except Malformed (Read (List Node))
  | ⟨.blockEnd, _⟩ :: rest => .ok ⟨[], names, rest⟩
  | ⟨.blockEntry, line⟩ :: rest => do
    let item ← readOptional endsBlockItem ⟨true, false⟩ names line rest
    if item.rest.length ≤ rest.length then
      let items ← readBlockItems item.names item.rest
      pure { items with value := item.value :: items.value }
    else throw .unexpectedToken
  | _ => .error .unexpectedToken
termination_by ts => (ts.length, 0)

/-- Reads the items of a sequence that is not indented: it ends where no dash follows. -/
def readIndentlessItems (names : Names) : List Token → Except Malformed (Read (List Node))
  | ⟨.blockEntry, line⟩ :: rest => do
    let item ← readOptional endsIndentlessItem ⟨true, false⟩ names line rest
    if item.rest.length ≤ rest.length then
      let items ← readIndentlessItems item.names item.rest
      pure { items with value := item.value :: items.value }
    else throw .unexpectedToken
  | [] => .error .unexpectedToken
  | ts => .ok ⟨[], names, ts⟩
termination_by ts => (ts.length, 0)

/-- Reads the entries of a block mapping. -/
def readBlockEntries (names : Names) : List Token → Except Malformed (Read (List (Node × Node)))
  | ⟨.blockEnd, _⟩ :: rest => .ok ⟨[], names, rest⟩
  | ⟨.key, line⟩ :: rest => do
    let key ← readOptional endsBlockEntry ⟨true, true⟩ names line rest
    if key.rest.length ≤ rest.length then
      let value ← readValue endsBlockEntry ⟨true, true⟩ key.names key.rest
      if value.rest.length ≤ rest.length then
        let entries ← readBlockEntries value.names value.rest
        pure { entries with value := (key.value, value.value) :: entries.value }
      else throw .unexpectedToken
    else throw .unexpectedToken
  | _ => .error .unexpectedToken
termination_by ts => (ts.length, 0)

/-- Reads the one entry of a mapping that stands as an item of a flow sequence. Where its key is
left out, the token in its place is passed over. -/
def readPair (names : Names) (line : Nat) :
    List Token → Except Malformed (Read Node)
  | [] => .error .unexpectedToken
  | ⟨kind, l⟩ :: rest => do
    let key ←
      if kind = .value || endsPairValue kind then pure ⟨.empty l, names, rest⟩
      else readNode ⟨false, false⟩ names (⟨kind, l⟩ :: rest)
    if key.rest.length ≤ rest.length then
      let value ← readValue endsPairValue ⟨false, false⟩ key.names key.rest
      pure { value with value := .mapping none (line + 1) [(key.value, value.value)] }
    else throw .unexpectedToken
termination_by ts => (ts.length, 3)

/-- Reads the items of a flow sequence. -/
def readFlowItems (names : Names) : List Token → Except Malformed (Read (List Node))
  | [] => .error .unexpectedToken
  | ⟨.flowSequenceEnd, _⟩ :: rest => .ok ⟨[], names, rest⟩
  | ⟨kind, line⟩ :: rest => do
    let item ←
      if kind = .key then readPair names line rest
      else readNode ⟨false, false⟩ names (⟨kind, line⟩ :: rest)
    let (more, after) ← separator .flowSequenceEnd item.rest
    if !more then pure ⟨[item.value], item.names, after⟩
    else if after.length ≤ rest.length then
      let items ← readFlowItems item.names after
      pure { items with value := item.value :: items.value }
    else throw .unexpectedToken
termination_by ts => (ts.length, 4)

/-- Reads the entries of a flow mapping. A node without a question mark or a colon is a key with no
value. -/
def readFlowEntries (names : Names) : List Token → Except Malformed (Read (List (Node × Node)))
  | [] => .error .unexpectedToken
  | ⟨.flowMappingEnd, _⟩ :: rest => .ok ⟨[], names, rest⟩
  | ⟨kind, line⟩ :: rest => do
    let entry ←
      if kind = .key then do
        let key ← readOptional endsFlowKey ⟨false, false⟩ names line rest
        if key.rest.length ≤ rest.length then
          let value ← readValue endsFlowValue ⟨false, false⟩ key.names key.rest
          pure { value with value := (key.value, value.value) }
        else throw .unexpectedToken
      else do
        let key ← readNode ⟨false, false⟩ names (⟨kind, line⟩ :: rest)
        pure { key with value := (key.value, .empty line) }
    let (more, after) ← separator .flowMappingEnd entry.rest
    if !more then pure ⟨[entry.value], entry.names, after⟩
    else if after.length ≤ rest.length then
      let entries ← readFlowEntries entry.names after
      pure { entries with value := entry.value :: entries.value }
    else throw .unexpectedToken
termination_by ts => (ts.length, 4)

end

/-! ## Documents -/

/-- The directives of a document: whether a version was given, and the handles defined. -/
structure Directives where
  versioned : Bool
  handles : List (String × String)

/-- Reads the directives before a document. Only version 1.1 is known, and nothing is defined
twice. -/
def readDirectives (d : Directives) : List Token → Except Malformed (Directives × List Token)
  | ⟨.version major minor, _⟩ :: rest =>
    if d.versioned || major ≠ 1 || minor ≠ 1 then .error .badDirective
    else readDirectives { d with versioned := true } rest
  | ⟨.tagDirective handle expansion, _⟩ :: rest =>
    if (d.handles.lookup handle).isSome then .error .badDirective
    else readDirectives { d with handles := (handle, expansion) :: d.handles } rest
  | ts => .ok (d, ts)

/-- Handles that every document knows unless it defines them itself. -/
def standardHandles : List (String × String) := [("!", "!"), ("!!", "tag:yaml.org,2002:")]

/-- Tokens before which a document has no content. -/
def endsDocument : TokenKind → Bool
  | .version _ _ | .tagDirective _ _ | .documentStart | .documentEnd | .streamEnd => true
  | _ => false

/-- Reads the first document, if there is one. What follows it is not read. -/
def readDocument : List Token → Except Malformed (Option Document)
  | ⟨.streamStart, _⟩ :: ⟨.streamEnd, _⟩ :: _ => .ok none
  | ⟨.streamStart, _⟩ :: ts => do
    let (directives, rest) ← readDirectives ⟨false, []⟩ ts
    let names : Names := ⟨[], [], directives.handles ++ standardHandles⟩
    let explicit := directives.versioned || !directives.handles.isEmpty
    let root ← match rest with
      | ⟨.documentStart, line⟩ :: rest => readOptional endsDocument ⟨true, false⟩ names line rest
      | rest => if explicit then throw .badDirective else readNode ⟨true, false⟩ names rest
    if root.rest.isEmpty then throw .unexpectedToken
    else pure (some ⟨root.value, root.names.anchored, ts.length⟩)
  | _ => .error .unexpectedToken

/-- The first document of a text, if there is one. -/
def parse (text : String) : Except Malformed (Option Document) :=
  match tokensOf text with
  | .error e => .error e
  | .ok tokens => readDocument tokens

end BlochSphere.Yaml
