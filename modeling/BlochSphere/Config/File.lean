/-
Configuration files. A file is a YAML mapping whose entries replace the defaults; entries with other
keys are ignored. Values of the wrong type are collected, and the file is refused if there are any.
-/
import BlochSphere.Config
import BlochSphere.Duration.Parse
import BlochSphere.Scalar.Binary64
import BlochSphere.Yaml.Node
import BlochSphere.Yaml.Value

namespace BlochSphere.Config

/-! ## Problems -/

/-- What a value was needed for. -/
inductive Target where
  | config
  | key
  | duration
  | int
  | bool
  deriving DecidableEq, Repr

def Target.name : Target → String
  | config => "qbloch.Config"
  | key => "string"
  | duration => "time.Duration"
  | int => "int"
  | bool => "bool"

/-- What is wrong with the types and keys of a file. Lines are counted from one. -/
inductive Problem where
  | mismatch (line : Nat) (tag value : String) (target : Target)
  | duplicateKey (line : Nat) (key : String) (firstLine : Nat)
  | setTwice (line : Nat) (key : String)
  deriving DecidableEq, Repr

/-- A value as it is shown: in full up to ten bytes, else its first seven bytes. -/
def excerpt (value : String) : String :=
  let bytes := Text.Utf8.encode value
  if 10 < bytes.length then Text.Symbol.toText (Text.Utf8.decode (bytes.take 7)) ++ "..."
  else value

def Problem.message : Problem → String
  | mismatch line tag value target =>
    let shown := if tag == "!!seq" || tag == "!!map" then "" else " `" ++ excerpt value ++ "`"
    "line " ++ line.repr ++ ": cannot unmarshal " ++ tag ++ shown ++ " into " ++ target.name
  | duplicateKey line key firstLine =>
    "line " ++ line.repr ++ ": mapping key " ++ Text.quotedString key ++
      " already defined at line " ++ firstLine.repr
  | setTwice line key =>
    "line " ++ line.repr ++ ": field " ++ key ++ " already set in type " ++ Target.config.name

/-! ## Fields -/

inductive Field where
  | rotationDuration
  | pathResolution
  | frameInterval
  | shots
  | showEstimates
  deriving DecidableEq, Repr

namespace Field

def ofKey? : String → Option Field
  | "rotation_duration" => some rotationDuration
  | "path_resolution" => some pathResolution
  | "frame_interval" => some frameInterval
  | "shots" => some shots
  | "show_estimates" => some showEstimates
  | _ => none

def target : Field → Target
  | rotationDuration | frameInterval => .duration
  | pathResolution | shots => .int
  | showEstimates => .bool

end Field

/-- An integer from a value. Numbers with a fraction lose it, and what is below 64 bits is the least
number they hold. -/
def intOf? : Yaml.Value → Option Int
  | .int n => if n ≤ Duration.greatest then some n else none
  | .float x =>
    if x ≤ 9223372036854775808.0 then
      let n := Scalar.truncate x
      if Binary64.isInfinite x || n < Duration.least || Duration.greatest < n then
        some Duration.least
      else some n
    else none
  | _ => none

/-- A duration from a value, which has to be a string. -/
def durationOf? : Yaml.Value → Option Duration
  | .str s => (Duration.parse s).toOption
  | _ => none

/-- A truth value. Beside the words of YAML some more are taken here. -/
def boolOf? : Yaml.Value → Option Bool
  | .bool b => some b
  | .str s =>
    match s with
    | "y" | "Y" | "yes" | "Yes" | "YES" | "on" | "On" | "ON" => some true
    | "n" | "N" | "no" | "No" | "NO" | "off" | "Off" | "OFF" => some false
    | _ => none
  | _ => none

/-- A configuration with one field replaced, if the value fits it. -/
def assign? (f : Field) (v : Yaml.Value) (c : Config) : Option Config :=
  match f with
  | .rotationDuration => (durationOf? v).map fun d => { c with rotationDuration := d }
  | .pathResolution => (intOf? v).map fun n => { c with pathResolution := n }
  | .frameInterval => (durationOf? v).map fun d => { c with frameInterval := d }
  | .shots => (intOf? v).map fun n => { c with shots := n }
  | .showEstimates => (boolOf? v).map fun b => { c with showEstimates := b }

/-! ## Nodes -/

/-- What distinguishes the keys of a mapping: what kind of node they are, and their text. -/
def identity : Yaml.Node → Nat × String
  | .scalar _ _ _ text => (0, text)
  | .sequence _ _ _ => (1, "")
  | .mapping _ _ _ => (2, "")
  | .reference _ name _ => (3, name)

/-- Keys that stand twice in a mapping. -/
def duplicates : List (Yaml.Node × Yaml.Node) → List Problem
  | [] => []
  | (k, _) :: rest =>
    (rest.filter fun entry => identity entry.1 == identity k).map
        (fun entry => .duplicateKey entry.1.line (identity k).2 k.line) ++
      duplicates rest

/-- Problems of a mapping or a sequence that stands where something else is needed. -/
def collectionProblems (target : Target) : Yaml.Node → List Problem
  | .sequence tag line _ => [.mismatch line (tag.getD "!!seq") "" target]
  | .mapping tag line entries =>
    match duplicates entries with
    | [] => [.mismatch line (tag.getD "!!map") "" target]
    | found => found
  | _ => []

/-- The node itself, or the one that an alias refers to. -/
def followed (doc : Yaml.Document) : Yaml.Node → Yaml.Node
  | .reference line name number => (doc.target? number).getD (.reference line name number)
  | node => node

/-- A file that is being read: the configuration so far, the problems in order, how many nodes were read and how
many of them through aliases. -/
structure Reading where
  config : Config
  problems : List Problem
  nodes : Nat
  aliased : Nat

namespace Reading

def start (config : Config) : Reading := ⟨config, [], 0, 0⟩

def report (found : List Problem) (r : Reading) : Reading := { r with problems := r.problems ++ found }

/-- The share of nodes that may be read through aliases. It is lower for large documents. -/
def allowedShare (nodes : Nat) : Float :=
  if nodes ≤ 400000 then 0.99
  else if 4000000 ≤ nodes then 0.10
  else 0.99 - 0.89 * (Float.ofNat (nodes - 400000) / 3600000.0)

/-- Counts a node. A document that is for the most part read through aliases is refused. -/
def count (throughAlias : Bool) (r : Reading) : Except Yaml.Malformed Reading :=
  let r := { r with nodes := r.nodes + 1, aliased := if throughAlias then r.aliased + 1 else r.aliased }
  if r.aliased ≤ 100 then .ok r
  else if r.nodes ≤ 1000 then .ok r
  else if allowedShare r.nodes < Float.ofNat r.aliased / Float.ofNat r.nodes then .error .excessiveAliasing
  else .ok r

/-- Counts a node, and for an alias also the one that it refers to. -/
def visit (throughAlias : Bool) (node : Yaml.Node) (r : Reading) : Except Yaml.Malformed Reading :=
  match node with
  | .reference _ _ _ => do (← r.count throughAlias).count true
  | _ => r.count throughAlias

end Reading

/-- Reads the value of a field. A null leaves it as it is. -/
def readField (doc : Yaml.Document) (f : Field) (node : Yaml.Node) (r : Reading) :
    Except Yaml.Malformed Reading :=
  match followed doc node with
  | .scalar tag line style text => do
    match ← Yaml.valueOf tag style text with
    | .null => pure r
    | v =>
      match assign? f v r.config with
      | some config => pure { r with config }
      | none => pure (r.report [.mismatch line (tag.getD v.tag) text f.target])
  | other => .ok (r.report (collectionProblems f.target other))

/-- The text of a key. A null is no key, and neither is a collection. -/
def readKey (doc : Yaml.Document) (node : Yaml.Node) :
    Except Yaml.Malformed (Option String × List Problem) :=
  match followed doc node with
  | .scalar tag _ style text => do
    match ← Yaml.valueOf tag style text with
    | .null => pure (none, [])
    | .str s => pure (some s, [])
    | _ => pure (some text, [])
  | other => .ok (none, collectionProblems .key other)

/-- Whether an entry with this key merges other mappings into its own. -/
def isMerge : Yaml.Node → Bool
  | .scalar tag _ style text =>
    text == "<<" && (tag == some "!!merge" || (tag.isNone && style == .plain))
  | _ => false

/-- What a merge entry names: mappings or aliases of mappings. -/
def mergedNodes : Yaml.Node → List Yaml.Node
  | .sequence _ _ items => items
  | node => [node]

/-- Keys that are settled: those of the mapping that merges others win over theirs, and of those
the first wins. Outside of a merge there are none. -/
abbrev Settled := Option (List String)

/-- Reads the entries of a mapping apart from those that merge. `done` are the fields that this
mapping has set. -/
def readEntries (doc : Yaml.Document) (throughAlias : Bool) :
    List (Yaml.Node × Yaml.Node) → (done : List Field) → Settled → Reading →
      Except Yaml.Malformed (Settled × Reading)
  | [], _, settled, r => .ok (settled, r)
  | (keyNode, value) :: rest, done, settled, r => do
    if isMerge keyNode then readEntries doc throughAlias rest done settled r
    else
      let r ← r.visit throughAlias keyNode
      let (key, found) ← readKey doc keyNode
      let r := r.report found
      match key with
      | none => readEntries doc throughAlias rest done settled r
      | some key =>
        if (settled.getD []).contains key then readEntries doc throughAlias rest done settled r
        else
          let settled := settled.map (key :: ·)
          match Field.ofKey? key with
          | none => readEntries doc throughAlias rest done settled r
          | some f =>
            if done.contains f then
              readEntries doc throughAlias rest done settled (r.report [.setTwice keyNode.line key])
            else
              let r ← r.visit throughAlias value
              let r ← readField doc f value r
              readEntries doc throughAlias rest (f :: done) settled r

/-- The keys of a mapping that are strings. -/
def keysOf (doc : Yaml.Document) (throughAlias : Bool) :
    List (Yaml.Node × Yaml.Node) → Reading → Except Yaml.Malformed (List String × Reading)
  | [], r => .ok ([], r)
  | (keyNode, _) :: rest, r => do
    let r ← r.visit throughAlias keyNode
    let (key, _) ← readKey doc keyNode
    let (keys, r) ← keysOf doc throughAlias rest r
    pure (key.toList ++ keys, r)

/-- Reads mappings one after the other, with what they merge. `within` are the numbers of the nodes that are being
read through aliases: none of them may be used inside itself, and so no chain of merges is longer than `fuel`. -/
def readMappings (doc : Yaml.Document) : (fuel : Nat) → (within : List Nat) → List Yaml.Node → Settled → Reading →
    Except Yaml.Malformed (Settled × Reading)
  | 0, _, _, _, _ => .error .selfContained
  | fuel + 1, within, nodes, settled, r =>
    nodes.foldlM (fun (settled, r) node => do
      match followed doc node with
      | .mapping _ _ entries =>
        let r ← r.visit (!within.isEmpty) node
        let within ← match node with
          | .reference _ _ number =>
            if within.contains number then throw .selfContained else pure (number :: within)
          | _ => pure within
        match duplicates entries with
        | [] =>
          let (settled, r) ← readEntries doc (!within.isEmpty) entries [] settled r
          match entries.find? fun entry => isMerge entry.1 with
          | none => pure (settled, r)
          | some (_, value) =>
            let (inner, r) ← match settled with
              | some keys => pure (keys, r)
              | none => keysOf doc (!within.isEmpty) entries r
            let (inner, r) ← readMappings doc fuel within (mergedNodes value) (some inner) r
            pure (settled.bind fun _ => inner, r)
        | found => pure (settled, r.report found)
      | _ => throw .mergeOfNoMapping) (settled, r)

/-- Reads a document over a configuration. The document itself counts as a node. -/
def ofDocument (base : Config) (doc : Yaml.Document) : Except Yaml.Malformed Reading := do
  let start ← (Reading.start base).count false
  match doc.root with
  | .mapping tag line entries =>
    let (_, r) ← readMappings doc (doc.size + 1) [] [.mapping tag line entries] none start
    pure r
  | .scalar tag line style text =>
    match ← Yaml.valueOf tag style text with
    | .null => pure start
    | v => pure (start.report [.mismatch line (tag.getD v.tag) text .config])
  | other => pure (start.report (collectionProblems .config other))

/-! ## Files -/

/-- Why a file cannot be read. -/
inductive Unreadable where
  | missing
  | directory
  deriving DecidableEq, Repr

inductive LoadError where
  | unreadable (path : String) (cause : Unreadable)
  | malformed (path : String) (cause : Yaml.Malformed)
  | mistyped (path : String) (problems : List Problem)
  | invalid (cause : ConfigError)
  deriving DecidableEq, Repr

def LoadError.message : LoadError → String
  | unreadable path .missing =>
    "reading config " ++ path ++ ": open " ++ path ++ ": no such file or directory"
  | unreadable path .directory =>
    "reading config " ++ path ++ ": read " ++ path ++ ": is a directory"
  | malformed path cause => "parsing config " ++ path ++ ": yaml: " ++ cause.message
  | mistyped path problems =>
    "parsing config " ++ path ++ ": yaml: unmarshal errors:" ++
      String.join (problems.map fun p => "\n  " ++ p.message)
  | invalid cause => cause.message

/-- A way to read the text of a file, which was found at a path, over a configuration. -/
abbrev Decoder := Config → (path text : String) → Except LoadError Config

/-- Reads a text as YAML. -/
def decode : Decoder := fun base path text =>
  match Yaml.parse text with
  | .error e => .error (.malformed path e)
  | .ok none => .ok base
  | .ok (some doc) =>
    match ofDocument base doc with
    | .error e => .error (.malformed path e)
    | .ok r =>
      match r.problems with
      | [] => .ok r.config
      | problems => .error (.mistyped path problems)

/-- Loads a configuration from what was found at a path: it is read over the defaults, and the result
has to be valid. -/
def loadBy (decode : Decoder) (path : String) (found : Except Unreadable String) :
    Except LoadError Config :=
  match found with
  | .error cause => .error (.unreadable path cause)
  | .ok text =>
    match decode default path text with
    | .error e => .error e
    | .ok config =>
      match config.validate with
      | .error e => .error (.invalid e)
      | .ok () => .ok config

def load (path : String) (found : Except Unreadable String) : Except LoadError Config :=
  loadBy decode path found

end BlochSphere.Config
