/-
The command line. Options are read from left to right and the first error ends the reading; the
configuration is the file's, or the default, with the options laid over it. How arguments and files
are read is kept apart from what is done with them.
-/
import BlochSphere.Config.File
import BlochSphere.Text.Blank

namespace BlochSphere

/-- The options of a command line, with what they are when they are not given. -/
structure Options where
  configPath : String
  gates : String
  duration : Duration
  estimates : Bool
  deriving DecidableEq, Repr

namespace Options

def none : Options := ⟨"", "", 0, false⟩

/-- A configuration with the options laid over it. Only a positive duration counts. -/
def overlay (o : Options) (c : Config) : Config :=
  { c with
    rotationDuration := if 0 < o.duration then o.duration else c.rotationDuration
    showEstimates := o.estimates || c.showEstimates }

/-- The names of the gates to start with: parts between commas that are not blank. -/
def startGates (o : Options) : List (List UInt8) :=
  let parts := (o.gates.splitOn ",").map Text.Utf8.encode
  parts.filter fun name => !(Text.trim (Text.Utf8.decode name)).isEmpty

/-- The configuration to run with. `find` looks up files and `decode` reads them. -/
def configure (o : Options) (decode : Config.Decoder)
    (find : String → Except Config.Unreadable String) : Except Config.LoadError Config :=
  let base :=
    if o.configPath == "" then .ok Config.default
    else Config.loadBy decode o.configPath (find o.configPath)
  match base with
  | .error e => .error e
  | .ok base =>
    let config := o.overlay base
    match config.validate with
    | .error e => .error (.invalid e)
    | .ok () => .ok config

end Options

namespace CommandLine

inductive Flag where
  | config
  | gates
  | duration
  | estimates
  deriving DecidableEq, Repr

namespace Flag

def name : Flag → String
  | config => "config"
  | gates => "gates"
  | duration => "duration"
  | estimates => "estimates"

def ofName? (s : String) : Option Flag :=
  [config, gates, duration, estimates].find? (·.name == s)

end Flag

/-- Why a command line is refused. -/
inductive FlagError where
  | badSyntax (arg : String)
  | unknown (name : String)
  | unknownShorthand (letters : String)
  | missingArgument (arg : String)
  | badDuration (value : String) (cause : Duration.ParseError)
  | badBool (value : String)
  deriving DecidableEq, Repr

/-- The character that has the number of a text's first byte. -/
def firstByte (s : String) : Char := Char.ofNat ((Text.Utf8.encode s).headD 0).toNat

/-- The letter that the message for unknown letters shows. The first byte of the letters is taken for
a character, and that is cut down to the character of its first byte once more; letters of several
bytes do not get through that. -/
def shownLetter (letters : String) : Char := firstByte (String.singleton (firstByte letters))

def FlagError.message : FlagError → String
  | badSyntax arg => "bad flag syntax: " ++ arg
  | unknown name => "unknown flag: --" ++ name
  | unknownShorthand letters =>
    "unknown shorthand flag: " ++ Text.quotedChar (shownLetter letters) ++ " in -" ++ letters
  | missingArgument arg => "flag needs an argument: " ++ arg
  | badDuration value cause =>
    "invalid argument " ++ Text.quotedString value ++ " for \"--duration\" flag: " ++
      cause.message value
  | badBool value =>
    "invalid argument " ++ Text.quotedString value ++ " for \"--estimates\" flag: " ++
      "strconv.ParseBool: parsing " ++ Text.quotedString value ++ ": invalid syntax"

/-- The text that is printed when help is asked for. -/
def usage : String :=
  "Usage of blochterm:\n" ++
  "      --config string       path to a YAML config file\n" ++
  "      --duration duration   rotation duration per gate (overrides config)\n" ++
  "      --estimates           show sampled measurement estimates\n" ++
  "      --gates string        comma-separated gates to apply on start, e.g. H,T,X\n"

/-! ## Arguments -/

/-- What an argument is by its looks. A long flag may bring its value along. -/
inductive Argument where
  | positional
  | terminator
  | long (name : String) (value : Option String)
  | short (letters : String)
  | malformed

/-- Splits a text at the first equals sign. -/
def splitValue (cs : List Char) : String × Option String :=
  let name := String.ofList (cs.takeWhile (· != '='))
  match cs.dropWhile (· != '=') with
  | _ :: value => (name, some (String.ofList value))
  | [] => (name, none)

def Argument.ofString (arg : String) : Argument :=
  match arg.toList with
  | ['-', '-'] => .terminator
  | '-' :: '-' :: '-' :: _ => .malformed
  | '-' :: '-' :: '=' :: _ => .malformed
  | '-' :: '-' :: cs =>
    let (name, value) := splitValue cs
    .long name value
  | '-' :: c :: cs => .short (String.ofList (c :: cs))
  | _ => .positional

def boolOf? : String → Option Bool
  | "1" | "t" | "T" | "TRUE" | "true" | "True" => some true
  | "0" | "f" | "F" | "FALSE" | "false" | "False" => some false
  | _ => none

/-- The options with one of them set. -/
def assign (f : Flag) (value : String) (o : Options) : Except FlagError Options :=
  match f with
  | .config => .ok { o with configPath := value }
  | .gates => .ok { o with gates := value }
  | .duration =>
    match Duration.parse value with
    | .ok d => .ok { o with duration := d }
    | .error e => .error (.badDuration value e)
  | .estimates =>
    match boolOf? value with
    | some b => .ok { o with estimates := b }
    | none => .error (.badBool value)

/-- What a command line asks for. -/
inductive Request where
  | help
  | run (options : Options)

/-- Reads arguments over some options. A truth value is taken from the flag itself only, any other
value also from the next argument. -/
def parseFrom (o : Options) : List String → Except FlagError Request
  | [] => .ok (.run o)
  | arg :: rest =>
    match Argument.ofString arg with
    | .terminator => .ok (.run o)
    | .positional => parseFrom o rest
    | .malformed => .error (.badSyntax arg)
    | .short letters =>
      if "test.".toList.isPrefixOf letters.toList then parseFrom o rest
      else if letters.toList.head? == some 'h' then .ok .help
      else .error (.unknownShorthand letters)
    | .long name value =>
      match Flag.ofName? name with
      | none => if name == "help" then .ok .help else .error (.unknown name)
      | some f =>
        match value, f, rest with
        | some value, f, rest =>
          match assign f value o with
          | .error e => .error e
          | .ok o => parseFrom o rest
        | none, .estimates, rest => parseFrom { o with estimates := true } rest
        | none, f, value :: rest =>
          match assign f value o with
          | .error e => .error e
          | .ok o => parseFrom o rest
        | none, _, [] => .error (.missingArgument arg)

def parse (args : List String) : Except FlagError Request := parseFrom .none args

/-! ## Outcomes -/

/-- What a command line leads to: help, an error, or a run with a configuration. -/
inductive Outcome where
  | help
  | badFlag (e : FlagError)
  | badConfig (e : Config.LoadError)
  | ready (options : Options) (config : Config)

/-- How arguments and files are read. -/
structure Readers where
  flags : List String → Except FlagError Request
  file : Config.Decoder

def Readers.standard : Readers := ⟨parse, Config.decode⟩

def Readers.outcome (r : Readers) (args : List String)
    (find : String → Except Config.Unreadable String) : Outcome :=
  match r.flags args with
  | .error e => .badFlag e
  | .ok .help => .help
  | .ok (.run o) =>
    match o.configure r.file find with
    | .error e => .badConfig e
    | .ok config => .ready o config

def outcome (args : List String) (find : String → Except Config.Unreadable String) : Outcome :=
  Readers.standard.outcome args find

end CommandLine

end BlochSphere
