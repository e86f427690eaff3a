/-
The program: shows a qubit as a picture in text. Every line of input is a sequence of keys, and the
picture is printed when the gates they name have been shown.
-/
import BlochSphere.CommandLine
import BlochSphere.Terminal

namespace BlochSphere

/-- Reads the file that the options name, if they name one. -/
def readConfigFile (path : String) : IO (Except Config.Unreadable String) := do
  if path == "" then return .error .missing
  try
    return .ok (← IO.FS.readFile path)
  catch
    | .noFileOrDirectory .. => return .error .missing
    | _ => return .error .directory

def printScreen (t : Terminal) : IO Unit := do
  for line in t.lines do
    IO.println line

/-- The size of the picture and the most frames that are shown at once. -/
def screenWidth : Int := 80

def screenHeight : Int := 24

def frameLimit : Nat := 100000

partial def interact (frame : Int) (t : Terminal) : IO Unit := do
  let t := t.play frame frameLimit
  printScreen t
  let line ← (← IO.getStdin).getLine
  if line.isEmpty then return
  match t.keys (line.toList.filter fun c => c != '\n' && c != '\r') with
  | none => return
  | some t => interact frame t

/-- Applies the gates to start with and goes on with the keys. -/
def start (options : Options) (config : Config) : IO Unit := do
  let t := Terminal.new config screenWidth screenHeight
  let t := options.startGates.foldl (fun t name => (t.apply name).2) t
  interact config.frameInterval.toInt t.draw

def runProgram (args : List String) : IO UInt32 := do
  let path := match CommandLine.parse args with
    | .ok (.run options) => options.configPath
    | _ => ""
  let found ← readConfigFile path
  match CommandLine.outcome args fun _ => found with
  | .help =>
    IO.eprint CommandLine.usage
    return 0
  | .badFlag e =>
    IO.eprintln ("error: " ++ e.message)
    return 1
  | .badConfig e =>
    IO.eprintln ("error: " ++ e.message)
    return 1
  | .ready options config =>
    start options config
    return 0

end BlochSphere

def main (args : List String) : IO UInt32 := BlochSphere.runProgram args
