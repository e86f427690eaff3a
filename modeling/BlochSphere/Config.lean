/-
Configuration of a view: defaults, and the checks that a configuration has to pass.
-/
import BlochSphere.Duration

namespace BlochSphere

structure Config where
  rotationDuration : Duration
  pathResolution : Int
  frameInterval : Duration
  shots : Int
  showEstimates : Bool
  deriving DecidableEq, Repr

/-- Why a configuration cannot be used. -/
inductive ConfigError where
  | rotationDuration (got : Duration)
  | pathResolution (got : Int)
  | frameInterval (got : Duration)
  | shots (got : Int)
  deriving DecidableEq, Repr

def ConfigError.message (e : ConfigError) : String :=
  "invalid config: " ++
    match e with
    | rotationDuration d => "rotation_duration must be positive, got " ++ d.text
    | pathResolution n => "path_resolution must be at least 1, got " ++ n.repr
    | frameInterval d => "frame_interval must be positive, got " ++ d.text
    | shots n => "shots must not be negative, got " ++ n.repr

namespace Config

def default : Config where
  rotationDuration := 750000000
  pathResolution := 64
  frameInterval := 16000000
  shots := 1000
  showEstimates := false

/-- The first thing that is wrong with a configuration, if anything is. -/
def validate (c : Config) : Except ConfigError Unit :=
  if c.rotationDuration ≤ 0 then .error (.rotationDuration c.rotationDuration)
  else if c.pathResolution < 1 then .error (.pathResolution c.pathResolution)
  else if c.frameInterval ≤ 0 then .error (.frameInterval c.frameInterval)
  else if c.shots < 0 then .error (.shots c.shots)
  else .ok ()

end Config

end BlochSphere
