/-!
# Configuration errors

A configuration is refused for one of two reasons: its text is not a document of the expected
shape, or it describes something the program cannot run with. The second kind also covers
settings found unusable later, when a socket is opened or logging starts.
-/

namespace Exchange

/-- Why a configuration cannot be used. -/
inductive ConfigError where
  /-- A setting the program cannot run with, and why. -/
  | invalid (message : String)
  /-- A text that does not read as a configuration, and where it fails. -/
  | malformed (detail : String)
  deriving DecidableEq, Repr

def ConfigError.message : ConfigError → String
  | .invalid m => s!"configuration error: {m}"
  | .malformed d => s!"failed to parse configuration: {d}"

end Exchange
