import Exchange.Config.Settings
import Exchange.LogFilter.Directive

/-!
# Starting the log

Logging starts from a filter and a file. The filter's text is read first (`LogFilter.parse`), then
the log file is opened for appending, if there is one. Either can refuse the start; reading the
filter can also stop the process.
-/

namespace Exchange

/-- Why logging cannot start. -/
inductive LogError where
  /-- The filter's text is refused. -/
  | filter (text : String) (e : FilterError)
  /-- The log file cannot be opened, and why. -/
  | file (path reason : String)
  deriving DecidableEq, Repr

/-- The configuration error a refused start is reported as. -/
def LogError.toConfigError : LogError → ConfigError
  | .filter text e => .invalid s!"invalid log level '{text}': {e.message}"
  | .file path reason => .invalid s!"cannot open log file {path}: {reason}"

/-- Starts logging with these settings: a fault that stops the process, or else whether the
start is refused. `openFile` tries to open a log file for appending and answers why it cannot. -/
def LogConfig.start (c : LogConfig) (openFile : String → Option String) :
    Except Fault (Except LogError Unit) :=
  match LogFilter.parse c.level with
  | .error (.fault f) => .error f
  | .error (.refused e) => .ok (.error (.filter c.level e))
  | .ok _ =>
    match c.file.bind fun path => (openFile path).map (path, ·) with
    | none => .ok (.ok ())
    | some (path, reason) => .ok (.error (.file path reason))

end Exchange
