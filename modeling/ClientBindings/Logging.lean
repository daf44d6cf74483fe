import ClientBindings.Settings

/-! How much is logged, and in which form, as the environment says. -/
namespace ClientBindings

inductive LogFormat where
  | json | pretty
  deriving DecidableEq, Repr

inductive LogLevel where
  | trace | debug | info | warn | error
  deriving DecidableEq, Repr

def LogFormat.label : LogFormat → String
  | json => "Json"
  | pretty => "Pretty"

def LogLevel.label : LogLevel → String
  | trace => "TRACE"
  | debug => "DEBUG"
  | info => "INFO"
  | warn => "WARN"
  | error => "ERROR"

def lowered (s : String) : String := Text.lowerText s

/-- `json` in any case, or else the form for people. -/
def LogFormat.parse (s : String) : LogFormat := if lowered s = "json" then .json else .pretty

/-- A level by its name in any case; other names mean `info`. -/
def LogLevel.parse (s : String) : LogLevel :=
  let name := lowered s
  if name = "trace" then .trace
  else if name = "debug" then .debug
  else if name = "warn" then .warn
  else if name = "error" then .error
  else .info

structure LogSettings where
  levelName : String
  format : LogFormat
  includeLocation : Bool
  deriving DecidableEq, Repr

namespace LogSettings

def ofEnvironment (env : Environment) : LogSettings where
  levelName := (env.lookup "TSGEN_LOG_LEVEL").getD "info"
  format := LogFormat.parse ((env.lookup "TSGEN_LOG_FORMAT").getD "pretty")
  includeLocation := match env.lookup "TSGEN_LOG_INCLUDE_LOCATION" with
    | some v => v == "true" || v == "1"
    | none => false

def level (s : LogSettings) : LogLevel := LogLevel.parse s.levelName

end LogSettings

end ClientBindings
