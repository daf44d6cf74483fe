/-! Findings that do not stop a build. -/
namespace ClientBindings

inductive Severity where
  | info | warning | error
  deriving DecidableEq, Repr, Inhabited

def Severity.label : Severity → String
  | info => "INFO"
  | warning => "WARN"
  | error => "ERROR"

structure Diagnostic where
  severity : Severity
  location : String
  message : String
  deriving DecidableEq, Repr, Inhabited

def Diagnostic.display (d : Diagnostic) : String :=
  "[" ++ d.severity.label ++ "] " ++ d.location ++ ": " ++ d.message

def hasErrors (ds : List Diagnostic) : Bool := ds.any fun d => d.severity == .error

end ClientBindings
