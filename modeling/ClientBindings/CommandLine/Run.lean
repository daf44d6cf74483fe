import ClientBindings.CommandLine.Arguments
import ClientBindings.CommandLine.Files

/-! Carrying out a command: generating the artifacts of an export, or printing its model. -/
namespace ClientBindings.CommandLine

/-- How a command ended, and what it printed. -/
structure Outcome where
  result : Except Failure Unit
  output : String

def Outcome.failed (e : Failure) : Outcome := ⟨.error e, ""⟩

def printLines (lines : List String) : String := String.join (lines.map (· ++ "\n"))

/-- A round with errors is a failure, although its artifacts are written. -/
def verdict (r : RoundReport) : Except Failure Unit :=
  let errors := (r.diagnostics.filter fun d => d.severity == .error).length
  if errors = 0 then .ok ()
  else .error ⟨[], .message s!"Generation finished with {errors} error(s)"⟩

variable {m : Type → Type} [Monad m]

/-- Generates once. Artifacts kept in memory are listed instead of written. -/
def generate (fs : FileAccess m) (env : Environment) (symbols : String) (config : Option String)
    (output : String) (dryRun : Bool) : m Outcome := do
  match ← fs.loadSymbols symbols with
  | .error e => return .failed e
  | .ok table => match ← fs.loadSettings env config symbols with
    | .error e => return .failed e
    | .ok settings =>
      if dryRun || settings.storage == .memory then
        let ((result, _), files) :=
          (Processor.initial.generate MemoryFiles.store table settings).run []
        match result with
        | .error e => return .failed e
        | .ok report => return ⟨verdict report, printLines (files.map (·.1))⟩
      else
        let (result, _) ← Processor.initial.generate (fs.store output) table settings
        match result with
        | .error e => return .failed e
        | .ok report => return ⟨verdict report, ""⟩

/-- Prints the model of an export. -/
def inspect (fs : FileAccess m) (env : Environment) (symbols : String) (config : Option String) :
    m Outcome := do
  match ← fs.loadSymbols symbols with
  | .error e => return .failed e
  | .ok table => match ← fs.loadSettings env config symbols with
    | .error e => return .failed e
    | .ok settings => match Processor.initial.processRound table settings with
      | (.error e, _) => return .failed e
      | (.ok _, p) => return ⟨.ok (), Json.pretty 0 p.snapshot ++ "\n"⟩

/-- Carries out a command. Only a single generation is supported, not one on every change. -/
def run (fs : FileAccess m) (env : Environment) : Command → m Outcome
  | .generate _ _ _ _ true => return .failed ⟨[], .message "Watching for changes is not supported"⟩
  | .generate symbols config output dryRun false => generate fs env symbols config output dryRun
  | .inspect symbols config => inspect fs env symbols config

end ClientBindings.CommandLine
