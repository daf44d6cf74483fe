import ClientBindings.Text.Basic

/-! Reading the arguments of the program: two commands with their options. -/
namespace ClientBindings.CommandLine

/-- What is wrong with arguments, or the wish for help. -/
inductive UsageError where
  | missingRequiredArgument
  | unknownArgument
  | invalidSubcommand
  | invalidValue
  | argumentConflict
  | tooManyValues
  | displayHelp
  | displayHelpOnMissing
  deriving DecidableEq, Repr

namespace UsageError

def asksForHelp : UsageError → Bool
  | displayHelp => true
  | _ => false

def message : UsageError → String
  | missingRequiredArgument => "a required option is missing"
  | unknownArgument => "unexpected argument"
  | invalidSubcommand => "unrecognized command"
  | invalidValue => "an option lacks its value"
  | argumentConflict => "an option is given more than once"
  | tooManyValues => "an option that takes no value has one"
  | displayHelp | displayHelpOnMissing => "a command is missing"

end UsageError

/-- How the program is called. -/
def usage : String := String.join ([
  "Usage: tsgen <COMMAND>",
  "",
  "Commands:",
  "  generate --symbols <FILE> [--config <FILE>] [--output <FOLDER>] [--dry-run] [--watch]",
  "  inspect --symbols <FILE> [--config <FILE>]",
  "  help [COMMAND]"].map (· ++ "\n"))

inductive Command where
  | generate (symbols : String) (config : Option String) (output : String) (dryRun watch : Bool)
  | inspect (symbols : String) (config : Option String)
  deriving DecidableEq, Repr

inductive OptionName where
  | symbols | config | output | dryRun | watch
  deriving DecidableEq, Repr

namespace OptionName

def long : OptionName → String
  | symbols => "symbols"
  | config => "config"
  | output => "output"
  | dryRun => "dry-run"
  | watch => "watch"

def short? : OptionName → Option Char
  | symbols => some 's'
  | config => some 'c'
  | output => some 'o'
  | _ => none

def takesValue : OptionName → Bool
  | symbols | config | output => true
  | _ => false

end OptionName

def generateOptions : List OptionName := [.symbols, .config, .output, .dryRun, .watch]
def inspectOptions : List OptionName := [.symbols, .config]

/-- Options given so far, the latest first, and an option that waits for its value or whose value
has not been checked yet. -/
structure Given where
  values : List (OptionName × String)
  pending : Option (OptionName × Option String)

/-- Checks the pending option: it has a value, one that is not empty, and stands once. -/
def Given.settle (g : Given) : Except UsageError Given :=
  match g.pending with
  | none => .ok g
  | some (_, none) => .error .invalidValue
  | some (name, some value) =>
    if g.values.any (·.1 == name) then .error .argumentConflict
    else if value.isEmpty then .error .invalidValue
    else .ok ⟨(name, value) :: g.values, none⟩

/-- Takes an option together with its value. -/
def Given.add (g : Given) (name : OptionName) (value : String) : Except UsageError Given := do
  let g ← g.settle
  Given.settle { g with pending := some (name, some value) }

/-- Takes an option without a value. -/
def Given.flag (g : Given) (name : OptionName) : Except UsageError Given := do
  let g ← g.settle
  if g.values.any (·.1 == name) then throw .argumentConflict
  else pure { g with values := (name, "true") :: g.values }

def Given.await (g : Given) (name : OptionName) : Except UsageError Given := do
  let g ← g.settle
  pure { g with pending := some (name, none) }

/-- An argument with two hyphens, split at the first equals sign. -/
def splitLong (cs : List Char) : String × Option String :=
  let name := cs.takeWhile (· != '=')
  (String.ofList name,
    if name.length = cs.length then none else some (String.ofList (cs.drop (name.length + 1))))

def readLong (options : List OptionName) (cs : List Char) (g : Given) : Except UsageError Given :=
  let (name, value) := splitLong cs
  if name = "help" then
    if value.isSome then .error .tooManyValues
    else do
      let _ ← g.settle
      throw .displayHelp
  else match options.find? fun o => o.long == name with
    | none => .error .unknownArgument
    | some o =>
      if o.takesValue then match value with
        | some v => g.add o v
        | none => g.await o
      else match value with
        | some _ => .error .tooManyValues
        | none => g.flag o

/-- An argument with one hyphen: what follows the letter, without an equals sign, is its value. -/
def readShort (options : List OptionName) (cs : List Char) (g : Given) : Except UsageError Given :=
  match cs with
  | [] => .error .unknownArgument
  | c :: rest =>
    if c = 'h' then do
      let _ ← g.settle
      throw .displayHelp
    else match options.find? fun o => o.short? == some c with
      | none => .error .unknownArgument
      | some o => match rest with
        | [] => g.await o
        | '=' :: value => g.add o (String.ofList value)
        | value => g.add o (String.ofList value)

/-- Reads the arguments of a command. -/
def readOptions (options : List OptionName) : List String → Given → Except UsageError Given
  | [], g => g.settle
  | arg :: rest, g =>
    match arg.toList with
    | ['-', '-'] => if rest.isEmpty then g.settle else .error .unknownArgument
    | '-' :: '-' :: cs => (readLong options cs g).bind (readOptions options rest)
    | '-' :: c :: cs => (readShort options (c :: cs) g).bind (readOptions options rest)
    | _ => match g.pending with
      | some (name, none) =>
        readOptions options rest { g with pending := some (name, some arg) }
      | _ => .error .unknownArgument

def Given.get? (g : Given) (name : OptionName) : Option String := g.values.lookup name

def Given.required (g : Given) (name : OptionName) : Except UsageError String :=
  match g.get? name with
  | some v => .ok v
  | none => .error .missingRequiredArgument

def readGenerate (args : List String) : Except UsageError Command := do
  let g ← readOptions generateOptions args ⟨[], none⟩
  let symbols ← g.required .symbols
  pure (.generate symbols (g.get? .config) ((g.get? .output).getD ".") (g.get? .dryRun).isSome
    (g.get? .watch).isSome)

def readInspect (args : List String) : Except UsageError Command := do
  let g ← readOptions inspectOptions args ⟨[], none⟩
  let symbols ← g.required .symbols
  pure (.inspect symbols (g.get? .config))

/-- The arguments of the help command name a command, or the help command itself. -/
def readHelp : List String → UsageError
  | [] => .displayHelp
  | [name] =>
    if name = "generate" ∨ name = "inspect" ∨ name = "help" then .displayHelp
    else .invalidSubcommand
  | _ => .invalidSubcommand

/-- Reads all arguments after the name of the program. -/
def read : List String → Except UsageError Command
  | [] => .error .displayHelpOnMissing
  | arg :: rest =>
    if arg = "generate" then readGenerate rest
    else if arg = "inspect" then readInspect rest
    else if arg = "help" then .error (readHelp rest)
    else match arg.toList with
      | ['-', '-'] => match rest with
        | [] => .error .displayHelpOnMissing
        | next :: _ =>
          if next = "generate" ∨ next = "inspect" ∨ next = "help" then .error .unknownArgument
          else .error .invalidSubcommand
      | '-' :: '-' :: cs =>
        let (name, value) := splitLong cs
        if name = "help" then
          if value.isSome then .error .tooManyValues else .error .displayHelp
        else .error .unknownArgument
      | '-' :: c :: _ => if c = 'h' then .error .displayHelp else .error .unknownArgument
      | _ => .error .invalidSubcommand

end ClientBindings.CommandLine
