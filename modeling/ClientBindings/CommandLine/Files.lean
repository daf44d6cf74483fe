import ClientBindings.CommandLine.FilePath
import ClientBindings.Document.Json
import ClientBindings.Document.Yaml
import ClientBindings.Symbol.Decoding
import ClientBindings.Processor

/-! What the program does with files: reading exports and settings, and storing artifacts. The
operations on files are given, so they may be those of a disk or those of a tree in memory. -/
namespace ClientBindings

/-- Operations on files in some monad. -/
structure FileAccess (m : Type → Type) where
  /-- The text of a file, if it can be read as one. -/
  readText : String → m (Option String)
  pathExists : String → m Bool
  isFile : String → m Bool
  /-- Makes a folder and those above it; false when that fails. -/
  makeFolders : String → m Bool
  /-- Writes a file; false when that fails. -/
  writeText : String → String → m Bool

namespace SymbolTable

def ofJson (source : String) : Except Failure SymbolTable :=
  match (Json.read? source).bind Decode.symbolExport with
  | some e => .ok (ofExport e)
  | none => .error (Failure.ofReader "Failed to parse JSON symbol export")

def ofYaml (source : String) : Except Failure SymbolTable :=
  match (Yaml.read? source).bind Decode.symbolExport with
  | some e => .ok (ofExport e)
  | none => .error (Failure.ofReader "Failed to parse YAML symbol export")

end SymbolTable

namespace FileAccess

variable {m : Type → Type} [Monad m]

/-- Reads an export; its extension tells the format. -/
def loadSymbols (fs : FileAccess m) (path : String) : m (Except Failure SymbolTable) := do
  match ← fs.readText path with
  | none => return .error (Failure.ofReader ("Failed to read symbol export: " ++ path))
  | some source =>
    let extension := FilePath.extension? path
    let isYaml := extension == some "yaml" || extension == some "yml"
    let table := if isYaml then SymbolTable.ofYaml source else SymbolTable.ofJson source
    return table.mapError (Failure.within ("Invalid symbol export: " ++ path))

def settingsFile := "tsgen.toml"

/-- The settings file in the nearest of these folders that has one. -/
def findSettings (fs : FileAccess m) : List String → m (Option String)
  | [] => pure none
  | folder :: rest => do
    let path := FilePath.join folder settingsFile
    if ← fs.isFile path then return some path
    else fs.findSettings rest

/-- The settings file to use: the given one if it exists, or else the nearest one above the
export. -/
def settingsPath (fs : FileAccess m) (explicit : Option String) (symbols : String) :
    m (Option String) := do
  let detect := fs.findSettings (FilePath.ancestors (symbols.length + 1) symbols)
  match explicit with
  | none => detect
  | some path => if ← fs.pathExists path then return some path else detect

/-- The settings of a file, or the standard ones when there is none. -/
def loadSettings (fs : FileAccess m) (env : Environment) (explicit : Option String)
    (symbols : String) : m (Except Failure Settings) := do
  match ← fs.settingsPath explicit symbols with
  | none => return Settings.standard.finish env
  | some path => match ← fs.readText path with
    | none => return .error (Failure.ofReader ("Failed to read generator config: " ++ path))
    | some source => return Settings.parse env path source

/-- Stores an artifact below a folder. -/
def store (fs : FileAccess m) (folder : String) (a : Artifact) : m (Except Failure Unit) := do
  let target := FilePath.join folder a.path
  let parent := (FilePath.parent? target).getD ""
  if ← fs.makeFolders parent then
    if ← fs.writeText target a.content then return .ok ()
    else return .error (Failure.ofReader ("Failed to write " ++ target))
  else return .error (Failure.ofReader ("Failed to create directory " ++ parent))

end FileAccess

end ClientBindings
