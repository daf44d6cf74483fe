import ClientBindings.Naming.Path
import ClientBindings.Settings
import ClientBindings.Model.Endpoint

/-! Where artifacts go, and how they name each other in imports. -/
namespace ClientBindings

/-- Packages that begin with `start` go below `folder`. -/
structure PathOverride where
  start : String
  folder : String
  deriving DecidableEq, Repr

/-- Folder and file names; the overrides with the longest beginning come first. -/
structure Layout where
  outputFolder : String
  generatedSuffix : String
  overrides : List PathOverride
  deriving DecidableEq, Repr

namespace Layout

def ofSettings (s : Settings) : Layout where
  outputFolder := Text.endingWith s.outputFolder "/"
  generatedSuffix := s.generatedSuffix
  overrides := (s.pathOverrides.map fun e =>
      (⟨Text.endingWith e.1 ".", Text.endingWith e.2 "/"⟩ : PathOverride)).mergeSort
    fun a b => decide (b.start.utf8ByteSize ≤ a.start.utf8ByteSize)

def override? (l : Layout) (package : String) : Option PathOverride :=
  l.overrides.find? fun o => Text.startsWith o.start (Text.endingWith package ".")

/-- The package as a path, with the beginning that an override covers replaced by its folder. -/
def packagePath (l : Layout) (package : String) : String :=
  let path := package.toList.map fun c => if c = '.' then '/' else c
  match l.override? package with
  | none => String.ofList path
  | some o =>
    o.folder ++ String.ofList ((path.drop (o.start.length - 1)).dropWhile (· == '/'))

def targetFolder (l : Layout) (package : String) : String :=
  Path.collapseSlashes (l.outputFolder ++ Text.endingWith (l.packagePath package) "/")

/-- The enclosing types, each with a dollar sign, the name and the suffix. -/
def fileName (l : Layout) (container : Option Container) (name : String) : String :=
  String.join ((enclosingNamesOf container).map (· ++ "$")) ++ name ++ l.generatedSuffix

def typeFolder (l : Layout) (d : TypeDefinition) : String := l.targetFolder d.packageName

def endpointFolder (l : Layout) (e : Endpoint) : String := l.targetFolder e.packageName

def typeFileName (l : Layout) (d : TypeDefinition) : String := l.fileName d.container d.shortName

def typePath (l : Layout) (d : TypeDefinition) : String :=
  l.typeFolder d ++ l.typeFileName d ++ ".ts"

def endpointBase (l : Layout) (e : Endpoint) : String :=
  l.endpointFolder e ++ l.fileName e.container e.name

def endpointPath (l : Layout) (e : Endpoint) : String := l.endpointBase e ++ ".ts"

def rootPath (l : Layout) (name : String) : String := l.outputFolder ++ Text.endingWith name ".ts"

def modulePath (l : Layout) (name : String) : String :=
  l.outputFolder ++ Text.endingWith name ".module.ts"

def typeImport (l : Layout) (source target : TypeDefinition) : String :=
  Path.relative (l.typeFolder source) (l.typeFolder target) ++ l.typeFileName target

def endpointTypeImport (l : Layout) (source : Endpoint) (target : TypeDefinition) : String :=
  Path.relative (l.endpointFolder source) (l.typeFolder target) ++ l.typeFileName target

/-- The import of a file of the output folder by a service. -/
def endpointRootImport (l : Layout) (source : Endpoint) (file : String) : String :=
  let path := Path.relative (l.endpointFolder source) (l.outputFolder ++ file)
  (Text.stripEnd? "/" path).getD path

/-- The import of a service by a module of the output folder. -/
def moduleEndpointImport (l : Layout) (e : Endpoint) : String :=
  let base := l.endpointBase e
  let inner := match Text.stripStart? l.outputFolder.toList base.toList with
    | some rest => String.ofList rest
    | none => base
  if Text.startsWith "/" inner then "." ++ inner else "./" ++ inner

end Layout

/-- A file name without its extension. -/
def stripExtension (name : String) : String := (Text.stripEnd? ".ts" name).getD name

end ClientBindings
