import ClientBindings.Text.Basic
import ClientBindings.Word

/-! Definitions of resolved types. They refer to each other by number, so cycles need no sharing. -/
namespace ClientBindings

/-- The number under which a definition is registered. It is counted in 32 bits, and a graph is meant to
have registered fewer definitions than these can number, those before it was cleared included. -/
abbrev TypeId := Nat

inductive TypeKind where
  | primitive | interfaceType | enumType | collection | map | genericPlaceholder | unknown
  deriving DecidableEq, Repr, Inhabited

namespace TypeKind

/-- Kinds that keep arguments at a use. -/
def hasTypeParams : TypeKind → Bool
  | interfaceType | collection | map | genericPlaceholder => true
  | _ => false

/-- Kinds with an artifact of their own. -/
def isImportable : TypeKind → Bool
  | interfaceType | enumType => true
  | _ => false

def label : TypeKind → String
  | primitive => "PRIMITIVE"
  | interfaceType => "INTERFACE"
  | enumType => "ENUM"
  | collection => "COLLECTION"
  | map => "MAP"
  | genericPlaceholder => "GENERIC_PLACEHOLDER"
  | unknown => "UNKNOWN"

end TypeKind

structure EnclosingType where
  fullName : String
  shortName : String
  deriving DecidableEq, Repr, Inhabited

/-- Where a type is declared: a package, if one is known, and the enclosing types, outermost
first. -/
structure Container where
  package : Option String
  enclosing : List EnclosingType
  deriving DecidableEq, Repr, Inhabited

namespace Container

def packageName (c : Container) : String := c.package.getD ""

def enclosingTypes (c : Container) : List String := c.enclosing.map (·.shortName)

end Container

/-- The package of an optional container; without one it has no name. -/
def packageNameOf (c : Option Container) : String := (c.map (·.packageName)).getD ""

/-- The names of the enclosing types of an optional container. -/
def enclosingNamesOf (c : Option Container) : List String := (c.map (·.enclosingTypes)).getD []

/-- A definition used with arguments. -/
inductive TypeInstance where
  | mk (definition : TypeId) (arguments : List TypeInstance)
  deriving Repr, Inhabited

namespace TypeInstance

def definition : TypeInstance → TypeId
  | mk d _ => d

def arguments : TypeInstance → List TypeInstance
  | mk _ as => as

def plain (d : TypeId) : TypeInstance := mk d []

mutual

/-- The definitions that occur, from the outside in and from left to right. -/
def ids : TypeInstance → List TypeId
  | mk d as => d :: idsAll as

def idsAll : List TypeInstance → List TypeId
  | [] => []
  | a :: as => ids a ++ idsAll as

end

end TypeInstance

structure PropertyDefinition where
  name : String
  type : TypeInstance
  nullable : Bool
  deriving Repr, Inhabited

structure TypeDefinition where
  id : TypeId
  fullName : String
  shortName : String
  tsName : String
  kind : TypeKind
  superTypes : List TypeInstance
  properties : List PropertyDefinition
  enumConstants : List String
  genericParams : List TypeId
  container : Option Container
  predefined : Bool
  initialized : Bool
  deriving Repr, Inhabited

namespace TypeDefinition

/-- A definition without content; its number is given when it is registered. -/
def declared (fullName shortName : String) (kind : TypeKind) : TypeDefinition where
  id := Word.count 32 - 1
  fullName := fullName
  shortName := shortName
  tsName := shortName
  kind := kind
  superTypes := []
  properties := []
  enumConstants := []
  genericParams := []
  container := none
  predefined := false
  initialized := false

/-- A definition that is complete from the start. -/
def builtin (fullName shortName tsName : String) (kind : TypeKind) : TypeDefinition :=
  { declared fullName shortName kind with tsName, predefined := true, initialized := true }

def withGenericParams (ids : List TypeId) (d : TypeDefinition) : TypeDefinition :=
  { d with genericParams := ids }

def withProperties (properties : List PropertyDefinition) (d : TypeDefinition) : TypeDefinition :=
  { d with properties := properties }

def withSuperTypes (types : List TypeInstance) (d : TypeDefinition) : TypeDefinition :=
  { d with superTypes := types }

def withEnumConstants (names : List String) (d : TypeDefinition) : TypeDefinition :=
  { d with enumConstants := names }

/-- A definition whose content is complete. -/
def finished (d : TypeDefinition) : TypeDefinition := { d with initialized := true }

/-- A placeholder with its bounds. -/
def bounded (bounds : List TypeInstance) (d : TypeDefinition) : TypeDefinition :=
  (d.withSuperTypes bounds).finished

def packageName (d : TypeDefinition) : String := packageNameOf d.container

/-- Types with an artifact: declared interfaces and enumerations. -/
def isEmittable (d : TypeDefinition) : Bool := !d.predefined && d.kind.isImportable

end TypeDefinition

end ClientBindings
