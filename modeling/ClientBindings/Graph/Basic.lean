import ClientBindings.Model.Type
import ClientBindings.Symbol.Marker

/-! The registry of resolved types: an index of names and the definitions by number. A name is
registered once, and numbers are not used again after the graph is cleared. They do not wrap around, so
this is meant for fewer than 2 ^ 32 registrations. -/
namespace ClientBindings

structure TypeGraph where
  /-- The latest name first. -/
  names : List (String × TypeId)
  /-- In increasing order of their numbers. -/
  definitions : List TypeDefinition
  nextId : TypeId
  seeded : Bool
  deriving Repr, Inhabited

namespace TypeGraph

def empty : TypeGraph := ⟨[], [], 0, false⟩

def idOf? (g : TypeGraph) (fullName : String) : Option TypeId := g.names.lookup fullName

def definition? (g : TypeGraph) (id : TypeId) : Option TypeDefinition :=
  g.definitions.find? (·.id == id)

def get? (g : TypeGraph) (fullName : String) : Option TypeDefinition :=
  (g.idOf? fullName).bind g.definition?

def kind? (g : TypeGraph) (id : TypeId) : Option TypeKind := (g.definition? id).map (·.kind)

def tsName? (g : TypeGraph) (id : TypeId) : Option String := (g.definition? id).map (·.tsName)

/-- Registers a definition under the next number, unless its name is taken. -/
def register (g : TypeGraph) (d : TypeDefinition) : TypeGraph × TypeId :=
  match g.idOf? d.fullName with
  | some id => (g, id)
  | none =>
    ({ g with
        names := (d.fullName, g.nextId) :: g.names
        definitions := g.definitions ++ [{ d with id := g.nextId }]
        nextId := g.nextId + 1 },
      g.nextId)

/-- Changes the definition of that number, if there is one. -/
def update (g : TypeGraph) (id : TypeId) (f : TypeDefinition → TypeDefinition) : TypeGraph :=
  { g with definitions := g.definitions.map fun d => if d.id = id then f d else d }

/-- Drops every definition; numbers go on from where they were. -/
def clear (g : TypeGraph) : TypeGraph :=
  { g with names := [], definitions := [], seeded := false }

def emittable (g : TypeGraph) : List TypeDefinition := g.definitions.filter (·.isEmittable)

def size (g : TypeGraph) : Nat := g.definitions.length

end TypeGraph

/-! The definitions that the generator cannot do without. -/
namespace Builtin

def anyName := "any"
def collectionName := "[]"

def any : TypeDefinition := .builtin Marker.object "Object" anyName .primitive
def collection : TypeDefinition := .builtin collectionName collectionName collectionName .collection
def map : TypeDefinition := .builtin Marker.map "Map" "Map" .map

end Builtin

end ClientBindings
