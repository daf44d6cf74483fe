import ClientBindings.Graph.Basic
import ClientBindings.Settings

/-! The definitions that a graph starts with. -/
namespace ClientBindings.TypeGraph

def primitives : List (String × String) := [
  ("long", "number"), ("int", "number"), ("short", "number"), ("byte", "number"),
  ("double", "number"), ("float", "number"), ("char", "string"), ("boolean", "boolean"),
  ("void", "void")]

def boxed : List (String × String) := [
  ("java.lang.String", "string"),
  ("java.lang.Character", "string"),
  ("java.lang.Long", "number"),
  ("java.lang.Integer", "number"),
  ("java.lang.Short", "number"),
  ("java.lang.Byte", "number"),
  ("java.lang.Double", "number"),
  ("java.lang.Float", "number"),
  ("java.lang.Number", "number"),
  ("java.math.BigDecimal", "number"),
  ("java.math.BigInteger", "number"),
  ("java.lang.Boolean", "boolean"),
  ("java.lang.Void", "void")]

def timeTypes (t : TimeTypes) : List (String × String) := [
  ("java.time.ZonedDateTime", t.zonedDateTime),
  ("java.time.LocalDateTime", t.localDateTime),
  ("java.time.LocalTime", t.localTime),
  ("java.time.LocalDate", t.localDate)]

def predefinedType (kind : TypeKind) (e : String × String) : TypeDefinition :=
  .builtin e.1 (Text.afterLast (· == '.') e.1) e.2 kind

/-- What is offered to a graph, in this order. Overrides may be used with arguments, so they are
interfaces. -/
def predefined (s : Settings) : List TypeDefinition :=
  predefinedType .primitive (Marker.object, Builtin.anyName) ::
    (primitives ++ boxed).map (predefinedType .primitive) ++
    [predefinedType .map (Marker.map, "Map"),
      predefinedType .collection (Builtin.collectionName, Builtin.collectionName)] ++
    (if s.enableTimeIntegration then (timeTypes s.time).map (predefinedType .primitive) else []) ++
    s.typeOverrides.map (predefinedType .interfaceType)

/-- Registers the predefined types once. -/
def seed (g : TypeGraph) (s : Settings) : TypeGraph :=
  if g.seeded then g
  else { (predefined s).foldl (fun g d => (g.register d).1) g with seeded := true }

end ClientBindings.TypeGraph
