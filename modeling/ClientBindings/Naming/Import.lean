import ClientBindings.Naming.Layout
import ClientBindings.Graph.Basic

/-! The types that an artifact mentions and therefore imports. -/
namespace ClientBindings

/-- An imported name and the path it is imported from. -/
structure ImportEntry where
  name : String
  path : String
  deriving DecidableEq, Repr

/-- The order of imports: by generated name, then by full name. -/
def importsBefore (a b : TypeDefinition) : Bool :=
  decide (a.tsName < b.tsName) || (a.tsName == b.tsName && decide (a.fullName ≤ b.fullName))

namespace TypeGraph

/-- The definitions with an artifact among those that occur in the roots, in import order. -/
def importable (g : TypeGraph) (roots : List TypeInstance) (exclude : Option TypeId) :
    List TypeDefinition :=
  let ids := (roots.flatMap (·.ids)).eraseDups.filter fun id => some id != exclude
  ((ids.filterMap g.definition?).filter (·.isEmittable)).mergeSort importsBefore

/-- The bounds of the parameters of a definition. -/
def boundsOf (g : TypeGraph) (d : TypeDefinition) : List TypeInstance :=
  d.genericParams.flatMap fun p => ((g.definition? p).map (·.superTypes)).getD []

/-- The types that an interface mentions, itself excepted. -/
def typeImports (g : TypeGraph) (d : TypeDefinition) : List TypeDefinition :=
  g.importable (d.properties.map (·.type) ++ d.superTypes ++ g.boundsOf d) (some d.id)

/-- The types that the methods of an endpoint mention. -/
def endpointImports (g : TypeGraph) (e : Endpoint) : List TypeDefinition :=
  g.importable (e.methods.flatMap Endpoint.typesOfMethod) none

def importsForType (g : TypeGraph) (l : Layout) (d : TypeDefinition) : List ImportEntry :=
  (g.typeImports d).map fun t => ⟨t.tsName, l.typeImport d t⟩

def importsForEndpoint (g : TypeGraph) (l : Layout) (e : Endpoint) : List ImportEntry :=
  (g.endpointImports e).map fun t => ⟨t.tsName, l.endpointTypeImport e t⟩

end TypeGraph

end ClientBindings
