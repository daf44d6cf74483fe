import ClientBindings.Diagnostic
import ClientBindings.Failure
import ClientBindings.Graph.Basic
import ClientBindings.Model.Endpoint
import ClientBindings.Dict

/-! What building and rendering work on: the graph, the endpoints built so far and the diagnostics.
A build that fails keeps what it did up to then. -/
namespace ClientBindings

structure Workspace where
  graph : TypeGraph
  /-- By controller type. -/
  endpoints : Dict Endpoint
  diagnostics : List Diagnostic
  deriving Repr, Inhabited

def Workspace.empty : Workspace := ⟨.empty, [], []⟩

namespace Workspace

/-- Keeps the endpoint that is registered for the controller, if there is one. -/
def addEndpoint (w : Workspace) (e : Endpoint) : Workspace × Endpoint :=
  match w.endpoints.get? e.controllerType with
  | some existing => (w, existing)
  | none => ({ w with endpoints := w.endpoints.insert e.controllerType e }, e)

end Workspace

/-- Steps that cannot fail. -/
abbrev Work := StateM Workspace

/-- Steps that can fail; the state survives a failure. -/
abbrev Build := ExceptT BuildError Work

namespace Work

def graph : Work TypeGraph := return (← get).graph

def endpoint? (controllerType : String) : Work (Option Endpoint) :=
  return (← get).endpoints.get? controllerType

def addEndpoint (e : Endpoint) : Work Endpoint :=
  modifyGet fun w =>
    let (w, e) := w.addEndpoint e
    (e, w)

def report (severity : Severity) (location message : String) : Work Unit :=
  modify fun w => { w with diagnostics := w.diagnostics ++ [⟨severity, location, message⟩] }

def warn (location message : String) : Work Unit := report .warning location message

def register (d : TypeDefinition) : Work TypeId :=
  modifyGet fun w =>
    let (g, id) := w.graph.register d
    (id, { w with graph := g })

def update (id : TypeId) (f : TypeDefinition → TypeDefinition) : Work Unit :=
  modify fun w => { w with graph := w.graph.update id f }

/-- The type that stands for everything without a better one. -/
def anyId : Work TypeId := register Builtin.any

def collectionId : Work TypeId := register Builtin.collection

def mapId : Work TypeId := register Builtin.map

def anyInstance : Work TypeInstance := return .plain (← anyId)

/-- The instance in a place that needs one. -/
def orAny : Option TypeInstance → Work TypeInstance
  | some type => pure type
  | none => anyInstance

end Work

end ClientBindings
