import ClientBindings.Artifact.Shared

/-! Everything that is written for a model, in order: the shared files, the types, the services and
the modules. -/
namespace ClientBindings

/-- A file to write. -/
structure Artifact where
  path : String
  content : String
  deriving DecidableEq, Repr, Inhabited

namespace Artifact

/-- The module that an endpoint belongs to. -/
def moduleOf (s : Settings) (e : Endpoint) : String := e.moduleName.getD s.defaultModuleName

/-- Adds an endpoint to the end of its module. -/
def addToModule (s : Settings) (modules : Dict (List Endpoint)) (e : Endpoint) :
    Dict (List Endpoint) :=
  let name := moduleOf s e
  modules.insert name ((modules.get? name).getD [] ++ [e])

/-- The modules in the order of their names, each with its endpoints in the order of theirs. -/
def groupModules (s : Settings) (endpoints : List Endpoint) : Dict (List Endpoint) :=
  (endpoints.foldl (addToModule s) []).map fun m =>
    (m.1, m.2.mergeSort fun a b => decide (a.name ≤ b.name))

def sharedArtifacts (s : Settings) (l : Layout) : List Artifact :=
  ⟨l.rootPath s.stdApiFileName, stdApiText s⟩ ::
    if s.httpServiceInclude.isNone then
      [⟨l.rootPath s.requestManagerFileName, requestManagerText s⟩]
    else []

def typeArtifacts (s : Settings) (l : Layout) : List TypeDefinition → Work (List Artifact)
  | [] => pure []
  | d :: ds => do
    let content ← typeText? s l d
    let rest ← typeArtifacts s l ds
    pure ((content.map fun c => ⟨l.typePath d, c⟩).toList ++ rest)

def serviceArtifacts (s : Settings) (l : Layout) : List Endpoint → Work (List Artifact)
  | [] => pure []
  | e :: es => do
    let content ← serviceText s l e
    let rest ← serviceArtifacts s l es
    pure (⟨l.endpointPath e, content⟩ :: rest)

def moduleArtifacts (s : Settings) (l : Layout) (endpoints : List Endpoint) : List Artifact :=
  (groupModules s endpoints).map fun m => ⟨l.modulePath m.1, moduleText s l m.1 m.2⟩

/-- All artifacts of the graph and these endpoints. -/
def emission (s : Settings) (endpoints : List Endpoint) : Work (List Artifact) := do
  let l := Layout.ofSettings s
  let types ← typeArtifacts s l (← Work.graph).emittable
  let services ← serviceArtifacts s l endpoints
  return sharedArtifacts s l ++ types ++ services ++ moduleArtifacts s l endpoints

end Artifact

end ClientBindings
