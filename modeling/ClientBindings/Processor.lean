import ClientBindings.Endpoint.Assembly
import ClientBindings.Artifact.Emission
import ClientBindings.Model.Encoding

/-! Rounds: building the endpoints of a list of controllers over a model that is kept from round to
round, and writing the artifacts of the whole model. -/
namespace ClientBindings

structure RoundReport where
  endpoints : List String
  written : List String
  diagnostics : List Diagnostic
  deriving DecidableEq, Repr, Inhabited

def RoundReport.warnings (r : RoundReport) : Nat :=
  (r.diagnostics.filter fun d => d.severity == .warning).length

/-- The model so far and the diagnostics of the last round that came to an end. -/
structure Processor where
  graph : TypeGraph
  endpoints : Dict Endpoint
  pipeline : PropertyPipeline
  lastDiagnostics : List Diagnostic
  deriving Repr, Inhabited

/-- A round whose artifacts are still to be written. -/
structure PendingRound where
  endpoints : List String
  artifacts : List Artifact
  diagnostics : List Diagnostic
  deriving Repr, Inhabited

/-- The context of a round: the exclusions are read and the graph is seeded. -/
def openContext (symbols : SymbolTable) (settings : Settings) (pipeline : PropertyPipeline)
    (graph : TypeGraph) : Except Failure (BuildContext × TypeGraph) :=
  settings.exclusions.map fun exclusions =>
    ({ symbols, settings, exclusions, pipeline }, graph.seed settings)

/-- Builds the endpoints of controllers in order, each by `build`. Names that are no controllers are
reported; any other error ends the round. -/
def buildControllers (build : String → Build Endpoint) :
    List String → Work (Except Failure (List String))
  | [] => pure (.ok [])
  | c :: cs => do
    match ← (build c).run with
    | .ok e => return (← buildControllers build cs).map (e.controllerType :: ·)
    | .error e =>
      let location := "endpoint:" ++ c
      if e.isTypeScoped then
        Work.report .error location e.message
        buildControllers build cs
      else
        Work.report .error location ("Round aborted: " ++ e.message)
        return .error ((Failure.build e).within ("Failed to process " ++ location))

namespace Processor

def withPipeline (pipeline : PropertyPipeline) : Processor := ⟨.empty, [], pipeline, []⟩

def initial : Processor := withPipeline .standard

/-- Builds the endpoints of a round, and its artifacts if they are wanted. The diagnostics are kept
when the round is aborted here. -/
def prepare (p : Processor) (symbols : SymbolTable) (settings : Settings)
    (controllers : List String) (emits : Bool) : Except Failure PendingRound × Processor :=
  match openContext symbols settings p.pipeline p.graph with
  | .error e => (.error e, p)
  | .ok (cx, graph) =>
    let (built, w) := (buildControllers cx.buildEndpoint controllers).run ⟨graph, p.endpoints, []⟩
    match built with
    | .error e =>
      (.error e,
        { p with graph := w.graph, endpoints := w.endpoints, lastDiagnostics := w.diagnostics })
    | .ok endpoints =>
      let (artifacts, w) :=
        if emits then (Artifact.emission settings (w.endpoints.map (·.2))).run w else ([], w)
      (.ok ⟨endpoints, artifacts, w.diagnostics⟩,
        { p with graph := w.graph, endpoints := w.endpoints })

/-- Ends a round whose artifacts have been written. -/
def complete (p : Processor) (r : PendingRound) : RoundReport × Processor :=
  (⟨r.endpoints, r.artifacts.map (·.path), r.diagnostics⟩,
    { p with lastDiagnostics := r.diagnostics })

/-- A round over the given controllers that writes nothing. -/
def processControllers (p : Processor) (symbols : SymbolTable) (settings : Settings)
    (controllers : List String) : Except Failure RoundReport × Processor :=
  match p.prepare symbols settings controllers false with
  | (.error e, p) => (.error e, p)
  | (.ok r, p) =>
    let (report, p) := p.complete r
    (.ok report, p)

/-- The controllers that a round takes up by itself. -/
def controllerNames (symbols : SymbolTable) : List String := symbols.controllers.map (·.name)

def processRound (p : Processor) (symbols : SymbolTable) (settings : Settings) :
    Except Failure RoundReport × Processor :=
  p.processControllers symbols settings (controllerNames symbols)

/-- Writes artifacts in order, up to the first that fails. -/
def writeAll {m : Type → Type} [Monad m] (store : Artifact → m (Except Failure Unit)) :
    List Artifact → m (Except Failure Unit)
  | [] => pure (.ok ())
  | a :: as => do
    match ← store a with
    | .error e => return .error e
    | .ok () => writeAll store as

/-- A round that writes every artifact of the model. -/
def generate {m : Type → Type} [Monad m] (store : Artifact → m (Except Failure Unit))
    (p : Processor) (symbols : SymbolTable) (settings : Settings) :
    m (Except Failure RoundReport × Processor) := do
  match p.prepare symbols settings (controllerNames symbols) true with
  | (.error e, p) => return (.error e, p)
  | (.ok r, p) =>
    match ← writeAll store r.artifacts with
    | .error e => return (.error e, p)
    | .ok () =>
      let (report, p) := p.complete r
      return (.ok report, p)

/-- Drops the model. -/
def reset (p : Processor) : Processor :=
  { p with graph := p.graph.clear, endpoints := [], lastDiagnostics := [] }

/-- The model as one document. -/
def snapshot (p : Processor) : Document := .map [
  ("types", .list (p.graph.definitions.map Encode.typeDefinition)),
  ("endpoints", .list (p.endpoints.map fun e => Encode.endpoint e.2))]

end Processor

/-- Files kept in memory, by path. -/
abbrev MemoryFiles := Dict String

/-- Storing in memory always succeeds; a path written twice keeps the later content. -/
def MemoryFiles.store (a : Artifact) : StateM MemoryFiles (Except Failure Unit) :=
  modifyGet fun files => (.ok (), files.insert a.path a.content)

end ClientBindings
