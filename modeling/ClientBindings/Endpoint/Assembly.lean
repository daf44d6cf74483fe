import ClientBindings.Endpoint.Mapping
import ClientBindings.Graph.Resolution

/-! Endpoints built from controllers: every mapped method, its own and inherited, with its bound
parameters. The types of signatures are left to a resolver. -/
namespace ClientBindings.BuildContext

/-- Warns of a parameter with more markers than one. -/
def warnOfClash (location : String) (p : Parameter) (place : BindingLocation) :
    List (BindingLocation × ResolvedAnnotation) → Work Unit
  | (other, _) :: _ =>
    Work.warn location
      s!"Parameter '{p.name}' is bound as both {place.label} and {other.label}, using {place.label}"
  | [] => pure ()

/-- A parameter that is bound to a part of the request, by the first of its markers. -/
def buildParameter (cx : BuildContext) (resolve : Resolver) (p : Parameter) (location : String) :
    Build (Option MethodParameter) := do
  match cx.symbols.bindingsOf p with
  | [] => pure none
  | (place, resolved) :: others =>
    warnOfClash location p place others
    let type ← Work.orAny (← resolve p.type)
    return some ⟨p.name, type, SymbolTable.toBinding p place resolved⟩

def buildParameters (cx : BuildContext) (resolve : Resolver) (location : String) :
    List Parameter → Build (List MethodParameter)
  | [] => pure []
  | p :: ps => do
    let built ← cx.buildParameter resolve p location
    let rest ← cx.buildParameters resolve location ps
    pure (built.toList ++ rest)

def resolveReturn (resolve : Resolver) : Option TypeRef → Build (Option TypeInstance)
  | some r => resolve r
  | none => pure none

/-- A method, if it is mapped. Without a verb of its own it takes that of the controller. -/
def buildMethod (cx : BuildContext) (resolve : Resolver) (controller : String)
    (default? : Option Mapping) (m : Method) : Build (Option EndpointMethod) := do
  let location := "endpoint:" ++ controller ++ "#" ++ m.name
  match ← cx.symbols.resolveMapping m.annotations location with
  | none => pure none
  | some mapping =>
    let mapping := { mapping with verb := mapping.verb.or (default?.bind (·.verb)) }
    let name := (cx.symbols.displayName? m.annotations).getD m.name
    let params ← cx.buildParameters resolve location m.parameters
    let returnType ← resolveReturn resolve m.returnType
    return some ⟨name, mapping, params, returnType⟩

def buildMethods (cx : BuildContext) (resolve : Resolver) (controller : String)
    (default? : Option Mapping) : List Method → Build (List EndpointMethod)
  | [] => pure []
  | m :: ms => do
    let built ← cx.buildMethod resolve controller default? m
    let rest ← cx.buildMethods resolve controller default? ms
    pure (built.toList ++ rest)

/-- Builds and registers the endpoint of a controller. -/
def assembleNew (cx : BuildContext) (resolve : Resolver) (controllerType : String) :
    Build Endpoint :=
  match cx.symbols.type? controllerType with
  | none => throw (.missingType controllerType)
  | some t =>
    match cx.symbols.resolveAnnotation t.annotations Marker.endpoint with
    | none => throw (.notAController controllerType)
    | some marker => do
      let default? ← cx.symbols.resolveMapping t.annotations ("endpoint:" ++ controllerType)
      let methods ← cx.buildMethods resolve t.name default? (cx.symbols.allMethods t)
      let given (key : String) := (marker.text? key).filter fun n => !Text.isBlankText n
      let endpoint : Endpoint := {
        controllerType
        name := (given "name").getD t.simpleName
        moduleName := given "module_name"
        defaultMapping := default?
        methods
        container := some (cx.symbols.placeOf t) }
      Work.addEndpoint endpoint

/-- The endpoint of a controller: the registered one, or else a new one. -/
def assembleEndpoint (cx : BuildContext) (resolve : Resolver) (controllerType : String) :
    Build Endpoint := do
  match ← Work.endpoint? controllerType with
  | some existing => pure existing
  | none => cx.assembleNew resolve controllerType

def buildEndpoint (cx : BuildContext) (controllerType : String) : Build Endpoint :=
  cx.assembleEndpoint cx.resolve controllerType

end ClientBindings.BuildContext
