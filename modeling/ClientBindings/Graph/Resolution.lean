import ClientBindings.Workspace
import ClientBindings.Graph.Predefined
import ClientBindings.Graph.Placement
import ClientBindings.Symbol.Hierarchy
import ClientBindings.Property.Pipeline

/-! Resolving references to instances of definitions, and defining types on the way. Each step is
written over a resolver for the references inside and a definer for the types that they name, and
the resolver is the step repeated. A type is registered before its content is resolved, so cycles of
types meet the registered definition. -/
namespace ClientBindings

/-- What a build looks things up in. -/
structure BuildContext where
  symbols : SymbolTable
  settings : Settings
  exclusions : Exclusions
  pipeline : PropertyPipeline
  deriving Repr

abbrev Resolver := TypeRef → Build (Option TypeInstance)

/-- What gives a declared type its definition. -/
abbrev Definer := DeclaredType → Build TypeId

/-- Resolves references in order and leaves out those without a slot. -/
def resolveAll (resolve : Resolver) : List TypeRef → Build (List TypeInstance)
  | [] => pure []
  | r :: rs => do
    let instance? ← resolve r
    let rest ← resolveAll resolve rs
    pure (instance?.toList ++ rest)

namespace BuildContext

/-- The merged candidates as properties; those that resolve to nothing are of any type. -/
def resolveProperties (cx : BuildContext) (resolve : Resolver) :
    List (String × PropertyCandidate) → Build (List PropertyDefinition)
  | [] => pure []
  | (name, c) :: rest => do
    let type ← Work.orAny (← resolve c.type)
    let properties ← cx.resolveProperties resolve rest
    pure (⟨name, type, !cx.symbols.isNotNull cx.pipeline c⟩ :: properties)

def discover (cx : BuildContext) (resolve : Resolver) (t : DeclaredType) :
    Build (List PropertyDefinition) :=
  cx.resolveProperties resolve (cx.symbols.winners cx.pipeline t)

/-- The name of the placeholder for a type parameter. -/
def placeholderName (typeName param : String) : String := typeName ++ "#" ++ param

/-- A placeholder without its bounds. -/
def placeholder (typeName : String) (p : TypeParameter) : TypeDefinition :=
  .declared (placeholderName typeName p.name) p.name .genericPlaceholder

def registerPlaceholders (typeName : String) : List TypeParameter → Build (List TypeId)
  | [] => pure []
  | p :: ps => do
    let id ← Work.register (placeholder typeName p)
    let ids ← registerPlaceholders typeName ps
    pure (id :: ids)

def resolveBounds (resolve : Resolver) : List (TypeParameter × TypeId) → Build Unit
  | [] => pure ()
  | (p, id) :: rest => do
    let bounds ← resolveAll resolve p.bounds
    Work.update id (.bounded bounds)
    resolveBounds resolve rest

/-- The supertypes that are kept: all but the root of the hierarchy. -/
def keptSupertypes (t : DeclaredType) : List TypeRef :=
  t.supertypes.filter fun r => r.name? != some Marker.object

/-- Fills an interface: its parameters and their bounds, its properties, its supertypes. The
parameters are attached first, so a bound may mention its own variable. -/
def populateInterface (cx : BuildContext) (resolve : Resolver) (id : TypeId) (t : DeclaredType) :
    Build Unit := do
  let placeholders ← registerPlaceholders t.name t.typeParameters
  Work.update id (.withGenericParams placeholders)
  resolveBounds resolve (t.typeParameters.zip placeholders)
  let properties ← cx.discover resolve t
  Work.update id (.withProperties properties)
  let superTypes ← resolveAll resolve (keptSupertypes t)
  Work.update id (.withSuperTypes superTypes)

def kindOf : DeclaredKind → TypeKind
  | .classType | .interfaceType | .recordType => .interfaceType
  | .enumType => .enumType
  | .annotationType => .unknown

/-- The definition of a declared type before it is filled. -/
def outline (cx : BuildContext) (t : DeclaredType) : TypeDefinition :=
  { TypeDefinition.declared t.name t.simpleName (kindOf t.kind) with
    tsName := (cx.symbols.displayName? t.annotations).getD t.simpleName
    container := some (cx.symbols.placeOf t) }

/-- Fills a definition with what its kind has. -/
def populate (cx : BuildContext) (resolve : Resolver) (id : TypeId) (t : DeclaredType) :
    Build Unit :=
  match kindOf t.kind with
  | .interfaceType => cx.populateInterface resolve id t
  | .enumType => Work.update id (.withEnumConstants t.enumConstants)
  | _ => pure ()

def define (cx : BuildContext) (resolve : Resolver) (t : DeclaredType) : Build TypeId := do
  match (← Work.graph).idOf? t.name with
  | some id => pure id
  | none =>
    let id ← Work.register (cx.outline t)
    cx.populate resolve id t
    Work.update id .finished
    pure id

/-- The definition that a name stands for: any type if it is excluded, what is registered under it,
the collection or map marker, its declaration, or else any type, with a warning. -/
def getOrDefine (cx : BuildContext) (define : Definer) (name : String) : Build TypeId := do
  if cx.exclusions.excludes name then Work.anyId
  else
    match (← Work.graph).idOf? name with
    | some id => pure id
    | none =>
      if cx.symbols.isAssignable name Marker.collection then Work.collectionId
      else if cx.symbols.isAssignable name Marker.map then Work.mapId
      else
        match cx.symbols.type? name with
        | some t => define t
        | none =>
          Work.warn ("type:" ++ name) "Type is not part of the symbol export, generating 'any'"
          Work.anyId

/-- The placeholder of a parameter of a definition. -/
def placeholder? (g : TypeGraph) (owner : TypeId) (name : String) : Option TypeId :=
  (g.definition? owner).bind fun d =>
    d.genericParams.find? fun p => (g.definition? p).any (·.shortName == name)

/-- A variable of a type stands for its placeholder, one of a method for its only bound. -/
def resolveVariable (cx : BuildContext) (define : Definer) (resolve : Resolver) (name : String) :
    GenericOwner → Build (Option TypeInstance)
  | .type owner => do
    if (cx.symbols.type? owner).isNone && ((← Work.graph).idOf? owner).isNone then
      throw (.unknownGenericOwner name owner)
    else
      let id ← cx.getOrDefine define owner
      return (placeholder? (← Work.graph) id name).map .plain
  | .method declaringType method overload => do
    let owner := GenericOwner.method declaringType method overload
    match cx.symbols.typeParameter? owner name with
    | none => throw (.unknownGenericOwner name owner.display)
    | some p => match p.bounds with
      | [bound] => resolve bound
      | [] => return some (← Work.anyInstance)
      | bounds =>
        Work.warn ("type_var:" ++ owner.display ++ ":" ++ name)
          s!"Method type variable '{name}' has {bounds.length} bounds, generating 'any'"
        return some (← Work.anyInstance)

/-- One level of a reference, with the references inside left to `resolve` and the types that are
named for the first time to `define`. -/
def resolveStep (cx : BuildContext) (define : Definer) (resolve : Resolver) : Resolver
  | .primitive name => do
    return some (.plain (← cx.getOrDefine define name))
  | .declared name args => do
    let id ← cx.getOrDefine define name
    let takesArguments := ((← Work.graph).kind? id).any (·.hasTypeParams)
    if takesArguments && !args.isEmpty then
      return some (.mk id (← resolveAll resolve args))
    else return some (.plain id)
  | .typeVar name owner => cx.resolveVariable define resolve name owner
  | .wildcard (some bound) _ => resolve bound
  | .wildcard none _ => do return some (← Work.anyInstance)
  | .array component => do
    let component ← resolve component
    return some (.mk (← Work.collectionId) component.toList)

/-- The steps repeated to a depth; references that go deeper do not end. -/
def resolveAt (cx : BuildContext) : Nat → Resolver
  | 0, _ => throw .endlessBound
  | depth + 1, r => cx.resolveStep (cx.define (cx.resolveAt depth)) (cx.resolveAt depth) r

end BuildContext

namespace SymbolTable

/-- A depth that no reference exceeds whose resolution ends: between two registrations each variable
of a method is opened at most once, and each reference is gone through. -/
def resolutionDepth (s : SymbolTable) (r : TypeRef) : Nat :=
  let openable := (s.types.flatMap fun t => t.methods.flatMap (·.typeParameters)).length
  let largest := (s.types.flatMap (·.references)).foldl (fun n r => max n r.size) r.size
  (s.types.length + 4) * (openable + 1) * (largest + 1)

end SymbolTable

namespace BuildContext

/-- The instance that a reference stands for, or nothing where it has no slot. -/
def resolve (cx : BuildContext) (r : TypeRef) : Build (Option TypeInstance) :=
  cx.resolveAt (cx.symbols.resolutionDepth r) r

/-- The definition of a name, by itself. -/
def defineName (cx : BuildContext) (name : String) : Build TypeId :=
  cx.getOrDefine (cx.define cx.resolve) name

/-- The properties of a declared type, by themselves. -/
def properties (cx : BuildContext) (t : DeclaredType) : Build (List PropertyDefinition) :=
  cx.discover cx.resolve t

end BuildContext

end ClientBindings
