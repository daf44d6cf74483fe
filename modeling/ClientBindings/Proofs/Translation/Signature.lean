import ClientBindings.Endpoint.Assembly
import ClientBindings.Proofs.Outcome
import ClientBindings.Proofs.Translation.Reading

/-! Endpoints translated as their controllers are written down. The mapping of an element is read off
its annotations, whatever the workspace; reading it does no more than report findings. -/
namespace ClientBindings

structure NamedParameter where
  name : String
  type : NamedInstance
  binding : ParameterBinding
  deriving Repr, Inhabited

structure NamedMethod where
  name : String
  mapping : Mapping
  params : List NamedParameter
  returnType : Option NamedInstance
  deriving Repr, Inhabited

/-- An endpoint that refers to definitions by their full names. -/
structure NamedEndpoint where
  controllerType : String
  name : String
  moduleName : Option String
  defaultMapping : Option Mapping
  methods : List NamedMethod
  container : Option Container
  deriving Repr, Inhabited

namespace TypeGraph

def namedParameter? (g : TypeGraph) (p : MethodParameter) : Option NamedParameter := do
  let type ← g.named? p.type
  return ⟨p.name, type, p.binding⟩

def namedMethod? (g : TypeGraph) (m : EndpointMethod) : Option NamedMethod := do
  let params ← m.params.mapM g.namedParameter?
  let returned ← g.namedAll? m.returnType.toList
  return ⟨m.name, m.mapping, params, returned.head?⟩

/-- An endpoint with names for numbers. -/
def namedEndpoint? (g : TypeGraph) (e : Endpoint) : Option NamedEndpoint := do
  let methods ← e.methods.mapM g.namedMethod?
  return ⟨e.controllerType, e.name, e.moduleName, e.defaultMapping, methods, e.container⟩

variable {g g' : TypeGraph}

theorem KeepsNames.namedParameters? (h : g.KeepsNames g') {ps : List MethodParameter}
    {ns : List NamedParameter} (hps : ps.mapM g.namedParameter? = some ns) :
    ps.mapM g'.namedParameter? = some ns := by
  refine mapM_eq_some_of_imp (fun p _ n hn => ?_) hps
  obtain ⟨type, htype, hn⟩ := Option.bind_eq_some_iff.1 hn
  rw [namedParameter?, h.named? htype]
  exact hn

theorem KeepsNames.namedMethods? (h : g.KeepsNames g') {ms : List EndpointMethod}
    {ns : List NamedMethod} (hms : ms.mapM g.namedMethod? = some ns) :
    ms.mapM g'.namedMethod? = some ns := by
  refine mapM_eq_some_of_imp (fun m _ n hn => ?_) hms
  obtain ⟨params, hparams, hn⟩ := Option.bind_eq_some_iff.1 hn
  obtain ⟨returned, hreturned, hn⟩ := Option.bind_eq_some_iff.1 hn
  rw [namedMethod?, h.namedParameters? hparams]
  change ((g'.namedAll? m.returnType.toList).bind _) = _
  rw [h.namedAll? hreturned]
  exact hn

theorem KeepsNames.namedEndpoint? (h : g.KeepsNames g') {e : Endpoint} {n : NamedEndpoint}
    (hn : g.namedEndpoint? e = some n) : g'.namedEndpoint? e = some n := by
  obtain ⟨methods, hmethods, hn⟩ := Option.bind_eq_some_iff.1 hn
  rw [TypeGraph.namedEndpoint?, h.namedMethods? hmethods]
  exact hn

end TypeGraph

/-- A build that looks at nothing in the workspace and does no more than report findings. -/
def Build.Aside {α : Type} (m : Build α) : Prop :=
  ∃ r ds, ∀ w, m.outcome w = (r, w.noteAll ds)

namespace Build

variable {α β : Type}

theorem aside_pure (a : α) : (pure a : Build α).Aside :=
  ⟨.ok a, [], fun w => by simp [Workspace.noteAll]⟩

theorem aside_throw (e : BuildError) : (throw e : Build α).Aside :=
  ⟨.error e, [], fun w => by simp [Workspace.noteAll]⟩

theorem aside_warn (location message : String) :
    (liftM (Work.warn location message) : Build Unit).Aside :=
  ⟨.ok (), [⟨.warning, location, message⟩], fun _ => rfl⟩

theorem Aside.bind {m : Build α} {k : α → Build β} (hm : m.Aside) (hk : ∀ a, (k a).Aside) :
    (m >>= k).Aside := by
  obtain ⟨r, ds, hm⟩ := hm
  cases r with
  | error e => exact ⟨.error e, ds, fun w => by rw [outcome_bind, hm]⟩
  | ok a =>
    obtain ⟨r', ds', hk⟩ := hk a
    refine ⟨r', ds ++ ds', fun w => ?_⟩
    rw [outcome_bind, hm]
    dsimp only
    rw [hk, Workspace.noteAll_noteAll]

/-- What such a build comes to can be tried out anywhere. -/
theorem Aside.outcome_eq {m : Build α} (hm : m.Aside) (w : Workspace) :
    m.outcome w = ((m.outcome .empty).1, w.noteAll (m.outcome .empty).2.diagnostics) := by
  obtain ⟨r, ds, hm⟩ := hm
  rw [hm, hm]
  simp [Workspace.noteAll, Workspace.empty]

end Build

theorem aside_warnOfMany (location noun : String) (values : List String) :
    (liftM (warnOfMany location noun values) : Build Unit).Aside := by
  match values with
  | [] => exact Build.aside_pure ()
  | [_] => exact Build.aside_pure ()
  | _ :: _ :: _ => exact Build.aside_warn _ _

namespace SymbolTable

theorem aside_resolveMapping (s : SymbolTable) (annotations : List Annotation) (location : String) :
    (s.resolveMapping annotations location).Aside := by
  unfold resolveMapping
  split
  · exact Build.aside_pure none
  · dsimp only
    refine (aside_warnOfMany _ _ _).bind fun _ => ?_
    refine (aside_warnOfMany _ _ _).bind fun _ => ?_
    split
    · exact Build.aside_pure _
    · split
      · exact Build.aside_pure _
      · exact Build.aside_throw _

/-- The mapping that the annotations give, or nothing if its verb is none. -/
def mapping? (s : SymbolTable) (annotations : List Annotation) (location : String) :
    Option (Option Mapping) :=
  ((s.resolveMapping annotations location).outcome .empty).1.toOption

/-- A mapping that can be read is there just if the marker is. -/
theorem isSome_of_mapping? {s : SymbolTable} {annotations : List Annotation} {location : String}
    {mapping? : Option Mapping} (h : s.mapping? annotations location = some mapping?) :
    s.isMarked annotations Marker.requestMapping = mapping?.isSome := by
  obtain ⟨v, ho⟩ : ∃ v, (s.resolveMapping annotations location).outcome .empty = (.ok mapping?, v) := by
    rw [SymbolTable.mapping?] at h
    rcases ho : (s.resolveMapping annotations location).outcome .empty with ⟨e | m, v⟩
    · rw [ho] at h
      cases h
    · rw [ho] at h
      exact ⟨v, by rw [Option.some.inj h]⟩
  rw [isMarked]
  unfold resolveMapping at ho
  cases hr : s.resolveAnnotation annotations Marker.requestMapping with
  | none =>
    rw [hr] at ho
    cases ho
    rfl
  | some resolved =>
    -- With the marker there is a mapping, or else its verb is none and reading it fails.
    rw [hr] at ho
    obtain ⟨_, u, -, ho⟩ := Build.outcome_bind_ok.1 ho
    obtain ⟨_, x, -, ho⟩ := Build.outcome_bind_ok.1 ho
    split at ho
    · cases ho
      rfl
    · split at ho
      · cases ho
        rfl
      · cases ho

/-- What is found when the mapping is read. -/
def mappingFindings (s : SymbolTable) (annotations : List Annotation) (location : String) :
    List Diagnostic :=
  ((s.resolveMapping annotations location).outcome .empty).2.diagnostics

/-- Reading a mapping gives it, or fails where there is none. -/
theorem resolveMapping_outcome (s : SymbolTable) (annotations : List Annotation) (location : String)
    (w : Workspace) :
    (∃ mapping?, s.mapping? annotations location = some mapping? ∧
      (s.resolveMapping annotations location).outcome w =
        (.ok mapping?, w.noteAll (s.mappingFindings annotations location))) ∨
    s.mapping? annotations location = none ∧ ∃ e v,
      (s.resolveMapping annotations location).outcome w = (.error e, v) := by
  have h := (s.aside_resolveMapping annotations location).outcome_eq w
  rw [mapping?, mappingFindings]
  cases hr : ((s.resolveMapping annotations location).outcome .empty).1 with
  | error e =>
    rw [hr] at h
    exact .inr ⟨rfl, e, _, h⟩
  | ok mapping? =>
    rw [hr] at h
    exact .inl ⟨mapping?, rfl, h⟩

end SymbolTable

namespace BuildContext

variable (cx : BuildContext)

/-- A bound parameter with its type translated. -/
def translateBound? (p : Parameter) : Option (Option NamedParameter) :=
  match cx.symbols.bindingsOf p with
  | [] => some none
  | (place, resolved) :: _ => do
    let type? ← cx.translate? p.type
    return some ⟨p.name, type?.getD (.mk Builtin.any.fullName []),
      SymbolTable.toBinding p place resolved⟩

/-- A mapped method with its signature translated. -/
def translateMethod? (controller : String) (default? : Option Mapping) (m : Method) :
    Option (Option NamedMethod) := do
  match ← cx.symbols.mapping? m.annotations ("endpoint:" ++ controller ++ "#" ++ m.name) with
  | none => return none
  | some mapping =>
    let params ← m.parameters.mapM cx.translateBound?
    let returned ← cx.translateAll? m.returnType.toList
    return some ⟨(cx.symbols.displayName? m.annotations).getD m.name,
      { mapping with verb := mapping.verb.or (default?.bind (·.verb)) }, params.reduceOption,
      returned.head?⟩

/-- The endpoint of a controller, by its declaration. -/
def translateEndpoint? (controllerType : String) : Option NamedEndpoint := do
  let t ← cx.symbols.type? controllerType
  let marker ← cx.symbols.resolveAnnotation t.annotations Marker.endpoint
  let default? ← cx.symbols.mapping? t.annotations ("endpoint:" ++ controllerType)
  let methods ← (cx.symbols.allMethods t).mapM (cx.translateMethod? t.name default?)
  let given (key : String) := (marker.text? key).filter fun n => !Text.isBlankText n
  return {
    controllerType
    name := (given "name").getD t.simpleName
    moduleName := given "module_name"
    defaultMapping := default?
    methods := methods.reduceOption
    container := some (cx.symbols.placeOf t) }

end BuildContext

end ClientBindings
