import ClientBindings.Artifact.Emission
import ClientBindings.Proofs.Renumbering.Resolution

/-! A model with moved numbers is written as the same texts. Numbers decide which definitions a text
names, but appear in none. -/
namespace ClientBindings

open Work

variable {k : Nat}

theorem eraseDups_map {α β : Type} [BEq α] [LawfulBEq α] [BEq β] [LawfulBEq β] {f : α → β}
    (hf : Function.Injective f) (as : List α) : (as.map f).eraseDups = as.eraseDups.map f := by
  induction hn : as.length using Nat.strongRecOn generalizing as with
  | ind n ih =>
    cases as with
    | nil => rfl
    | cons a as =>
      have hfilter : (as.map f).filter (fun b => !b == f a) = (as.filter fun b => !b == a).map f := by
        have hne : ((fun b => !b == f a) ∘ f) = fun b => !b == a := by
          funext b
          rw [Function.comp_apply, Bool.eq_iff_iff]
          simp [hf.eq_iff]
        rw [List.filter_map, hne]
      have hlength : (as.filter fun b => !b == a).length < n := by
        have hle := List.length_filter_le (fun b => !b == a) as
        rw [List.length_cons] at hn
        omega
      rw [List.map_cons, List.eraseDups_cons, List.eraseDups_cons, List.map_cons, hfilter,
        ih _ hlength _ rfl]

namespace TypeText

theorem follows_anyName : Follows k (fun s => s) anyName anyName := by
  refine follows_anyId.bind fun id => follows_graph.bind fun g => ?_
  rw [TypeGraph.tsName?_shift]
  exact follows_pure _

theorem follows_nameOf (id : TypeId) : Follows k (fun s => s) (nameOf id) (nameOf (id + k)) := by
  refine follows_graph.bind fun g => ?_
  rw [TypeGraph.tsName?_shift]
  cases g.tsName? id with
  | some name => exact follows_pure name
  | none => exact follows_anyName

theorem follows_indexed (key value : String) :
    Follows k (fun s => s) (indexed key value) (indexed key value) := by
  unfold indexed
  split
  · exact follows_pure _
  · exact (follows_report _ _ _).bind fun _ => follows_pure _

mutual

theorem follows_render (i : TypeInstance) :
    Follows k (fun s => s) (render i) (render (i.shift k)) := by
  cases i with
  | mk d args =>
    rw [TypeInstance.shift]
    unfold render
    refine follows_graph.bind fun g => ?_
    rw [TypeGraph.kind?_shift]
    split
    · exact (follows_renderFirst args).bind fun _ => follows_pure _
    · cases args with
      | nil => exact follows_pure _
      | cons key rest =>
        refine (follows_renderFirst rest).bind fun value => ?_
        refine follows_graph.bind fun g => ?_
        rw [TypeInstance.definition_shift, TypeGraph.kind?_shift]
        split
        · exact (follows_nameOf _).bind fun _ => follows_pure _
        · exact (follows_render key).bind fun key => follows_indexed key value
    · refine (follows_nameOf d).bind fun name => ?_
      have hempty : (TypeInstance.shiftAll k args).isEmpty = args.isEmpty := by cases args <;> rfl
      rw [hempty]
      split
      · exact follows_pure _
      · exact (follows_renderAll args).bind fun _ => follows_pure _

theorem follows_renderFirst (args : List TypeInstance) :
    Follows k (fun s => s) (renderFirst args) (renderFirst (TypeInstance.shiftAll k args)) := by
  cases args with
  | nil => exact follows_anyName
  | cons a args => exact follows_render a

theorem follows_renderAll (args : List TypeInstance) :
    Follows k (fun s => s) (renderAll args) (renderAll (TypeInstance.shiftAll k args)) := by
  cases args with
  | nil => exact follows_pure _
  | cons a args =>
    exact (follows_render a).bind fun _ => (follows_renderAll args).bind fun _ => follows_pure _

end

theorem follows_renderList (is : List TypeInstance) (separator : String) :
    Follows k (fun s => s) (renderList is separator)
      (renderList (is.map (·.shift k)) separator) := by
  refine follows_anyId.bind fun any => ?_
  have hdefinition : ((fun i : TypeInstance => i.definition != any + k) ∘ TypeInstance.shift k) =
      fun i => i.definition != any := by
    funext i
    rw [Function.comp_apply, TypeInstance.definition_shift, Bool.eq_iff_iff]
    simp
  have hkept : (is.map (TypeInstance.shift k)).filter (fun i => i.definition != any + k) =
      TypeInstance.shiftAll k (is.filter fun i => i.definition != any) := by
    rw [List.filter_map, hdefinition, TypeInstance.shiftAll_eq_map]
  rw [hkept]
  exact (follows_renderAll _).bind fun _ => follows_pure _

end TypeText

namespace TypeGraph

/-- The definitions of moved numbers are the moved definitions. -/
theorem filterMap_definition?_shift (g : TypeGraph) (ids : List TypeId) :
    (ids.map (· + k)).filterMap (g.shift k).definition? =
      (ids.filterMap g.definition?).map (·.shift k) := by
  have hfound : (g.shift k).definition? ∘ (· + k) =
      fun id => (g.definition? id).map (·.shift k) := by
    funext id
    exact definition?_shift k g id
  rw [List.filterMap_map, hfound, List.map_filterMap]

theorem importable_shift (g : TypeGraph) (roots : List TypeInstance) (exclude : Option TypeId) :
    (g.shift k).importable (roots.map (·.shift k)) (exclude.map (· + k)) =
      (g.importable roots exclude).map (·.shift k) := by
  have hids : (roots.map (TypeInstance.shift k)).flatMap (·.ids) =
      (roots.flatMap (·.ids)).map (· + k) := by
    rw [List.flatMap_map, List.map_flatMap]
    congr 1
    funext i
    exact i.ids_shift k
  have hexclude : ((fun id : TypeId => some id != exclude.map (· + k)) ∘ (· + k)) =
      fun id => some id != exclude := by
    funext id
    cases exclude with
    | none => rfl
    | some e =>
      rw [Function.comp_apply, Bool.eq_iff_iff]
      simp
  have hemittable : TypeDefinition.isEmittable ∘ TypeDefinition.shift k =
      TypeDefinition.isEmittable := rfl
  have hinjective : Function.Injective fun id : TypeId => id + k := fun _ _ => Nat.add_right_cancel
  simp only [importable]
  rw [hids, eraseDups_map hinjective, List.filter_map, hexclude, filterMap_definition?_shift,
    List.filter_map, hemittable]
  exact (List.map_mergeSort (r := importsBefore) (f := TypeDefinition.shift k)
    fun _ _ _ _ => rfl).symm

theorem boundsOf_shift (g : TypeGraph) (d : TypeDefinition) :
    (g.shift k).boundsOf (d.shift k) = (g.boundsOf d).map (·.shift k) := by
  unfold boundsOf
  change (d.genericParams.map (· + k)).flatMap _ = _
  rw [List.flatMap_map, List.map_flatMap]
  congr 1
  funext p
  rw [definition?_shift]
  cases g.definition? p <;> rfl

theorem typeImports_shift (g : TypeGraph) (d : TypeDefinition) :
    (g.shift k).typeImports (d.shift k) = (g.typeImports d).map (·.shift k) := by
  have hroots : (d.shift k).properties.map (·.type) ++ (d.shift k).superTypes ++
      (g.boundsOf d).map (·.shift k) =
        (d.properties.map (·.type) ++ d.superTypes ++ g.boundsOf d).map (·.shift k) := by
    simp [TypeDefinition.shift, PropertyDefinition.shift]
  rw [typeImports, boundsOf_shift, hroots]
  exact importable_shift g _ (some d.id)

theorem importsForType_shift (g : TypeGraph) (l : Layout) (d : TypeDefinition) :
    (g.shift k).importsForType l (d.shift k) = g.importsForType l d := by
  rw [importsForType, typeImports_shift, List.map_map]
  rfl

theorem importsForEndpoint_shift (g : TypeGraph) (l : Layout) (e : Endpoint) :
    (g.shift k).importsForEndpoint l (e.shift k) = g.importsForEndpoint l e := by
  have htypes (m : EndpointMethod) : Endpoint.typesOfMethod (Endpoint.shiftMethod k m) =
      (Endpoint.typesOfMethod m).map (·.shift k) := by
    cases hr : m.returnType <;> simp [Endpoint.typesOfMethod, Endpoint.shiftMethod, hr]
  have hroots : (e.shift k).methods.flatMap Endpoint.typesOfMethod =
      (e.methods.flatMap Endpoint.typesOfMethod).map (·.shift k) := by
    change (e.methods.map (Endpoint.shiftMethod k)).flatMap _ = _
    rw [List.flatMap_map, List.map_flatMap]
    congr 1
    funext m
    exact htypes m
  rw [importsForEndpoint, endpointImports, hroots, ← Option.map_none (f := (· + k)),
    importable_shift, List.map_map]
  rfl

end TypeGraph

namespace Artifact

theorem follows_typeParamTexts (ps : List TypeDefinition) :
    Follows k (fun s => s) (typeParamTexts ps) (typeParamTexts (ps.map (·.shift k))) := by
  induction ps with
  | nil => exact follows_pure _
  | cons p ps ih =>
    exact (TypeText.follows_renderList p.superTypes _).bind fun _ => ih.bind fun _ => follows_pure _

theorem follows_typeParams (d : TypeDefinition) :
    Follows k (fun s => s) (typeParams d) (typeParams (d.shift k)) := by
  have hempty : (d.shift k).genericParams.isEmpty = d.genericParams.isEmpty := List.isEmpty_map
  unfold typeParams
  rw [hempty]
  split
  · exact follows_pure _
  · refine follows_graph.bind fun g => ?_
    have hparams : (d.shift k).genericParams.filterMap (g.shift k).definition? =
        (d.genericParams.filterMap g.definition?).map (·.shift k) :=
      g.filterMap_definition?_shift d.genericParams
    rw [hparams]
    exact (follows_typeParamTexts _).bind fun _ => follows_pure _

theorem follows_propertyLines (s : Settings) (ps : List PropertyDefinition) :
    Follows k (fun s => s) (propertyLines s ps) (propertyLines s (ps.map (·.shift k))) := by
  induction ps with
  | nil => exact follows_pure _
  | cons p ps ih =>
    exact (TypeText.follows_render p.type).bind fun _ => ih.bind fun _ => follows_pure _

theorem follows_interfaceText (s : Settings) (l : Layout) (d : TypeDefinition) :
    Follows k (fun s => s) (interfaceText s l d) (interfaceText s l (d.shift k)) := by
  refine (follows_propertyLines s d.properties).bind fun properties => ?_
  refine (TypeText.follows_renderList d.superTypes _).bind fun superTypes => ?_
  refine follows_graph.bind fun g => ?_
  rw [g.importsForType_shift]
  exact (follows_typeParams d).bind fun params => follows_pure _

theorem follows_typeText? (s : Settings) (l : Layout) (d : TypeDefinition) :
    Follows k (fun t => t) (typeText? s l d) (typeText? s l (d.shift k)) := by
  unfold typeText?
  rw [show (d.shift k).kind = d.kind from rfl]
  split
  · exact (follows_interfaceText s l d).bind fun text => follows_pure (some text)
  · exact follows_pure _
  · exact follows_pure _

theorem follows_signature (ps : List MethodParameter) :
    Follows k (fun s => s) (signature ps)
      (signature (ps.map fun p => { p with type := p.type.shift k })) := by
  induction ps with
  | nil => exact follows_pure _
  | cons p ps ih =>
    exact (TypeText.follows_render p.type).bind fun _ => ih.bind fun _ => follows_pure _

theorem follows_methodLines (s : Settings) (m : EndpointMethod) :
    Follows k (fun s => s) (methodLines s m) (methodLines s (Endpoint.shiftMethod k m)) := by
  have hparams : (Endpoint.shiftMethod k m).params.map Literal.parameter =
      m.params.map Literal.parameter := List.map_map ..
  unfold methodLines
  rw [hparams]
  refine (follows_signature m.params).bind fun signature => ?_
  obtain ⟨name, mapping, params, returnType⟩ := m
  cases returnType with
  | none => exact (follows_pure _).bind fun _ => follows_pure _
  | some r => exact (TypeText.follows_render r).bind fun _ => follows_pure _

theorem follows_allMethodLines (s : Settings) (ms : List EndpointMethod) :
    Follows k (fun s => s) (allMethodLines s ms)
      (allMethodLines s (ms.map (Endpoint.shiftMethod k))) := by
  induction ms with
  | nil => exact follows_pure _
  | cons m ms ih => exact (follows_methodLines s m).bind fun _ => ih.bind fun _ => follows_pure _

theorem follows_serviceText (s : Settings) (l : Layout) (e : Endpoint) :
    Follows k (fun s => s) (serviceText s l e) (serviceText s l (e.shift k)) := by
  unfold serviceText
  dsimp only
  refine follows_graph.bind fun g => ?_
  rw [g.importsForEndpoint_shift]
  exact (follows_allMethodLines s e.methods).bind fun _ => follows_pure _

theorem follows_typeArtifacts (s : Settings) (l : Layout) (ds : List TypeDefinition) :
    Follows k (fun as => as) (typeArtifacts s l ds) (typeArtifacts s l (ds.map (·.shift k))) := by
  induction ds with
  | nil => exact follows_pure _
  | cons d ds ih => exact (follows_typeText? s l d).bind fun _ => ih.bind fun _ => follows_pure _

theorem follows_serviceArtifacts (s : Settings) (l : Layout) (es : List Endpoint) :
    Follows k (fun as => as) (serviceArtifacts s l es)
      (serviceArtifacts s l (es.map (·.shift k))) := by
  induction es with
  | nil => exact follows_pure _
  | cons e es ih => exact (follows_serviceText s l e).bind fun _ => ih.bind fun _ => follows_pure _

theorem addToModule_shift (s : Settings) (modules : Dict (List Endpoint)) (e : Endpoint) :
    addToModule s (modules.mapValues (List.map (·.shift k))) (e.shift k) =
      (addToModule s modules e).mapValues (List.map (·.shift k)) := by
  have hname : moduleOf s (e.shift k) = moduleOf s e := rfl
  have hvalue : ((modules.get? (moduleOf s e)).map (List.map (·.shift k))).getD [] ++ [e.shift k] =
      ((modules.get? (moduleOf s e)).getD [] ++ [e]).map (·.shift k) := by
    cases modules.get? (moduleOf s e) <;> simp
  simp only [addToModule, hname, Dict.get?_mapValues, hvalue]
  exact Dict.insert_mapValues _ _ _ _

theorem groupModules_shift (s : Settings) (es : List Endpoint) :
    groupModules s (es.map (·.shift k)) =
      (groupModules s es).map fun m => (m.1, m.2.map (·.shift k)) := by
  have hfold (es : List Endpoint) : ∀ modules : Dict (List Endpoint),
      (es.map (·.shift k)).foldl (addToModule s) (modules.mapValues (List.map (·.shift k))) =
        (es.foldl (addToModule s) modules).mapValues (List.map (·.shift k)) := by
    induction es with
    | nil => exact fun _ => rfl
    | cons e es ih =>
      intro modules
      rw [List.map_cons, List.foldl_cons, List.foldl_cons, addToModule_shift]
      exact ih _
  have hsort (es : List Endpoint) :
      (es.map (·.shift k)).mergeSort (fun a b => decide (a.name ≤ b.name)) =
        (es.mergeSort fun a b => decide (a.name ≤ b.name)).map (·.shift k) :=
    (List.map_mergeSort (f := Endpoint.shift k) fun _ _ _ _ => rfl).symm
  have hmodules := hfold es []
  rw [show (Dict.mapValues (List.map (·.shift k)) ([] : Dict (List Endpoint))) = [] from rfl]
    at hmodules
  rw [groupModules, hmodules, groupModules, Dict.mapValues, List.map_map, List.map_map]
  exact List.map_congr_left fun m _ => Prod.ext rfl (hsort m.2)

theorem moduleText_shift (s : Settings) (l : Layout) (name : String) (es : List Endpoint) :
    moduleText s l name (es.map (·.shift k)) = moduleText s l name es := by
  have himports : (es.map (Endpoint.shift k)).map
      (fun e => importLine e.name (l.moduleEndpointImport e)) =
        es.map fun e => importLine e.name (l.moduleEndpointImport e) := List.map_map ..
  have hnames : (es.map (Endpoint.shift k)).map (·.name) = es.map (·.name) := List.map_map ..
  simp only [moduleText, himports, hnames]

theorem moduleArtifacts_shift (s : Settings) (l : Layout) (es : List Endpoint) :
    moduleArtifacts s l (es.map (·.shift k)) = moduleArtifacts s l es := by
  rw [moduleArtifacts, groupModules_shift, List.map_map, moduleArtifacts]
  refine List.map_congr_left fun m _ => ?_
  rw [Function.comp_apply, moduleText_shift]

/-- All artifacts of a moved model are those of the model. -/
theorem follows_emission (s : Settings) (endpoints : List Endpoint) :
    Follows k (fun as => as) (emission s endpoints) (emission s (endpoints.map (·.shift k))) := by
  unfold emission
  dsimp only
  refine follows_graph.bind fun g => ?_
  rw [g.emittable_shift, moduleArtifacts_shift]
  refine (follows_typeArtifacts s _ _).bind fun types => ?_
  exact (follows_serviceArtifacts s _ endpoints).bind fun services => follows_pure _

end Artifact

end ClientBindings
