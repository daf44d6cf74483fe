import ClientBindings.Proofs.Round.Retry
import Mathlib.Data.List.Forall2

/-! What an endpoint has in it: a method for each mapped method of the controller, with the mapping that its
annotations give, and in it a parameter for each bound one. All of it is in the order of the declarations. -/
namespace ClientBindings

/-- Annotations resolve to a mapping: the path is the first of its paths, and the verb the one that the first
of its methods names. -/
def SymbolTable.MappedAs (s : SymbolTable) (annotations : List Annotation) (mapping : Mapping) : Prop :=
  ∃ r, s.resolveAnnotation annotations Marker.requestMapping = some r ∧
    mapping.urlTemplate = (r.texts "path").head? ∧
    (r.texts "method").head?.map Verb.parse? = mapping.verb.map some

/-- A mapping is there just if the annotations resolve to one. -/
def SymbolTable.MayBeMappedAs (s : SymbolTable) (annotations : List Annotation) : Option Mapping → Prop
  | none => s.isMarked annotations Marker.requestMapping = false
  | some mapping => s.MappedAs annotations mapping

/-- Where a parameter travels, by the first of its markers: query before path before body. -/
inductive SymbolTable.Placed (s : SymbolTable) (p : Parameter) : BindingLocation → ResolvedAnnotation → Prop
  | query {r : ResolvedAnnotation} (h : s.resolveAnnotation p.annotations Marker.requestParam = some r) :
      Placed s p .query r
  | path {r : ResolvedAnnotation} (hquery : s.isMarked p.annotations Marker.requestParam = false)
      (h : s.resolveAnnotation p.annotations Marker.pathVariable = some r) : Placed s p .path r
  | body {r : ResolvedAnnotation} (hquery : s.isMarked p.annotations Marker.requestParam = false)
      (hpath : s.isMarked p.annotations Marker.pathVariable = false)
      (h : s.resolveAnnotation p.annotations Marker.requestBody = some r) : Placed s p .body r

/-- At least one of the markers is on the parameter. -/
def SymbolTable.isBound (s : SymbolTable) (p : Parameter) : Bool :=
  s.isMarked p.annotations Marker.requestParam || s.isMarked p.annotations Marker.pathVariable ||
    s.isMarked p.annotations Marker.requestBody

def SymbolTable.isMapped (s : SymbolTable) (m : Method) : Bool :=
  s.isMarked m.annotations Marker.requestMapping

/-- A parameter of a request is called as its marker says unless that is blank, else as it is declared, and
is required unless the marker says that it is not. -/
structure SymbolTable.BoundAs (s : SymbolTable) (p : Parameter) (q : MethodParameter) (r : ResolvedAnnotation) :
    Prop where
  placed : s.Placed p q.binding.location r
  declared : q.name = p.name
  named : ∀ n, r.text? "name" = some n → Text.isBlankText n = false → q.binding.name = n
  unnamed : (∀ n, r.text? "name" = some n → Text.isBlankText n = true) → q.binding.name = p.name
  required : q.binding.required = false ↔ r.bool? "required" = some false

/-- A method of an endpoint has the display name or else the name of the declared one, its mapping, with the
verb of the controller where it has none, and its bound parameters. -/
structure SymbolTable.ExposedAs (s : SymbolTable) (default? : Option Mapping) (m : Method) (e : EndpointMethod) :
    Prop where
  name : e.name = (s.displayName? m.annotations).getD m.name
  mapping : ∃ own, s.MappedAs m.annotations own ∧ e.mapping.urlTemplate = own.urlTemplate ∧
    (∀ verb, own.verb = some verb → e.mapping.verb = some verb) ∧
    (own.verb = none → e.mapping.verb = default?.bind (·.verb))
  params : List.Forall₂ (fun p q => ∃ r, s.BoundAs p q r) (m.parameters.filter s.isBound) e.params

/-- An endpoint has the mapping of its controller, and the methods of it that are mapped. -/
structure SymbolTable.Presents (s : SymbolTable) (t : DeclaredType) (e : Endpoint) : Prop where
  mapping : s.MayBeMappedAs t.annotations e.defaultMapping
  methods : List.Forall₂ (s.ExposedAs e.defaultMapping) ((s.allMethods t).filter s.isMapped) e.methods

namespace SymbolTable

variable {s : SymbolTable} {annotations : List Annotation} {p : Parameter} {w v : Workspace}

theorem isMarked_of_some {marker : String} {r : ResolvedAnnotation}
    (h : s.resolveAnnotation annotations marker = some r) : s.isMarked annotations marker = true :=
  congrArg Option.isSome h

theorem isMarked_of_none {marker : String} (h : s.resolveAnnotation annotations marker = none) :
    s.isMarked annotations marker = false :=
  congrArg Option.isSome h

theorem MappedAs.isMarked {mapping : Mapping} (h : s.MappedAs annotations mapping) :
    s.isMarked annotations Marker.requestMapping = true := by
  obtain ⟨r, hr, -⟩ := h
  exact isMarked_of_some hr

theorem mayBeMappedAs_of_outcome {location : String} {mapping? : Option Mapping}
    (h : (s.resolveMapping annotations location).outcome w = (.ok mapping?, v)) :
    s.MayBeMappedAs annotations mapping? := by
  unfold resolveMapping at h
  cases hr : s.resolveAnnotation annotations Marker.requestMapping with
  | none =>
    rw [hr] at h
    cases h
    exact isMarked_of_none hr
  | some r =>
    rw [hr] at h
    obtain ⟨_, u, -, h⟩ := Build.outcome_bind_ok.1 h
    obtain ⟨_, u', -, h⟩ := Build.outcome_bind_ok.1 h
    split at h
    · rename_i hverbs
      cases h
      exact ⟨r, hr, rfl, by rw [hverbs]; rfl⟩
    · rename_i raw _ hverbs
      split at h
      · rename_i verb hverb
        cases h
        exact ⟨r, hr, rfl, by rw [hverbs, List.head?_cons, Option.map_some, hverb]; rfl⟩
      · cases h

/-- The first binding of a parameter is that of the first of its markers. -/
theorem placed_of_bindingsOf {place : BindingLocation} {r : ResolvedAnnotation}
    {others : List (BindingLocation × ResolvedAnnotation)} (h : s.bindingsOf p = (place, r) :: others) :
    s.Placed p place r ∧ s.isBound p = true := by
  simp only [bindingsOf, bindingMarkers, List.filterMap_cons, List.filterMap_nil] at h
  cases hquery : s.resolveAnnotation p.annotations Marker.requestParam with
  | some q =>
    rw [hquery] at h
    cases h
    exact ⟨.query hquery, by simp [isBound, isMarked_of_some hquery]⟩
  | none =>
    rw [hquery] at h
    cases hpath : s.resolveAnnotation p.annotations Marker.pathVariable with
    | some q =>
      rw [hpath] at h
      cases h
      exact ⟨.path (isMarked_of_none hquery) hpath, by simp [isBound, isMarked_of_some hpath]⟩
    | none =>
      rw [hpath] at h
      cases hbody : s.resolveAnnotation p.annotations Marker.requestBody with
      | some q =>
        rw [hbody] at h
        cases h
        exact ⟨.body (isMarked_of_none hquery) (isMarked_of_none hpath) hbody,
          by simp [isBound, isMarked_of_some hbody]⟩
      | none =>
        rw [hbody] at h
        cases h

theorem isBound_of_bindingsOf_nil (h : s.bindingsOf p = []) : s.isBound p = false := by
  have hmarker (marker : String) (place : BindingLocation) (hm : (marker, place) ∈ bindingMarkers) :
      s.isMarked p.annotations marker = false :=
    isMarked_of_none (Option.map_eq_none_iff.1 (List.filterMap_eq_nil_iff.1 h _ hm))
  rw [isBound, hmarker Marker.requestParam .query (by simp [bindingMarkers]),
    hmarker Marker.pathVariable .path (by simp [bindingMarkers]),
    hmarker Marker.requestBody .body (by simp [bindingMarkers])]
  rfl

/-- The binding that a marker gives, whatever the type. -/
theorem boundAs_toBinding {place : BindingLocation} {r : ResolvedAnnotation} (h : s.Placed p place r)
    (type : TypeInstance) : s.BoundAs p ⟨p.name, type, toBinding p place r⟩ r where
  placed := h
  declared := rfl
  named n hn hblank := by simp [toBinding, hn, Option.filter_some, hblank]
  unnamed hblank := by
    cases hn : r.text? "name" with
    | none => simp [toBinding, hn]
    | some n => simp [toBinding, hn, Option.filter_some, hblank n hn]
  required := by
    cases hr : r.bool? "required" <;> simp [toBinding, hr]

end SymbolTable

namespace BuildContext

variable {cx : BuildContext} {f : Resolver} {w v : Workspace} {controller location : String}
variable {default? : Option Mapping}

theorem buildParameter_ok {p : Parameter} {built : Option MethodParameter}
    (h : (cx.buildParameter f p location).outcome w = (.ok built, v)) :
    (built = none ∧ cx.symbols.isBound p = false) ∨
      ∃ q r, built = some q ∧ cx.symbols.isBound p = true ∧ cx.symbols.BoundAs p q r := by
  unfold buildParameter at h
  split at h
  · rename_i hbindings
    cases h
    exact .inl ⟨rfl, SymbolTable.isBound_of_bindingsOf_nil hbindings⟩
  · rename_i place r others hbindings
    obtain ⟨hplaced, hbound⟩ := SymbolTable.placed_of_bindingsOf hbindings
    obtain ⟨_, u, -, h⟩ := Build.outcome_bind_ok.1 h
    obtain ⟨type?, u', -, h⟩ := Build.outcome_bind_ok.1 h
    obtain ⟨type, u'', -, h⟩ := Build.outcome_bind_ok.1 h
    cases h
    exact .inr ⟨_, r, rfl, hbound, SymbolTable.boundAs_toBinding hplaced type⟩

theorem buildParameters_ok {ps : List Parameter} {built : List MethodParameter}
    (h : (cx.buildParameters f location ps).outcome w = (.ok built, v)) :
    List.Forall₂ (fun p q => ∃ r, cx.symbols.BoundAs p q r) (ps.filter cx.symbols.isBound) built := by
  induction ps generalizing w built with
  | nil =>
    cases h
    exact .nil
  | cons p ps ih =>
    obtain ⟨first, u, hfirst, h⟩ := Build.outcome_bind_ok.1 h
    obtain ⟨rest, u', hrest, h⟩ := Build.outcome_bind_ok.1 h
    cases h
    rcases buildParameter_ok hfirst with ⟨rfl, hbound⟩ | ⟨q, r, rfl, hbound, hq⟩
    · rw [List.filter_cons_of_neg (by simp [hbound])]
      exact ih hrest
    · rw [List.filter_cons_of_pos hbound]
      exact .cons ⟨r, hq⟩ (ih hrest)

theorem buildMethod_ok {m : Method} {built : Option EndpointMethod}
    (h : (cx.buildMethod f controller default? m).outcome w = (.ok built, v)) :
    (built = none ∧ cx.symbols.isMapped m = false) ∨
      ∃ e, built = some e ∧ cx.symbols.isMapped m = true ∧ cx.symbols.ExposedAs default? m e := by
  unfold buildMethod at h
  obtain ⟨mapping?, u, hmapping, h⟩ := Build.outcome_bind_ok.1 h
  have hmapped := SymbolTable.mayBeMappedAs_of_outcome hmapping
  cases mapping? with
  | none =>
    cases h
    exact .inl ⟨rfl, hmapped⟩
  | some own =>
    obtain ⟨params, u', hparams, h⟩ := Build.outcome_bind_ok.1 h
    obtain ⟨returnType, u'', -, h⟩ := Build.outcome_bind_ok.1 h
    cases h
    refine .inr ⟨_, rfl, hmapped.isMarked, rfl,
      ⟨own, hmapped, rfl, fun verb hverb => ?_, fun hverb => ?_⟩, buildParameters_ok hparams⟩
    · simp [hverb]
    · simp [hverb]

/-- A method of an endpoint has been built in a state on the way from one to another. -/
def BuiltBetween (cx : BuildContext) (f : Resolver) (controller : String) (default? : Option Mapping)
    (R : Workspace → Workspace → Prop) (w v : Workspace) (m : Method) (e : EndpointMethod) : Prop :=
  ∃ u u', R w u ∧ R u' v ∧ (cx.buildMethod f controller default? m).outcome u = (.ok (some e), u')

/-- The methods are built one after the other, and those that are not mapped are left out. -/
theorem buildMethods_ok {R : Workspace → Workspace → Prop} (hrefl : ∀ w, R w w)
    (htrans : ∀ w u v, R w u → R u v → R w v)
    (hstep : ∀ m w v built, (cx.buildMethod f controller default? m).outcome w = (.ok built, v) → R w v)
    {ms : List Method} {built : List EndpointMethod}
    (h : (cx.buildMethods f controller default? ms).outcome w = (.ok built, v)) :
    R w v ∧ List.Forall₂ (cx.BuiltBetween f controller default? R w v) (ms.filter cx.symbols.isMapped)
      built := by
  induction ms generalizing w built with
  | nil =>
    cases h
    exact ⟨hrefl _, .nil⟩
  | cons m ms ih =>
    obtain ⟨first, u, hfirst, h⟩ := Build.outcome_bind_ok.1 h
    obtain ⟨rest, u', hrest, h⟩ := Build.outcome_bind_ok.1 h
    cases h
    have hwu : R w u := hstep m w u first hfirst
    obtain ⟨huv, hall⟩ := ih hrest
    have hlater : List.Forall₂ (cx.BuiltBetween f controller default? R w v)
        (ms.filter cx.symbols.isMapped) rest :=
      hall.imp fun m e ⟨x, x', hux, hxv, he⟩ => ⟨x, x', htrans w u x hwu hux, hxv, he⟩
    refine ⟨htrans w u v hwu huv, ?_⟩
    rcases buildMethod_ok hfirst with ⟨rfl, hmapped⟩ | ⟨e, rfl, hmapped, -⟩
    · rw [List.filter_cons_of_neg (by simp [hmapped])]
      exact hlater
    · rw [List.filter_cons_of_pos hmapped]
      exact .cons ⟨w, u, hrefl w, huv, hfirst⟩ hlater

theorem draft_presents {c : String} {t : DeclaredType} {marker : ResolvedAnnotation} {e : Endpoint}
    (h : (cx.draft f c t marker).outcome w = (.ok e, v)) : cx.symbols.Presents t e := by
  obtain ⟨mapping?, u, hmapping, h⟩ := Build.outcome_bind_ok.1 h
  obtain ⟨methods, u', hmethods, h⟩ := Build.outcome_bind_ok.1 h
  cases h
  refine ⟨SymbolTable.mayBeMappedAs_of_outcome hmapping, ?_⟩
  obtain ⟨-, hall⟩ := buildMethods_ok (R := fun _ _ => True) (fun _ => trivial)
    (fun _ _ _ _ _ => trivial) (fun _ _ _ _ _ => trivial) hmethods
  refine hall.imp fun m e ⟨x, x', _, _, he⟩ => ?_
  rcases buildMethod_ok he with ⟨hnone, -⟩ | ⟨e', he', -, hexposed⟩
  · cases hnone
  · obtain rfl := Option.some.inj he'
    exact hexposed

/-- A new endpoint has been drafted for a controller with the marker, and is registered then. -/
theorem exists_draft_of_buildEndpoint {c : String} {e : Endpoint} (hnew : w.endpoints.get? c = none)
    (h : (cx.buildEndpoint c).outcome w = (.ok e, v)) :
    ∃ t marker u, cx.symbols.type? c = some t ∧
      cx.symbols.resolveAnnotation t.annotations Marker.endpoint = some marker ∧
      (cx.draft cx.resolve c t marker).outcome w = (.ok e, u) ∧ v.graph = u.graph := by
  rw [buildEndpoint, assembleEndpoint_of_none hnew] at h
  by_cases hm : cx.Marked c
  · obtain ⟨t, marker, ht, hmarker⟩ := hm
    obtain ⟨u, -, ⟨e', -, ho⟩ | ⟨e', hdraft, ho⟩⟩ :=
      assembleNew_drafted keeps_resolve_endpoints ht hmarker hnew
    · rw [ho] at h
      cases h
    · rw [ho] at h
      cases h
      exact ⟨t, marker, u, ht, hmarker, hdraft, rfl⟩
  · obtain ⟨e', ho⟩ := assembleNew_unmarked hm
    rw [ho] at h
    cases h

/-- The endpoint that is built for a new controller is one of a declared type with the marker, has a method
for each of its mapped methods, in their order, and in each a parameter for each bound parameter, in theirs;
with mappings, places, names and necessity as the annotations resolve to. -/
theorem buildEndpoint_presents (cx : BuildContext) {c : String} {w v : Workspace} {e : Endpoint}
    (hnew : w.endpoints.get? c = none) (h : (cx.buildEndpoint c).outcome w = (.ok e, v)) :
    ∃ t, cx.symbols.type? c = some t ∧ cx.symbols.isMarked t.annotations Marker.endpoint = true ∧
      cx.symbols.Presents t e := by
  obtain ⟨t, marker, u, ht, hmarker, hdraft, -⟩ := exists_draft_of_buildEndpoint hnew h
  exact ⟨t, ht, SymbolTable.isMarked_of_some hmarker, draft_presents hdraft⟩

/-- Of the methods one is not mapped, one takes the verb of the controller, and one has its own from an
annotation that stands for a mapping. -/
def shopType : DeclaredType :=
  let text : TypeRef := .declared "java.lang.String" []
  let blank : List (String × AnnotationValue) := [("name", .text " "), ("required", .text "false")]
  ⟨"a.Shop", none, none, none, .classType, [],
    [.written Marker.endpoint [],
      .written Marker.requestMapping [("method", .list [.text "RequestMethod.POST"])]],
    [], none, [], [],
    [⟨"notify", [], [], [], [], none⟩,
      ⟨"add", [], [.written Marker.requestMapping [("path", .list [.text "add", .text "put"])]], [],
        [⟨"item", text, [.written Marker.requestBody []]⟩, ⟨"session", text, []⟩,
          ⟨"shelf", text, [.written Marker.pathVariable [("name", .text "id")],
            .written Marker.requestParam blank]⟩],
        none⟩,
      ⟨"list", [], [.written Marker.getMapping []], [], [], none⟩], [], []⟩

def shopContext : BuildContext := ⟨⟨[shopType], []⟩, .standard, [], .standard⟩

theorem buildEndpoint_presents_shop : ∃ e v,
    (shopContext.buildEndpoint "a.Shop").outcome .empty = (.ok e, v) ∧
    e.methods.map (fun m => (m.name, m.mapping, m.params.map (·.binding))) =
      [("add", ⟨some "add", some .post⟩, [⟨.body, "item", true⟩, ⟨.query, "shelf", false⟩]),
        ("list", ⟨none, some .get⟩, [])] ∧
    ∃ t, shopContext.symbols.type? "a.Shop" = some t ∧
      shopContext.symbols.isMarked t.annotations Marker.endpoint = true ∧
      shopContext.symbols.Presents t e := by
  obtain ⟨e, ho, hmethods⟩ := Outcome.exists_ok_of_any
    (o := (shopContext.buildEndpoint "a.Shop").outcome .empty)
    (f := fun e => decide (e.methods.map (fun m => (m.name, m.mapping, m.params.map (·.binding))) =
      [("add", ⟨some "add", some .post⟩, [⟨.body, "item", true⟩, ⟨.query, "shelf", false⟩]),
        ("list", ⟨none, some .get⟩, [])])) (by decide +kernel)
  exact ⟨e, _, ho, of_decide_eq_true hmethods, shopContext.buildEndpoint_presents rfl ho⟩

end BuildContext
end ClientBindings
