import ClientBindings.Endpoint.Assembly
import ClientBindings.Proofs.Dict
import ClientBindings.Proofs.Resolution.Matching

/-! Endpoints are assembled alike over resolvers that match, and a new endpoint is kept only once all
of it is built. -/
namespace ClientBindings

namespace SymbolTable

/-- The type of a parameter, if the parameter is bound. -/
def boundTypes (s : SymbolTable) (p : Parameter) : List TypeRef :=
  if (s.bindingsOf p).isEmpty then [] else [p.type]

/-- The types of the bound parameters and of the result of a method, if the method is mapped. -/
def signature (s : SymbolTable) (m : Method) : List TypeRef :=
  if s.isMarked m.annotations Marker.requestMapping then
    m.parameters.flatMap s.boundTypes ++ m.returnType.toList
  else []

/-- The types in the signatures of a controller, those of inherited methods among them. -/
def signatures (s : SymbolTable) (t : DeclaredType) : List TypeRef :=
  (s.allMethods t).flatMap s.signature

end SymbolTable

variable {law : FailureLaw} {I : Workspace → Workspace → Prop} {f f' : Resolver}

/-- A relation of workspaces that also have their endpoints in common and outlasts a new one. -/
structure Hosting (I : Workspace → Workspace → Prop) : Prop extends Observant I where
  endpoints {w w'} : I w w' → w.endpoints = w'.endpoints
  addEndpoint {w w'} (e : Endpoint) : I w w' → I (w.addEndpoint e).1 (w'.addEndpoint e).1

theorem addEndpoint_graph (w : Workspace) (e : Endpoint) : (w.addEndpoint e).1.graph = w.graph := by
  unfold Workspace.addEndpoint
  split <;> rfl

theorem hosting_same {J : TypeGraph → Prop} (h : Observant (Same J)) : Hosting (Same J) where
  toObservant := h
  endpoints hw := congrArg _ hw.1
  addEndpoint e hw := by
    obtain ⟨rfl, hw⟩ := hw
    refine ⟨rfl, ?_⟩
    rw [addEndpoint_graph]
    exact hw

theorem Observant.keeps_warnOfMany (hI : Observant I) (location noun : String)
    (values : List String) : law.Keeps I (liftM (warnOfMany location noun values))
      (liftM (warnOfMany location noun values)) := by
  unfold warnOfMany
  split
  · exact hI.keeps_warn _ _
  · exact FailureLaw.matches_pure fun _ _ hw => hw

theorem Observant.keeps_warnOfClash (hI : Observant I) (location : String) (p : Parameter)
    (place : BindingLocation) (others : List (BindingLocation × ResolvedAnnotation)) :
    law.Keeps I (liftM (BuildContext.warnOfClash location p place others))
      (liftM (BuildContext.warnOfClash location p place others)) := by
  unfold BuildContext.warnOfClash
  split
  · exact hI.keeps_warn _ _
  · exact FailureLaw.matches_pure fun _ _ hw => hw

/-- The failure that an unknown verb is, in related workspaces, goes with itself. -/
def FailureLaw.AdmitsVerbs (law : FailureLaw) (I : Workspace → Workspace → Prop) : Prop :=
  ∀ ⦃w w'⦄ location verb, I w w' → law.dropped (.invalidVerb location verb) ∨
    law.paired (.invalidVerb location verb) w (.invalidVerb location verb) w'

theorem keeps_resolveMapping (hI : Observant I) (hverbs : law.AdmitsVerbs I) (s : SymbolTable)
    (annotations : List Annotation) (location : String) :
    law.Keeps I (s.resolveMapping annotations location) (s.resolveMapping annotations location) := by
  unfold SymbolTable.resolveMapping
  split
  · exact FailureLaw.matches_pure fun _ _ hw => hw
  · dsimp only
    refine (hI.keeps_warnOfMany _ _ _).bind fun _ => ?_
    refine (hI.keeps_warnOfMany _ _ _).bind fun _ => ?_
    split
    · exact FailureLaw.matches_pure fun _ _ hw => hw
    · split
      · exact FailureLaw.matches_pure fun _ _ hw => hw
      · exact FailureLaw.matches_throw fun _ _ hw => hverbs _ _ hw

namespace BuildContext

variable {cx : BuildContext}

theorem keeps_buildParameter (hI : Observant I) {p : Parameter}
    (h : law.Keeps I (f p.type) (f' p.type)) (location : String) :
    law.Keeps I (cx.buildParameter f p location) (cx.buildParameter f' p location) := by
  unfold buildParameter
  split
  · exact FailureLaw.matches_pure fun _ _ hw => hw
  · refine (hI.keeps_warnOfClash _ _ _ _).bind fun _ => ?_
    refine h.bind fun i? => ?_
    refine (hI.keeps_orAny i?).bind fun i => ?_
    exact FailureLaw.matches_pure fun _ _ hw => hw

theorem keeps_buildParameters (hI : Observant I) {ps : List Parameter}
    (h : ∀ p ∈ ps, law.Keeps I (f p.type) (f' p.type)) (location : String) :
    law.Keeps I (cx.buildParameters f location ps) (cx.buildParameters f' location ps) := by
  induction ps with
  | nil => exact FailureLaw.matches_pure fun _ _ hw => hw
  | cons p ps ih =>
    refine (keeps_buildParameter hI (h p (by simp)) location).bind fun built => ?_
    refine (ih fun p hp => h p (List.mem_cons_of_mem _ hp)).bind fun rest => ?_
    exact FailureLaw.matches_pure fun _ _ hw => hw

theorem keeps_buildMethod (hI : Observant I) (hverbs : law.AdmitsVerbs I)
    (h : ∀ r, law.Keeps I (f r) (f' r)) (controller : String) (default? : Option Mapping)
    (m : Method) : law.Keeps I (cx.buildMethod f controller default? m)
      (cx.buildMethod f' controller default? m) := by
  unfold buildMethod
  dsimp only
  refine (keeps_resolveMapping hI hverbs _ _ _).bind fun mapping? => ?_
  split
  · exact FailureLaw.matches_pure fun _ _ hw => hw
  · refine (keeps_buildParameters hI (fun p _ => h p.type) _).bind fun params => ?_
    refine FailureLaw.Matches.bind (R := fun _ => I) ?_ fun returnType =>
      FailureLaw.matches_pure fun _ _ hw => hw
    cases m.returnType with
    | none => exact FailureLaw.matches_pure fun _ _ hw => hw
    | some r => exact h r

theorem keeps_buildMethods (hI : Observant I) (hverbs : law.AdmitsVerbs I)
    (h : ∀ r, law.Keeps I (f r) (f' r)) (controller : String) (default? : Option Mapping)
    (ms : List Method) : law.Keeps I (cx.buildMethods f controller default? ms)
      (cx.buildMethods f' controller default? ms) := by
  induction ms with
  | nil => exact FailureLaw.matches_pure fun _ _ hw => hw
  | cons m ms ih =>
    refine (keeps_buildMethod hI hverbs h controller default? m).bind fun built => ?_
    refine ih.bind fun rest => ?_
    exact FailureLaw.matches_pure fun _ _ hw => hw

/-- The endpoint of a controller before it is registered. -/
def draft (cx : BuildContext) (resolve : Resolver) (controllerType : String) (t : DeclaredType)
    (marker : ResolvedAnnotation) : Build Endpoint := do
  let default? ← cx.symbols.resolveMapping t.annotations ("endpoint:" ++ controllerType)
  let methods ← cx.buildMethods resolve t.name default? (cx.symbols.allMethods t)
  let given (key : String) := (marker.text? key).filter fun n => !Text.isBlankText n
  pure {
    controllerType
    name := (given "name").getD t.simpleName
    moduleName := given "module_name"
    defaultMapping := default?
    methods
    container := some (cx.symbols.placeOf t) }

theorem assembleNew_of_marked {c : String} {t : DeclaredType} {marker : ResolvedAnnotation}
    (ht : cx.symbols.type? c = some t)
    (hm : cx.symbols.resolveAnnotation t.annotations Marker.endpoint = some marker) (f : Resolver) :
    cx.assembleNew f c = cx.draft f c t marker >>= fun e => liftM (Work.addEndpoint e) := by
  simp only [assembleNew, draft, ht, hm, bind_assoc, pure_bind]

theorem keeps_draft (hI : Observant I) (hverbs : law.AdmitsVerbs I)
    (h : ∀ r, law.Keeps I (f r) (f' r)) (c : String) (t : DeclaredType)
    (marker : ResolvedAnnotation) :
    law.Keeps I (cx.draft f c t marker) (cx.draft f' c t marker) := by
  refine (keeps_resolveMapping hI hverbs _ _ _).bind fun default? => ?_
  refine (keeps_buildMethods hI hverbs h _ _ _).bind fun methods => ?_
  exact FailureLaw.matches_pure fun _ _ hw => hw

theorem draft_controllerType {c : String} {t : DeclaredType} {marker : ResolvedAnnotation}
    {w v : Workspace} {e : Endpoint} (h : (cx.draft f c t marker).outcome w = (.ok e, v)) :
    e.controllerType = c := by
  obtain ⟨_, _, -, h⟩ := Build.outcome_bind_ok.1 h
  obtain ⟨_, _, -, h⟩ := Build.outcome_bind_ok.1 h
  cases h
  rfl

theorem keeps_assembleEndpoint (hI : Hosting I)
    (hthrow : ∀ w w' e, I w w' → law.dropped e ∨ law.paired e w e w')
    (h : ∀ r, law.Keeps I (f r) (f' r)) (controllerType : String) :
    law.Keeps I (cx.assembleEndpoint f controllerType) (cx.assembleEndpoint f' controllerType) := by
  unfold assembleEndpoint
  refine FailureLaw.Matches.bind (R := fun _ => I) (FailureLaw.matches_lift fun w w' hw => ?_)
    fun existing? => ?_
  · simp only [Work.run_endpoint?, hI.endpoints hw, hw, and_self]
  cases existing? with
  | some existing => exact FailureLaw.matches_pure fun _ _ hw => hw
  | none =>
    dsimp only
    cases ht : cx.symbols.type? controllerType with
    | none =>
      simp only [assembleNew, ht]
      exact FailureLaw.matches_throw fun w w' hw => hthrow w w' _ hw
    | some t =>
      cases hm : cx.symbols.resolveAnnotation t.annotations Marker.endpoint with
      | none =>
        simp only [assembleNew, ht, hm]
        exact FailureLaw.matches_throw fun w w' hw => hthrow w w' _ hw
      | some marker =>
        rw [assembleNew_of_marked ht hm, assembleNew_of_marked ht hm]
        refine (keeps_draft hI.toObservant (fun w w' _ _ hw => hthrow w w' _ hw) h _ t marker).bind
          fun e => ?_
        refine FailureLaw.matches_lift fun w w' hw => ⟨?_, hI.addEndpoint _ hw⟩
        simp only [Work.run_addEndpoint, Workspace.addEndpoint, hI.endpoints hw]
        split <;> rfl

/-- The declaration of a controller and its marker. -/
def Marked (cx : BuildContext) (controllerType : String) : Prop :=
  ∃ t marker, cx.symbols.type? controllerType = some t ∧
    cx.symbols.resolveAnnotation t.annotations Marker.endpoint = some marker

/-- The endpoints that are there stay the only ones. -/
theorem lasting_endpoints (es : Dict Endpoint) :
    Lasting (fun w w' : Workspace => w = w' ∧ w.endpoints = es) where
  graph hw := congrArg _ hw.1
  warn location message hw := ⟨congrArg (·.note ⟨.warning, location, message⟩) hw.1, hw.2⟩
  register d hw := by
    obtain ⟨rfl, hw⟩ := hw
    exact ⟨rfl, hw⟩
  update id f hw := by
    obtain ⟨rfl, hw⟩ := hw
    exact ⟨rfl, hw⟩

/-- Failures leave the endpoints alone, and do not concern a single type only. -/
def endpointsLaw (es : Dict Endpoint) : FailureLaw :=
  ⟨fun _ => False, fun e v e' v' => e = e' ∧ e.isTypeScoped = false ∧ v = v' ∧ v.endpoints = es⟩

theorem endpointsLaw_verbs (es : Dict Endpoint) :
    (endpointsLaw es).AdmitsVerbs fun w w' => w = w' ∧ w.endpoints = es :=
  fun _ _ _ _ hw => .inr ⟨rfl, rfl, hw⟩

theorem assembleEndpoint_of_some {c : String} {w : Workspace} {e : Endpoint}
    (h : w.endpoints.get? c = some e) (f : Resolver) :
    (cx.assembleEndpoint f c).outcome w = (.ok e, w) := by
  rw [assembleEndpoint, Build.outcome_lift_bind, Work.run_endpoint?, h]
  rfl

theorem assembleEndpoint_of_none {c : String} {w : Workspace} (h : w.endpoints.get? c = none)
    (f : Resolver) :
    (cx.assembleEndpoint f c).outcome w = (cx.assembleNew f c).outcome w := by
  rw [assembleEndpoint, Build.outcome_lift_bind, Work.run_endpoint?, h]

/-- A name that is no controller is an error, whatever the workspace. -/
theorem assembleNew_unmarked {c : String} (h : ¬cx.Marked c) :
    ∃ e, ∀ f w, (cx.assembleNew f c).outcome w = (.error e, w) := by
  unfold assembleNew
  cases ht : cx.symbols.type? c with
  | none => exact ⟨_, fun _ _ => rfl⟩
  | some t =>
    dsimp only
    cases hm : cx.symbols.resolveAnnotation t.annotations Marker.endpoint with
    | none => exact ⟨_, fun _ _ => rfl⟩
    | some marker => exact absurd ⟨t, marker, ht, hm⟩ h

section draft

variable {c : String} {t : DeclaredType} {marker : ResolvedAnnotation} {w : Workspace}
  (hf : ∀ es r, (endpointsLaw es).Keeps (fun w w' => w = w' ∧ w.endpoints = es) (f r) (f r))
include hf

/-- Until it is registered, an endpoint leaves the others alone. -/
theorem draft_endpoints (c : String) (t : DeclaredType) (marker : ResolvedAnnotation)
    (w : Workspace) : ∃ v, v.endpoints = w.endpoints ∧
    ((∃ e, e.isTypeScoped = false ∧ (cx.draft f c t marker).outcome w = (.error e, v)) ∨
      ∃ e, (cx.draft f c t marker).outcome w = (.ok e, v)) := by
  have h : (endpointsLaw w.endpoints).Agree _ ((cx.draft f c t marker).outcome w) _ :=
    keeps_draft (lasting_endpoints w.endpoints).observant (endpointsLaw_verbs _) (hf w.endpoints) c t
      marker ⟨rfl, rfl⟩
  rcases ho : (cx.draft f c t marker).outcome w with ⟨e | e, v⟩
  · rw [ho] at h
    cases h with
    | dropped h => exact h.elim
    | failed h => exact ⟨v, h.2.2.2, .inl ⟨e, h.2.1, rfl⟩⟩
  · rw [ho] at h
    cases h with
    | ok h => exact ⟨v, h.2, .inr ⟨e, rfl⟩⟩

/-- A new endpoint is kept only once all of it is built. -/
theorem assembleNew_drafted (ht : cx.symbols.type? c = some t)
    (hm : cx.symbols.resolveAnnotation t.annotations Marker.endpoint = some marker)
    (hget : w.endpoints.get? c = none) : ∃ v, v.endpoints = w.endpoints ∧
      ((∃ e, e.isTypeScoped = false ∧ (cx.assembleNew f c).outcome w = (.error e, v)) ∨
      ∃ e, (cx.draft f c t marker).outcome w = (.ok e, v) ∧ (cx.assembleNew f c).outcome w =
        (.ok e, { v with endpoints := w.endpoints.insert c e })) := by
  obtain ⟨v, hv, ⟨e, he, ho⟩ | ⟨e, ho⟩⟩ := draft_endpoints hf c t marker w
  · refine ⟨v, hv, .inl ⟨e, he, ?_⟩⟩
    rw [assembleNew_of_marked ht hm, Build.outcome_bind, ho]
  · refine ⟨v, hv, .inr ⟨e, ho, ?_⟩⟩
    rw [assembleNew_of_marked ht hm, Build.outcome_bind, ho]
    dsimp only
    rw [Build.outcome_lift, Work.run_addEndpoint]
    simp only [Workspace.addEndpoint, draft_controllerType ho, hv, hget]

theorem assembleNew_marked (h : cx.Marked c) (hget : w.endpoints.get? c = none) :
    ∃ v, v.endpoints = w.endpoints ∧
      ((∃ e, e.isTypeScoped = false ∧ (cx.assembleNew f c).outcome w = (.error e, v)) ∨
      ∃ e, (cx.assembleNew f c).outcome w =
        (.ok e, { v with endpoints := w.endpoints.insert c e })) := by
  obtain ⟨t, marker, ht, hm⟩ := h
  obtain ⟨v, hv, h⟩ := assembleNew_drafted hf ht hm hget
  exact ⟨v, hv, h.imp_right fun ⟨e, _, ho⟩ => ⟨e, ho⟩⟩

end draft

end BuildContext
end ClientBindings
