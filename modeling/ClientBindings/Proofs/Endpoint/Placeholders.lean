import ClientBindings.Proofs.Endpoint.Slots
import ClientBindings.Proofs.Round.Closure
import ClientBindings.Proofs.Round.Scope

/-! Endpoints of controllers without type parameters, and the placeholders that they do not mention. The
variables of supertypes are replaced in signatures but not in the bounds of the methods' own type
parameters, so these must not lead to any. -/
namespace ClientBindings

open BuildContext TypeGraph

/-- No bound of a type parameter of a mapped method mentions a variable of a type. -/
def SymbolTable.Detached (s : SymbolTable) (t : DeclaredType) : Prop :=
  ∀ m ∈ s.allMethods t, s.isMarked m.annotations Marker.requestMapping = true → m.Detached

namespace BuildContext

variable {cx : BuildContext} {r a : TypeRef} {c : String} {t : DeclaredType} {w : Workspace}

theorem mem_types_of_mem_signature {s : SymbolTable} {m : Method} (h : r ∈ s.signature m) :
    s.isMarked m.annotations Marker.requestMapping = true ∧ r ∈ m.types := by
  unfold SymbolTable.signature at h
  split at h
  · rename_i hmapped
    refine ⟨hmapped, ?_⟩
    rcases List.mem_append.1 h with h | h
    · obtain ⟨p, hp, hr⟩ := List.mem_flatMap.1 h
      unfold SymbolTable.boundTypes at hr
      split at hr
      · cases hr
      · obtain rfl := List.mem_singleton.1 hr
        exact List.mem_append_left _ (List.mem_map_of_mem hp)
    · exact List.mem_append_right _ h
  · cases h

/-- References without the sign of placeholders in which only variables of a method are left come to no
placeholders, if the bounds that these are replaced by mention no others. -/
theorem grants_clear {u : DeclaredType} {m : Method} (hs : cx.symbols.Tidy) (hfit : cx.symbols.Fitting)
    (hu : cx.symbols.type? u.name = some u) (hm : m ∈ u.methods) (hd : m.Detached)
    (I : TypeGraph → Prop) : cx.Grants I (fun r => r.Tidy ∧ ∀ v ∈ r.vars, u.Lends m v) Clear where
  durable := durable_clear
  name h hn hid := ⟨_, h.1.unreserved_of_name? hn, hid⟩
  placeholder h _ _ _ := by
    obtain ⟨overload, howner, -⟩ := h.2 _ (List.mem_singleton.2 rfl)
    cases howner
  inner h ha := by
    refine ⟨tidy_of_inner hs h.1 ha, fun v hv => ?_⟩
    rcases mem_vars_of_inner ha hv with hv | ⟨w, hw, hbound⟩
    · exact h.2 v hv
    · exact hfit.lends_of_soleBound? hu hm hd (h.2 w hw) hbound v hv

/-- The signatures of a controller without type parameters come to no placeholders. -/
theorem clear_signatures (hs : cx.symbols.Tidy) (hfit : cx.symbols.Fitting)
    (ht : cx.symbols.type? t.name = some t) (hparams : t.typeParameters = [])
    (hdetached : cx.symbols.Detached t) (hr : r ∈ cx.symbols.signatures t) :
    Tied (TypeGraph.Closed False) (cx.resolve r) fun i? g => All Clear g i?.toList := by
  obtain ⟨m, hm, hr⟩ := List.mem_flatMap.1 hr
  obtain ⟨hmapped, hr⟩ := mem_types_of_mem_signature hr
  obtain ⟨u, m₀, hu, hm₀, hsame, hlends⟩ :=
    SymbolTable.exists_lends_of_mem_allMethods hfit ht hparams hm
  have hd : m₀.Detached := by
    have h := hdetached m hm hmapped
    unfold Method.Detached at h ⊢
    rwa [hsame] at h
  have htidy : r.Tidy := (hs.allMethods (SymbolTable.type?_mem ht) m hm).of_mem_types hr
  exact (fillable_closed False.elim).tied_resolveAt (grants_clear hs hfit hu hm₀ hd _) _
    ⟨htidy, hlends r hr⟩

/-- The endpoint that is built for such a controller mentions no placeholders. -/
theorem clear_buildEndpoint (hs : cx.symbols.Tidy) (hfit : cx.symbols.Fitting)
    (ht : cx.symbols.type? c = some t) (hparams : t.typeParameters = [])
    (hdetached : cx.symbols.Detached t) (hw : w.Closed (TypeGraph.Closed False))
    (hget : w.endpoints.get? c = none) {e : Endpoint}
    (he : ((cx.buildEndpoint c).outcome w).2.endpoints.get? c = some e) :
    ∀ id ∈ e.mentioned, ((cx.buildEndpoint c).outcome w).2.graph.Clear id := by
  have hname : cx.symbols.type? t.name = some t := by rw [SymbolTable.type?_name ht, ht]
  rw [buildEndpoint, assembleEndpoint_of_none hget] at he ⊢
  by_cases hm : cx.Marked c
  · obtain ⟨t', marker, ht', hmarker⟩ := hm
    obtain rfl := Option.some.inj (ht'.symm.trans ht)
    have hdraft : Tied (TypeGraph.Closed False) (cx.draft cx.resolve c t' marker) fun e g =>
        ∀ id ∈ e.mentioned, g.Clear id :=
      tied_draft (stockable_closed False) durable_clear marker
        fun r hr => clear_signatures hs hfit hname hparams hdetached hr
    obtain ⟨v, hv, ⟨e', -, ho⟩ | ⟨e', hdrafted, ho⟩⟩ :=
      assembleNew_drafted keeps_resolve_endpoints ht' hmarker hget
    · rw [ho] at he
      rw [hv, hget] at he
      cases he
    · rw [ho] at he ⊢
      obtain rfl := Option.some.inj ((Dict.get?_insert_self w.endpoints e').symm.trans he)
      have h := hdraft hw
      rw [hdrafted] at h
      exact h.result rfl
  · obtain ⟨e', ho⟩ := assembleNew_unmarked hm
    rw [ho, hget] at he
    cases he

section drafted

variable {e : Endpoint} {g g' : TypeGraph}

/-- The endpoint was drafted for this controller, over a graph that went on to become `g`. -/
def DraftedBefore (cx : BuildContext) (c : String) (e : Endpoint) (g : TypeGraph) : Prop :=
  ∃ t marker w v, cx.symbols.type? c = some t ∧ w.graph.Ready ∧
    (cx.draft cx.resolve c t marker).outcome w = (.ok e, v) ∧ cx.Extends v.graph g

theorem DraftedBefore.extend (h : cx.DraftedBefore c e g) (hext : cx.Extends g g') :
    cx.DraftedBefore c e g' := by
  obtain ⟨t, marker, w, v, ht, hw, hdraft, hv⟩ := h
  exact ⟨t, marker, w, v, ht, hw, hdraft, hv.trans hext⟩

/-- Builds can work on the graph, and the endpoint of `c`, if there is one, was drafted before it. -/
structure Drafted (cx : BuildContext) (c : String) (g : TypeGraph) (es : Dict Endpoint) : Prop where
  ready : g.Ready
  drafted {e : Endpoint} : es.get? c = some e → cx.DraftedBefore c e g

theorem Drafted.buildEndpoint (hs : cx.symbols.Unreserved) (c' : String) {w : Workspace}
    (h : cx.Drafted c w.graph w.endpoints) : cx.Drafted c ((cx.buildEndpoint c').outcome w).2.graph
      ((cx.buildEndpoint c').outcome w).2.endpoints := by
  obtain ⟨hext, hready⟩ := buildEndpoint_framed hs c' w h.ready
  refine ⟨hready, fun {e} he => ?_⟩
  have hold (hget : w.endpoints.get? c = some e) :
      cx.DraftedBefore c e ((cx.buildEndpoint c').outcome w).2.graph := (h.drafted hget).extend hext
  rcases ho : (cx.buildEndpoint c').outcome w with ⟨error | e', v⟩
  · rw [ho] at he hold
    obtain ⟨-, hendpoints, -⟩ := buildEndpoint_error ho
    exact hold (hendpoints ▸ he)
  · rw [ho] at he hold
    obtain ⟨hself, hother, hfound⟩ := buildEndpoint_ok ho
    by_cases hc : c = c'
    · subst hc
      obtain rfl := Option.some.inj (hself.symm.trans he)
      rcases hfound with hget | ⟨hnew, -⟩
      · exact hold hget
      · obtain ⟨t, marker, u, ht, -, hdraft, hgraph⟩ := exists_draft_of_buildEndpoint hnew ho
        exact ⟨t, marker, w, u, ht, h.ready, hdraft, hgraph ▸ .refl _⟩
    · exact hold ((hother c hc).symm.trans he)

end drafted

end BuildContext

namespace Processor

variable {p : Processor} {r : Round} {cx : BuildContext} {c : String} {t : DeclaredType}

/-- Nothing dangles, and the endpoint of `c` is one of those before the round, or else it mentions no
placeholders. -/
structure Unplaced (old : Dict Endpoint) (c : String) (g : TypeGraph) (es : Dict Endpoint) : Prop where
  closed : Workspace.Closed (TypeGraph.Closed False) ⟨g, es, []⟩
  clear {e : Endpoint} : es.get? c = some e → old.get? c = none → ∀ id ∈ e.mentioned, g.Clear id

theorem upheld_unplaced (hs : r.symbols.Tidy) (hfit : r.symbols.Fitting)
    (ht : r.symbols.type? c = some t) (hparams : t.typeParameters = [])
    (hdetached : r.symbols.Detached t) (old : Dict Endpoint) : Upheld r (Unplaced old c) where
  seed {g es} h := by
    have hgrows : g.Grows (g.seed r.settings) := grows_seed g r.settings
    exact ⟨h.closed.withGraph (h.closed.graph.seed False.elim) hgrows,
      fun he hold id hid => durable_clear.grow hgrows (h.clear he hold id hid)⟩
  build {cx} hsymbols _ c' w _ h := by
    have hw : w.Closed (TypeGraph.Closed False) := ⟨h.closed.graph, h.closed.endpoints⟩
    have hv : Leads (TypeGraph.Closed False) w ((cx.buildEndpoint c').outcome w) fun _ _ => True :=
      (fillable_closed False.elim).tied_buildEndpoint c' hw
    refine ⟨⟨hv.closed.graph, hv.closed.endpoints⟩, fun {e} he hold id hid => ?_⟩
    by_cases hc : c = c'
    · subst hc
      cases hget : w.endpoints.get? c with
      | some e' =>
        rw [buildEndpoint, assembleEndpoint_of_some hget] at he ⊢
        exact h.clear he hold id hid
      | none =>
        rw [← hsymbols] at hs hfit ht hdetached
        exact clear_buildEndpoint hs hfit ht hparams hdetached hw hget he id hid
    · rw [get?_buildEndpoint_of_ne cx hc] at he
      exact durable_clear.grow hv.grows (h.clear he hold id hid)

/-- No type in the endpoint of a controller without type parameters is a placeholder, at any depth,
where the declarations keep to their own variables, supertypes are given as many arguments as they
take, and no bound of a type parameter of a mapped method mentions a variable of a type. -/
theorem built_endpoint_clear (pipeline : PropertyPipeline) (events : List Event)
    (hs : r.symbols.Tidy) (hfit : r.symbols.Fitting) (ht : r.symbols.type? c = some t)
    (hparams : t.typeParameters = []) (hdetached : r.symbols.Detached t) {e : Endpoint}
    (hnew : (run (withPipeline pipeline) events).endpoints.get? c = none)
    (he : ((run (withPipeline pipeline) events).step (.round r)).endpoints.get? c = some e) :
    ∀ id ∈ e.mentioned, ((run (withPipeline pipeline) events).step (.round r)).graph.kind? id ≠
      some .genericPlaceholder := by
  have hclosed : (run (withPipeline pipeline) events).Closed False :=
    (closed_withPipeline _ pipeline).run False.elim
  have hplaced : Unplaced (run (withPipeline pipeline) events).endpoints c
      (run (withPipeline pipeline) events).graph (run (withPipeline pipeline) events).endpoints :=
    ⟨hclosed.model, fun hold hnone => by rw [hnone] at hold; cases hold⟩
  have hafter := (upheld_unplaced hs hfit ht hparams hdetached _).attempt hclosed.settled hplaced
  have hregular : ((run (withPipeline pipeline) events).step (.round r)).graph.Regular := by
    have h := run_regular pipeline (events ++ [.round r])
    rwa [run, List.foldl_append] at h
  exact fun id hid => (hafter.clear he hnew id hid).kind?_ne hregular

/-- What a round has for a new controller was drafted in it. -/
theorem drafted_step (hp : p.Orderly) (hr : r.Unreserved) {g : TypeGraph} (hopen : p.opened r = .ok (cx, g))
    (hnew : p.endpoints.get? c = none) :
    cx.Drafted c (p.step (.round r)).graph (p.step (.round r)).endpoints := by
  obtain ⟨diagnostics, hstep⟩ := step_round p r
  rw [hstep]
  rcases hb : (buildControllers cx.buildEndpoint r.controllers).run ⟨g, p.endpoints, []⟩ with ⟨built, v⟩
  obtain ⟨hgraph, hendpoints, -⟩ := prepared_of_built hp.settled hopen hb
  obtain ⟨hsymbols, -, rfl⟩ := opened_ok hopen
  have hstart : cx.Drafted c (p.graph.seed r.settings) p.endpoints :=
    ⟨hp.ready_seed hr.2, fun he => by rw [hnew] at he; cases he⟩
  have hv := buildControllers_keeps (fun c' w hw => hw.buildEndpoint (hsymbols ▸ hr.1) c') r.controllers
    (w := ⟨p.graph.seed r.settings, p.endpoints, []⟩) hstart
  rw [hb] at hv
  dsimp only
  rw [hgraph, hendpoints]
  exact hv

theorem Reached.kinded_step (hp : p.Reached) (hr : r.Unreserved) : (p.step (.round r)).graph.Kinded := by
  obtain ⟨pipeline, events, hevents, rfl⟩ := hp
  have hclosed : (run (withPipeline pipeline) events).Closed True :=
    (closed_withPipeline True pipeline).run fun _ => hevents
  have hstep : ((run (withPipeline pipeline) events).step (.round r)).Closed True :=
    hclosed.step fun _ => hr
  have hregular := run_regular pipeline (events ++ [.round r])
  rw [run, List.foldl_append] at hregular
  exact ⟨hregular, hstep.model.graph⟩

/-- A new endpoint mentions no placeholder exactly if no type in the signatures of the controller leads to a
slot. -/
theorem clear_endpoint_iff (hp : p.Reached) (hr : r.Tidy) {g : TypeGraph} (hopen : p.opened r = .ok (cx, g))
    (ht : r.symbols.type? c = some t) (hnew : p.endpoints.get? c = none) {e : Endpoint}
    (he : (p.step (.round r)).endpoints.get? c = some e) :
    (∀ id ∈ e.mentioned, (p.step (.round r)).graph.kind? id ≠ some .genericPlaceholder) ↔
      ∀ ref ∈ r.symbols.signatures t, ¬cx.LeadsToSlot (p.step (.round r)).graph ref := by
  have hgraph : (p.step (.round r)).graph.Kinded := hp.kinded_step hr.unreserved
  obtain ⟨t', marker, w, u, ht', hw, hdraft, hext⟩ :=
    (drafted_step hp.orderly hr.unreserved hopen hnew).drafted he
  obtain ⟨hsymbols, -, -⟩ := opened_ok hopen
  have hs : cx.symbols.Tidy := hsymbols ▸ hr.1
  rw [← hsymbols] at ht ⊢
  obtain rfl := Option.some.inj (ht'.symm.trans ht)
  have hplaces (ref : TypeRef) (href : ref ∈ cx.symbols.signatures t') :
      cx.Places (p.step (.round r)).graph cx.resolve ref := by
    obtain ⟨m, hm, href⟩ := List.mem_flatMap.1 href
    refine resolve_places hgraph hs ?_
    exact (hs.allMethods (SymbolTable.type?_mem ht) m hm).of_mem_types (mem_types_of_mem_signature href).2
  have hgeneric := draft_generic_iff hgraph (resolve_framed hs.unreserved) hplaces hw hdraft hext
  rw [Generic] at hgeneric
  simpa [Endpoint.mentioned] using not_congr hgeneric

/-- No type in the endpoint of a controller without type parameters is a placeholder, at any depth, exactly
if no type in the signatures of its mapped methods leads to a slot, where the declarations keep to their own
variables and supertypes are given as many arguments as they take. None does if no bound of a type parameter
of a mapped method mentions a variable of a type. -/
theorem built_endpoint_clear_iff (pipeline : PropertyPipeline) (events : List Event)
    (hp : p = run (withPipeline pipeline) events) (hs : r.symbols.Tidy) (hfit : r.symbols.Fitting)
    (ht : r.symbols.type? c = some t) (hparams : t.typeParameters = []) {g : TypeGraph}
    (hopen : p.opened r = .ok (cx, g)) (hnew : p.endpoints.get? c = none) {e : Endpoint}
    (he : (p.step (.round r)).endpoints.get? c = some e) :
    ((∀ event ∈ events, event.Unreserved) → r.settings.Unreserved →
      ((∀ id ∈ e.mentioned, (p.step (.round r)).graph.kind? id ≠ some .genericPlaceholder) ↔
        ∀ ref ∈ r.symbols.signatures t, ¬cx.LeadsToSlot (p.step (.round r)).graph ref)) ∧
      (r.symbols.Detached t →
        ∀ id ∈ e.mentioned, (p.step (.round r)).graph.kind? id ≠ some .genericPlaceholder) := by
  subst hp
  exact ⟨fun hevents hsettings =>
      clear_endpoint_iff ⟨pipeline, events, hevents, rfl⟩ ⟨hs, hsettings⟩ hopen ht hnew he,
    fun hdetached => built_endpoint_clear pipeline events hs hfit ht hparams hdetached hnew he⟩

/-- A method that returns what the type `a.Crud` is a type over. -/
def listMethod : Method :=
  ⟨"list", [], [.written Marker.requestMapping []], [], [], some (.typeVar "T" (.type "a.Crud"))⟩

/-- A method that returns a variable of its own, which that type bounds. -/
def pickMethod : Method :=
  ⟨"pick", [], [.written Marker.requestMapping []], [⟨"X", [.typeVar "T" (.type "a.Crud")]⟩], [],
    some (.typeVar "X" (.method "a.Crud" "pick" 0))⟩

/-- A controller over texts. -/
def textApi : DeclaredType :=
  ⟨"a.Api", none, none, none, .classType, [], [.written Marker.endpoint []], [],
    some (.declared "a.Crud" [.declared "java.lang.String" []]), [], [], [], [], []⟩

def crudType (m : Method) : DeclaredType :=
  ⟨"a.Crud", none, none, none, .classType, [], [], [⟨"T", []⟩], none, [], [], [m], [], []⟩

/-- It inherits the method from a type with a parameter. -/
def crudExport (m : Method) : SymbolTable := ⟨[textApi, crudType m], []⟩

def crudRound (m : Method) : Round := .process (crudExport m) .standard ["a.Api"]

theorem fitting_crud {m : Method} (hm : ∀ r ∈ m.references, ∀ v ∈ r.vars,
    (crudType m).Owns v ∨ (crudType m).Lends m v) : (crudExport m).Fitting where
  keeping t ht := by
    rcases List.mem_pair.1 ht with rfl | rfl
    · refine ⟨fun p hp => (nomatch hp), fun r hr v hv => ?_, fun m hm => (nomatch hm)⟩
      obtain rfl := List.mem_singleton.1 hr
      cases hv
    · refine ⟨fun p hp r hr => ?_, fun r hr => (nomatch hr), fun m' hm' => ?_⟩
      · obtain rfl := List.mem_singleton.1 hp
        cases hr
      obtain rfl := List.mem_singleton.1 hm'
      exact hm
  complete t ht r hr := by
    rcases List.mem_pair.1 ht with rfl | rfl
    · obtain rfl := List.mem_singleton.1 hr
      intro u hu
      obtain rfl := Option.some.inj hu
      rfl
    · cases hr

/-- What the controller inherits by `list` is a text, and leads to no slot. -/
theorem built_endpoint_clear_iff_list : ∃ e cx g, initial.opened (crudRound listMethod) = .ok (cx, g) ∧
    (initial.step (.round (crudRound listMethod))).endpoints.get? "a.Api" = some e ∧ e.mentioned ≠ [] ∧
    (∀ id ∈ e.mentioned,
      (initial.step (.round (crudRound listMethod))).graph.kind? id ≠ some .genericPlaceholder) ∧
    ∀ ref ∈ (crudExport listMethod).signatures textApi,
      ¬cx.LeadsToSlot (initial.step (.round (crudRound listMethod))).graph ref := by
  have hfit : (crudExport listMethod).Fitting := by
    refine fitting_crud fun r hr v hv => .inl ?_
    obtain rfl := List.mem_singleton.1 hr
    obtain rfl := List.mem_singleton.1 hv
    exact ⟨rfl, List.mem_singleton.2 rfl⟩
  have hdetached : (crudExport listMethod).Detached textApi := by
    intro m hm _ p hp
    obtain ⟨u, m₀, hu, hm₀, hsame, -⟩ :=
      SymbolTable.exists_lends_of_mem_allMethods hfit (t := textApi) rfl rfl hm
    rcases List.mem_pair.1 (SymbolTable.type?_mem hu) with rfl | rfl
    · cases hm₀
    · obtain rfl := List.mem_singleton.1 hm₀
      rw [hsame] at hp
      cases hp
  have hbuilt : ((initial.step (.round (crudRound listMethod))).endpoints.get? "a.Api").any
      fun e => !e.mentioned.isEmpty := by decide +kernel
  obtain ⟨e, he, hmentioned⟩ := (Option.any_eq_true ..).1 hbuilt
  obtain ⟨⟨cx, g⟩, hopen, -⟩ := exists_of_toOption_any (x := initial.opened (crudRound listMethod))
    (f := fun _ => true) (by decide +kernel)
  obtain ⟨hiff, hclear⟩ := built_endpoint_clear_iff .standard [] (r := crudRound listMethod) (t := textApi)
    rfl (by decide +kernel) hfit rfl rfl hopen rfl he
  have hexact := hiff (fun _ h => nomatch h) (by decide +kernel)
  refine ⟨e, cx, g, hopen, he, ?_, hclear hdetached, hexact.1 (hclear hdetached)⟩
  intro hnil
  rw [hnil] at hmentioned
  cases hmentioned

/-- What it inherits by `pick` is a variable of the type that it inherits from. -/
theorem built_endpoint_placed_pick : (crudExport pickMethod).Fitting ∧
    (crudExport pickMethod).type? "a.Api" = some textApi ∧ textApi.typeParameters = [] ∧
      ∃ e, (initial.step (.round (crudRound pickMethod))).endpoints.get? "a.Api" = some e ∧
        ∃ id ∈ e.mentioned, (initial.step (.round (crudRound pickMethod))).graph.kind? id =
          some .genericPlaceholder := by
  refine ⟨fitting_crud fun r hr v hv => ?_, rfl, rfl, ?_⟩
  · rcases List.mem_pair.1 hr with rfl | rfl
    · obtain rfl := List.mem_singleton.1 hv
      exact .inl ⟨rfl, List.mem_singleton.2 rfl⟩
    · obtain rfl := List.mem_singleton.1 hv
      exact .inr ⟨0, rfl, rfl⟩
  · have hplaced : ((initial.step (.round (crudRound pickMethod))).endpoints.get? "a.Api").any
        fun e => e.mentioned.any fun id =>
          (initial.step (.round (crudRound pickMethod))).graph.kind? id ==
            some .genericPlaceholder := by decide +kernel
    obtain ⟨e, he, hany⟩ := (Option.any_eq_true ..).1 hplaced
    obtain ⟨id, hid, hkind⟩ := List.any_eq_true.1 hany
    exact ⟨e, he, id, hid, eq_of_beq hkind⟩

end Processor

end ClientBindings
