import ClientBindings.Proofs.Endpoint.Contents
import ClientBindings.Proofs.Round.Preservation

/-! What the methods of an endpoint return. A method without a declared result returns nothing, and so does
one whose result leads to a type variable for which there is no parameter: properties and parameters are of
any type then, a result is left out. -/
namespace ClientBindings

open BuildContext TypeGraph

/-- The definition has a parameter of that name. -/
def TypeGraph.HasParameter (g : TypeGraph) (id : TypeId) (name : String) : Prop :=
  ∃ d p q, g.definition? id = some d ∧ p ∈ d.genericParams ∧ g.definition? p = some q ∧ q.shortName = name

namespace BuildContext

variable {cx : BuildContext} {g g' : TypeGraph} {id id' : TypeId} {name : String} {r : TypeRef}

theorem placeholder?_eq_none_iff : placeholder? g id name = none ↔ ¬g.HasParameter id name := by
  rw [placeholder?, Option.bind_eq_none_iff]
  constructor
  · rintro h ⟨d, p, q, hd, hp, hq, hname⟩
    have hnone := List.find?_eq_none.1 (h d hd) p hp
    rw [hq] at hnone
    exact hnone (beq_iff_eq.2 hname)
  · refine fun h d hd => List.find?_eq_none.2 fun p hp hfound => ?_
    cases hq : g.definition? p with
    | none =>
      rw [hq] at hfound
      cases hfound
    | some q =>
      rw [hq] at hfound
      exact h ⟨d, p, q, hd, hp, hq, beq_iff_eq.1 hfound⟩

/-- The definition that a name stands for has this number. -/
def StandsFor (cx : BuildContext) (g : TypeGraph) (name : String) (id : TypeId) : Prop :=
  ∃ n, cx.nameIn? g name = some n ∧ g.idOf? n = some id

theorem StandsFor.unique (h : cx.StandsFor g name id) (h' : cx.StandsFor g name id') : id = id' := by
  obtain ⟨n, hn, hid⟩ := h
  obtain ⟨n', hn', hid'⟩ := h'
  obtain rfl := Option.some.inj (hn.symm.trans hn')
  exact Option.some.inj (hid.symm.trans hid')

/-- A registered name, or one without the sign of placeholders, goes on standing for its definition. -/
theorem StandsFor.extend (h : cx.StandsFor g name id) (hext : cx.Extends g g')
    (hname : Unreserved name ∨ (g.idOf? name).isSome = true) : cx.StandsFor g' name id := by
  obtain ⟨n, hn, hid⟩ := h
  refine ⟨n, ?_, hext.names hid⟩
  rcases hname with hname | hsome
  · exact hext.nameIn? hname hn
  · obtain ⟨i, hi⟩ := Option.isSome_iff_exists.1 hsome
    rw [nameIn?, hi] at hn
    rw [nameIn?, hext.names hi]
    exact hn

/-- A reference leads to a variable of a type that stands for a definition without such a parameter: it is
that variable, a variable of a method whose only bound leads to it, or bounded above by what does. -/
inductive Slotless (cx : BuildContext) (g : TypeGraph) : TypeRef → Prop
  | slot {name owner : String} {id : TypeId} (hid : cx.StandsFor g owner id)
      (h : ¬g.HasParameter id name) : Slotless cx g (.typeVar name (.type owner))
  | bound {name declaringType method : String} {overload : Nat} {p : TypeParameter} {b : TypeRef}
      (hp : cx.symbols.typeParameter? (.method declaringType method overload) name = some p)
      (hb : p.bounds = [b]) (h : Slotless cx g b) :
      Slotless cx g (.typeVar name (.method declaringType method overload))
  | upper {b : TypeRef} {lower : Option TypeRef} (h : Slotless cx g b) : Slotless cx g (.wildcard (some b) lower)

theorem StandsFor.slotless_iff {owner : String} (h : cx.StandsFor g owner id) :
    cx.Slotless g (.typeVar name (.type owner)) ↔ ¬g.HasParameter id name := by
  constructor
  · intro hslotless
    cases hslotless with
    | slot hid hparameter => exact h.unique hid ▸ hparameter
  · exact .slot h

theorem slotless_method_iff {declaringType method : String} {overload : Nat} {p : TypeParameter}
    (hp : cx.symbols.typeParameter? (.method declaringType method overload) name = some p) :
    cx.Slotless g (.typeVar name (.method declaringType method overload)) ↔
      ∃ b, p.bounds = [b] ∧ cx.Slotless g b := by
  constructor
  · intro h
    cases h with
    | bound hp' hb h =>
      obtain rfl := Option.some.inj (hp.symm.trans hp')
      exact ⟨_, hb, h⟩
  · rintro ⟨b, hb, h⟩
    exact .bound hp hb h

/-- A method of an endpoint returns nothing exactly if the declared one does or its result is one of these. -/
def ReturnsAs (cx : BuildContext) (g : TypeGraph) (m : Method) (e : EndpointMethod) : Prop :=
  e.returnType = none ↔ m.returnType = none ∨ ∃ r, m.returnType = some r ∧ cx.Slotless g r

theorem ReturnsAs.declared_iff {m : Method} {e : EndpointMethod} (h : cx.ReturnsAs g m e) :
    (e.returnType = none ↔ m.returnType = none) ↔
      ∀ r, m.returnType = some r → ¬cx.Slotless g r := by
  rw [ReturnsAs] at h
  rw [h]
  constructor
  · intro hiff r hr hslotless
    have hnone : m.returnType = none := hiff.1 (.inr ⟨r, hr, hslotless⟩)
    rw [hr] at hnone
    cases hnone
  · refine fun hno => ⟨fun hnone => hnone.resolve_right ?_, .inl⟩
    rintro ⟨r, hr, hslotless⟩
    exact hno r hr hslotless

section resolving

variable {f : Resolver} {w v : Workspace} {i? : Option TypeInstance} (hs : cx.symbols.Unreserved)
include hs

theorem getOrDefine_standsFor (hf : ∀ r, cx.Framed (f r)) (hw : w.graph.Ready)
    (h : (cx.getOrDefine (cx.define f) name).outcome w = (.ok id, v)) : cx.StandsFor v.graph name id := by
  cases hn : cx.nameIn? w.graph name with
  | some n =>
    obtain ⟨id', v', hid, hgraph, -, ho⟩ := getOrDefine_of_named hw.stocked hn
    rw [ho] at h
    cases h
    rw [← hgraph] at hn hid
    exact ⟨n, hn, hid⟩
  | none =>
    obtain ⟨t, ht, -, ho⟩ := getOrDefine_of_unnamed hn
    rw [ho] at h
    have hid : v.graph.idOf? name = some id :=
      ht.name_eq ▸ define_ok (ht.unreserved hs) hf ht.self hw h
    exact ⟨name, nameIn?_of_definable ht hid, hid⟩

/-- A variable of a type resolves to nothing exactly if there is no parameter for it. -/
theorem resolveVariable_eq_none_iff {owner : String} (hf : ∀ r, cx.Framed (f r)) (hw : w.graph.Ready)
    (h : (cx.resolveVariable (cx.define f) f name (.type owner)).outcome w = (.ok i?, v))
    (hext : cx.Extends v.graph g) : i? = none ↔ cx.Slotless g (.typeVar name (.type owner)) := by
  rw [resolveVariable, Build.outcome_lift_bind, Work.run_graph] at h
  dsimp only at h
  split at h
  · cases h
  · rename_i hknown
    obtain ⟨id, u, hid, h⟩ := Build.outcome_bind_ok.1 h
    rw [Build.outcome_lift_bind, Work.run_graph] at h
    cases h
    obtain ⟨hgrown, hready⟩ := getOrDefine_framed hs hf owner w hw
    rw [hid] at hgrown hready
    have hstands : cx.StandsFor u.graph owner id := getOrDefine_standsFor hs hf hw hid
    -- the owner is declared, so without the sign, or it was registered before
    have howner : Unreserved owner ∨ (u.graph.idOf? owner).isSome = true := by
      cases ht : cx.symbols.type? owner with
      | some t => exact .inl (SymbolTable.type?_name ht ▸ hs t (SymbolTable.type?_mem ht))
      | none =>
        cases hreg : w.graph.idOf? owner with
        | some i => exact .inr (by rw [hgrown.names hreg]; rfl)
        | none => simp [ht, hreg] at hknown
    have hlater : cx.StandsFor g owner id := hstands.extend hext howner
    have hsame : placeholder? g id name = placeholder? u.graph id name :=
      placeholder?_extends hready (getOrDefine_registered hs hf hw hid) hext name
    rw [Option.map_eq_none_iff, ← hsame, placeholder?_eq_none_iff, hlater.slotless_iff]

omit hs in
/-- A variable of a method resolves as its only bound does, and to any type without one. -/
theorem resolveVariable_method_eq_none_iff {d : Definer} {declaringType method : String} {overload : Nat}
    (hf : ∀ b, (f b).outcome w = (.ok i?, v) → (i? = none ↔ cx.Slotless g b))
    (h : (cx.resolveVariable d f name (.method declaringType method overload)).outcome w = (.ok i?, v)) :
    i? = none ↔ cx.Slotless g (.typeVar name (.method declaringType method overload)) := by
  simp only [resolveVariable] at h
  split at h
  · cases h
  rename_i p hp
  rw [slotless_method_iff hp]
  split at h
  · rename_i b hb
    rw [hf b h, hb]
    simp
  · rename_i hb
    obtain ⟨i, u, -, h⟩ := Build.outcome_bind_ok.1 h
    cases h
    rw [hb]
    simp
  · rename_i hb _
    obtain ⟨_, u, -, h⟩ := Build.outcome_bind_ok.1 h
    obtain ⟨i, u', -, h⟩ := Build.outcome_bind_ok.1 h
    cases h
    refine iff_of_false (Option.some_ne_none i) ?_
    rintro ⟨b, heq, -⟩
    exact hb b heq

/-- What resolves to nothing are the references that lead to such a variable, in the graph that is left and
in all that it becomes. -/
theorem resolveAt_eq_none_iff {depth : Nat} (hw : w.graph.Ready)
    (h : (cx.resolveAt depth r).outcome w = (.ok i?, v)) (hext : cx.Extends v.graph g) :
    i? = none ↔ cx.Slotless g r := by
  induction depth generalizing r w with
  | zero => cases h
  | succ depth ih =>
    cases r with
    | typeVar name owner =>
      cases owner with
      | type owner => exact resolveVariable_eq_none_iff hs (resolveAt_framed hs depth) hw h hext
      | method declaringType method overload =>
        exact resolveVariable_method_eq_none_iff (d := cx.define (cx.resolveAt depth))
          (fun b hb => ih hw hb) h
    | wildcard upper lower =>
      cases upper with
      | some b =>
        rw [ih hw h]
        exact ⟨.upper, fun | .upper hslotless => hslotless⟩
      | none =>
        obtain ⟨i, u, -, h⟩ := Build.outcome_bind_ok.1 h
        cases h
        exact iff_of_false (Option.some_ne_none i) fun hslotless => nomatch hslotless
    | primitive name =>
      obtain ⟨id, u, -, h⟩ := Build.outcome_bind_ok.1 h
      cases h
      exact iff_of_false (Option.some_ne_none _) fun hslotless => nomatch hslotless
    | declared name args =>
      refine iff_of_false (fun hnone => ?_) fun hslotless => nomatch hslotless
      obtain ⟨id, u, -, h⟩ := Build.outcome_bind_ok.1 h
      obtain ⟨graph, u', -, h⟩ := Build.outcome_bind_ok.1 h
      dsimp only at h
      split at h
      · obtain ⟨is, u'', -, h⟩ := Build.outcome_bind_ok.1 h
        cases h
        cases hnone
      · cases h
        cases hnone
    | array component =>
      obtain ⟨i, u, -, h⟩ := Build.outcome_bind_ok.1 h
      obtain ⟨id, u', -, h⟩ := Build.outcome_bind_ok.1 h
      cases h
      exact iff_of_false (Option.some_ne_none _) fun hslotless => nomatch hslotless

end resolving

section building

variable {w v : Workspace} {f : Resolver} (hf : ∀ r, cx.Framed (f r))

theorem Framed.grown {α : Type} {m : Build α} {result : Except BuildError α} (hm : cx.Framed m)
    (hw : w.graph.Ready) (h : m.outcome w = (result, v)) : cx.Grown w.graph v.graph := by
  have hv := hm w hw
  rwa [h] at hv

theorem resolveMapping_framed (cx : BuildContext) (annotations : List Annotation) (location : String) :
    cx.Framed (cx.symbols.resolveMapping annotations location) :=
  framed_iff_keeps.2 fun g₀ =>
    keeps_resolveMapping (observant_grown g₀) (fun _ _ _ _ hw => .inr hw) cx.symbols annotations location

include hf

theorem buildParameters_framed (location : String) (ps : List Parameter) :
    cx.Framed (cx.buildParameters f location ps) :=
  framed_iff_keeps.2 fun g₀ => keeps_buildParameters (observant_grown g₀)
    (fun p _ => framed_iff_keeps.1 (hf p.type) g₀) location

theorem buildMethod_framed (controller : String) (default? : Option Mapping) (m : Method) :
    cx.Framed (cx.buildMethod f controller default? m) :=
  framed_iff_keeps.2 fun g₀ => keeps_buildMethod (observant_grown g₀) (fun _ _ _ _ hw => .inr hw)
    (fun r => framed_iff_keeps.1 (hf r) g₀) controller default? m

/-- The result of a method is resolved last. -/
theorem buildMethod_returnType {controller : String} {default? : Option Mapping} {m : Method}
    {e : EndpointMethod} (hw : w.graph.Ready)
    (h : (cx.buildMethod f controller default? m).outcome w = (.ok (some e), v)) :
    ∃ u, u.graph.Ready ∧ (resolveReturn f m.returnType).outcome u = (.ok e.returnType, v) := by
  unfold buildMethod at h
  obtain ⟨mapping?, u, hmapping, h⟩ := Build.outcome_bind_ok.1 h
  have hu : u.graph.Ready := ((resolveMapping_framed cx _ _).grown hw hmapping).2
  cases mapping? with
  | none => cases h
  | some mapping =>
    obtain ⟨params, u', hparams, h⟩ := Build.outcome_bind_ok.1 h
    obtain ⟨returnType, u'', hreturn, h⟩ := Build.outcome_bind_ok.1 h
    cases h
    exact ⟨u', ((buildParameters_framed hf _ m.parameters).grown hu hparams).2, hreturn⟩

end building

section endpoints

variable {w v : Workspace} (hs : cx.symbols.Unreserved)
include hs

theorem resolve_framed (r : TypeRef) : cx.Framed (cx.resolve r) := resolveAt_framed hs _ r

/-- A method that is built returns nothing just if it should, in every later graph. -/
theorem buildMethod_returnsAs {controller : String} {default? : Option Mapping} {m : Method}
    {e : EndpointMethod} (hw : w.graph.Ready)
    (h : (cx.buildMethod cx.resolve controller default? m).outcome w = (.ok (some e), v))
    (hext : cx.Extends v.graph g) : cx.ReturnsAs g m e := by
  obtain ⟨u, hu, hreturn⟩ := buildMethod_returnType (resolve_framed hs) hw h
  rw [ReturnsAs]
  cases hr : m.returnType with
  | none =>
    rw [hr] at hreturn
    have hnone : none = e.returnType := Except.ok.inj (Prod.mk.inj hreturn).1
    simp [← hnone]
  | some r =>
    rw [hr] at hreturn
    rw [resolveAt_eq_none_iff hs hu hreturn hext]
    simp

theorem draft_returnsAs {c : String} {t : DeclaredType} {marker : ResolvedAnnotation} {e : Endpoint}
    (hw : w.graph.Ready) (h : (cx.draft cx.resolve c t marker).outcome w = (.ok e, v)) :
    List.Forall₂ (cx.ReturnsAs v.graph) ((cx.symbols.allMethods t).filter cx.symbols.isMapped) e.methods := by
  obtain ⟨mapping?, u, hmapping, h⟩ := Build.outcome_bind_ok.1 h
  obtain ⟨methods, u', hmethods, h⟩ := Build.outcome_bind_ok.1 h
  cases h
  have hu : u.graph.Ready := ((resolveMapping_framed cx _ _).grown hw hmapping).2
  obtain ⟨-, hall⟩ := buildMethods_ok (R := fun w v => w.graph.Ready → cx.Grown w.graph v.graph)
    (fun w hw => ⟨.refl _, hw⟩)
    (fun w u v hwu huv hw => ⟨(hwu hw).1.trans (huv (hwu hw).2).1, (huv (hwu hw).2).2⟩)
    (fun m w v built ho hw => (buildMethod_framed (resolve_framed hs) _ _ m).grown hw ho) hmethods
  refine hall.imp fun m e ⟨x, x', hux, hxv, he⟩ => ?_
  have hx : x.graph.Ready := (hux hu).2
  have hx' : x'.graph.Ready := ((buildMethod_framed (resolve_framed hs) _ _ m).grown hx he).2
  exact buildMethod_returnsAs hs hx he (hxv hx').1

end endpoints

end BuildContext

/-- Where a related pair satisfies `R` exactly if its first element satisfies `P`, all pairs satisfy `R`
exactly if all the first elements satisfy `P`. -/
theorem forall₂_iff_forall {α β : Type} {Q R : α → β → Prop} {P : α → Prop} {as : List α} {bs : List β}
    (h : List.Forall₂ Q as bs) (hQ : ∀ a b, Q a b → (R a b ↔ P a)) :
    List.Forall₂ R as bs ↔ ∀ a ∈ as, P a := by
  induction h with
  | nil => simp
  | cons hab _ ih => rw [List.forall₂_cons, List.forall_mem_cons, hQ _ _ hab, ih]

namespace Processor

/-- What the methods of a new endpoint return, after any requests and resets before: nothing exactly if the
declared method does, or its result leads to a type variable for which there is no parameter. So they all
return what is declared exactly if there is no such result among those of the mapped methods. -/
theorem built_returns (pipeline pipeline' : PropertyPipeline) {ts : List Turn}
    (hts : ∀ t ∈ ts, t.Unreserved) {symbols : SymbolTable} {settings : Settings}
    (hs : symbols.Unreserved) (hsettings : settings.Unreserved) {p : Processor}
    (hp : p = (withPipeline pipeline).turns ts) {cx : BuildContext} {g : TypeGraph}
    (hopen : openContext symbols settings pipeline' p.graph = .ok (cx, g)) {c : String}
    (hnew : p.endpoints.get? c = none) {ds : List Diagnostic} {e : Endpoint} {v : Workspace}
    (h : (cx.buildEndpoint c).outcome ⟨g, p.endpoints, ds⟩ = (.ok e, v)) :
    ∃ t, symbols.type? c = some t ∧
      List.Forall₂ (cx.ReturnsAs v.graph) ((symbols.allMethods t).filter symbols.isMapped) e.methods ∧
      (List.Forall₂ (fun m e => e.returnType = none ↔ m.returnType = none)
          ((symbols.allMethods t).filter symbols.isMapped) e.methods ↔
        ∀ m ∈ (symbols.allMethods t).filter symbols.isMapped, ∀ r, m.returnType = some r →
          ¬cx.Slotless v.graph r) := by
  have hsteady : p.Steady := hp ▸ (Steady.reset (withPipeline pipeline)).turns hts
  obtain ⟨hsymbols, -, rfl⟩ := openContext_ok hopen
  subst hsymbols
  obtain ⟨t, marker, u, ht, -, hdraft, hgraph⟩ := exists_draft_of_buildEndpoint hnew h
  have hready : (p.graph.seed settings).Ready := hsteady.ready_seed hsettings
  have hall := draft_returnsAs hs hready hdraft
  rw [← hgraph] at hall
  exact ⟨t, ht, hall, forall₂_iff_forall hall fun m e hreturns => hreturns.declared_iff⟩

/-- A controller with a method that takes and returns what its own type parameter stands for. -/
def echoType : DeclaredType :=
  let own : TypeRef := .typeVar "T" (.type "a.Api")
  ⟨"a.Api", none, none, none, .classType, [], [.written Marker.endpoint []], [⟨"T", []⟩], none, [], [],
    [⟨"echo", [], [.written Marker.requestMapping []], [],
        [⟨"value", own, [.written Marker.requestBody []]⟩], some own⟩,
      ⟨"size", [], [.written Marker.requestMapping []], [], [], some (.primitive "int")⟩,
      ⟨"ping", [], [.written Marker.requestMapping []], [], [], none⟩], [], []⟩

def echoSymbols : SymbolTable := ⟨[echoType], []⟩

/-- The controller is excluded from the types, so there is no parameter for its variable. -/
def echoSettings : Settings := { Settings.standard with excludeClasses := [("api", "a\\.Api")] }

/-- The method takes anything and returns nothing. -/
theorem echo_builds : ∃ cx g e v,
    openContext echoSymbols echoSettings .standard (withPipeline .standard).graph = .ok (cx, g) ∧
    (cx.buildEndpoint "a.Api").outcome ⟨g, [], []⟩ = (.ok e, v) ∧
    e.methods.map (fun m => (m.name, m.returnType.isSome)) =
      [("echo", false), ("size", true), ("ping", false)] ∧
    "  public echo(value: any): Observable<void> \x7b" ∈
      ((Artifact.allMethodLines echoSettings e.methods).run v).1 := by
  obtain ⟨opened, hopen, hrun⟩ := exists_of_toOption_any
    (x := openContext echoSymbols echoSettings .standard (withPipeline .standard).graph)
    (f := fun opened =>
      let built : Outcome Endpoint := (opened.1.buildEndpoint "a.Api").outcome ⟨opened.2, [], []⟩
      built.1.toOption.any fun (e : Endpoint) => decide (
        e.methods.map (fun m => (m.name, m.returnType.isSome)) =
          [("echo", false), ("size", true), ("ping", false)] ∧
        "  public echo(value: any): Observable<void> \x7b" ∈
          ((Artifact.allMethodLines echoSettings e.methods).run built.2).1)) (by decide +kernel)
  obtain ⟨e, ho, hfound⟩ := Outcome.exists_ok_of_any hrun
  exact ⟨opened.1, opened.2, e, _, hopen, ho, of_decide_eq_true hfound⟩

/-- Of the three methods two return nothing, one because there is no parameter for its result. -/
theorem built_returns_echo : ∃ cx g e v,
    openContext echoSymbols echoSettings .standard (withPipeline .standard).graph = .ok (cx, g) ∧
    (cx.buildEndpoint "a.Api").outcome ⟨g, [], []⟩ = (.ok e, v) ∧
    e.methods.map (fun m => (m.name, m.returnType.isSome)) =
      [("echo", false), ("size", true), ("ping", false)] ∧
    List.Forall₂ (cx.ReturnsAs v.graph) ((echoSymbols.allMethods echoType).filter echoSymbols.isMapped)
      e.methods := by
  obtain ⟨cx, g, e, v, hopen, ho, hmethods, -⟩ := echo_builds
  have hts : ∀ t ∈ ([] : List Turn), t.Unreserved := fun t ht => nomatch ht
  have hs : echoSymbols.Unreserved := by
    intro t ht
    rw [List.mem_singleton.1 ht]
    decide
  have hsettings : echoSettings.Unreserved := by decide +kernel
  obtain ⟨t, ht, hreturns, -⟩ := built_returns .standard .standard hts hs hsettings rfl hopen rfl ho
  obtain rfl : echoType = t := Option.some.inj ht
  exact ⟨cx, g, e, v, hopen, ho, hmethods, hreturns⟩

/-- The result of the first method is declared, and is left out of the endpoint and of its service. -/
theorem not_built_returns_declared : ∃ cx g e v,
    openContext echoSymbols echoSettings .standard (withPipeline .standard).graph = .ok (cx, g) ∧
    (cx.buildEndpoint "a.Api").outcome ⟨g, [], []⟩ = (.ok e, v) ∧
    "  public echo(value: any): Observable<void> \x7b" ∈
      ((Artifact.allMethodLines echoSettings e.methods).run v).1 ∧
    ¬List.Forall₂ (fun m e => e.returnType = none ↔ m.returnType = none)
      ((echoSymbols.allMethods echoType).filter echoSymbols.isMapped) e.methods := by
  obtain ⟨cx, g, e, v, hopen, ho, hmethods, hlines⟩ := echo_builds
  refine ⟨cx, g, e, v, hopen, ho, hlines, fun hall => ?_⟩
  have hdeclared : ((echoSymbols.allMethods echoType).filter echoSymbols.isMapped).map
      (·.returnType.isSome) = [true, true, false] := by
    decide +kernel
  obtain ⟨m, ms, hm, hsome, -⟩ := List.map_eq_cons_iff.1 hdeclared
  obtain ⟨first, rest, hfirst, hname, -⟩ := List.map_eq_cons_iff.1 hmethods
  have hnone : first.returnType = none := by simpa using congrArg Prod.snd hname
  rw [hfirst, hm, List.forall₂_cons] at hall
  rw [hall.1.1 hnone] at hsome
  cases hsome

end Processor

end ClientBindings
