import ClientBindings.Proofs.Graph.Numbering
import ClientBindings.Proofs.Round.Retry
import ClientBindings.Proofs.Translation.Calls

/-! What is asked of a processor only adds to its model, whether it succeeds or fails. Rounds are
asked for, and single builds over a context that is opened for them. -/
namespace ClientBindings

open BuildContext TypeGraph

/-- A list that is ordered like a longer one is where the longer one starts, if what is new there
comes after all of it. -/
theorem isPrefix_of_pairwise {α : Type} {r : α → α → Prop} (hr : ∀ a b, r a b → ¬r b a)
    {xs ys : List α} (hx : xs.Pairwise r) (hy : ys.Pairwise r) (hsub : xs ⊆ ys)
    (hnew : ∀ b ∈ ys, b ∈ xs ∨ ∀ a ∈ xs, r a b) : xs <+: ys := by
  induction xs generalizing ys with
  | nil => exact List.nil_prefix
  | cons a xs ih =>
    have ha : a ∈ ys := hsub (List.mem_cons_self ..)
    cases ys with
    | nil => cases ha
    | cons b ys =>
      obtain ⟨hax, hxs⟩ := List.pairwise_cons.1 hx
      obtain ⟨hby, hys⟩ := List.pairwise_cons.1 hy
      -- the first of the longer list is not after `a`, and it is not after anything else
      have hab : a = b := by
        rcases List.mem_cons.1 ha with hab | ha
        · exact hab
        · have hba : r b a := hby a ha
          rcases hnew b (List.mem_cons_self ..) with hb | hb
          · rcases List.mem_cons.1 hb with hb | hb
            · exact hb.symm
            · exact absurd (hax b hb) (hr b a hba)
          · exact absurd (hb a (List.mem_cons_self ..)) (hr b a hba)
      subst hab
      refine List.cons_prefix_cons.2 ⟨rfl, ih hxs hys (fun c hc => ?_) fun c hc => ?_⟩
      · refine (List.mem_cons.1 (hsub (List.mem_cons_of_mem _ hc))).resolve_left fun hca => ?_
        exact hr _ _ (hca ▸ hax c hc) (hca ▸ hax c hc)
      · rcases hnew c (List.mem_cons_of_mem _ hc) with hc' | hc'
        · refine .inl ((List.mem_cons.1 hc').resolve_left fun hca => ?_)
          exact hr _ _ (hca ▸ hby c hc) (hca ▸ hby c hc)
        · exact .inr fun d hd => hc' d (List.mem_cons_of_mem _ hd)

namespace TypeGraph

variable {g g' : TypeGraph} {s : Settings}

/-- Definitions that are there stay as they are. -/
theorem definition?_seed {id : TypeId} {d : TypeDefinition} (h : g.definition? id = some d) :
    (g.seed s).definition? id = some d :=
  seed_induction (J := fun g => g.definition? id = some d) (fun _ _ h => h)
    (fun _ _ _ h => definition?_register h) h

/-- A graph whose definitions all stay as they are, is the beginning of the later one. -/
theorem Continues.isPrefix (h : g.Continues g') (hg : g.Numbered)
    (hkept : ∀ id d, g.definition? id = some d → g'.definition? id = some d) :
    g.definitions <+: g'.definitions := by
  refine isPrefix_of_pairwise (r := fun d d' : TypeDefinition => d.id < d'.id)
    (fun _ _ => Nat.lt_asymm) hg.ordered h.ordered (fun d hd => ?_) fun d hd => ?_
  · exact mem_of_definition? (hkept _ d (hg.listed hd))
  · rcases h.later (h.named (h.listed hd)) with hid | hle
    · obtain ⟨d', hd', -⟩ := hg.indexed hid
      have heq : d = d' := Option.some.inj ((h.listed hd).symm.trans (hkept _ d' hd'))
      exact .inl (heq ▸ mem_of_definition? hd')
    · exact .inr fun a ha => Nat.lt_of_lt_of_le (hg.fresh (hg.listed ha)) hle

end TypeGraph

namespace BuildContext

variable {cx : BuildContext}

theorem outcome_forget {α : Type} (m : Build α) (w : Workspace) :
    ((do let _ ← m; pure ()).outcome w).2 = (m.outcome w).2 := by
  rw [Build.outcome_bind]
  rcases m.outcome w with ⟨e | a, v⟩ <;> rfl

/-- A call leaves what the build leaves that it makes. -/
theorem call_outcome (cx : BuildContext) (c : Call) (w : Workspace) :
    ((cx.call c).outcome w).2 = match c with
      | .define name => ((cx.defineName name).outcome w).2
      | .resolve r => ((cx.resolve r).outcome w).2
      | .endpoint controllerType => ((cx.buildEndpoint controllerType).outcome w).2 := by
  cases c with
  | define name => exact outcome_forget (cx.defineName name) w
  | resolve r => exact outcome_forget (cx.resolve r) w
  | endpoint controllerType => exact outcome_forget (cx.buildEndpoint controllerType) w

theorem call_framed (hs : cx.symbols.Unreserved) (c : Call) : cx.Framed (cx.call c) := by
  intro w hw
  rw [call_outcome]
  cases c with
  | define name => exact getOrDefine_framed hs (fun r => resolveAt_framed hs _ r) name w hw
  | resolve r => exact resolveAt_framed hs _ r w hw
  | endpoint controllerType => exact buildEndpoint_framed hs controllerType w hw

/-- What every registration and every change of content keeps, a call keeps. -/
theorem call_enduring {J : TypeGraph → Prop} (hJ : Enduring J) (c : Call) {w : Workspace}
    (hw : J w.graph) : J ((cx.call c).outcome w).2.graph := by
  rw [call_outcome]
  cases c with
  | define name => exact hJ.defineName name hw
  | resolve r => exact hJ.resolve r hw
  | endpoint controllerType => exact hJ.buildEndpoint controllerType hw

theorem keeps_defineName_endpoints (es : Dict Endpoint) (name : String) :
    (endpointsLaw es).Keeps (fun w w' => w = w' ∧ w.endpoints = es) (cx.defineName name)
      (cx.defineName name) := by
  have hI := lasting_endpoints es
  refine keeps_getOrDefine hI.observant fun t _ => ?_
  exact Lasting.matches_define hI (fun _ _ hw => hI.graph hw) (fun _ _ hw _ => hI.register _ hw)
    fun r _ => keeps_resolve_endpoints es r

theorem endpoints_of_keeps {α : Type} {m : Build α} {w : Workspace}
    (h : (endpointsLaw w.endpoints).Keeps (fun v v' => v = v' ∧ v.endpoints = w.endpoints) m m) :
    (m.outcome w).2.endpoints = w.endpoints :=
  (h.workspaces (fun _ he => he) (fun _ _ _ _ hv => hv.2.2) ⟨rfl, rfl⟩).2

/-- Endpoints that are registered stay as they are. -/
theorem call_endpoints (c : Call) {w : Workspace} {controller : String} {e : Endpoint}
    (h : w.endpoints.get? controller = some e) :
    ((cx.call c).outcome w).2.endpoints.get? controller = some e := by
  rw [call_outcome]
  cases c with
  | define name =>
    dsimp only
    rw [endpoints_of_keeps (keeps_defineName_endpoints _ name), h]
  | resolve r =>
    dsimp only
    rw [endpoints_of_keeps (keeps_resolve_endpoints _ r), h]
  | endpoint controllerType =>
    dsimp only
    rcases ho : (cx.buildEndpoint controllerType).outcome w with ⟨e' | e', v⟩
    · obtain ⟨-, hv, -⟩ := buildEndpoint_error ho
      rw [hv, h]
    · obtain ⟨hself, hother, hfound⟩ := buildEndpoint_ok ho
      by_cases hc : controller = controllerType
      · subst hc
        rcases hfound with hfound | ⟨hnone, -⟩
        · rw [hself, ← hfound, h]
        · rw [hnone] at h
          cases h
      · rw [hother controller hc, h]

end BuildContext

/-- What is asked of a processor. A context that is kept for several builds finds the graph seeded,
as one that is opened for each of them does. -/
inductive Request where
  | round (r : Round)
  | build (symbols : SymbolTable) (settings : Settings) (pipeline : PropertyPipeline) (c : Call)

/-- The sign of placeholders is in no name that is declared or overridden. -/
def Request.Unreserved : Request → Prop
  | round r => r.Unreserved
  | build symbols settings _ _ => symbols.Unreserved ∧ settings.Unreserved

/-- Requests come one after the other, and in between the model may be dropped. -/
inductive Turn where
  | request (r : Request)
  | reset

def Turn.Unreserved : Turn → Prop
  | request r => r.Unreserved
  | reset => True

namespace Processor

/-- What a request leaves, whether it succeeds or fails. -/
def serve (p : Processor) : Request → Processor
  | .round r => (p.attempt r).2
  | .build symbols settings pipeline c =>
    match openContext symbols settings pipeline p.graph with
    | .error _ => p
    | .ok (cx, graph) =>
      let w := ((cx.call c).outcome ⟨graph, p.endpoints, []⟩).2
      { p with graph := w.graph, endpoints := w.endpoints }

def turn (p : Processor) : Turn → Processor
  | .request r => p.serve r
  | .reset => p.reset

def turns (p : Processor) (ts : List Turn) : Processor := ts.foldl turn p

/-- The second processor has the model of the first, and after it what is new. -/
structure Adds (p q : Processor) : Prop where
  names {n : String} {id : TypeId} : p.graph.idOf? n = some id → q.graph.idOf? n = some id
  definitions {id : TypeId} {d : TypeDefinition} : p.graph.definition? id = some d →
    q.graph.definition? id = some d
  listed : p.graph.definitions <+: q.graph.definitions
  endpoints {c : String} {e : Endpoint} : p.endpoints.get? c = some e →
    q.endpoints.get? c = some e

theorem Adds.refl (p : Processor) : p.Adds p :=
  ⟨fun h => h, fun h => h, List.prefix_rfl, fun h => h⟩

/-- What holds of a processor from turn to turn. -/
structure Steady (p : Processor) : Prop extends p.Orderly where
  numbered : p.graph.Numbered

variable {p q : Processor}

theorem Steady.reset (p : Processor) : p.reset.Steady := ⟨.reset p, numbered_clear p.graph⟩

/-- Builds over the seeded graph, as long as they extend it and keep the endpoints. -/
theorem Steady.built (hp : p.Steady) {s : Settings} {cx : BuildContext}
    {w : Workspace} (hgraph : q.graph = w.graph) (hendpoints : q.endpoints = w.endpoints)
    (hgrown : cx.Grown (p.graph.seed s) w.graph) (hcontinues : (p.graph.seed s).Continues w.graph)
    (hkept : ∀ c e, p.endpoints.get? c = some e → w.endpoints.get? c = some e) :
    p.Adds q ∧ q.Steady := by
  obtain ⟨hext, hready⟩ := hgrown
  have hall : p.graph.Continues w.graph := ((Continues.refl hp.numbered).seed s).trans hcontinues
  have hdefinitions (id : TypeId) (d : TypeDefinition) (h : p.graph.definition? id = some d) :
      w.graph.definition? id = some d := hext.definitions (definition?_seed h)
  constructor
  · refine ⟨fun h => ?_, fun h => ?_, ?_, fun h => ?_⟩
    · rw [hgraph]
      exact hall.names h
    · rw [hgraph]
      exact hdefinitions _ _ h
    · rw [hgraph]
      exact hall.isPrefix hp.numbered hdefinitions
    · rw [hendpoints]
      exact hkept _ _ h
  · refine ⟨⟨fun hseeded => ?_, fun _ => hgraph ▸ hready⟩, hgraph ▸ hall.toNumbered⟩
    rw [hgraph, hext.seeded, seeded_seed] at hseeded
    cases hseeded

theorem Steady.round (hp : p.Steady) {r : Round} (hr : r.Unreserved) :
    p.Adds (p.attempt r).2 ∧ (p.attempt r).2.Steady := by
  obtain ⟨hgraph, hendpoints⟩ := attempt_state p r
  cases ho : p.opened r with
  | error f =>
    rw [(prepared_of_error ho).1] at hgraph hendpoints
    refine ⟨⟨fun h => hgraph ▸ h, fun h => hgraph ▸ h, hgraph ▸ List.prefix_rfl,
      fun h => hendpoints ▸ h⟩, ⟨fun h => ?_, fun h => ?_⟩, hgraph ▸ hp.numbered⟩
    · rw [hgraph] at h ⊢
      exact hp.primal h
    · rw [hgraph] at h ⊢
      exact hp.ready h
  | ok context =>
    obtain ⟨cx, g⟩ := context
    rcases hb : (buildControllers cx.buildEndpoint r.controllers).run ⟨g, p.endpoints, []⟩
      with ⟨built, v⟩
    obtain ⟨hg, he, -⟩ := prepared_of_built hp.settled ho hb
    have hgrown := hp.grown hr ho
    rw [hg] at hgrown
    have hcontinues : g.Continues v.graph := by
      have hnumbered : g.Numbered := by
        obtain ⟨-, -, rfl⟩ := opened_ok ho
        exact ((Continues.refl hp.numbered).seed r.settings).toNumbered
      have hendpoint (c : String) (w : Workspace) (hw : g.Continues w.graph) :
          g.Continues ((cx.buildEndpoint c).outcome w).2.graph :=
        (enduring_continues g).buildEndpoint c hw
      have h := buildControllers_guard hendpoint r.controllers (w := ⟨g, p.endpoints, []⟩)
        (.refl hnumbered)
      rwa [hb] at h
    have hkept := (cx.buildControllers_endpoints r.controllers ⟨g, p.endpoints, []⟩).1
    rw [hb] at hkept
    obtain ⟨-, -, rfl⟩ := opened_ok ho
    exact hp.built (hgraph.trans hg) (hendpoints.trans he) hgrown hcontinues hkept

theorem Steady.build (hp : p.Steady) {symbols : SymbolTable} {settings : Settings}
    (hs : symbols.Unreserved) (hsettings : settings.Unreserved) (pipeline : PropertyPipeline)
    (c : Call) : p.Adds (p.serve (.build symbols settings pipeline c)) ∧
      (p.serve (.build symbols settings pipeline c)).Steady := by
  rcases ho : openContext symbols settings pipeline p.graph with f | ⟨cx, g⟩
  · simp only [serve, ho]
    exact ⟨.refl p, hp⟩
  · simp only [serve, ho]
    obtain ⟨hsymbols, -, rfl⟩ := openContext_ok ho
    have hnumbered : (p.graph.seed settings).Numbered :=
      ((Continues.refl hp.numbered).seed settings).toNumbered
    have hgrown := call_framed (hsymbols.symm ▸ hs) c ⟨p.graph.seed settings, p.endpoints, []⟩
      (hp.ready_seed hsettings)
    exact hp.built rfl rfl hgrown (call_enduring (enduring_continues _) c (.refl hnumbered))
      fun _ _ h => call_endpoints c h

/-- A request adds to the model. -/
theorem Steady.serve (hp : p.Steady) {r : Request} (hr : r.Unreserved) :
    p.Adds (p.serve r) ∧ (p.serve r).Steady := by
  cases r with
  | round r => exact hp.round hr
  | build symbols settings pipeline c => exact hp.build hr.1 hr.2 pipeline c

theorem Steady.turns (hp : p.Steady) {ts : List Turn} (hts : ∀ t ∈ ts, t.Unreserved) :
    (p.turns ts).Steady := by
  induction ts generalizing p with
  | nil => exact hp
  | cons t ts ih =>
    have hrest : ∀ t ∈ ts, t.Unreserved := fun t ht => hts t (List.mem_cons_of_mem _ ht)
    have ht : t.Unreserved := hts t (List.mem_cons_self ..)
    cases t with
    | request r => exact ih (hp.serve ht).2 hrest
    | reset => exact ih (.reset p) hrest

/-- After any requests and resets, one more request leaves every definition and every endpoint as it
was, whether it succeeds or fails, and what it registers comes after them. -/
theorem serve_adds (pipeline : PropertyPipeline) {ts : List Turn} (hts : ∀ t ∈ ts, t.Unreserved)
    {r : Request} (hr : r.Unreserved) :
    ((withPipeline pipeline).turns ts).Adds (((withPipeline pipeline).turns ts).serve r) :=
  (((Steady.reset (withPipeline pipeline)).turns hts).serve hr).1

/-- The record that a failed round leaves half built, stays so when the round is asked for again. -/
theorem serve_adds_orphan : ∃ id d,
    (initial.turns [.request (.round orphanRound)]).graph.definition? id = some d ∧
      d.fullName = "a.Orphan" ∧ d.initialized = false ∧
      ((initial.turns [.request (.round orphanRound)]).serve (.round orphanRound)).graph.definition?
        id = some d := by
  have hr : orphanRound.Tidy := by decide +kernel
  have hts : ∀ t ∈ [Turn.request (.round orphanRound)], t.Unreserved := by
    intro t ht
    rw [List.mem_singleton.1 ht]
    exact hr.unreserved
  have hleft : (initial.turns [.request (.round orphanRound)]).graph.definitions.any
      fun d => d.fullName == "a.Orphan" && !d.initialized := by decide +kernel
  obtain ⟨d, hmem, hd⟩ := List.any_eq_true.1 hleft
  obtain ⟨hname, hhalf⟩ := Bool.and_eq_true_iff.1 hd
  have hlisted := ((Steady.reset initial).turns hts).numbered.listed hmem
  exact ⟨d.id, d, hlisted, eq_of_beq hname, by simpa using hhalf,
    (serve_adds .standard hts (r := .round orphanRound) hr.unreserved).definitions hlisted⟩

end Processor

end ClientBindings
