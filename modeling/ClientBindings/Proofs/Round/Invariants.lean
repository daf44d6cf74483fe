import ClientBindings.Proofs.Resolution.Enduring
import ClientBindings.Proofs.Round.Retry

/-! What holds of every model that rounds and resets lead to, as long as seeding a graph and building
an endpoint keep it. -/
namespace ClientBindings

open BuildContext TypeGraph

/-- Building an endpoint leaves the endpoints alone or adds one of that controller. -/
theorem buildEndpoint_endpoints (cx : BuildContext) (c : String) (w : Workspace) :
    ((cx.buildEndpoint c).outcome w).2.endpoints = w.endpoints ∨
      ∃ e, ((cx.buildEndpoint c).outcome w).2.endpoints = w.endpoints.insert c e := by
  cases hget : w.endpoints.get? c with
  | some e =>
    rw [buildEndpoint, assembleEndpoint_of_some hget]
    exact .inl rfl
  | none =>
    rw [buildEndpoint, assembleEndpoint_of_none hget]
    by_cases hm : cx.Marked c
    · obtain ⟨v, hv, ⟨e, -, ho⟩ | ⟨e, ho⟩⟩ := assembleNew_marked keeps_resolve_endpoints hm hget
      · rw [ho]
        exact .inl hv
      · rw [ho]
        exact .inr ⟨e, rfl⟩
    · obtain ⟨e, ho⟩ := assembleNew_unmarked hm
      rw [ho]
      exact .inl rfl

theorem get?_buildEndpoint_of_ne (cx : BuildContext) {c c' : String} (h : c ≠ c') (w : Workspace) :
    ((cx.buildEndpoint c').outcome w).2.endpoints.get? c = w.endpoints.get? c := by
  rcases buildEndpoint_endpoints cx c' w with heq | ⟨e, heq⟩
  · rw [heq]
  · rw [heq, Dict.get?_insert_of_ne _ _ h]

/-- What every controller keeps of the graph and the endpoints, a list of controllers keeps. -/
theorem buildControllers_keeps {build : String → Build Endpoint} {J : TypeGraph → Dict Endpoint → Prop}
    (h : ∀ c w, J w.graph w.endpoints →
      J ((build c).outcome w).2.graph ((build c).outcome w).2.endpoints)
    (cs : List String) {w : Workspace} (hw : J w.graph w.endpoints) :
    J ((buildControllers build cs).run w).2.graph ((buildControllers build cs).run w).2.endpoints := by
  induction cs generalizing w with
  | nil => exact hw
  | cons c cs ih =>
    have hv := h c w hw
    rcases ho : (build c).outcome w with ⟨e | e, v⟩
    · rw [ho] at hv
      cases hs : e.isTypeScoped with
      | true =>
        rw [buildControllers_scoped ho hs]
        exact ih hv
      | false =>
        rw [buildControllers_aborted ho hs]
        exact hv
    · rw [ho] at hv
      rw [buildControllers_ok ho]
      exact ih hv

namespace Processor

variable {J : TypeGraph → Dict Endpoint → Prop} {p : Processor} {r : Round}

/-- Kept by what a round does: it seeds the graph with its settings and builds over its export. -/
structure Upheld (r : Round) (J : TypeGraph → Dict Endpoint → Prop) : Prop where
  seed {g : TypeGraph} {es : Dict Endpoint} : J g es → J (g.seed r.settings) es
  build {cx : BuildContext} (hsymbols : cx.symbols = r.symbols) (hsettings : cx.settings = r.settings)
    (c : String) (w : Workspace) : w.graph.seeded = true → J w.graph w.endpoints →
      J ((cx.buildEndpoint c).outcome w).2.graph ((cx.buildEndpoint c).outcome w).2.endpoints

theorem Upheld.attempt (h : Upheld r J) (hp : p.Settled) (hJ : J p.graph p.endpoints) :
    J (p.attempt r).2.graph (p.attempt r).2.endpoints := by
  obtain ⟨hgraph, hendpoints⟩ := attempt_state p r
  rw [hgraph, hendpoints]
  cases ho : p.opened r with
  | error f =>
    rw [(prepared_of_error ho).1]
    exact hJ
  | ok context =>
    obtain ⟨cx, g⟩ := context
    rcases hb : (buildControllers cx.buildEndpoint r.controllers).run ⟨g, p.endpoints, []⟩
      with ⟨built, v⟩
    obtain ⟨hg, he, -⟩ := prepared_of_built hp ho hb
    obtain ⟨hsymbols, hsettings, rfl⟩ := opened_ok ho
    rw [hg, he]
    have hv := buildControllers_keeps (J := fun g es => g.seeded = true ∧ J g es)
      (fun c w hw => ⟨enduring_seeded.buildEndpoint c hw.1, h.build hsymbols hsettings c w hw.1 hw.2⟩)
      r.controllers (w := ⟨p.graph.seed r.settings, p.endpoints, []⟩) ⟨seeded_seed _ _, h.seed hJ⟩
    rw [hb] at hv
    exact hv.2

theorem run_upheld (pipeline : PropertyPipeline) {events : List Event}
    (hclear : ∀ g : TypeGraph, J g.clear []) (hround : ∀ r, .round r ∈ events → Upheld r J) :
    J (run (withPipeline pipeline) events).graph (run (withPipeline pipeline) events).endpoints := by
  have hrun : (run (withPipeline pipeline) events).Settled ∧
      J (run (withPipeline pipeline) events).graph (run (withPipeline pipeline) events).endpoints := by
    refine @run_invariant (fun p _ => p.Settled ∧ J p.graph p.endpoints) _ [] events
      (fun p _ event hevent hp => ⟨hp.1.step event, ?_⟩)
      ⟨settled_run pipeline [], hclear TypeGraph.empty⟩
    cases event with
    | reset => exact hclear p.graph
    | round r => exact (hround r hevent).attempt hp.1 hp.2
  exact hrun.2

end Processor

end ClientBindings
