import ClientBindings.Proofs.Endpoint.Closure
import ClientBindings.Proofs.Round.History
import ClientBindings.Proofs.Translation.Calls

/-! Nothing dangles in a processor, whatever rounds it went through and however they ended. -/
namespace ClientBindings

open BuildContext TypeGraph

namespace Processor

variable {strict : Prop} {p : Processor}

/-- Neither the graph of a processor nor its endpoints refer to what is not registered. -/
structure Closed (strict : Prop) (p : Processor) : Prop where
  settled : p.Settled
  model : Workspace.Closed (TypeGraph.Closed strict) ⟨p.graph, p.endpoints, []⟩

theorem closed_withPipeline (strict : Prop) (pipeline : PropertyPipeline) :
    (withPipeline pipeline).Closed strict where
  settled := ⟨wellFormed_clear TypeGraph.empty, fun h => nomatch h⟩
  model := ⟨closed_clear TypeGraph.empty strict, fun _ he => nomatch he⟩

theorem Closed.reset (p : Processor) (strict : Prop) : p.reset.Closed strict where
  settled := settled_reset p
  model := ⟨closed_clear p.graph strict, fun _ he => nomatch he⟩

/-- A round works on the seeded graph, and its controllers leave nothing dangling. -/
theorem Closed.prepared (hp : p.Closed strict) {r : Round} (hr : strict → r.Unreserved) :
    (p.prepared r).2.Closed strict := by
  refine ⟨hp.settled.prepared r, ?_⟩
  cases h : p.opened r with
  | error f =>
    rw [(prepared_of_error h).1]
    exact hp.model
  | ok context =>
    obtain ⟨cx, g⟩ := context
    rcases hb : (buildControllers cx.buildEndpoint r.controllers).run ⟨g, p.endpoints, []⟩
      with ⟨built, v⟩
    obtain ⟨hgraph, hendpoints, -⟩ := prepared_of_built hp.settled h hb
    obtain ⟨hsymbols, -, rfl⟩ := opened_ok h
    have hgraph' : (p.graph.seed r.settings).Closed strict :=
      hp.model.graph.seed fun hs => (hr hs).2
    have hseeded : Workspace.Closed (TypeGraph.Closed strict)
        ⟨p.graph.seed r.settings, p.endpoints, []⟩ :=
      ⟨hgraph', (hp.model.withGraph hgraph' (grows_seed p.graph r.settings)).endpoints⟩
    have hnames : strict → cx.symbols.Unreserved := fun hs => hsymbols ▸ (hr hs).1
    have hbuild (c : String) : Tied (TypeGraph.Closed strict) (cx.buildEndpoint c) fun _ _ => True :=
      (fillable_closed hnames).tied_buildEndpoint c
    have hv : v.Closed (TypeGraph.Closed strict) := by
      have h := buildControllers_closed hbuild r.controllers hseeded
      rwa [hb] at h
    rw [hgraph, hendpoints]
    exact ⟨hv.graph, hv.endpoints⟩

theorem Closed.step (hp : p.Closed strict) {event : Event} (he : strict → event.Unreserved) :
    (p.step event).Closed strict := by
  cases event with
  | reset => exact .reset p strict
  | round r =>
    obtain ⟨diagnostics, hs⟩ := step_round p r
    have h : (p.prepared r).2.Closed strict := hp.prepared he
    rw [hs]
    exact ⟨⟨h.settled.wellFormed, h.settled.stocked⟩, h.model⟩

theorem Closed.run (hp : p.Closed strict) {events : List Event}
    (he : strict → ∀ e ∈ events, e.Unreserved) : (p.run events).Closed strict := by
  induction events generalizing p with
  | nil => exact hp
  | cons e events ih =>
    have hstep : (p.step e).Closed strict := hp.step fun hs => he hs e (List.mem_cons_self ..)
    exact ih hstep fun hs e hmem => he hs e (List.mem_cons_of_mem _ hmem)

/-- Every number that occurs in a definition or an endpoint, at any depth, is registered. Where the
sign of placeholders is in no declared or overridden name, the parameters of a definition are its
placeholders. -/
theorem run_closed (pipeline : PropertyPipeline) (events : List Event) :
    let p := run (withPipeline pipeline) events
    (∀ d ∈ p.graph.definitions, ∀ id ∈ d.mentioned, ∃ q, p.graph.definition? id = some q) ∧
      (∀ e ∈ p.endpoints, ∀ id ∈ e.2.mentioned, ∃ q, p.graph.definition? id = some q) ∧
      ((∀ e ∈ events, e.Unreserved) → ∀ d ∈ p.graph.definitions, ∀ id ∈ d.genericParams,
        ∃ q, p.graph.definition? id = some q ∧ q.kind = .genericPlaceholder ∧
          q.fullName = placeholderName d.fullName q.shortName) := by
  have hany : (run (withPipeline pipeline) events).Closed False :=
    (closed_withPipeline _ pipeline).run fun h => h.elim
  have hdefined {id : TypeId} (h : (run (withPipeline pipeline) events).graph.Registered id) :
      ∃ q, (run (withPipeline pipeline) events).graph.definition? id = some q := by
    obtain ⟨n, hn⟩ := h
    obtain ⟨q, hq, -⟩ := hany.settled.wellFormed.indexed hn
    exact ⟨q, hq⟩
  refine ⟨fun d hd id hid => ?_, fun e he id hid => hdefined (hany.model.endpoints e he id hid),
    fun hnames d hd id hid => ?_⟩
  · exact hdefined (hany.model.graph.mentioned (hany.settled.wellFormed.listed hd) hid)
  · have hnamed : (run (withPipeline pipeline) events).Closed (∀ e ∈ events, e.Unreserved) :=
      (closed_withPipeline _ pipeline).run fun h => h
    exact hnamed.model.graph.params hnames (hany.settled.wellFormed.listed hd) hid

/-- A round over a controller that returns a record of an interface with a parameter. -/
def nodeRound : Round := .process nodeContext.symbols .standard ["a.Api"]

theorem nodeRound_unreserved : nodeRound.Unreserved := by
  unfold Round.Unreserved SymbolTable.Unreserved
  decide +kernel

/-- The parameter of the interface is its placeholder. -/
theorem run_closed_node :
    ∃ d ∈ (run initial [.round nodeRound]).graph.definitions, d.fullName = "a.Node" ∧
      ∃ id ∈ d.genericParams, ∃ q, (run initial [.round nodeRound]).graph.definition? id = some q ∧
        q.kind = .genericPlaceholder ∧ q.fullName = placeholderName "a.Node" q.shortName := by
  have h : ∃ d ∈ (run initial [.round nodeRound]).graph.definitions, d.fullName = "a.Node" ∧
      ∃ id, id ∈ d.genericParams := by
    have hany : (run initial [.round nodeRound]).graph.definitions.any fun d =>
        d.fullName == "a.Node" && !d.genericParams.isEmpty := by decide +kernel
    obtain ⟨d, hd, hp⟩ := List.any_eq_true.1 hany
    obtain ⟨hname, hparams⟩ := Bool.and_eq_true_iff.1 hp
    refine ⟨d, hd, eq_of_beq hname, List.exists_mem_of_ne_nil _ fun hnil => ?_⟩
    rw [hnil] at hparams
    cases hparams
  obtain ⟨d, hd, hname, id, hid⟩ := h
  refine ⟨d, hd, hname, id, hid, hname ▸ (run_closed .standard [.round nodeRound]).2.2 ?_ d hd id hid⟩
  intro e he
  obtain rfl := List.mem_singleton.1 he
  exact nodeRound_unreserved

end Processor

end ClientBindings
