import ClientBindings.Proofs.Renumbering.Emission
import ClientBindings.Proofs.Renumbering.Endpoint
import ClientBindings.Proofs.Round.History

/-! A round over a model that was dropped does what it does at the very start, with all numbers moved
up by as many as were given before. -/
namespace ClientBindings.Processor

open TypeGraph

variable {k : Nat}

def shift (k : Nat) (p : Processor) : Processor :=
  { p with graph := p.graph.shift k, endpoints := p.endpoints.mapValues (·.shift k) }

/-- The building of a round in a moved model. -/
theorem prepare_shift (p : Processor) (symbols : SymbolTable) (settings : Settings)
    (controllers : List String) (emits : Bool) :
    (p.shift k).prepare symbols settings controllers emits =
      Prod.map id (shift k) (p.prepare symbols settings controllers emits) := by
  have hseed : (p.shift k).graph.seed settings = (p.graph.seed settings).shift k :=
    seed_shift k p.graph settings
  unfold prepare openContext
  rw [hseed]
  cases settings.exclusions with
  | error f => rfl
  | ok exclusions =>
    dsimp only [Except.map]
    rw [show (p.shift k).pipeline = p.pipeline from rfl]
    generalize ({ symbols, settings, exclusions, pipeline := p.pipeline } : BuildContext) = cx
    have hbuild : Work.Follows k (fun r => r) (buildControllers cx.buildEndpoint controllers)
        (buildControllers cx.buildEndpoint controllers) :=
      follows_buildControllers (fun c => BuildContext.follows_assembleEndpoint cx.even_resolve c)
        controllers
    have hrun : (buildControllers cx.buildEndpoint controllers).run
        ⟨(p.graph.seed settings).shift k, (p.shift k).endpoints, []⟩ = _ :=
      hbuild ⟨p.graph.seed settings, p.endpoints, []⟩
    rw [hrun]
    rcases (buildControllers cx.buildEndpoint controllers).run
      ⟨p.graph.seed settings, p.endpoints, []⟩ with ⟨f | endpoints, w⟩
    · rfl
    · cases emits with
      | false => rfl
      | true =>
        have hendpoints : (w.shift k).endpoints.map (·.2) =
            (w.endpoints.map (·.2)).map (·.shift k) := by
          change List.map _ (List.map _ w.endpoints) = _
          rw [List.map_map, List.map_map]
          rfl
        have hemission := Artifact.follows_emission settings (w.endpoints.map (·.2)) w (k := k)
        rw [← hendpoints] at hemission
        simp only [if_true, hemission]
        rfl

theorem processControllers_shift (p : Processor) (symbols : SymbolTable) (settings : Settings)
    (controllers : List String) :
    (p.shift k).processControllers symbols settings controllers =
      Prod.map id (shift k) (p.processControllers symbols settings controllers) := by
  unfold processControllers
  rw [prepare_shift]
  rcases p.prepare symbols settings controllers false with ⟨f | pending, q⟩ <;> rfl

/-- Whatever is done with the files, the same is done with those of a moved model. -/
theorem generate_shift {σ : Type} (store : Artifact → StateM σ (Except Failure Unit))
    (p : Processor) (symbols : SymbolTable) (settings : Settings) (files : σ) :
    (generate store (p.shift k) symbols settings).run files =
      Prod.map (Prod.map id (shift k)) id ((generate store p symbols settings).run files) := by
  unfold generate
  rw [prepare_shift]
  rcases p.prepare symbols settings (controllerNames symbols) true with ⟨f | pending, q⟩
  · rfl
  · dsimp only [Prod.map_apply, id_eq]
    rw [StateT.run_bind, StateT.run_bind]
    change (match (writeAll store pending.artifacts).run files with
      | (written, files') => _ : (Except Failure RoundReport × Processor) × σ) = _
    rcases (writeAll store pending.artifacts).run files with ⟨f | _, files'⟩ <;> rfl

/-- Rounds leave the pipeline alone. -/
theorem pipeline_run (p : Processor) (events : List Event) :
    (p.run events).pipeline = p.pipeline := by
  induction events generalizing p with
  | nil => rfl
  | cons e events ih =>
    refine (ih (p.step e)).trans ?_
    cases e with
    | reset => rfl
    | round r =>
      obtain ⟨diagnostics, hs⟩ := step_round p r
      rw [hs]
      change (prepare p r.symbols r.settings r.controllers r.emits).2.pipeline = p.pipeline
      unfold prepare
      split
      · rfl
      · split
        split <;> rfl

/-- A dropped model is an empty one with moved numbers. -/
theorem reset_eq_shift (p : Processor) :
    p.reset = (withPipeline p.pipeline).shift p.graph.nextId := by
  have hnext : p.graph.nextId = 0 + p.graph.nextId := (Nat.zero_add _).symm
  simp only [reset, withPipeline, shift, TypeGraph.clear, TypeGraph.shift, TypeGraph.empty,
    Dict.mapValues, List.map_nil, ← hnext]

/-- After any history and a reset, the next round has the outcome, the report and the files of the same
round at the start, and leaves the same model, its numbers moved by those that were given before. -/
theorem reset_round (pipeline : PropertyPipeline) (history : List Event) (symbols : SymbolTable)
    (settings : Settings) :
    let k := (run (withPipeline pipeline) history).graph.nextId
    let p := (run (withPipeline pipeline) history).reset
    let start := withPipeline pipeline
    (∀ controllers, p.processControllers symbols settings controllers =
      Prod.map id (shift k) (start.processControllers symbols settings controllers)) ∧
    p.processRound symbols settings = Prod.map id (shift k) (start.processRound symbols settings) ∧
    ∀ (σ : Type) (store : Artifact → StateM σ (Except Failure Unit)) (files : σ),
      (generate store p symbols settings).run files =
        Prod.map (Prod.map id (shift k)) id ((generate store start symbols settings).run files) := by
  have hreset : (run (withPipeline pipeline) history).reset =
      (withPipeline pipeline).shift (run (withPipeline pipeline) history).graph.nextId := by
    rw [reset_eq_shift, pipeline_run]
    rfl
  intro k p start
  rw [show p = start.shift k from hreset]
  exact ⟨fun controllers => processControllers_shift start symbols settings controllers,
    processControllers_shift start symbols settings (controllerNames symbols),
    fun σ store files => generate_shift store start symbols settings files⟩

end ClientBindings.Processor
