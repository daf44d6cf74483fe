import ClientBindings.Proofs.Emission
import ClientBindings.Proofs.Graph.Seeding
import ClientBindings.Proofs.Round.Controllers

/-! What rounds do to a processor. They work on the seeded graph, and end as the building of their
controllers does: without a type half built that was not so before, or inside a definition that is
left half built. -/
namespace ClientBindings

open BuildContext TypeGraph

/-- A round over given controllers, or one over those of the export that writes files. Each file is
stored, or it is said what failed. -/
inductive Round where
  | process (symbols : SymbolTable) (settings : Settings) (controllers : List String)
  | generate (symbols : SymbolTable) (settings : Settings) (refusal? : Artifact → Option String)

namespace Round

def symbols : Round → SymbolTable
  | process symbols _ _ => symbols
  | generate symbols _ _ => symbols

def settings : Round → Settings
  | process _ settings _ => settings
  | generate _ settings _ => settings

def controllers : Round → List String
  | process _ _ controllers => controllers
  | generate symbols _ _ => Processor.controllerNames symbols

def emits : Round → Bool
  | process .. => false
  | generate .. => true

/-- The sign of placeholders is in no name that the round defines. -/
def Unreserved (r : Round) : Prop := r.symbols.Unreserved ∧ r.settings.Unreserved

end Round

/-- What can be done to a processor. -/
inductive Event where
  | round (r : Round)
  | reset

def Event.Unreserved : Event → Prop
  | round r => r.Unreserved
  | reset => True

/-- Stores a file unless it is refused. -/
def storeUnless (refusal? : Artifact → Option String) (a : Artifact) : Id (Except Failure Unit) :=
  match refusal? a with
  | none => .ok ()
  | some doing => .error (.ofReader doing)

/-- The type that a failure names as unknown. -/
def Failure.missingType? (f : Failure) : Option String :=
  match f.cause with
  | .build (.missingType name) => some name
  | _ => none

/-- A context that is opened is over what it was opened for, and the graph is seeded. -/
theorem openContext_ok {symbols : SymbolTable} {settings : Settings} {pipeline : PropertyPipeline}
    {graph g : TypeGraph} {cx : BuildContext}
    (h : openContext symbols settings pipeline graph = .ok (cx, g)) :
    cx.symbols = symbols ∧ cx.settings = settings ∧ g = graph.seed settings := by
  unfold openContext at h
  cases hc : settings.exclusions with
  | error e => rw [hc] at h; cases h
  | ok exclusions =>
    rw [hc] at h
    cases h
    exact ⟨rfl, rfl, rfl⟩

/-- Over a graph that is seeded already a context opens without a change. -/
theorem openContext_of_seeded {symbols : SymbolTable} {settings : Settings}
    {pipeline : PropertyPipeline} {graph g v : TypeGraph} {cx : BuildContext}
    (h : openContext symbols settings pipeline graph = .ok (cx, g)) (hv : v.seeded = true) :
    openContext symbols settings pipeline v = .ok (cx, v) := by
  unfold openContext at h ⊢
  cases hc : settings.exclusions with
  | error e => rw [hc] at h; cases h
  | ok exclusions =>
    rw [hc] at h
    cases h
    rw [seed_of_seeded hv]
    rfl

namespace Processor

def attempt (p : Processor) : Round → Except Failure RoundReport × Processor
  | .process symbols settings controllers => p.processControllers symbols settings controllers
  | .generate symbols settings refusal? =>
    Id.run (generate (storeUnless refusal?) p symbols settings)

def step (p : Processor) : Event → Processor
  | .round r => (p.attempt r).2
  | .reset => p.reset

def run (p : Processor) (events : List Event) : Processor := events.foldl step p

def prepared (p : Processor) (r : Round) : Except Failure PendingRound × Processor :=
  p.prepare r.symbols r.settings r.controllers r.emits

def opened (p : Processor) (r : Round) : Except Failure (BuildContext × TypeGraph) :=
  openContext r.symbols r.settings p.pipeline p.graph

/-- The type that the second of two failures names and the first does not. -/
def blamed? : Except Failure (List String) → Except Failure (List String) → Option String
  | .error f, .error f' => if f = f' then none else f'.missingType?
  | _, _ => none

/-- The definition inside of which the building of a round fails, if it fails in one. -/
def culprit? (p : Processor) (r : Round) : Option String :=
  match p.opened r with
  | .error _ => none
  | .ok (cx, graph) =>
    blamed? ((buildControllers cx.buildEndpoint r.controllers).run ⟨graph, p.endpoints, []⟩).1
      ((buildControllers (cx.assembleEndpoint cx.blaming) r.controllers).run
        ⟨graph, p.endpoints, []⟩).1

/-- The culprits of the rounds since the model was dropped last, after one more event. -/
def charge (p : Processor) (found : List String) : Event → List String
  | .round r => found ++ (p.culprit? r).toList
  | .reset => []

/-- The definitions inside of which rounds have failed since the model was dropped last; `found`
are those of the rounds before. -/
def culprits (p : Processor) (found : List String) : List Event → List String
  | [] => found
  | event :: events => culprits (p.step event) (p.charge found event) events

/-- What holds of the graph of every processor. -/
structure Settled (p : Processor) : Prop where
  wellFormed : p.graph.WellFormed
  stocked : p.graph.seeded = true → p.graph.Stocked

theorem Settled.stocked_seed {p : Processor} (hp : p.Settled) (settings : Settings) :
    (p.graph.seed settings).Stocked := TypeGraph.stocked_seed hp.stocked

theorem settled_reset (p : Processor) : p.reset.Settled :=
  ⟨wellFormed_clear p.graph, fun h => nomatch h⟩

/-- What every event keeps of a processor and of its culprits, holds in the end. -/
theorem run_invariant {J : Processor → List String → Prop} {p : Processor} {found : List String}
    {events : List Event}
    (hstep : ∀ p found, ∀ e ∈ events, J p found → J (p.step e) (p.charge found e))
    (h : J p found) : J (run p events) (culprits p found events) := by
  induction events generalizing p found with
  | nil => exact h
  | cons e events ih =>
    exact ih (fun p found e he => hstep p found e (List.mem_cons_of_mem _ he))
      (hstep p found e (List.mem_cons_self ..) h)

section rounds

variable {p q : Processor} {r : Round}

/-- A round whose building fails does nothing more. -/
theorem attempt_of_error {f : Failure} (h : p.prepared r = (.error f, q)) :
    p.attempt r = (.error f, q) := by
  cases r with
  | process symbols settings controllers =>
    change p.prepare symbols settings controllers false = _ at h
    simp only [attempt, processControllers, h]
  | generate symbols settings refusal? =>
    change p.prepare symbols settings (controllerNames symbols) true = _ at h
    simp only [attempt, generate, h]
    rfl

theorem cause_of_writeAll {refusal? : Artifact → Option String} {as : List Artifact} {f : Failure}
    (h : Id.run (writeAll (storeUnless refusal?) as) = .error f) : f.cause = .reader := by
  induction as with
  | nil => cases h
  | cons a as ih =>
    rw [writeAll, Id.run_bind] at h
    cases hr : refusal? a with
    | none =>
      simp only [storeUnless, hr] at h
      exact ih h
    | some doing =>
      simp only [storeUnless, hr] at h
      cases h
      rfl

/-- After the building only the diagnostics change, and only a reader fails. -/
theorem attempt_of_ok {pending : PendingRound} (h : p.prepared r = (.ok pending, q)) :
    ∃ result diagnostics, p.attempt r = (result, { q with lastDiagnostics := diagnostics }) ∧
      ∀ f, result = .error f → f.cause = .reader := by
  cases r with
  | process symbols settings controllers =>
    change p.prepare symbols settings controllers false = _ at h
    simp only [attempt, processControllers, h]
    exact ⟨.ok (q.complete pending).1, pending.diagnostics, rfl, fun f hf => nomatch hf⟩
  | generate symbols settings refusal? =>
    change p.prepare symbols settings (controllerNames symbols) true = _ at h
    simp only [attempt, generate, h, Id.run_bind]
    rcases hw : Id.run (writeAll (storeUnless refusal?) pending.artifacts) with f | _
    · refine ⟨.error f, q.lastDiagnostics, rfl, fun f' hf => ?_⟩
      cases hf
      exact cause_of_writeAll hw
    · exact ⟨_, pending.diagnostics, rfl, fun f hf => nomatch hf⟩

/-- An event leaves what the building of a round does, apart from the diagnostics. -/
theorem step_round (p : Processor) (r : Round) : ∃ diagnostics,
    p.step (.round r) = { (p.prepared r).2 with lastDiagnostics := diagnostics } := by
  rcases h : p.prepared r with ⟨f | pending, q⟩
  · exact ⟨q.lastDiagnostics, by rw [step, attempt_of_error h]⟩
  · obtain ⟨result, diagnostics, ha, -⟩ := attempt_of_ok h
    exact ⟨diagnostics, by rw [step, ha]⟩

theorem opened_ok {cx : BuildContext} {g : TypeGraph} (h : p.opened r = .ok (cx, g)) :
    cx.symbols = r.symbols ∧ cx.settings = r.settings ∧ g = p.graph.seed r.settings :=
  openContext_ok h

/-- A round that does not come to build anything leaves the processor alone. -/
theorem prepared_of_error {f : Failure} (h : p.opened r = .error f) :
    p.prepared r = (.error f, p) ∧ p.culprit? r = none := by
  rw [opened] at h
  simp only [prepared, prepare, culprit?, opened, h, and_self]

variable {cx : BuildContext} {g : TypeGraph} {built : Except Failure (List String)} {v : Workspace}

/-- The building of the controllers of a round, and the definition in which it fails. -/
theorem blame_of_built (hp : p.Settled) (h : p.opened r = .ok (cx, g))
    (hb : (buildControllers cx.buildEndpoint r.controllers).run ⟨g, p.endpoints, []⟩ = (built, v)) :
    ∃ blaming, RoundAttribution cx g (HalfBuilt g) v.graph built blaming ∧
      p.culprit? r = blamed? built blaming := by
  obtain ⟨-, -, rfl⟩ := opened_ok h
  rcases hb' : (buildControllers (cx.assembleEndpoint cx.blaming) r.controllers).run
    ⟨p.graph.seed r.settings, p.endpoints, []⟩ with ⟨blaming, v'⟩
  obtain ⟨-, -, hr⟩ := buildControllers_blame (X := HalfBuilt (p.graph.seed r.settings))
    ⟨⟨⟨hp.wellFormed.seed r.settings, fun hn => hn⟩, fun hi => hi⟩, fun _ hg => hg⟩ hb hb'
  refine ⟨blaming, hr, ?_⟩
  simp only [culprit?, h, hb, hb']

/-- A round leaves what the building of its controllers does. -/
theorem prepared_of_built (hp : p.Settled) (h : p.opened r = .ok (cx, g))
    (hb : (buildControllers cx.buildEndpoint r.controllers).run ⟨g, p.endpoints, []⟩ = (built, v)) :
    (p.prepared r).2.graph = v.graph ∧ (p.prepared r).2.endpoints = v.endpoints ∧
      (p.prepared r).2.pipeline = p.pipeline ∧
      ∀ f, (p.prepared r).1 = .error f ↔ built = .error f := by
  obtain ⟨_, hr, -⟩ := blame_of_built hp h hb
  obtain ⟨-, -, rfl⟩ := opened_ok h
  have hstock : v.graph.Stocked := hr.kept.stocked (hp.stocked_seed r.settings)
  rw [opened] at h
  simp only [prepared, prepare, h, hb]
  cases built with
  | error f => exact ⟨rfl, rfl, rfl, fun f' => by simp⟩
  | ok endpoints =>
    cases r.emits with
    | false => exact ⟨rfl, rfl, rfl, fun f' => by simp⟩
    | true =>
      obtain ⟨artifacts, ds, -, hrun⟩ :=
        Artifact.reads_emission r.settings (v.endpoints.map (·.2)) v.graph hstock
      rw [if_pos rfl, hrun v rfl]
      exact ⟨rfl, rfl, rfl, fun f' => by simp⟩

/-- How a round ends: without a culprit, with no type half built that was not so before, or with a
culprit that is new and left half built. -/
theorem prepared_blame (hp : p.Settled) (h : p.opened r = .ok (cx, g)) :
    Kept g (p.prepared r).2.graph ∧
      ((p.culprit? r = none ∧ ∀ id, HalfBuilt (p.prepared r).2.graph id → HalfBuilt g id) ∨
        ∃ n, p.culprit? r = some n ∧ g.idOf? n = none ∧
          (r.symbols.Unreserved → g.Ready → Abandoned (p.prepared r).2.graph n)) := by
  rcases hb : (buildControllers cx.buildEndpoint r.controllers).run ⟨g, p.endpoints, []⟩
    with ⟨built, v⟩
  obtain ⟨blaming, hr, hculprit⟩ := blame_of_built hp h hb
  rw [(prepared_of_built hp h hb).1, hculprit]
  obtain ⟨hsymbols, -, -⟩ := opened_ok h
  refine ⟨hr.kept, ?_⟩
  cases hr with
  | outside hv =>
    refine .inl ⟨?_, fun id => hv.confined.halfBuilt⟩
    cases built with
    | ok cs => rfl
    | error f => exact if_pos rfl
  | @inside c e t ht he hkept hnew hleft =>
    refine .inr ⟨t.name, ?_, hnew, fun hs hg => (hleft (hsymbols ▸ hs) hg).2⟩
    refine if_neg fun heq => ?_
    have hcause : e = .missingType t.name := by
      simpa [abortedAt, Failure.within, Failure.build] using heq
    rw [hcause] at he
    cases he

theorem Settled.prepared (hp : p.Settled) (r : Round) : (p.prepared r).2.Settled := by
  cases h : p.opened r with
  | error f =>
    rw [(prepared_of_error h).1]
    exact hp
  | ok context =>
    obtain ⟨cx, g⟩ := context
    obtain ⟨hkept, -⟩ := prepared_blame hp h
    obtain ⟨-, -, rfl⟩ := opened_ok h
    exact ⟨hkept.wellFormed, fun _ => hkept.stocked (hp.stocked_seed r.settings)⟩

theorem Settled.step (hp : p.Settled) (event : Event) : (p.step event).Settled := by
  cases event with
  | reset => exact settled_reset p
  | round r =>
    obtain ⟨diagnostics, hs⟩ := step_round p r
    rw [hs]
    exact ⟨(hp.prepared r).wellFormed, (hp.prepared r).stocked⟩

theorem settled_run (pipeline : PropertyPipeline) (events : List Event) :
    (run (withPipeline pipeline) events).Settled :=
  @run_invariant (fun p _ => p.Settled) _ [] events (fun _ _ event _ hp => hp.step event)
    ⟨wellFormed_clear TypeGraph.empty, fun h => nomatch h⟩

end rounds

/-- What holds of a processor as long as the sign of placeholders is in no name. -/
structure Orderly (p : Processor) : Prop where
  primal : p.graph.seeded = false → p.graph.Primal
  ready : p.graph.seeded = true → p.graph.Ready

namespace Orderly

variable {p : Processor} {r : Round}

theorem settled (h : p.Orderly) : p.Settled where
  wellFormed := by
    cases hs : p.graph.seeded with
    | false => exact (h.primal hs).toWellFormed
    | true => exact (h.ready hs).toWellFormed
  stocked hs := (h.ready hs).stocked

theorem ready_seed (h : p.Orderly) {settings : Settings} (hs : settings.Unreserved) :
    (p.graph.seed settings).Ready := by
  cases hseed : p.graph.seeded with
  | false => exact ((h.primal hseed).seed hs).ready (h.settled.stocked_seed settings)
  | true => exact (seed_of_seeded hseed).symm ▸ h.ready hseed

theorem reset (p : Processor) : p.reset.Orderly :=
  ⟨fun _ => primal_clear p.graph, fun h => nomatch h⟩

/-- A round extends the seeded graph. -/
theorem grown (h : p.Orderly) (hr : r.Unreserved) {cx : BuildContext} {g : TypeGraph}
    (ho : p.opened r = .ok (cx, g)) : cx.Grown g (p.prepared r).2.graph := by
  rcases hb : (buildControllers cx.buildEndpoint r.controllers).run ⟨g, p.endpoints, []⟩
    with ⟨built, v⟩
  rw [(prepared_of_built h.settled ho hb).1]
  obtain ⟨hsymbols, -, rfl⟩ := opened_ok ho
  have hg := buildControllers_grown (hsymbols.symm ▸ hr.1) r.controllers
    (w := ⟨p.graph.seed r.settings, p.endpoints, []⟩) (h.ready_seed hr.2)
  rwa [hb] at hg

theorem prepared (h : p.Orderly) (hr : r.Unreserved) : (p.prepared r).2.Orderly := by
  cases ho : p.opened r with
  | error f =>
    rw [(prepared_of_error ho).1]
    exact h
  | ok context =>
    obtain ⟨cx, g⟩ := context
    obtain ⟨hext, hready⟩ := h.grown hr ho
    obtain ⟨-, -, rfl⟩ := opened_ok ho
    refine ⟨fun hs => ?_, fun _ => hready⟩
    rw [hext.seeded, seeded_seed] at hs
    cases hs

theorem step (h : p.Orderly) {event : Event} (he : event.Unreserved) : (p.step event).Orderly := by
  cases event with
  | reset => exact reset p
  | round r =>
    obtain ⟨diagnostics, hs⟩ := step_round p r
    rw [hs]
    exact ⟨(h.prepared he).primal, (h.prepared he).ready⟩

end Orderly

end Processor

end ClientBindings
