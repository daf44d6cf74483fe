import ClientBindings.Proofs.Round.History

/-! Which processors have half-built types in their model: those with a round that failed inside a
definition since the model was dropped last. -/
namespace ClientBindings

open BuildContext TypeGraph

/-- Every registered type that is not predefined has all of its content. -/
def TypeGraph.Populated (g : TypeGraph) : Prop :=
  ∀ d ∈ g.definitions, d.predefined = false → d.initialized = true

instance (g : TypeGraph) : Decidable g.Populated :=
  inferInstanceAs (Decidable (∀ d ∈ g.definitions, d.predefined = false → d.initialized = true))

theorem populated_iff_halfBuilt {g : TypeGraph} (hg : g.WellFormed) :
    g.Populated ↔ ∀ id, ¬HalfBuilt g id := by
  constructor
  · rintro h id ⟨d, hd, hp, hi⟩
    rw [h d (mem_of_definition? hd) hp] at hi
    cases hi
  · intro h d hd hp
    cases hi : d.initialized with
    | true => rfl
    | false => exact absurd ⟨d, hg.listed hd, hp, hi⟩ (h d.id)

theorem halfBuilt_of_seed {g : TypeGraph} (hg : g.WellFormed) {s : Settings} {id : TypeId}
    (h : HalfBuilt (g.seed s) id) : HalfBuilt g id := by
  have hseed : (g.seed s).WellFormed ∧ (HalfBuilt (g.seed s) id → HalfBuilt g id) := by
    refine seed_induction (J := fun g' => g'.WellFormed ∧ (HalfBuilt g' id → HalfBuilt g id))
      (fun _ _ h => ⟨⟨h.1.indexed, h.1.named, h.1.fresh, h.1.listed⟩, h.2⟩)
      (fun d hd g' hg' => ⟨hg'.1.register d, fun h => hg'.2 ?_⟩) ⟨hg, fun h => h⟩
    rcases halfBuilt_of_register hg'.1 h with h | ⟨-, hp⟩
    · exact h
    · obtain ⟨kind, e, rfl⟩ := exists_predefinedType_of_mem hd
      cases hp
  exact hseed.2 h

theorem BuildContext.Abandoned.extend {cx : BuildContext} {g g' : TypeGraph} {n : String}
    (h : Abandoned g n) (hg : cx.Extends g g') : Abandoned g' n := by
  obtain ⟨id, hid, d, hd, hp, hi⟩ := h
  exact ⟨id, hg.names hid, d, hg.definitions hd, hp, hi⟩

theorem TypeGraph.Primal.not_abandoned {g : TypeGraph} (hg : g.Primal) (n : String) :
    ¬Abandoned g n := by
  rintro ⟨id, -, d, hd, hp, -⟩
  obtain ⟨kind, e, rfl⟩ := hg.definition hd
  cases hp

namespace Processor

variable {p : Processor} {found : List String}

/-- Without culprits nothing is half built. -/
structure Accounted (p : Processor) (found : List String) : Prop extends p.Settled where
  whole : found = [] → ∀ id, ¬HalfBuilt p.graph id

theorem Accounted.step (h : p.Accounted found) (event : Event) :
    (p.step event).Accounted (p.charge found event) := by
  cases event with
  | reset =>
    exact ⟨settled_reset p, fun _ id ⟨d, hd, _⟩ => by
      simp [Processor.step, reset, clear, definition?] at hd⟩
  | round r =>
    obtain ⟨diagnostics, hs⟩ := step_round p r
    rw [hs, charge]
    refine ⟨⟨(h.toSettled.prepared r).wellFormed, (h.toSettled.prepared r).stocked⟩,
      fun hnil id hid => ?_⟩
    obtain ⟨hfound, hnone⟩ := List.append_eq_nil_iff.1 hnil
    cases ho : p.opened r with
    | error f =>
      rw [(prepared_of_error ho).1] at hid
      exact h.whole hfound id hid
    | ok context =>
      obtain ⟨cx, g⟩ := context
      rcases (prepared_blame h.toSettled ho).2 with ⟨-, hold⟩ | ⟨n, hn, -⟩
      · obtain ⟨-, -, rfl⟩ := opened_ok ho
        exact h.whole hfound id (halfBuilt_of_seed h.wellFormed (hold id hid))
      · rw [hn] at hnone
        cases hnone

/-- The culprits are half built. -/
structure Charged (p : Processor) (found : List String) : Prop extends p.Orderly where
  left : ∀ n ∈ found, Abandoned p.graph n

/-- Half-built types stay so. -/
theorem Orderly.abandoned_prepared (h : p.Orderly) {r : Round} (hr : r.Unreserved) {n : String}
    (hn : Abandoned p.graph n) : Abandoned (p.prepared r).2.graph n := by
  cases ho : p.opened r with
  | error f => rwa [(prepared_of_error ho).1]
  | ok context =>
    obtain ⟨cx, g⟩ := context
    have hgrown := h.grown hr ho
    obtain ⟨-, -, rfl⟩ := opened_ok ho
    refine BuildContext.Abandoned.extend ?_ hgrown.1
    cases hseed : p.graph.seeded with
    | true => exact (seed_of_seeded hseed).symm ▸ hn
    | false => exact absurd hn ((h.primal hseed).not_abandoned n)

/-- The culprit of a round is left half built. -/
theorem Orderly.abandoned_culprit (h : p.Orderly) {r : Round} (hr : r.Unreserved) {n : String}
    (hn : p.culprit? r = some n) : Abandoned (p.prepared r).2.graph n := by
  cases ho : p.opened r with
  | error f =>
    rw [(prepared_of_error ho).2] at hn
    cases hn
  | ok context =>
    obtain ⟨cx, g⟩ := context
    rcases (prepared_blame h.settled ho).2 with ⟨hnone, -⟩ | ⟨n', hn', -, habandoned⟩
    · rw [hnone] at hn
      cases hn
    · obtain ⟨-, -, rfl⟩ := opened_ok ho
      obtain rfl : n' = n := Option.some.inj (hn'.symm.trans hn)
      exact habandoned hr.1 (h.ready_seed hr.2)

theorem Charged.step (h : p.Charged found) {event : Event} (he : event.Unreserved) :
    (p.step event).Charged (p.charge found event) := by
  refine ⟨h.toOrderly.step he, ?_⟩
  cases event with
  | reset => exact fun n hn => nomatch hn
  | round r =>
    intro n hn
    obtain ⟨diagnostics, hs⟩ := step_round p r
    rw [hs]
    rcases List.mem_append.1 hn with hn | hn
    · exact h.toOrderly.abandoned_prepared he (h.left n hn)
    · exact h.toOrderly.abandoned_culprit he (Option.mem_toList.1 hn)

theorem charged_run (pipeline : PropertyPipeline) {events : List Event}
    (h : ∀ e ∈ events, e.Unreserved) : (run (withPipeline pipeline) events).Charged
      (culprits (withPipeline pipeline) [] events) :=
  run_invariant (J := Charged) (fun _ _ e he hp => hp.step (h e he))
    ⟨.reset (withPipeline pipeline), fun _ hn => nomatch hn⟩

/-- After any sequence of rounds and resets the model has no half-built type if no round since the
last reset failed inside a definition. The definitions in which one did are half built, unless the
sign of placeholders is used in names. -/
theorem populated_of_no_culprits (pipeline : PropertyPipeline) (events : List Event) :
    (culprits (withPipeline pipeline) [] events = [] →
      (run (withPipeline pipeline) events).graph.Populated) ∧
    ((∀ e ∈ events, e.Unreserved) →
      (∀ n ∈ culprits (withPipeline pipeline) [] events,
        Abandoned (run (withPipeline pipeline) events).graph n) ∧
      ((run (withPipeline pipeline) events).graph.Populated →
        culprits (withPipeline pipeline) [] events = [])) := by
  have haccounted : (run (withPipeline pipeline) events).Accounted
      (culprits (withPipeline pipeline) [] events) := by
    refine run_invariant (J := Accounted) (fun p found e _ h => h.step e)
      ⟨settled_reset (withPipeline pipeline), fun _ id ⟨d, hd, _⟩ => ?_⟩
    simp [withPipeline, TypeGraph.empty, definition?] at hd
  refine ⟨fun hnil => (populated_iff_halfBuilt haccounted.wellFormed).2 (haccounted.whole hnil),
    fun hevents => ?_⟩
  have hcharged := charged_run pipeline hevents
  refine ⟨hcharged.left, fun hpopulated => ?_⟩
  rw [List.eq_nil_iff_forall_not_mem]
  intro n hn
  obtain ⟨id, -, hid⟩ := hcharged.left n hn
  exact (populated_iff_halfBuilt haccounted.wellFormed).1 hpopulated id hid

/-- A controller with one method, and the record that the method returns. A component of the record
is a variable of a type that is not declared. -/
def orphanExport : SymbolTable where
  types := [
    ⟨"a.Api", none, none, none, .classType, [], [.written Marker.endpoint []], [], none, [], [],
      [⟨"get", [], [.written Marker.requestMapping []], [], [], some (.declared "a.Orphan" [])⟩], [], []⟩,
    ⟨"a.Orphan", none, none, none, .recordType, [], [], [], none, [], [], [],
      [⟨"parent", .typeVar "T" (.type "a.Gone"), []⟩], []⟩]
  annotationTypes := []

/-- After the round that fails the record is half built. -/
theorem not_populated_orphan :
    culprits (withPipeline .standard) []
      [.round (.process orphanExport .standard ["a.Api"])] = ["a.Orphan"] ∧
    ¬(run (withPipeline .standard)
      [.round (.process orphanExport .standard ["a.Api"])]).graph.Populated := by
  decide +kernel

end Processor

end ClientBindings
