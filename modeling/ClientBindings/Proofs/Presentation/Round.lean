import ClientBindings.Proofs.Presentation.Model

/-! Controllers presented in successive rounds. The model depends on the names that were presented,
not on their order, on repetitions or on how they were split into rounds. -/
namespace ClientBindings

open BuildContext TypeGraph

/-- A graph that has just been seeded, before anything is presented. -/
theorem BuildContext.presented_seed {cx : BuildContext} (hs : cx.settings.Unreserved) (g : TypeGraph) :
    cx.Presented [] ⟨g.clear.seed cx.settings, [], []⟩ := by
  have hown : cx.ownNames (g.clear.seed cx.settings) = [] := ownNames_seed g
  exact {
    whole := ⟨identified_seed hs g, sound_seed hs g⟩
    numbered := (Continues.seed (.refl (numbered_clear g)) cx.settings).toNumbered
    accountable := fun t _ ht => by
      rw [hown] at ht
      cases ht
    endpoint := fun he => nomatch he
    sorted := .nil
    keys := by simp
    known := fun hc => nomatch hc
    within := fun _ _ n hn => by
      rw [hown] at hn
      cases hn }

theorem BuildContext.tallied_seed {cx : BuildContext} :
    cx.Tallied [] ⟨TypeGraph.empty.seed cx.settings, [], []⟩ := by
  have hown : cx.ownNames (TypeGraph.empty.seed cx.settings) = [] := ownNames_seed .empty
  rw [Tallied, hown]
  exact .refl _

namespace Processor

variable {cx : BuildContext} {seen cs : List String} {p : Processor}

/-- Rounds over lists of controllers, one after the other, up to the first that fails. -/
def present (symbols : SymbolTable) (settings : Settings) (p : Processor) :
    List (List String) → Except Failure Processor
  | [] => .ok p
  | cs :: rounds =>
    match p.processControllers symbols settings cs with
    | (.error f, _) => .error f
    | (.ok _, q) => present symbols settings q rounds

/-- The model with full names for numbers. -/
def namedModel? (p : Processor) : Option NamedModel := p.graph.namedModel? p.endpoints

/-- A processor to which the names `seen` have been presented, and that the next round finds seeded. -/
structure Presents (cx : BuildContext) (seen : List String) (p : Processor) : Prop where
  pipeline : p.pipeline = cx.pipeline
  model : cx.Presented seen ⟨p.graph.seed cx.settings, p.endpoints, []⟩

theorem presents_withPipeline (hs : cx.settings.Unreserved) :
    (withPipeline cx.pipeline).Presents cx [] := ⟨rfl, presented_seed hs .empty⟩

theorem presents_reset (hs : cx.settings.Unreserved) (hp : p.pipeline = cx.pipeline) :
    p.reset.Presents cx [] := ⟨hp, presented_seed hs p.graph⟩

section rounds

variable (hs : cx.symbols.Tidy)
  (hexclusions : cx.settings.exclusions = .ok cx.exclusions)
include hexclusions

theorem processControllers_eq (hp : p.pipeline = cx.pipeline) (cs : List String) :
    p.processControllers cx.symbols cx.settings cs =
      match (buildControllers cx.buildEndpoint cs).run ⟨p.graph.seed cx.settings, p.endpoints, []⟩ with
      | (.error f, w) => (.error f, ⟨w.graph, w.endpoints, cx.pipeline, w.diagnostics⟩)
      | (.ok endpoints, w) =>
        (.ok ⟨endpoints, [], w.diagnostics⟩, ⟨w.graph, w.endpoints, cx.pipeline, w.diagnostics⟩) := by
  have hopen : openContext cx.symbols cx.settings p.pipeline p.graph =
      .ok (cx, p.graph.seed cx.settings) := by
    rw [openContext, hexclusions, hp]
    rfl
  rw [processControllers, prepare, hopen]
  dsimp only
  rcases (buildControllers cx.buildEndpoint cs).run ⟨p.graph.seed cx.settings, p.endpoints, []⟩
    with ⟨f | endpoints, w⟩
  · rw [← hp]
  · rw [← hp]
    rfl

include hs

/-- A round takes all of its names in, or else no set of types lets all of them in. -/
theorem Presents.processControllers (h : p.Presents cx seen) (cs : List String) :
    (∃ report q, p.processControllers cx.symbols cx.settings cs = (.ok report, q) ∧
      q.Presents cx (seen ++ cs) ∧ q.graph.seeded = true ∧
      (cx.Tallied seen ⟨p.graph.seed cx.settings, p.endpoints, []⟩ →
        cx.Tallied (seen ++ cs) ⟨q.graph, q.endpoints, report.diagnostics⟩)) ∨
    ∃ f q, p.processControllers cx.symbols cx.settings cs = (.error f, q) ∧
      ∀ S, cx.Accountable S → ∃ c ∈ cs, ¬cx.Welcome S c := by
  have htook := h.model.buildControllers hs cs
  have hguard : ((buildControllers cx.buildEndpoint cs).run
      ⟨p.graph.seed cx.settings, p.endpoints, []⟩).2.graph.seeded = true :=
    buildControllers_guard (J := fun g => g.seeded = true) (fun c w => enduring_seeded.buildEndpoint c)
      cs (seeded_seed p.graph cx.settings)
  rw [processControllers_eq hexclusions h.pipeline]
  rcases ho : (buildControllers cx.buildEndpoint cs).run ⟨p.graph.seed cx.settings, p.endpoints, []⟩
    with ⟨f | endpoints, w⟩
  · rw [ho] at htook
    cases htook with
    | aborted hbad => exact .inr ⟨f, _, rfl, hbad⟩
  · rw [ho] at htook hguard
    cases htook with
    | ok hw ht =>
      refine .inl ⟨_, _, rfl, ⟨rfl, ?_⟩, hguard, ht⟩
      rw [seed_of_seeded hguard]
      exact hw.congr rfl rfl

/-- All rounds take their names in, or one of them has a name that does not fit. -/
theorem Presents.present (h : p.Presents cx seen) (rounds : List (List String)) :
    (∃ q, present cx.symbols cx.settings p rounds = .ok q ∧
      q.Presents cx (seen ++ rounds.flatten) ∧
      (p.graph.seeded = true ∨ rounds ≠ [] → q.graph.seeded = true)) ∨
    ∃ f, present cx.symbols cx.settings p rounds = .error f ∧
      ∀ S, cx.Accountable S → ∃ c ∈ rounds.flatten, ¬cx.Welcome S c := by
  induction rounds generalizing p seen with
  | nil =>
    refine .inl ⟨p, rfl, by rwa [List.flatten_nil, List.append_nil], ?_⟩
    rintro (hseeded | hne)
    · exact hseeded
    · exact absurd rfl hne
  | cons cs rounds ih =>
    rw [Processor.present, List.flatten_cons]
    rcases h.processControllers hs hexclusions cs with ⟨report, q, ho, hq, hseeded, -⟩ | ⟨f, q, ho, hbad⟩
    · rw [ho]
      rcases ih hq with ⟨q', ho', hq', hkeep⟩ | ⟨f, ho', hbad⟩
      · rw [List.append_assoc] at hq'
        exact .inl ⟨q', ho', hq', fun _ => hkeep (.inl hseeded)⟩
      · refine .inr ⟨f, ho', fun S hS => ?_⟩
        obtain ⟨c, hc, hnot⟩ := hbad S hS
        exact ⟨c, List.mem_append_right _ hc, hnot⟩
    · rw [ho]
      refine .inr ⟨f, rfl, fun S hS => ?_⟩
      obtain ⟨c, hc, hnot⟩ := hbad S hS
      exact ⟨c, List.mem_append_left _ hc, hnot⟩

end rounds

section agreement

variable (cx) (hs : cx.symbols.Tidy)
  (hexclusions : cx.settings.exclusions = .ok cx.exclusions)
  (hn : cx.settings.Unreserved)
include hs hexclusions hn

/-- Of two ways to present the same names, each in one round at least, the second goes as the first. -/
theorem present_same {rounds rounds' : List (List String)} {q : Processor} (hne : rounds ≠ [])
    (hne' : rounds' ≠ []) (hmem : ∀ c, c ∈ rounds.flatten ↔ c ∈ rounds'.flatten)
    (ho : present cx.symbols cx.settings (withPipeline cx.pipeline) rounds = .ok q) :
    ∃ q' m m', present cx.symbols cx.settings (withPipeline cx.pipeline) rounds' = .ok q' ∧
      q.namedModel? = some m ∧ q'.namedModel? = some m' ∧ m.Agrees m' := by
  have hnew : (withPipeline cx.pipeline).Presents cx [] := presents_withPipeline hn
  rcases hnew.present hs hexclusions rounds with ⟨q₁, ho₁, hq, hseeded⟩ | ⟨f, ho₁, -⟩
  · obtain rfl : q = q₁ := Except.ok.inj (ho.symm.trans ho₁)
    have hmodel := hq.model
    rw [seed_of_seeded (hseeded (.inr hne))] at hmodel
    rcases hnew.present hs hexclusions rounds' with ⟨q', ho', hq', hseeded'⟩ | ⟨f, -, hbad⟩
    · have hmodel' := hq'.model
      rw [seed_of_seeded (hseeded' (.inr hne'))] at hmodel'
      obtain ⟨m, m', hm, hm', hagree⟩ := hmodel.agrees hmodel' hmem
      exact ⟨q', m, m', ho', hm, hm', hagree⟩
    · -- The types that the first way entered let all of its names in, so no round of the second fails.
      obtain ⟨c, hc, hnot⟩ := hbad _ hmodel.accountable
      exact absurd (hmodel.welcome ((hmem c).2 hc)) hnot
  · rw [ho] at ho₁
    cases ho₁

/-- Two rounds over one list of names in different orders report the same. -/
theorem report_same {cs cs' : List String} {report : RoundReport} {q : Processor} (hperm : cs.Perm cs')
    (ho : (withPipeline cx.pipeline).processControllers cx.symbols cx.settings cs = (.ok report, q)) :
    ∃ report' q', (withPipeline cx.pipeline).processControllers cx.symbols cx.settings cs' =
      (.ok report', q') ∧ report.diagnostics.Perm report'.diagnostics := by
  have hnew : (withPipeline cx.pipeline).Presents cx [] := presents_withPipeline hn
  rcases hnew.processControllers hs hexclusions cs with ⟨r, q₁, ho₁, hq, hseeded, ht⟩ | ⟨f, q₁, ho₁, -⟩
  · obtain ⟨hr, rfl⟩ := Prod.mk.inj (ho.symm.trans ho₁)
    obtain rfl : report = r := Except.ok.inj hr
    have hmodel := hq.model
    rw [seed_of_seeded hseeded] at hmodel
    rcases hnew.processControllers hs hexclusions cs' with
      ⟨report', q', ho', hq', hseeded', ht'⟩ | ⟨f, q', -, hbad⟩
    · have hmodel' := hq'.model
      rw [seed_of_seeded hseeded'] at hmodel'
      have hw : cx.Presented cs ⟨q.graph, q.endpoints, report.diagnostics⟩ := hmodel.congr rfl rfl
      have hw' : cx.Presented cs' ⟨q'.graph, q'.endpoints, report'.diagnostics⟩ :=
        hmodel'.congr rfl rfl
      exact ⟨report', q', ho', hw.diagnostics_perm hw' hperm (ht tallied_seed) (ht' tallied_seed)⟩
    · obtain ⟨c, hc, hnot⟩ := hbad _ hmodel.accountable
      exact absurd (hmodel.welcome (hperm.mem_iff.2 hc)) hnot
  · rw [ho] at ho₁
    cases ho₁

end agreement

theorem exists_ok_of_isOk {ε α β : Type} {out : Except ε α × β} (h : out.1.isOk = true) :
    ∃ a b, out = (.ok a, b) := by
  obtain ⟨e | a, b⟩ := out
  · cases h
  · exact ⟨a, b, rfl⟩

/-- A round that succeeds has read the exclusions. -/
theorem exists_exclusions {symbols : SymbolTable} {settings : Settings} {report : RoundReport}
    {q : Processor} (h : p.processControllers symbols settings cs = (.ok report, q)) :
    ∃ exclusions, settings.exclusions = .ok exclusions := by
  cases hx : settings.exclusions with
  | ok exclusions => exact ⟨exclusions, rfl⟩
  | error f =>
    have hopen : openContext symbols settings p.pipeline p.graph = .error f := by
      rw [openContext, hx]
      rfl
    rw [Processor.processControllers, prepare, hopen] at h
    cases h

/-- For an export and settings with the sign of placeholders in none of their names, on a new
processor: the same names, in any order, repeated or not and split into rounds in any way, make the
same model, and if one way of presenting them succeeds every other does. Two rounds over the same list
in different orders moreover report the same diagnostics, each as often.

Names are presented in one round at least. Only where there are none at all does this say something:
a processor is seeded in its first round. -/
theorem present_agrees {symbols : SymbolTable} {settings : Settings} (pipeline : PropertyPipeline)
    (hs : symbols.Tidy) (hn : settings.Unreserved) :
    (∀ rounds rounds' p, (∀ c, c ∈ rounds.flatten ↔ c ∈ rounds'.flatten) →
      (rounds = [] ↔ rounds' = []) →
      present symbols settings (withPipeline pipeline) rounds = .ok p →
      ∃ p' m m', present symbols settings (withPipeline pipeline) rounds' = .ok p' ∧
        p.namedModel? = some m ∧ p'.namedModel? = some m' ∧ m.Agrees m') ∧
    ∀ cs cs' report p, cs.Perm cs' →
      (withPipeline pipeline).processControllers symbols settings cs = (.ok report, p) →
      ∃ report' p', (withPipeline pipeline).processControllers symbols settings cs' =
        (.ok report', p') ∧ report.diagnostics.Perm report'.diagnostics := by
  refine ⟨fun rounds rounds' p hmem hempty ho => ?_, fun cs cs' report p hperm ho => ?_⟩
  · cases rounds with
    | nil =>
      obtain rfl : withPipeline pipeline = p := Except.ok.inj ho
      rw [hempty.1 rfl]
      exact ⟨_, ⟨[], []⟩, ⟨[], []⟩, rfl, rfl, rfl, .refl _, rfl⟩
    | cons cs rounds =>
      obtain ⟨exclusions, hx⟩ : ∃ exclusions, settings.exclusions = .ok exclusions := by
        rcases hround : (withPipeline pipeline).processControllers symbols settings cs with ⟨f | report, q⟩
        · rw [present, hround] at ho
          cases ho
        · exact exists_exclusions hround
      have hne' : rounds' ≠ [] := fun h => List.cons_ne_nil _ _ (hempty.2 h)
      exact present_same ⟨symbols, settings, exclusions, pipeline⟩ hs hx hn (List.cons_ne_nil _ _) hne'
        hmem ho
  · obtain ⟨exclusions, hx⟩ := exists_exclusions ho
    exact report_same ⟨symbols, settings, exclusions, pipeline⟩ hs hx hn hperm ho

/-- A controller and a record that is none, in one round or in two and the other way round. -/
theorem present_agrees_node :
    (∃ p p' m m', present nodeContext.symbols .standard initial [["a.Api", "a.Leaf"]] = .ok p ∧
      present nodeContext.symbols .standard initial [["a.Leaf"], ["a.Api", "a.Api"]] = .ok p' ∧
      p.namedModel? = some m ∧ p'.namedModel? = some m' ∧ m.Agrees m') ∧
    ∃ report report' p p',
      initial.processControllers nodeContext.symbols .standard ["a.Api", "a.Leaf"] = (.ok report, p) ∧
      initial.processControllers nodeContext.symbols .standard ["a.Leaf", "a.Api"] =
        (.ok report', p') ∧ report.diagnostics.Perm report'.diagnostics := by
  have hs : nodeContext.symbols.Tidy := by decide +kernel
  have hn : Settings.standard.Unreserved := by decide +kernel
  obtain ⟨report, p, hround⟩ : ∃ report p,
      initial.processControllers nodeContext.symbols .standard ["a.Api", "a.Leaf"] = (.ok report, p) := by
    have hok : (initial.processControllers nodeContext.symbols .standard ["a.Api", "a.Leaf"]).1.isOk =
        true := by decide +kernel
    exact exists_ok_of_isOk hok
  have hpresent : present nodeContext.symbols .standard initial [["a.Api", "a.Leaf"]] = .ok p := by
    rw [present, hround]
    rfl
  obtain ⟨p', m, m', h⟩ := (present_agrees .standard hs hn).1 [["a.Api", "a.Leaf"]]
    [["a.Leaf"], ["a.Api", "a.Api"]] p (by simp [or_comm]) (by simp) hpresent
  obtain ⟨report', q', h'⟩ := (present_agrees .standard hs hn).2 ["a.Api", "a.Leaf"]
    ["a.Leaf", "a.Api"] report p (.swap ..) hround
  exact ⟨⟨p, p', m, m', hpresent, h⟩, report, report', p, q', hround, h'⟩

end Processor

end ClientBindings
