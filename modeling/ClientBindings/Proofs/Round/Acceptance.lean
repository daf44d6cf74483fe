import ClientBindings.Proofs.Presentation.Controllers
import ClientBindings.Proofs.Round.Reporting

/-! The account that a round gives of the names it is called with: those that are accepted, those that
are refused, and the one that the round is aborted at, if there is one. -/
namespace ClientBindings

open BuildContext TypeGraph

/-- What is said of a name that is no controller. -/
def refusal (c : String) : Diagnostic :=
  ⟨.error, "endpoint:" ++ c, (BuildError.notAController c).message⟩

/-- What is said where a round is aborted. -/
def abortion (c : String) (e : BuildError) : Diagnostic :=
  ⟨.error, "endpoint:" ++ c, "Round aborted: " ++ e.message⟩

/-- Every endpoint is kept under the name of its controller. -/
def Keyed (es : Dict Endpoint) : Prop := ∀ c e, es.get? c = some e → e.controllerType = c

/-- Once some names have been built to their end, those that follow are built from there. -/
theorem buildControllers_append {build : String → Build Endpoint} {done names : List String}
    {w u : Workspace} (h : (buildControllers build done).run w = (.ok names, u)) (cs : List String) :
    (buildControllers build (done ++ cs)).run w =
      (((buildControllers build cs).run u).1.map (names ++ ·),
        ((buildControllers build cs).run u).2) := by
  induction done generalizing w names with
  | nil =>
    cases h
    rw [List.nil_append]
    rcases (buildControllers build cs).run u with ⟨f | names, v⟩ <;> rfl
  | cons c done ih =>
    rw [List.cons_append]
    rcases ho : (build c).outcome w with ⟨e | e, v⟩
    · cases hs : e.isTypeScoped with
      | true =>
        rw [buildControllers_scoped ho hs] at h ⊢
        exact ih h
      | false =>
        rw [buildControllers_aborted ho hs] at h
        cases h
    · rw [buildControllers_ok ho] at h ⊢
      rcases hrest : (buildControllers build done).run v with ⟨f | rest, v'⟩
      · rw [hrest] at h
        cases h
      · rw [hrest] at h
        obtain ⟨hnames, rfl⟩ : Except.ok (e.controllerType :: rest) = .ok names ∧ v' = u :=
          Prod.mk.inj h
        cases hnames
        rw [ih hrest]
        rcases (buildControllers build cs).run v' with ⟨f | names, u⟩ <;> rfl

namespace BuildContext

variable {cx : BuildContext} {c c' : String} {cs names : List String} {w v u : Workspace}

/-- A name that has an endpoint among those given, or is that of a controller. -/
def serves (cx : BuildContext) (es : Dict Endpoint) (c : String) : Bool :=
  (es.get? c).isSome || ((cx.symbols.type? c).bind fun t =>
    cx.symbols.resolveAnnotation t.annotations Marker.endpoint).isSome

theorem serves_iff {es : Dict Endpoint} :
    cx.serves es c = true ↔ (es.get? c).isSome = true ∨ cx.Marked c := by
  rw [serves, Bool.or_eq_true, marked_iff]

theorem controllerType_buildEndpoint {e : Endpoint} (hw : Keyed w.endpoints)
    (h : (cx.buildEndpoint c).outcome w = (.ok e, v)) : e.controllerType = c := by
  cases hget : w.endpoints.get? c with
  | some e' =>
    rw [buildEndpoint, assembleEndpoint_of_some hget] at h
    cases h
    exact hw c e hget
  | none =>
    rw [buildEndpoint, assembleEndpoint_of_none hget] at h
    by_cases hm : cx.Marked c
    · obtain ⟨t, marker, ht, hmarker⟩ := hm
      obtain ⟨u, -, ⟨e', -, ho⟩ | ⟨e', hdraft, ho⟩⟩ :=
        assembleNew_drafted keeps_resolve_endpoints ht hmarker hget
      · cases ho.symm.trans h
      · cases ho.symm.trans h
        exact draft_controllerType hdraft
    · obtain ⟨e', ho⟩ := assembleNew_unmarked hm
      cases (ho _ _).symm.trans h

theorem keyed_buildEndpoint (cx : BuildContext) (c : String) (hw : Keyed w.endpoints) :
    Keyed ((cx.buildEndpoint c).outcome w).2.endpoints := by
  rcases ho : (cx.buildEndpoint c).outcome w with ⟨e | e, v⟩
  · obtain ⟨-, hv, -⟩ := buildEndpoint_error ho
    exact hv ▸ hw
  · obtain ⟨hself, hother, -⟩ := buildEndpoint_ok ho
    intro c' e' hget
    by_cases heq : c' = c
    · subst heq
      cases hself.symm.trans hget
      exact controllerType_buildEndpoint hw ho
    · exact hw c' e' ((hother c' heq).symm.trans hget)

/-- An endpoint that is built is that of a name that is served. -/
theorem serves_of_buildEndpoint_ok {e : Endpoint}
    (h : (cx.buildEndpoint c).outcome w = (.ok e, v)) : cx.serves w.endpoints c = true := by
  obtain ⟨-, -, hget | ⟨-, hm⟩⟩ := buildEndpoint_ok h
  · exact serves_iff.2 (.inl (by rw [hget]; rfl))
  · exact serves_iff.2 (.inr hm)

/-- A name that is refused is not served, and it is said which. -/
theorem buildEndpoint_scoped {e : BuildError} (h : (cx.buildEndpoint c).outcome w = (.error e, v))
    (hs : e.isTypeScoped = true) :
    cx.serves w.endpoints c = false ∧ e = .notAController c ∧ v = w := by
  obtain ⟨hget, -, hscoped⟩ := buildEndpoint_error h
  have hm : ¬cx.Marked c := hscoped hs
  refine ⟨Bool.eq_false_iff.2 fun hserves => ?_, ?_⟩
  · rcases serves_iff.1 hserves with hsome | hmarked
    · rw [hget] at hsome
      cases hsome
    · exact hm hmarked
  · rw [buildEndpoint, assembleEndpoint_of_none hget] at h
    cases ht : cx.symbols.type? c with
    | none =>
      rw [assembleNew_missing ht] at h
      cases h
      cases hs
    | some t =>
      cases hmarker : cx.symbols.resolveAnnotation t.annotations Marker.endpoint with
      | none =>
        rw [assembleNew_plain ht hmarker] at h
        cases h
        exact ⟨rfl, rfl⟩
      | some marker => exact absurd ⟨t, marker, ht, hmarker⟩ hm

/-- Building an endpoint serves no name that was not served before. -/
theorem serves_buildEndpoint (cx : BuildContext) (c c' : String) (w : Workspace) :
    cx.serves ((cx.buildEndpoint c).outcome w).2.endpoints c' = cx.serves w.endpoints c' := by
  rcases ho : (cx.buildEndpoint c).outcome w with ⟨e | e, v⟩
  · obtain ⟨-, hv, -⟩ := buildEndpoint_error ho
    exact congrArg (cx.serves · c') hv
  · obtain ⟨hself, hother, -⟩ := buildEndpoint_ok ho
    by_cases heq : c' = c
    · subst heq
      rw [serves_of_buildEndpoint_ok ho]
      exact serves_iff.2 (.inl (by rw [hself]; rfl))
    · simp only [serves, hother c' heq]

/-- What a list of names comes to, from one workspace to another: the served ones are accepted and
have endpoints, the others are refused, all of them in order. -/
structure Accounts (cx : BuildContext) (cs : List String) (w v : Workspace) (names : List String) :
    Prop where
  accepted : names = cs.filter (cx.serves w.endpoints)
  refused : errorsOf v.diagnostics =
    errorsOf w.diagnostics ++ (cs.filter fun c => !cx.serves w.endpoints c).map refusal
  registered (c : String) : (v.endpoints.get? c).isSome = true ↔
    (w.endpoints.get? c).isSome = true ∨ c ∈ names

namespace Accounts

theorem nil (cx : BuildContext) (w : Workspace) : cx.Accounts [] w w [] where
  accepted := rfl
  refused := (List.append_nil _).symm
  registered c := by simp

/-- After the first name has been built. -/
theorem cons_built {e : Endpoint} (ho : (cx.buildEndpoint c).outcome w = (.ok e, u))
    (h : cx.Accounts cs u v names) : cx.Accounts (c :: cs) w v (c :: names) := by
  have hserves (c' : String) : cx.serves u.endpoints c' = cx.serves w.endpoints c' := by
    rw [← cx.serves_buildEndpoint c c' w, ho]
  have herrors : errorsOf u.diagnostics = errorsOf w.diagnostics := by
    rw [← errorsOf_buildEndpoint cx c w, ho]
  have hc := serves_of_buildEndpoint_ok ho
  obtain ⟨hself, hother, -⟩ := buildEndpoint_ok ho
  refine ⟨?_, ?_, fun c' => ?_⟩
  · rw [List.filter_cons_of_pos hc, h.accepted, List.filter_congr fun c' _ => hserves c']
  · rw [List.filter_cons_of_neg (by rw [hc]; decide), h.refused, herrors,
      List.filter_congr fun c' _ => congrArg not (hserves c')]
  · rw [h.registered, List.mem_cons]
    by_cases heq : c' = c
    · subst heq
      simp [hself]
    · simp [hother c' heq, heq]

/-- After the first name has been refused. -/
theorem cons_refused (hc : cx.serves w.endpoints c = false)
    (h : cx.Accounts cs (w.note (refusal c)) v names) : cx.Accounts (c :: cs) w v names where
  accepted := by
    rw [List.filter_cons_of_neg (by rw [hc]; decide), h.accepted]
    rfl
  refused := by
    have hnoted : errorsOf (w.note (refusal c)).diagnostics =
        errorsOf w.diagnostics ++ [refusal c] := errorsOf_append ..
    rw [List.filter_cons_of_pos (by rw [hc]; rfl), h.refused, hnoted, List.append_assoc]
    rfl
  registered := h.registered

end Accounts

/-- A list of names that is built to its end. -/
theorem buildControllers_accounts (hw : Keyed w.endpoints)
    (h : (buildControllers cx.buildEndpoint cs).run w = (.ok names, v)) :
    cx.Accounts cs w v names := by
  induction cs generalizing w names with
  | nil =>
    cases h
    exact .nil cx v
  | cons c cs ih =>
    have hu := keyed_buildEndpoint cx c hw
    rcases ho : (cx.buildEndpoint c).outcome w with ⟨e | e, u⟩
    · rw [ho] at hu
      cases hs : e.isTypeScoped with
      | true =>
        obtain ⟨hc, rfl, rfl⟩ := buildEndpoint_scoped ho hs
        rw [buildControllers_scoped ho hs] at h
        exact .cons_refused hc (ih hu h)
      | false =>
        rw [buildControllers_aborted ho hs] at h
        cases h
    · rw [ho] at hu
      rw [buildControllers_ok ho, controllerType_buildEndpoint hw ho] at h
      obtain ⟨hnames, hv⟩ := Prod.mk.inj h
      rcases hrest : (buildControllers cx.buildEndpoint cs).run u with ⟨f | rest, v'⟩
      · rw [hrest] at hnames
        cases hnames
      · rw [hrest] at hnames hv
        cases hnames
        cases hv
        exact .cons_built ho (ih hu hrest)

/-- Where a list of names is given up: the names before have been built to their end, and what is left
is that of the name itself. -/
structure Aborts (cx : BuildContext) (done : List String) (c : String) (e : BuildError)
    (w u v : Workspace) (names : List String) : Prop where
  before : (buildControllers cx.buildEndpoint done).run w = (.ok names, u)
  fails : ∃ v', (cx.buildEndpoint c).outcome u = (.error e, v') ∧ v = v'.note (abortion c e)
  severe (n : String) : e ≠ .notAController n

theorem buildControllers_aborts {f : Failure}
    (h : (buildControllers cx.buildEndpoint cs).run w = (.error f, v)) :
    ∃ done c later e u names, cs = done ++ c :: later ∧ f = abortedAt c e ∧
      cx.Aborts done c e w u v names := by
  induction cs generalizing w with
  | nil => cases h
  | cons c cs ih =>
    rcases ho : (cx.buildEndpoint c).outcome w with ⟨e | e, u⟩
    · cases hs : e.isTypeScoped with
      | true =>
        rw [buildControllers_scoped ho hs] at h
        obtain ⟨done, c', later, e', u', names, rfl, rfl, hafter⟩ := ih h
        refine ⟨c :: done, c', later, e', u', names, rfl, rfl, ?_, hafter.fails, hafter.severe⟩
        rw [buildControllers_scoped ho hs, hafter.before]
      | false =>
        rw [buildControllers_aborted ho hs] at h
        obtain ⟨hf, hv⟩ := Prod.mk.inj h
        refine ⟨[], c, cs, e, w, [], rfl, (Except.error.inj hf).symm, rfl, ⟨u, ho, hv.symm⟩, ?_⟩
        rintro n rfl
        cases hs
    · rw [buildControllers_ok ho] at h
      obtain ⟨hf, hv⟩ := Prod.mk.inj h
      obtain ⟨done, c', later, e', u', names, rfl, rfl, hafter⟩ :=
        ih (Prod.ext (buildControllers_map_error.1 hf) hv)
      refine ⟨c :: done, c', later, e', u', e.controllerType :: names, rfl, rfl, ?_, hafter.fails,
        hafter.severe⟩
      rw [buildControllers_ok ho, hafter.before]
      rfl

namespace Aborts

variable {done later : List String} {e : BuildError}

/-- The name has no endpoint, and there are no others than those of the names before. -/
theorem endpoints (h : cx.Aborts done c e w u v names) :
    v.endpoints = u.endpoints ∧ v.endpoints.get? c = none := by
  obtain ⟨v', ho, rfl⟩ := h.fails
  obtain ⟨hget, hv, -⟩ := buildEndpoint_error ho
  exact ⟨hv, (congrArg (·.get? c) hv).trans hget⟩

theorem errors (h : cx.Aborts done c e w u v names) :
    errorsOf v.diagnostics = errorsOf u.diagnostics ++ [abortion c e] := by
  obtain ⟨v', ho, rfl⟩ := h.fails
  have herrors := errorsOf_buildEndpoint cx c u
  rw [ho] at herrors
  rw [← herrors]
  exact errorsOf_append ..

/-- Whatever names come later, they are not taken up. -/
theorem run (h : cx.Aborts done c e w u v names) (later : List String) :
    (buildControllers cx.buildEndpoint (done ++ c :: later)).run w = (.error (abortedAt c e), v) := by
  obtain ⟨v', ho, rfl⟩ := h.fails
  have hs : e.isTypeScoped = false := by
    cases e with
    | notAController n => exact absurd rfl (h.severe n)
    | _ => rfl
  rw [buildControllers_append h.before, buildControllers_aborted ho hs]
  rfl

end Aborts

end BuildContext

namespace Processor

variable {p q : Processor} {symbols : SymbolTable} {settings : Settings} {exclusions : Exclusions}
  {cs : List String} {v : Workspace}

/-- What a round looks things up in, once its exclusions have been read. -/
def contextOver (p : Processor) (symbols : SymbolTable) (settings : Settings)
    (exclusions : Exclusions) : BuildContext := ⟨symbols, settings, exclusions, p.pipeline⟩

/-- The model that a round begins with, and no findings. -/
def start (p : Processor) (settings : Settings) : Workspace :=
  ⟨p.graph.seed settings, p.endpoints, []⟩

/-- The model of a processor, and findings. -/
def withFindings (p : Processor) (ds : List Diagnostic) : Workspace := ⟨p.graph, p.endpoints, ds⟩

theorem run_keyed (pipeline : PropertyPipeline) (events : List Event) :
    Keyed (run (withPipeline pipeline) events).endpoints :=
  run_upheld (J := fun _ es => Keyed es) pipeline (fun _ _ _ h => nomatch h) fun _ _ =>
    ⟨fun h => h, fun _ _ c _ _ h => keyed_buildEndpoint _ c h⟩

section round

variable (hrules : settings.exclusions = .ok exclusions)
include hrules

theorem opened_of_compiled : p.opened (.process symbols settings cs) =
    .ok (p.contextOver symbols settings exclusions, p.graph.seed settings) := by
  change openContext symbols settings p.pipeline p.graph = _
  rw [openContext, hrules]
  rfl

theorem processControllers_of_built {names : List String}
    (hb : (buildControllers (p.contextOver symbols settings exclusions).buildEndpoint cs).run
      (p.start settings) = (.ok names, v)) : p.processControllers symbols settings cs =
        (.ok ⟨names, [], v.diagnostics⟩, { p with
          graph := v.graph, endpoints := v.endpoints, lastDiagnostics := v.diagnostics }) :=
  attempt_of_stored (prepared_of_built_ok (opened_of_compiled hrules) hb) fun _ _ => rfl

theorem processControllers_of_aborted {f : Failure}
    (hb : (buildControllers (p.contextOver symbols settings exclusions).buildEndpoint cs).run
      (p.start settings) = (.error f, v)) : p.processControllers symbols settings cs =
        (.error f, { p with
          graph := v.graph, endpoints := v.endpoints, lastDiagnostics := v.diagnostics }) :=
  attempt_of_error (prepared_of_aborted (opened_of_compiled hrules) hb)

/-- A round that comes to an end reports the names that have an endpoint already or are those of
controllers, in order and as often as they are given, and refuses each of the others with an error. A
round that fails does so at the first name whose building fails in another way: the names before it
are handled as in a round of their own, it gets no endpoint, and no later name is taken up. -/
theorem processControllers_accounts (pipeline : PropertyPipeline) (events : List Event)
    (symbols : SymbolTable) (cs : List String) :
    let p := run (withPipeline pipeline) events
    let cx := p.contextOver symbols settings exclusions
    (∀ report q, p.processControllers symbols settings cs = (.ok report, q) →
      cx.Accounts cs (p.start settings) (q.withFindings report.diagnostics) report.endpoints) ∧
    ∀ f q, p.processControllers symbols settings cs = (.error f, q) →
      ∃ done c later e report r, cs = done ++ c :: later ∧ f = abortedAt c e ∧
        p.processControllers symbols settings done = (.ok report, r) ∧
        cx.Accounts done (p.start settings) (r.withFindings report.diagnostics) report.endpoints ∧
        cx.Aborts done c e (p.start settings) (r.withFindings report.diagnostics)
          (q.withFindings q.lastDiagnostics) report.endpoints ∧
        q.endpoints = r.endpoints ∧ q.endpoints.get? c = none ∧
        errorsOf q.lastDiagnostics = errorsOf report.diagnostics ++ [abortion c e] ∧
        ∀ others, p.processControllers symbols settings (done ++ c :: others) = (.error f, q) := by
  intro p cx
  have hkeyed : Keyed (p.start settings).endpoints := run_keyed pipeline events
  rcases hb : (buildControllers cx.buildEndpoint cs).run (p.start settings) with ⟨f | names, v⟩
  · have hround := processControllers_of_aborted hrules hb
    refine ⟨fun report q h => ?_, fun f' q h => ?_⟩
    · cases hround.symm.trans h
    · cases hround.symm.trans h
      obtain ⟨done, c, later, e, u, names, hcs, rfl, haborts⟩ := buildControllers_aborts hb
      obtain ⟨hendpoints, hget⟩ := haborts.endpoints
      exact ⟨done, c, later, e, _, _, hcs, rfl, processControllers_of_built hrules haborts.before,
        buildControllers_accounts hkeyed haborts.before, haborts, hendpoints, hget, haborts.errors,
        fun others => processControllers_of_aborted hrules (haborts.run others)⟩
  · have hround := processControllers_of_built hrules hb
    refine ⟨fun report q h => ?_, fun f' q h => ?_⟩
    · cases hround.symm.trans h
      exact buildControllers_accounts hkeyed hb
    · cases hround.symm.trans h

end round

/-- A controller and a record. -/
def mixedExport : SymbolTable where
  types := [⟨"a.Api", none, none, none, .classType, [], [.written Marker.endpoint []], [], none, [], [],
      [], [], []⟩,
    ⟨"a.Item", none, none, none, .recordType, [], [], [], none, [], [], [], [], []⟩]
  annotationTypes := []

def mixedContext : BuildContext := initial.contextOver mixedExport .standard []

/-- The record is refused between two calls for the controller; an unknown name ends the round before
the controller is taken up. -/
theorem processControllers_accounts_mixed :
    (∃ report q, initial.processControllers mixedExport .standard ["a.Api", "a.Item", "a.Api"] =
        (.ok report, q) ∧
      mixedContext.Accounts ["a.Api", "a.Item", "a.Api"] (initial.start .standard)
        (q.withFindings report.diagnostics) report.endpoints ∧
      report.endpoints = ["a.Api", "a.Api"]) ∧
    ∃ f q, initial.processControllers mixedExport .standard ["a.Item", "a.Gone", "a.Api"] =
        (.error f, q) ∧ f = abortedAt "a.Gone" (.missingType "a.Gone") ∧ q.endpoints.isEmpty ∧
      ∃ done c later e report r, ["a.Item", "a.Gone", "a.Api"] = done ++ c :: later ∧
        f = abortedAt c e ∧
        initial.processControllers mixedExport .standard done = (.ok report, r) ∧
        mixedContext.Accounts done (initial.start .standard) (r.withFindings report.diagnostics)
          report.endpoints ∧
        errorsOf q.lastDiagnostics = errorsOf report.diagnostics ++ [abortion c e] := by
  obtain ⟨hends, -⟩ := processControllers_accounts
    (rfl : Settings.standard.exclusions = .ok []) .standard [] mixedExport
    ["a.Api", "a.Item", "a.Api"]
  obtain ⟨-, hfails⟩ := processControllers_accounts
    (rfl : Settings.standard.exclusions = .ok []) .standard [] mixedExport
    ["a.Item", "a.Gone", "a.Api"]
  have hnames : (initial.processControllers mixedExport .standard
      ["a.Api", "a.Item", "a.Api"]).1.map (·.endpoints) = .ok ["a.Api", "a.Api"] := by decide +kernel
  obtain ⟨hf, hq⟩ :
      (initial.processControllers mixedExport .standard ["a.Item", "a.Gone", "a.Api"]).1 =
          .error (abortedAt "a.Gone" (.missingType "a.Gone")) ∧
        (initial.processControllers mixedExport .standard
          ["a.Item", "a.Gone", "a.Api"]).2.endpoints.isEmpty := by decide +kernel
  have hround : initial.processControllers mixedExport .standard ["a.Item", "a.Gone", "a.Api"] =
      (.error (abortedAt "a.Gone" (.missingType "a.Gone")), _) := Prod.ext hf rfl
  obtain ⟨done, c, later, e, report, r, hcs, hf, hdone, haccounts, -, -, -, herrors, -⟩ :=
    hfails _ _ hround
  refine ⟨?_, _, _, hround, rfl, hq, done, c, later, e, report, r, hcs, hf, hdone, haccounts, herrors⟩
  rcases hr : initial.processControllers mixedExport .standard ["a.Api", "a.Item", "a.Api"]
    with ⟨f | report, q⟩
  · rw [hr] at hnames
    cases hnames
  · rw [hr] at hnames
    exact ⟨report, q, rfl, hends _ _ hr, Except.ok.inj hnames⟩

end Processor

end ClientBindings
