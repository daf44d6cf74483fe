import ClientBindings.Proofs.Endpoint.Discovery
import ClientBindings.Proofs.Round.Again

/-! What is left of the findings of a round. They are kept where the building of the round fails and
where the round ends, but not where it fails before it builds or while it writes: then those of an
earlier round stay. -/
namespace ClientBindings

open BuildContext TypeGraph

/-- No error is among the findings. -/
def Errorless (ds : List Diagnostic) : Prop := ∀ d ∈ ds, d.severity ≠ .error

theorem errorless_nil : Errorless [] := nofun

theorem Errorless.append {ds ds' : List Diagnostic} (h : Errorless ds) (h' : Errorless ds') :
    Errorless (ds ++ ds') := fun d hd => (List.mem_append.1 hd).elim (h d) (h' d)

theorem errorless_of_warnings {ds : List Diagnostic} (h : ∀ d ∈ ds, d.severity = .warning) :
    Errorless ds := fun d hd => by rw [h d hd]; decide

/-- The errors among findings, in order. -/
def errorsOf (ds : List Diagnostic) : List Diagnostic := ds.filter fun d => d.severity == .error

theorem errorsOf_append (ds ds' : List Diagnostic) :
    errorsOf (ds ++ ds') = errorsOf ds ++ errorsOf ds' := List.filter_append ..

theorem errorless_iff {ds : List Diagnostic} : Errorless ds ↔ errorsOf ds = [] := by
  simp [Errorless, errorsOf, List.filter_eq_nil_iff]

section building

/-- One workspace on both sides, with these errors. -/
def Erring (ds : List Diagnostic) (w w' : Workspace) : Prop := w = w' ∧ errorsOf w.diagnostics = ds

theorem lasting_erring (ds : List Diagnostic) : Lasting (Erring ds) where
  graph hw := congrArg _ hw.1
  warn location message hw := by
    obtain ⟨rfl, hw⟩ := hw
    exact ⟨rfl, (errorsOf_append ..).trans ((List.append_nil _).trans hw)⟩
  register d hw := by
    obtain ⟨rfl, hw⟩ := hw
    exact ⟨rfl, hw⟩
  update id f hw := by
    obtain ⟨rfl, hw⟩ := hw
    exact ⟨rfl, hw⟩

theorem hosting_erring (ds : List Diagnostic) : Hosting (Erring ds) where
  toObservant := (lasting_erring ds).observant
  endpoints hw := congrArg _ hw.1
  addEndpoint e hw := by
    obtain ⟨rfl, hw⟩ := hw
    refine ⟨rfl, ?_⟩
    unfold Workspace.addEndpoint
    split <;> exact hw

/-- Failures, too, leave the errors as they are. -/
def erringLaw (ds : List Diagnostic) : FailureLaw :=
  ⟨fun _ => False, fun _ v _ v' => Erring ds v v'⟩

/-- Building an endpoint reports no error; only the round does so. -/
theorem errorsOf_buildEndpoint (cx : BuildContext) (c : String) (w : Workspace) :
    errorsOf ((cx.buildEndpoint c).outcome w).2.diagnostics = errorsOf w.diagnostics := by
  have hkeeps : (erringLaw (errorsOf w.diagnostics)).Keeps (Erring (errorsOf w.diagnostics))
      (cx.buildEndpoint c) (cx.buildEndpoint c) := by
    refine keeps_assembleEndpoint (hosting_erring _) (fun _ _ _ hw => .inr hw) (fun r => ?_) c
    exact Lasting.keeps_resolveAt (lasting_erring _) (fun _ _ _ _ hw => .inr hw)
      (fun _ _ hw => .inr hw) _ r
  exact (hkeeps.workspaces (fun _ he => he) (fun _ _ _ _ hv => hv) ⟨rfl, rfl⟩).2

theorem buildEndpoint_errorless (cx : BuildContext) (c : String) {w : Workspace}
    (hw : Errorless w.diagnostics) : Errorless ((cx.buildEndpoint c).outcome w).2.diagnostics := by
  rw [errorless_iff, errorsOf_buildEndpoint, ← errorless_iff]
  exact hw

variable {cx : BuildContext} {cs : List String} {w v : Workspace}

/-- Building controllers reports an error where it fails. -/
theorem buildControllers_reports {f : Failure}
    (h : (buildControllers cx.buildEndpoint cs).run w = (.error f, v)) :
    ∃ d ∈ v.diagnostics, d.severity = .error := by
  induction cs generalizing w with
  | nil => cases h
  | cons c cs ih =>
    rcases ho : (cx.buildEndpoint c).outcome w with ⟨e | e, u⟩
    · cases hscoped : e.isTypeScoped with
      | true =>
        rw [buildControllers_scoped ho hscoped] at h
        exact ih h
      | false =>
        rw [buildControllers_aborted ho hscoped] at h
        cases h
        exact ⟨_, List.mem_append_right _ (List.mem_singleton_self _), rfl⟩
    · rw [buildControllers_ok ho] at h
      obtain ⟨hf, hv⟩ := Prod.mk.inj h
      exact ih (Prod.ext (buildControllers_map_error.1 hf) hv)

/-- Where all names are those of controllers, an error is reported only there. -/
theorem buildControllers_errorless {names : List String} (hcs : ∀ c ∈ cs, cx.Marked c)
    (hw : Errorless w.diagnostics)
    (h : (buildControllers cx.buildEndpoint cs).run w = (.ok names, v)) :
    Errorless v.diagnostics := by
  induction cs generalizing w names with
  | nil =>
    cases h
    exact hw
  | cons c cs ih =>
    have hu := buildEndpoint_errorless cx c hw
    rcases ho : (cx.buildEndpoint c).outcome w with ⟨e | e, u⟩
    · cases hscoped : e.isTypeScoped with
      | true => exact absurd (hcs c (List.mem_cons_self ..)) ((buildEndpoint_error ho).2.2 hscoped)
      | false =>
        rw [buildControllers_aborted ho hscoped] at h
        cases h
    · rw [ho] at hu
      rw [buildControllers_ok ho] at h
      obtain ⟨hnames, hv⟩ := Prod.mk.inj h
      rcases hrest : (buildControllers cx.buildEndpoint cs).run u with ⟨f | rest, v'⟩
      · rw [hrest] at hnames
        cases hnames
      · rw [hrest] at hv
        have hmarked : ∀ c ∈ cs, cx.Marked c := fun c hc => hcs c (List.mem_cons_of_mem _ hc)
        exact ih hmarked hu (Prod.ext (by rw [hrest]) (by rw [hrest, hv]))

end building

namespace Round

/-- What a round does not get stored, and why. -/
def refusal? : Round → Artifact → Option String
  | process .. => fun _ => none
  | generate _ _ refusal? => refusal?

/-- The artifacts of a round over a workspace, and the workspace after they have been rendered. -/
def rendered (r : Round) (v : Workspace) : List Artifact × Workspace :=
  if r.emits then (Artifact.emission r.settings (v.endpoints.map (·.2))).run v else ([], v)

/-- The declarations of the export have different names, as those that are read have. -/
def Distinct (r : Round) : Prop := r.symbols.types.Pairwise fun a b => a.name ≠ b.name

instance : DecidablePred Distinct := fun r =>
  inferInstanceAs (Decidable (r.symbols.types.Pairwise fun a b => a.name ≠ b.name))

/-- What a round takes up by itself are controllers. -/
theorem Distinct.marked {r : Round} (h : r.Distinct) {cx : BuildContext}
    (hcx : cx.symbols = r.symbols) {c : String} (hc : c ∈ Processor.controllerNames r.symbols) :
    cx.Marked c := by
  obtain ⟨t, ht, rfl⟩ := List.mem_map.1 hc
  obtain ⟨hmem, hmarker⟩ := List.mem_filter.1 ht
  rw [marked_iff_isMarked, hcx]
  refine ⟨t, find?_of_pairwise h hmem, SymbolTable.isMarked_iff.2 ?_⟩
  obtain ⟨a, ha, hname⟩ := List.any_eq_true.1 hmarker
  exact ⟨a, .written ha, .inl (beq_iff_eq.1 hname)⟩

end Round

namespace Processor

/-- The findings that a round has recorded of its own by its end. Where it fails while it writes, these
are the ones of its building and some of those that came up for artifacts. -/
inductive Recorded (p : Processor) (r : Round) : List Diagnostic → Prop
  | unopened {f} (ho : p.opened r = .error f) : Recorded p r []
  | aborted {cx g f v} (ho : p.opened r = .ok (cx, g))
      (hb : (buildControllers cx.buildEndpoint r.controllers).run ⟨g, p.endpoints, []⟩ =
        (.error f, v)) : Recorded p r v.diagnostics
  | ended {cx g names v} (ho : p.opened r = .ok (cx, g))
      (hb : (buildControllers cx.buildEndpoint r.controllers).run ⟨g, p.endpoints, []⟩ =
        (.ok names, v)) (hstored : ∀ a ∈ (r.rendered v).1, r.refusal? a = none) :
      Recorded p r (r.rendered v).2.diagnostics
  | stopped {cx g names v a ds} (ho : p.opened r = .ok (cx, g))
      (hb : (buildControllers cx.buildEndpoint r.controllers).run ⟨g, p.endpoints, []⟩ =
        (.ok names, v)) (ha : a ∈ (r.rendered v).1) (hrefused : r.refusal? a ≠ none)
      (hbuilt : v.diagnostics <+: ds) (hrendered : ds <+: (r.rendered v).2.diagnostics) :
      Recorded p r ds

/-- What is kept after a round are the findings of this round, with an error if it has failed. -/
def Recounts (p : Processor) (r : Round) : Prop :=
  p.Recorded r (p.attempt r).2.lastDiagnostics ∧
    ∀ f, (p.attempt r).1 = .error f →
      ∃ d ∈ (p.attempt r).2.lastDiagnostics, d.severity = .error

/-- The exclusions of the round can be read, and its building fails or every artifact is stored. -/
def Concludes (p : Processor) (r : Round) : Prop := (∃ context, p.opened r = .ok context) ∧
  ∀ pending, (p.prepared r).1 = .ok pending → ∀ a ∈ pending.artifacts, r.refusal? a = none

variable {p q : Processor} {r : Round} {f : Failure} {cx : BuildContext} {g : TypeGraph}
  {v : Workspace} {names : List String}

theorem prepared_of_aborted (ho : p.opened r = .ok (cx, g))
    (hb : (buildControllers cx.buildEndpoint r.controllers).run ⟨g, p.endpoints, []⟩ =
      (.error f, v)) : p.prepared r = (.error f, { p with
        graph := v.graph, endpoints := v.endpoints, lastDiagnostics := v.diagnostics }) := by
  rw [opened] at ho
  simp only [prepared, prepare, ho, hb]

theorem prepared_of_built_ok (ho : p.opened r = .ok (cx, g))
    (hb : (buildControllers cx.buildEndpoint r.controllers).run ⟨g, p.endpoints, []⟩ =
      (.ok names, v)) : p.prepared r =
        (.ok ⟨names, (r.rendered v).1, (r.rendered v).2.diagnostics⟩, { p with
          graph := (r.rendered v).2.graph, endpoints := (r.rendered v).2.endpoints }) := by
  rw [opened] at ho
  simp only [prepared, prepare, ho, hb]
  rfl

theorem writeAll_of_stored {refusal? : Artifact → Option String} {as : List Artifact}
    (h : ∀ a ∈ as, refusal? a = none) : Id.run (writeAll (storeUnless refusal?) as) = .ok () := by
  induction as with
  | nil => rfl
  | cons a as ih =>
    rw [writeAll, Id.run_bind, storeUnless, h a (List.mem_cons_self ..)]
    exact ih fun a ha => h a (List.mem_cons_of_mem _ ha)

theorem writeAll_of_refused {refusal? : Artifact → Option String} {as : List Artifact} {a : Artifact}
    (ha : a ∈ as) (h : refusal? a ≠ none) :
    ∃ f, Id.run (writeAll (storeUnless refusal?) as) = .error f := by
  induction as with
  | nil => cases ha
  | cons b as ih =>
    rw [writeAll, Id.run_bind, storeUnless]
    cases hb : refusal? b with
    | some doing => exact ⟨_, rfl⟩
    | none =>
      rcases List.mem_cons.1 ha with rfl | ha
      · exact absurd hb h
      · exact ih ha

variable {pending : PendingRound}

/-- Once everything is stored, the findings of the round are kept. -/
theorem attempt_of_stored (h : p.prepared r = (.ok pending, q))
    (hstored : ∀ a ∈ pending.artifacts, r.refusal? a = none) :
    p.attempt r = (.ok (q.complete pending).1, (q.complete pending).2) := by
  cases r with
  | process symbols settings controllers =>
    change p.prepare symbols settings controllers false = _ at h
    simp only [attempt, processControllers, h]
  | generate symbols settings refusal? =>
    change p.prepare symbols settings (controllerNames symbols) true = _ at h
    have hwritten : Id.run (writeAll (storeUnless refusal?) pending.artifacts) = .ok () :=
      writeAll_of_stored hstored
    simp only [attempt, generate, h, Id.run_bind, hwritten]
    rfl

/-- Where something is not stored, the round fails and leaves what is kept. -/
theorem attempt_of_refused (h : p.prepared r = (.ok pending, q)) {a : Artifact}
    (ha : a ∈ pending.artifacts) (hrefused : r.refusal? a ≠ none) :
    ∃ f, p.attempt r = (.error f, q) := by
  cases r with
  | process symbols settings controllers => exact absurd rfl hrefused
  | generate symbols settings refusal? =>
    change p.prepare symbols settings (controllerNames symbols) true = _ at h
    obtain ⟨f, hf⟩ : ∃ f, Id.run (writeAll (storeUnless refusal?) pending.artifacts) = .error f :=
      writeAll_of_refused ha hrefused
    refine ⟨f, ?_⟩
    simp only [attempt, generate, h, Id.run_bind, hf]
    rfl

/-- Nothing that a round records before it writes is an error, if it takes up its controllers itself. -/
theorem errorless_of_refused (hp : p.Settled) (hr : r.Distinct) (ho : p.opened r = .ok (cx, g))
    (hb : (buildControllers cx.buildEndpoint r.controllers).run ⟨g, p.endpoints, []⟩ =
      (.ok names, v)) {a : Artifact} (hrefused : r.refusal? a ≠ none) :
    Errorless (r.rendered v).2.diagnostics := by
  obtain ⟨hstocked, -⟩ := stocked_of_built hp ho hb
  obtain ⟨hsymbols, -, -⟩ := opened_ok ho
  cases r with
  | process symbols settings controllers => exact absurd rfl hrefused
  | generate symbols settings refusal? =>
    have hv : Errorless v.diagnostics :=
      buildControllers_errorless (fun c hc => hr.marked hsymbols hc) errorless_nil hb
    obtain ⟨artifacts, ds, hds, hrun⟩ :=
      Artifact.reads_emission settings (v.endpoints.map (·.2)) v.graph hstocked
    have hrendered : (Round.generate symbols settings refusal?).rendered v = (artifacts, v.noteAll ds) :=
      hrun v rfl
    rw [hrendered]
    exact hv.append (errorless_of_warnings hds)

/-- A round that does not come to build anything records nothing. -/
theorem Recorded.eq_nil {ds : List Diagnostic} (h : p.Recorded r ds) (ho : p.opened r = .error f) :
    ds = [] := by
  cases h with
  | unopened => rfl
  | aborted ho' | ended ho' | stopped ho' => cases ho.symm.trans ho'

/-- A round that has been built records nothing but what comes up until all of it is rendered. -/
theorem Recorded.subset {ds : List Diagnostic} (h : p.Recorded r ds) (ho : p.opened r = .ok (cx, g))
    (hb : (buildControllers cx.buildEndpoint r.controllers).run ⟨g, p.endpoints, []⟩ =
      (.ok names, v)) : ds ⊆ (r.rendered v).2.diagnostics := by
  cases h with
  | unopened ho' => cases ho.symm.trans ho'
  | aborted ho' hb' =>
    cases ho.symm.trans ho'
    cases hb.symm.trans hb'
  | ended ho' hb' =>
    cases ho.symm.trans ho'
    cases hb.symm.trans hb'
    exact List.Subset.refl _
  | stopped ho' hb' _ _ _ hrendered =>
    cases ho.symm.trans ho'
    cases hb.symm.trans hb'
    exact hrendered.subset

/-- A round that comes to build something and is not refused a file keeps its own findings. -/
theorem Concludes.recounts (h : p.Concludes r) : p.Recounts r := by
  obtain ⟨⟨⟨cx, g⟩, ho⟩, hstored⟩ := h
  rcases hb : (buildControllers cx.buildEndpoint r.controllers).run ⟨g, p.endpoints, []⟩
    with ⟨f | names, v⟩
  · rw [Recounts, attempt_of_error (prepared_of_aborted ho hb)]
    exact ⟨.aborted ho hb, fun _ _ => buildControllers_reports hb⟩
  · have hprepared := prepared_of_built_ok ho hb
    have hstored := hstored _ (congrArg Prod.fst hprepared)
    rw [Recounts, attempt_of_stored hprepared hstored]
    exact ⟨.ended ho hb hstored, fun f hf => nomatch hf⟩

/-- Any other round fails, and what was kept before it stays. It cannot be taken for what this round has
recorded, in which there is no error. -/
theorem not_recounts (hp : p.Settled) (hr : r.Distinct) (h : ¬p.Concludes r) :
    ¬p.Recounts r ∧ (∃ f, (p.attempt r).1 = .error f) ∧
      (p.attempt r).2.lastDiagnostics = p.lastDiagnostics := by
  cases ho : p.opened r with
  | error f =>
    rw [Recounts, attempt_of_error (prepared_of_error ho).1]
    refine ⟨fun ⟨hrecorded, herror⟩ => ?_, ⟨f, rfl⟩, rfl⟩
    obtain ⟨d, hd, -⟩ := herror f rfl
    rw [hrecorded.eq_nil ho] at hd
    cases hd
  | ok context =>
    obtain ⟨cx, g⟩ := context
    rcases hb : (buildControllers cx.buildEndpoint r.controllers).run ⟨g, p.endpoints, []⟩
      with ⟨f | names, v⟩
    · refine absurd ⟨⟨_, ho⟩, fun pending hpending => ?_⟩ h
      cases (congrArg Prod.fst (prepared_of_aborted ho hb)).symm.trans hpending
    · have hprepared := prepared_of_built_ok ho hb
      obtain ⟨a, ha, hrefused⟩ : ∃ a ∈ (r.rendered v).1, r.refusal? a ≠ none := by
        by_contra hall
        refine h ⟨⟨_, ho⟩, fun pending hpending a ha => ?_⟩
        cases (congrArg Prod.fst hprepared).symm.trans hpending
        exact not_not.1 fun hrefused => hall ⟨a, ha, hrefused⟩
      obtain ⟨f, hattempt⟩ := attempt_of_refused hprepared ha hrefused
      rw [Recounts, hattempt]
      refine ⟨fun ⟨hrecorded, herror⟩ => ?_, ⟨f, rfl⟩, rfl⟩
      obtain ⟨d, hd, hsevere⟩ := herror f rfl
      exact errorless_of_refused hp hr ho hb hrefused d (hrecorded.subset ho hb hd) hsevere

/-- What is kept after a round are its own findings exactly if its exclusions can be read, and its
building fails or every file is stored. Otherwise the round fails, and what was kept before it stays. -/
theorem attempt_recounts_iff (pipeline : PropertyPipeline) (events : List Event) {r : Round}
    (hr : r.Distinct) :
    let p := run (withPipeline pipeline) events
    (p.Recounts r ↔ p.Concludes r) ∧
      (¬p.Concludes r → (∃ f, (p.attempt r).1 = .error f) ∧
        (p.attempt r).2.lastDiagnostics = p.lastDiagnostics) := by
  have hp := settled_run pipeline events
  exact ⟨⟨fun hrecounts => by_contra fun h => (not_recounts hp hr h).1 hrecounts, Concludes.recounts⟩,
    fun h => (not_recounts hp hr h).2⟩

/-- A controller whose method returns a type that is not declared. -/
def goneExport : SymbolTable where
  types := [⟨"a.Api", none, none, none, .classType, [], [.written Marker.endpoint []], [], none, [], [],
    [⟨"get", [], [.written Marker.requestMapping []], [], [], some (.declared "a.Gone" [])⟩], [], []⟩]
  annotationTypes := []

def goneRound : Round := .process goneExport .standard ["a.Api"]

/-- Its warning is kept. -/
theorem attempt_recounts_gone :
    goneRound.Distinct ∧ (run (withPipeline .standard) []).Recounts goneRound := by
  have hdistinct : goneRound.Distinct := by decide +kernel
  refine ⟨hdistinct, (attempt_recounts_iff .standard [] hdistinct).1.2 ⟨⟨_, rfl⟩, ?_⟩⟩
  exact fun _ _ _ _ => rfl

/-- A round whose exclusions cannot be read. -/
def unreadableRound : Round :=
  .process goneExport { Settings.standard with excludeClasses := [("x", "(")] } ["a.Api"]

/-- It fails without an error among what is kept, which is the warning of the round before. -/
theorem not_recounts_unreadable :
    let p := run (withPipeline .standard) [.round goneRound]
    (p.attempt unreadableRound).1 =
        .error (.ofReader "Invalid exclude_classes pattern 'x': (") ∧
      (p.attempt unreadableRound).2.lastDiagnostics = p.lastDiagnostics ∧
      p.lastDiagnostics = [⟨.warning, "type:a.Gone",
        "Type is not part of the symbol export, generating 'any'"⟩] ∧
      ¬p.Recounts unreadableRound := by
  intro p
  obtain ⟨hfails, hkept, hwarning⟩ : (p.attempt unreadableRound).1 =
        .error (.ofReader "Invalid exclude_classes pattern 'x': (") ∧
      (p.attempt unreadableRound).2.lastDiagnostics = p.lastDiagnostics ∧
      p.lastDiagnostics = [⟨.warning, "type:a.Gone",
        "Type is not part of the symbol export, generating 'any'"⟩] := by
    decide +kernel
  refine ⟨hfails, hkept, hwarning, fun ⟨_, herror⟩ => ?_⟩
  obtain ⟨d, hd, hsevere⟩ := herror _ hfails
  rw [hkept, hwarning, List.mem_singleton] at hd
  rw [hd] at hsevere
  cases hsevere

end Processor

end ClientBindings
