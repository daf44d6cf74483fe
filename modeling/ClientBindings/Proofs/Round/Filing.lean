import ClientBindings.Proofs.Artifact.Spots
import ClientBindings.Proofs.Graph.Numbering
import ClientBindings.Proofs.Presentation.Model
import ClientBindings.Proofs.Round.Closure
import ClientBindings.Proofs.Round.Invariants

/-! Where the artifacts of a processor's model go. Each type, service, module and shared file is
written once; a path comes up again only where two different ones are given the same place. -/
namespace ClientBindings

open BuildContext TypeGraph

namespace TypeGraph

variable {g : TypeGraph}

theorem Numbered.nodup_emittable (hg : g.Numbered) : (g.emittable.map (·.fullName)).Nodup :=
  hg.nodup_fullNames.sublist (List.filter_sublist.map _)

theorem emittable_register {d : TypeDefinition} (hd : d.predefined = true) :
    (g.register d).1.emittable = g.emittable := by
  cases h : g.idOf? d.fullName with
  | some id => rw [register_of_idOf? h]
  | none =>
    rw [register_of_none h, emittable, List.filter_append]
    simp [TypeDefinition.isEmittable, hd, emittable]

theorem emittable_seed (g : TypeGraph) (s : Settings) : (g.seed s).emittable = g.emittable := by
  refine seed_induction (J := fun g' => g'.emittable = g.emittable) (fun _ _ h => h) ?_ rfl
  intro d hd g' h
  obtain ⟨kind, e, rfl⟩ := exists_predefinedType_of_mem hd
  exact (emittable_register rfl).trans h

end TypeGraph

namespace Processor

variable {p : Processor} {s : Settings}

/-- The artifacts of the whole model, in the order in which they are written. -/
def artifacts (p : Processor) (s : Settings) : List Artifact :=
  ((Artifact.emission s (p.endpoints.map (·.2))).run ⟨p.graph.seed s, p.endpoints, []⟩).1

theorem paths_artifacts (p : Processor) (s : Settings) :
    (p.artifacts s).map (·.path) =
      (Artifact.sharedNames s).map (Layout.ofSettings s).rootPath ++
        p.graph.emittable.map (Layout.ofSettings s).typePath ++
        p.endpoints.map (fun e => (Layout.ofSettings s).endpointPath e.2) ++
        (Artifact.moduleNames s (p.endpoints.map (·.2))).map (Layout.ofSettings s).modulePath := by
  rw [artifacts, Artifact.paths_emission, List.map_map, emittable_seed]
  rfl

/-- What is prepared for a round that writes files, where the building of the controllers comes to an end. -/
theorem prepare_emitted {symbols : SymbolTable} {cx : BuildContext} {g : TypeGraph} {controllers : List String}
    (ho : openContext symbols s p.pipeline p.graph = .ok (cx, g)) {names : List String} {v : Workspace}
    (hb : (buildControllers cx.buildEndpoint controllers).run ⟨g, p.endpoints, []⟩ = (.ok names, v)) :
    (p.prepare symbols s controllers true).1 =
      .ok ⟨names, ((Artifact.emission s (v.endpoints.map (·.2))).run v).1,
        ((Artifact.emission s (v.endpoints.map (·.2))).run v).2.diagnostics⟩ := by
  simp only [prepare, ho, hb]
  rfl

/-- A round that writes files reports the paths of what was prepared for it. -/
theorem written_of_prepared {symbols : SymbolTable} {refusal? : Artifact → Option String}
    {pending : PendingRound} (hprepare : (p.prepare symbols s (controllerNames symbols) true).1 = .ok pending)
    {q : Processor} {report : RoundReport}
    (h : p.attempt (.generate symbols s refusal?) = (.ok report, q)) :
    report.written = pending.artifacts.map (·.path) := by
  rcases hpending : p.prepare symbols s (controllerNames symbols) true with ⟨_, q'⟩
  rw [hpending] at hprepare
  subst hprepare
  simp only [attempt, generate, hpending, Id.run_bind] at h
  rcases hw : Id.run (writeAll (storeUnless refusal?) pending.artifacts) with f | _
  · rw [hw] at h
    cases h
  · rw [hw] at h
    obtain ⟨hreport, -⟩ := Prod.mk.inj h
    rw [← Except.ok.inj hreport]
    rfl

/-- A round that writes files reports the paths of the model that it leaves. -/
theorem written_generate (hp : p.Settled) {symbols : SymbolTable} {refusal? : Artifact → Option String}
    {q : Processor} {report : RoundReport}
    (h : p.attempt (.generate symbols s refusal?) = (.ok report, q)) :
    report.written = (q.artifacts s).map (·.path) := by
  have hstate := attempt_state p (.generate symbols s refusal?)
  rw [h] at hstate
  obtain ⟨hgraph, hendpoints⟩ := hstate
  cases ho : p.opened (.generate symbols s refusal?) with
  | error f =>
    rw [attempt_of_error (prepared_of_error ho).1] at h
    cases h
  | ok context =>
    obtain ⟨cx, g⟩ := context
    rcases hb : (buildControllers cx.buildEndpoint (controllerNames symbols)).run ⟨g, p.endpoints, []⟩
      with ⟨f | endpoints, v⟩
    · have herror := ((prepared_of_built hp ho hb).2.2.2 f).2 rfl
      rw [attempt_of_error (Prod.ext herror rfl)] at h
      cases h
    · obtain ⟨hg, he, -⟩ := prepared_of_built hp ho hb
      rw [paths_artifacts, hgraph, hendpoints, hg, he, written_of_prepared (prepare_emitted ho hb) h]
      exact (Artifact.paths_emission s _ v).trans (by rw [List.map_map]; rfl)

def moduleNames (p : Processor) (s : Settings) : List String :=
  Artifact.moduleNames s (p.endpoints.map (·.2))

/-- No two different artifacts go to the same folder under the same names. The types and the services are
compared by the folder of their package, the names of the enclosing types and their own; the shared files
and the modules, which are in the output folder, by their names without the endings. -/
structure Apart (p : Processor) (s : Settings) : Prop where
  shared : s.httpServiceInclude = none →
    stripExtension s.stdApiFileName ≠ stripExtension s.requestManagerFileName
  types : ∀ d ∈ p.graph.emittable, ∀ d' ∈ p.graph.emittable, d.fullName ≠ d'.fullName →
    (Layout.ofSettings s).spot d.container d.shortName ≠
      (Layout.ofSettings s).spot d'.container d'.shortName
  services : ∀ e ∈ p.endpoints, ∀ e' ∈ p.endpoints, e.1 ≠ e'.1 →
    (Layout.ofSettings s).spot e.2.container e.2.name ≠
      (Layout.ofSettings s).spot e'.2.container e'.2.name
  typesServices : ∀ d ∈ p.graph.emittable, ∀ e ∈ p.endpoints,
    (Layout.ofSettings s).spot d.container d.shortName ≠ (Layout.ofSettings s).spot e.2.container e.2.name
  modules : ∀ m ∈ p.moduleNames s, ∀ m' ∈ p.moduleNames s, m ≠ m' →
    Layout.moduleStem m ≠ Layout.moduleStem m'
  sharedModules : ∀ f ∈ Artifact.sharedNames s, ∀ m ∈ p.moduleNames s,
    stripExtension f ≠ Layout.moduleStem m
  sharedTypes : ∀ f ∈ Artifact.sharedNames s, ∀ d ∈ p.graph.emittable,
    (Layout.ofSettings s).rootSpot (stripExtension f) ≠
      (Layout.ofSettings s).spot d.container (d.shortName ++ s.generatedSuffix)
  sharedServices : ∀ f ∈ Artifact.sharedNames s, ∀ e ∈ p.endpoints,
    (Layout.ofSettings s).rootSpot (stripExtension f) ≠
      (Layout.ofSettings s).spot e.2.container (e.2.name ++ s.generatedSuffix)
  modulesTypes : ∀ m ∈ p.moduleNames s, ∀ d ∈ p.graph.emittable,
    (Layout.ofSettings s).rootSpot (Layout.moduleStem m) ≠
      (Layout.ofSettings s).spot d.container (d.shortName ++ s.generatedSuffix)
  modulesServices : ∀ m ∈ p.moduleNames s, ∀ e ∈ p.endpoints,
    (Layout.ofSettings s).rootSpot (Layout.moduleStem m) ≠
      (Layout.ofSettings s).spot e.2.container (e.2.name ++ s.generatedSuffix)

theorem nodup_shared_iff : ((Artifact.sharedNames s).map (Layout.ofSettings s).rootPath).Nodup ↔
    (s.httpServiceInclude = none →
      stripExtension s.stdApiFileName ≠ stripExtension s.requestManagerFileName) := by
  unfold Artifact.sharedNames
  cases s.httpServiceInclude <;> simp [Layout.rootPath_eq]

/-- The paths of two kinds of artifacts are different if no two of different kinds share one. -/
theorem forall_map_ne_iff {α β : Type} {f : α → String} {g : β → String} {xs : List α} {ys : List β} :
    (∀ a ∈ xs.map f, ∀ b ∈ ys.map g, a ≠ b) ↔ ∀ x ∈ xs, ∀ y ∈ ys, f x ≠ g y := by
  simp only [List.forall_mem_map]

theorem nodup_paths_iff_apart (hgraph : p.graph.Numbered)
    (hendpoints : p.endpoints.Sorted) :
    ((p.artifacts s).map (·.path)).Nodup ↔ p.Apart s := by
  have htypes := nodup_map_iff_of_keys (f := (Layout.ofSettings s).typePath) hgraph.nodup_emittable
  have hservices := nodup_map_iff_of_keys (f := fun e => (Layout.ofSettings s).endpointPath e.2)
    (Dict.nodup_keys hendpoints)
  have hmodules : ((p.moduleNames s).map (Layout.ofSettings s).modulePath).Nodup ↔
      ∀ m ∈ p.moduleNames s, ∀ m' ∈ p.moduleNames s, id m ≠ id m' →
        (Layout.ofSettings s).modulePath m ≠ (Layout.ofSettings s).modulePath m' :=
    nodup_map_iff_of_keys (by rw [List.map_id]; exact Artifact.nodup_moduleNames s _)
  have hroot {file n : String} {c : Option Container} : (Layout.ofSettings s).outputFolder ++ file ++ ".ts" =
      (Layout.ofSettings s).place c n ++ ((Layout.ofSettings s).generatedSuffix ++ ".ts") ↔
        (Layout.ofSettings s).rootSpot file =
          (Layout.ofSettings s).spot c (n ++ (Layout.ofSettings s).generatedSuffix) :=
    Layout.root_append_inj (Layout.isFolder_outputFolder s)
  -- A type or a service has its path from a place, any other file from the output folder.
  simp only [ne_eq, Layout.typePath_eq, Layout.place_append_inj] at htypes
  simp only [ne_eq, Layout.endpointPath_eq, Layout.place_append_inj] at hservices
  simp only [ne_eq, id, Layout.modulePath_eq, Layout.root_inj] at hmodules
  rw [paths_artifacts, ← moduleNames]
  simp only [List.nodup_append, List.forall_mem_append, forall_map_ne_iff, nodup_shared_iff, htypes, hservices,
    hmodules, ne_eq, Layout.rootPath_eq, Layout.modulePath_eq, Layout.typePath_eq, Layout.endpointPath_eq,
    hroot, Layout.root_inj, Layout.place_append_inj]
  constructor
  · rintro ⟨⟨⟨hs, ht, hst⟩, he, hse, hte⟩, hm, ⟨hsm, htm⟩, hem⟩
    exact {
      shared := hs
      types := ht
      services := he
      typesServices := hte
      modules := hm
      sharedModules := hsm
      sharedTypes := hst
      sharedServices := hse
      modulesTypes := fun m hm d hd heq => htm d hd m hm (hroot.2 heq).symm
      modulesServices := fun m hm e he heq => hem e he m hm (hroot.2 heq).symm }
  · intro h
    exact ⟨⟨⟨h.shared, h.types, h.sharedTypes⟩, h.services, h.sharedServices, h.typesServices⟩,
      h.modules, ⟨h.sharedModules, fun d hd m hm heq => h.modulesTypes m hm d hd (hroot.1 heq.symm)⟩,
      fun e he m hm heq => h.modulesServices m hm e he (hroot.1 heq.symm)⟩

/-- Rounds number what they register and keep the endpoints in the order of their controllers. -/
theorem run_ordered (pipeline : PropertyPipeline) (events : List Event) :
    (run (withPipeline pipeline) events).graph.Numbered ∧
      (run (withPipeline pipeline) events).endpoints.Sorted := by
  refine run_upheld (J := fun g es => g.Numbered ∧ es.Sorted) pipeline
    (fun g => ⟨numbered_clear g, .nil⟩) fun r _ => ⟨fun h => ?_, fun _ _ c w _ h => ?_⟩
  · exact ⟨((Continues.refl h.1).seed r.settings).toNumbered, h.2⟩
  · refine ⟨enduring_numbered.buildEndpoint c h.1, ?_⟩
    rcases buildEndpoint_endpoints _ c w with heq | ⟨e, heq⟩
    · rw [heq]
      exact h.2
    · rw [heq]
      exact Dict.sorted_insert h.2

/-- What is written is one file for each shared file, each type, each service and each module, in this
order. -/
structure Filed (p : Processor) (s : Settings) : Prop where
  paths : (p.artifacts s).map (·.path) = (Artifact.sharedNames s).map (Layout.ofSettings s).rootPath ++
    p.graph.emittable.map (Layout.ofSettings s).typePath ++
    p.endpoints.map (fun e => (Layout.ofSettings s).endpointPath e.2) ++
    (p.moduleNames s).map (Layout.ofSettings s).modulePath
  types : (p.graph.emittable.map (·.fullName)).Nodup
  services : (p.endpoints.map (·.1)).Nodup
  modules : (p.moduleNames s).Nodup
  named : ∀ m, m ∈ p.moduleNames s ↔ ∃ e ∈ p.endpoints, e.2.moduleName.getD s.defaultModuleName = m

theorem run_filed (pipeline : PropertyPipeline) (events : List Event) (s : Settings) :
    (run (withPipeline pipeline) events).Filed s where
  paths := paths_artifacts _ s
  types := (run_ordered pipeline events).1.nodup_emittable
  services := Dict.nodup_keys (run_ordered pipeline events).2
  modules := Artifact.nodup_moduleNames s _
  named m := by
    rw [moduleNames, Artifact.mem_moduleNames]
    simp only [List.mem_map, exists_exists_and_eq_and]
    rfl

/-- The paths of a model, as rounds and resets lead to it, are one for each shared file, type, service and
module, and a round that writes them reports them. They are all different exactly if no two different ones
of these go to the same folder under the same names. Types and services with no slash in their names do so
exactly if their packages lead to the same folder and the enclosing names and their own, parted at dollar
signs, are the same in order; where there are no dollar signs either, exactly if the folder, the enclosing
names and their own are the same. If all are apart, nothing that is written is overwritten. -/
theorem run_paths_nodup_iff (pipeline : PropertyPipeline) (events : List Event) (s : Settings) :
    let p := run (withPipeline pipeline) events
    let l := Layout.ofSettings s
    p.Filed s ∧
      (∀ symbols refusal? report q, p.attempt (.generate symbols s refusal?) = (.ok report, q) →
        report.written = (q.artifacts s).map (·.path)) ∧
      (((p.artifacts s).map (·.path)).Nodup ↔ p.Apart s) ∧
      (∀ c n c' n', (∀ m ∈ enclosingNamesOf c ++ [n], '/' ∉ m.toList) →
        (∀ m ∈ enclosingNamesOf c' ++ [n'], '/' ∉ m.toList) → (l.spot c n = l.spot c' n' ↔
          l.targetFolder (packageNameOf c) = l.targetFolder (packageNameOf c') ∧
            (enclosingNamesOf c ++ [n]).flatMap Spot.parts =
              (enclosingNamesOf c' ++ [n']).flatMap Spot.parts)) ∧
      (∀ c n c' n', (∀ m ∈ enclosingNamesOf c ++ [n], Spot.Plain m) →
        (∀ m ∈ enclosingNamesOf c' ++ [n'], Spot.Plain m) → (l.spot c n = l.spot c' n' ↔
          l.targetFolder (packageNameOf c) = l.targetFolder (packageNameOf c') ∧
            enclosingNamesOf c = enclosingNamesOf c' ∧ n = n')) ∧
      (p.Apart s → ∀ a ∈ p.artifacts s,
        ((writeAll MemoryFiles.store (p.artifacts s)).run []).2.get? a.path = some a.content) := by
  obtain ⟨hgraph, hendpoints⟩ := run_ordered pipeline events
  have hiff := nodup_paths_iff_apart (s := s) hgraph hendpoints
  exact ⟨run_filed pipeline events s, fun _ _ _ _ => written_generate (settled_run pipeline events), hiff,
    fun _ _ _ _ => Layout.spot_inj_of_no_slash, fun _ _ _ _ => Layout.spot_inj_of_plain,
    fun h => (MemoryFiles.get?_writeAll (hiff.2 h) []).1⟩

/-- A dollar sign in the name of a type counts as one behind an enclosing type. -/
example : (Layout.ofSettings .standard).spot none "Order$Line" =
    (Layout.ofSettings .standard).spot (some ⟨none, [⟨"Order", "Order"⟩]⟩) "Line" := by
  decide +kernel

/-- All files of the model of the record, the class and their interface are apart. -/
theorem run_paths_nodup_node : let p := run initial [.round nodeRound]
    (p.artifacts .standard).map (·.path) = ["sys-gen/sys-std.ts", "sys-gen/sys-request-manager.ts",
        "sys-gen/a/Leaf.generated.ts", "sys-gen/a/Node.generated.ts", "sys-gen/a/Branch.generated.ts",
        "sys-gen/a/Base.generated.ts", "sys-gen/a/Api.generated.ts", "sys-gen/service-api.module.ts"] ∧
      p.Apart .standard ∧ ∀ a ∈ p.artifacts .standard,
        ((writeAll MemoryFiles.store (p.artifacts .standard)).run []).2.get? a.path = some a.content := by
  intro p
  obtain ⟨-, -, hiff, -, -, hstored⟩ := run_paths_nodup_iff .standard [.round nodeRound] .standard
  have hpaths : (p.artifacts .standard).map (·.path) = ["sys-gen/sys-std.ts",
      "sys-gen/sys-request-manager.ts", "sys-gen/a/Leaf.generated.ts", "sys-gen/a/Node.generated.ts",
      "sys-gen/a/Branch.generated.ts", "sys-gen/a/Base.generated.ts", "sys-gen/a/Api.generated.ts",
      "sys-gen/service-api.module.ts"] := by
    rw [paths_artifacts]
    decide +kernel
  have hnodup : ((p.artifacts .standard).map (·.path)).Nodup := by
    rw [hpaths]
    decide
  exact ⟨hpaths, hiff.1 hnodup, hstored (hiff.1 hnodup)⟩

/-- A controller that is also a type of its own signatures. -/
def selfExport : SymbolTable where
  types := [⟨"a.Api", none, none, none, .classType, [], [.written Marker.endpoint []], [], none, [], [],
    [⟨"get", [], [.written Marker.requestMapping []], [], [], some (.declared "a.Api" [])⟩], [], []⟩]
  annotationTypes := []

/-- Its interface and its service have the same path. -/
theorem run_paths_not_nodup :
    ¬(((run initial [.round (.generate selfExport .standard fun _ => none)]).artifacts .standard).map
      (·.path)).Nodup := by
  rw [paths_artifacts]
  decide +kernel

end Processor

end ClientBindings
