import ClientBindings.Proofs.Artifact.Files
import ClientBindings.Proofs.Naming.Imported
import ClientBindings.Proofs.Round.Filing

/-! What is written for a model and a list of endpoints, and in which order: the shared files, the types in the
order of their numbers, the services, and the modules of these in the order of their names. A store that
refuses nothing is given all of them. -/
namespace ClientBindings

open TypeGraph

namespace Processor

variable {p : Processor} {w : Workspace}

/-- A workspace is over the model of a processor, be it before or after it is seeded for a round. -/
def Offers (p : Processor) (w : Workspace) : Prop :=
  w.graph = p.graph ∨ ∃ settings, w.graph = p.graph.seed settings

theorem offers_graph (p : Processor) (endpoints : Dict Endpoint) (diagnostics : List Diagnostic) :
    p.Offers ⟨p.graph, endpoints, diagnostics⟩ := .inl rfl

theorem Offers.emittable (h : p.Offers w) : w.graph.emittable = p.graph.emittable := by
  rcases h with h | ⟨settings, h⟩
  · rw [h]
  · rw [h, emittable_seed]

theorem Offers.stocked (h : p.Offers w) (hp : p.Settled) (hw : w.graph.seeded = true) :
    w.graph.Stocked := by
  rcases h with h | ⟨settings, h⟩
  · exact h ▸ hp.stocked (h ▸ hw)
  · exact h ▸ hp.stocked_seed settings

theorem Offers.unseeded (h : p.Offers w) (hp : p.graph.Based) (hw : w.graph.seeded = false) :
    w.graph.emittable = [] := by
  rcases h with h | ⟨settings, h⟩
  · rw [h, hp.fresh (h ▸ hw)]
    rfl
  · rw [h, seeded_seed] at hw
    cases hw

/-- A store that refuses nothing is given every artifact, in order. -/
theorem writeAll_eq {m : Type → Type} [Monad m] [LawfulMonad m] {write : Artifact → m Unit}
    {store : Artifact → m (Except Failure Unit)}
    (hstore : ∀ a, store a = (do write a; pure (.ok ()))) (as : List Artifact) :
    writeAll store as = (do as.forM write; pure (.ok ())) := by
  induction as with
  | nil => simp [writeAll]
  | cons a as ih => simp [writeAll, hstore, ih]

/-- Whatever rounds and resets lead to, and whatever endpoints with different controllers are given, a store
that refuses nothing is given the parts of the emission in their order. The types are in it in the order of
their numbers, and the services in the order of the endpoints. Every endpoint is imported and provided by the
module of its name and by no other, once. -/
theorem run_emission_parts (pipeline : PropertyPipeline) (events : List Event) (s : Settings)
    {endpoints : List Endpoint} (hdistinct : (endpoints.map (·.controllerType)).Nodup)
    (hw : (run (withPipeline pipeline) events).Offers w) {m : Type → Type} [Monad m] [LawfulMonad m]
    {write : Artifact → m Unit} {store : Artifact → m (Except Failure Unit)}
    (hstore : ∀ a, store a = (do write a; pure (.ok ()))) :
    let modules := Artifact.groupModules s endpoints
    ∃ parts : Artifact.Parts, ((Artifact.emission s endpoints).run w).1 = parts.all ∧
      writeAll store parts.all = (do parts.all.forM write; pure (.ok ())) ∧
      parts.Hold s w endpoints modules ∧
      (w.graph.emittable.map (·.id)).Pairwise (· < ·) ∧
      (∀ d, d ∈ w.graph.emittable ↔ d ∈ w.graph.definitions ∧ d.predefined = false ∧
        (d.kind = .interfaceType ∨ d.kind = .enumType)) ∧
      Artifact.Grouped s endpoints modules ∧
      (∀ e ∈ endpoints, ∃ group ∈ modules, group.1 = e.moduleName.getD s.defaultModuleName ∧
        ∀ group' ∈ modules, e ∈ group'.2 ↔ group' = group) ∧
      (modules.flatMap (·.2)).Perm endpoints ∧
      ((modules.flatMap (·.2)).map (·.controllerType)).Nodup := by
  intro modules
  obtain ⟨parts, hparts, hold⟩ := Artifact.exists_parts s endpoints
    (hw.stocked (settled_run pipeline events)) (hw.unseeded (run_based pipeline events))
  have hnumbers : (w.graph.emittable.map (·.id)).Pairwise (· < ·) := by
    rw [hw.emittable]
    exact List.pairwise_map.2 ((run_ordered pipeline events).1.ordered.sublist List.filter_sublist)
  have hgrouped : Artifact.Grouped s endpoints modules := Artifact.grouped_groupModules s endpoints
  exact ⟨parts, hparts, writeAll_eq hstore _, hold, hnumbers, fun d => mem_emittable_iff, hgrouped,
    fun e he => hgrouped.exists_module he, hgrouped.perm, (hgrouped.perm.map _).nodup_iff.2 hdistinct⟩

/-- Two services of one module and one without a module of its own. -/
def shopEndpoints : List Endpoint := [⟨"a.OrderApi", "OrderApi", some "shop", none, [], none⟩,
  ⟨"a.UserApi", "UserApi", none, none, [], none⟩, ⟨"a.CartApi", "CartApi", some "shop", none, [], none⟩]

theorem groupModules_shopEndpoints : Artifact.groupModules .standard shopEndpoints = [
    ("service-api", [⟨"a.UserApi", "UserApi", none, none, [], none⟩]),
    ("shop", [⟨"a.CartApi", "CartApi", some "shop", none, [], none⟩,
      ⟨"a.OrderApi", "OrderApi", some "shop", none, [], none⟩])] := by
  have hgroups : shopEndpoints.foldl (Artifact.addToModule .standard) [] = [
      ("service-api", [⟨"a.UserApi", "UserApi", none, none, [], none⟩]),
      ("shop", [⟨"a.OrderApi", "OrderApi", some "shop", none, [], none⟩,
        ⟨"a.CartApi", "CartApi", some "shop", none, [], none⟩])] := rfl
  rw [Artifact.groupModules, hgroups]
  simp [List.mergeSort, List.MergeSort.Internal.splitInTwo]

/-- The modules of these services, by their paths and their lines. -/
def shopModules : List (String × List String) := [
  ("sys-gen/service-api.module.ts", [
    "import \x7b NgModule \x7d from '@angular/core';",
    "import \x7b ServiceRequestManager \x7d from './sys-request-manager';",
    "import \x7b UserApi \x7d from './UserApi.generated';",
    "",
    "@NgModule(\x7b",
    "  providers: [",
    "    ServiceRequestManager,",
    "    UserApi",
    "  ]",
    "\x7d)",
    "export class ServiceApi \x7b \x7d"]),
  ("sys-gen/shop.module.ts", [
    "import \x7b NgModule \x7d from '@angular/core';",
    "import \x7b ServiceRequestManager \x7d from './sys-request-manager';",
    "import \x7b CartApi \x7d from './CartApi.generated';",
    "import \x7b OrderApi \x7d from './OrderApi.generated';",
    "",
    "@NgModule(\x7b",
    "  providers: [",
    "    ServiceRequestManager,",
    "    CartApi,",
    "    OrderApi",
    "  ]",
    "\x7d)",
    "export class Shop \x7b \x7d"])]

/-- The files of these services and of the model of the record, the class and their interface, kept in memory.
The module of the two services imports and provides both, in the order of their names. -/
theorem run_emission_parts_shop :
    (shopEndpoints.map (·.controllerType)).Nodup ∧
      (∀ a, MemoryFiles.store a = (do modify (·.insert a.path a.content); pure (.ok ()))) ∧
      ∃ parts : Artifact.Parts,
        ((Artifact.emission .standard shopEndpoints).run
          ⟨(run initial [.round nodeRound]).graph, [], []⟩).1 = parts.all ∧
        writeAll MemoryFiles.store parts.all =
          (do parts.all.forM fun a => modify (·.insert a.path a.content); pure (.ok ())) ∧
        parts.types.map (·.path) = ["sys-gen/a/Leaf.generated.ts", "sys-gen/a/Node.generated.ts",
          "sys-gen/a/Branch.generated.ts", "sys-gen/a/Base.generated.ts"] ∧
        parts.modules = shopModules.map fun m => ⟨m.1, "\n".intercalate m.2⟩ := by
  have hdistinct : (shopEndpoints.map (·.controllerType)).Nodup := by decide
  have hstore : ∀ a, MemoryFiles.store a = (do modify (·.insert a.path a.content); pure (.ok ())) :=
    fun _ => rfl
  obtain ⟨parts, hparts, hwrite, hold, -⟩ :=
    run_emission_parts .standard [.round nodeRound] .standard hdistinct (offers_graph _ [] []) hstore
  refine ⟨hdistinct, hstore, parts, hparts, hwrite, ?_, ?_⟩
  · rw [Artifact.paths_eq_of_forall₂ hold.types]
    decide +kernel
  · have hlines : ((Artifact.groupModules .standard shopEndpoints).map fun m =>
        ((Layout.ofSettings .standard).modulePath m.1,
          Artifact.moduleLines .standard (Layout.ofSettings .standard) m.1 m.2)) = shopModules := by
      rw [groupModules_shopEndpoints]
      decide +kernel
    rw [hold.modules, ← hlines, List.map_map]
    rfl

end Processor

end ClientBindings
