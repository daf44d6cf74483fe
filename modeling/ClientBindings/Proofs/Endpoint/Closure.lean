import ClientBindings.Proofs.Endpoint.Assembly
import ClientBindings.Proofs.Resolution.Closure
import ClientBindings.Proofs.Round.Controllers

/-! Endpoints refer to registered definitions only, and building a list of controllers leaves nothing
dangling, wherever it ends. -/
namespace ClientBindings

open TypeGraph

variable {I : TypeGraph → Prop} {w : Workspace} {f : Resolver}

namespace Workspace.Closed

theorem addEndpoint (hw : w.Closed I) {e : Endpoint}
    (he : ∀ id ∈ e.mentioned, w.graph.Registered id) :
    Leads I w ((liftM (Work.addEndpoint e) : Build Endpoint).outcome w) fun _ _ => True := by
  have hgraph : (w.addEndpoint e).1.graph = w.graph := addEndpoint_graph w e
  refine .lift (x := Work.addEndpoint e) ?_ ?_ trivial
  · rw [Work.run_addEndpoint]
    refine ⟨hgraph.symm ▸ hw.graph, fun e' he' id hid => ?_⟩
    rw [hgraph]
    unfold Workspace.addEndpoint at he'
    split at he'
    · exact hw.endpoints e' he' id hid
    · rcases Dict.mem_insert he' with rfl | he'
      · exact he id hid
      · exact hw.endpoints e' he' id hid
  · rw [Work.run_addEndpoint, hgraph]
    exact .refl _

theorem warnOfMany (hw : w.Closed I) (location noun : String) (values : List String) :
    Leads I w ((liftM (ClientBindings.warnOfMany location noun values) : Build Unit).outcome w)
      fun _ _ => True := by
  unfold ClientBindings.warnOfMany
  split
  · exact hw.report _ _ _
  · exact .pure hw trivial

theorem warnOfClash (hw : w.Closed I) (location : String) (p : Parameter)
    (place : BindingLocation) (others : List (BindingLocation × ResolvedAnnotation)) :
    Leads I w ((liftM (BuildContext.warnOfClash location p place others) : Build Unit).outcome w)
      fun _ _ => True := by
  unfold BuildContext.warnOfClash
  split
  · exact hw.report _ _ _
  · exact .pure hw trivial

end Workspace.Closed

/-- Only what is mapped has a mapping. -/
theorem tied_resolveMapping (s : SymbolTable) (annotations : List Annotation) (location : String) :
    Tied I (s.resolveMapping annotations location) fun mapping? _ =>
      mapping?.isSome = true → s.isMarked annotations Marker.requestMapping = true := by
  intro w hw
  unfold SymbolTable.resolveMapping SymbolTable.isMarked
  split
  · exact .pure hw fun h => nomatch h
  · rename_i resolved hresolved
    dsimp only
    rw [hresolved]
    refine (hw.warnOfMany _ _ _).bind fun _ u hu _ _ => ?_
    refine (hu.warnOfMany _ _ _).bind fun _ v hv _ _ => ?_
    split
    · exact .pure hv fun _ => rfl
    · split
      · exact .pure hv fun _ => rfl
      · exact .throw hv _

namespace BuildContext

variable {cx : BuildContext} {P : TypeGraph → TypeId → Prop}

section resolver

variable (hI : Stockable I) (hP : Durable P)
include hI hP

theorem tied_buildParameter {p : Parameter}
    (hf : ∀ r ∈ cx.symbols.boundTypes p, Tied I (f r) fun i? g => All P g i?.toList)
    (location : String) :
    Tied I (cx.buildParameter f p location) fun p? g => All P g (p?.toList.map (·.type)) := by
  intro w hw
  unfold buildParameter
  split
  · exact .pure hw (all_nil P _)
  · rename_i place resolved others hbindings
    have hp : p.type ∈ cx.symbols.boundTypes p := by simp [SymbolTable.boundTypes, hbindings]
    refine (hw.warnOfClash _ _ _ _).bind fun _ u hu _ _ => ?_
    refine (hf _ hp hu).bind fun i? u hu _ hi? => ?_
    exact (hu.orAny hI hP hi?).bind fun i v hv _ hi => .pure hv hi

theorem tied_buildParameters (location : String) {ps : List Parameter}
    (hf : ∀ r ∈ ps.flatMap cx.symbols.boundTypes, Tied I (f r) fun i? g => All P g i?.toList) :
    Tied I (cx.buildParameters f location ps) fun ps g => All P g (ps.map (·.type)) := by
  intro w hw
  induction ps generalizing w with
  | nil => exact .pure hw (all_nil P _)
  | cons p ps ih =>
    rw [List.flatMap_cons, List.forall_mem_append] at hf
    refine (tied_buildParameter hI hP hf.1 location hw).bind fun built u hu _ hbuilt => ?_
    refine (ih hf.2 hu).bind fun rest v hv hgrows hrest => .pure hv ?_
    rw [List.map_append]
    exact (hbuilt.grow hP hgrows).append hrest

theorem tied_buildMethod (controller : String) (default? : Option Mapping) {m : Method}
    (hf : ∀ r ∈ cx.symbols.signature m, Tied I (f r) fun i? g => All P g i?.toList) :
    Tied I (cx.buildMethod f controller default? m) fun m? g =>
      All P g (m?.toList.flatMap Endpoint.typesOfMethod) := by
  intro w hw
  unfold buildMethod
  dsimp only
  refine (tied_resolveMapping _ _ _ hw).bind fun mapping? u hu _ hmapped => ?_
  split
  · exact .pure hu (all_nil P _)
  · rw [SymbolTable.signature, if_pos (hmapped rfl), List.forall_mem_append] at hf
    refine (tied_buildParameters hI hP _ hf.1 hu).bind fun params u hu _ hparams => ?_
    have hreturn : Leads I u ((resolveReturn f m.returnType).outcome u) fun i? g =>
        All P g i?.toList := by
      cases hr : m.returnType with
      | none => exact .pure hu (all_nil P _)
      | some r => exact hf.2 r (Option.mem_toList.2 hr) hu
    refine hreturn.bind fun returnType v hv hgrows hr => .pure hv ?_
    rw [Option.toList_some, List.flatMap_singleton]
    exact (hparams.grow hP hgrows).append hr

theorem tied_buildMethods (controller : String) (default? : Option Mapping) {ms : List Method}
    (hf : ∀ r ∈ ms.flatMap cx.symbols.signature, Tied I (f r) fun i? g => All P g i?.toList) :
    Tied I (cx.buildMethods f controller default? ms) fun ms g =>
      All P g (ms.flatMap Endpoint.typesOfMethod) := by
  intro w hw
  induction ms generalizing w with
  | nil => exact .pure hw (all_nil P _)
  | cons m ms ih =>
    rw [List.flatMap_cons, List.forall_mem_append] at hf
    refine (tied_buildMethod hI hP controller default? hf.1 hw).bind fun built u hu _ hbuilt => ?_
    refine (ih hf.2 hu).bind fun rest v hv hgrows hrest => .pure hv ?_
    rw [List.flatMap_append]
    exact (hbuilt.grow hP hgrows).append hrest

/-- What holds of all numbers that the types in the signatures of a controller come to, holds of all
numbers in its endpoint. -/
theorem tied_draft {c : String} {t : DeclaredType} (marker : ResolvedAnnotation)
    (hf : ∀ r ∈ cx.symbols.signatures t, Tied I (f r) fun i? g => All P g i?.toList) :
    Tied I (cx.draft f c t marker) fun e g => ∀ id ∈ e.mentioned, P g id := by
  intro w hw
  refine (tied_resolveMapping _ _ _ hw).bind fun default? u hu _ _ => ?_
  exact (tied_buildMethods hI hP _ _ hf hu).bind fun methods v hv _ hmethods => .pure hv hmethods

end resolver

theorem tied_assembleEndpoint (hI : Stockable I) (hf : ∀ r, Tied I (f r) fun i? g => g.Covers i?.toList)
    (controllerType : String) :
    Tied I (cx.assembleEndpoint f controllerType) fun _ _ => True := by
  intro w hw
  rw [assembleEndpoint, Build.outcome_lift_bind, Work.run_endpoint?]
  dsimp only
  split
  · exact .pure hw trivial
  · by_cases hm : cx.Marked controllerType
    · obtain ⟨t, marker, ht, hmarker⟩ := hm
      rw [assembleNew_of_marked ht hmarker]
      exact (tied_draft hI durable_registered marker (fun r _ => hf r) hw).bind
        fun e v hv _ he => hv.addEndpoint he
    · obtain ⟨e, ho⟩ := assembleNew_unmarked hm
      rw [ho f w]
      exact .throw hw e

theorem Fillable.tied_buildEndpoint {P : String → TypeGraph → TypeId → Prop} (hI : cx.Fillable P I)
    (controllerType : String) : Tied I (cx.buildEndpoint controllerType) fun _ _ => True :=
  tied_assembleEndpoint hI.builtin (fun r => hI.tied_resolve r) controllerType

end BuildContext

variable {build : String → Build Endpoint}

/-- Controllers that fail, and the round that is aborted, leave nothing dangling either. -/
theorem buildControllers_closed (h : ∀ c, Tied I (build c) fun _ _ => True)
    (cs : List String) (hw : w.Closed I) :
    ((buildControllers build cs).run w).2.Closed I := by
  induction cs generalizing w with
  | nil => exact hw
  | cons c cs ih =>
    have hv : ((build c).outcome w).2.Closed I := (h c hw).closed
    rcases ho : (build c).outcome w with ⟨e | e, v⟩
    · rw [ho] at hv
      cases hs : e.isTypeScoped with
      | true =>
        rw [buildControllers_scoped ho hs]
        exact ih (hv.note _)
      | false =>
        rw [buildControllers_aborted ho hs]
        exact hv.note _
    · rw [ho] at hv
      rw [buildControllers_ok ho]
      exact ih hv

end ClientBindings
