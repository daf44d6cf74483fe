import ClientBindings.Artifact.Emission
import ClientBindings.Proofs.Graph.Registry
import ClientBindings.Proofs.Outcome

/-! Writing the artifacts of a model reads its graph, which decides what is written, and warns. It
changes nothing. -/
namespace ClientBindings

namespace Work

variable {α β : Type}

/-- Steps that come to a value and to warnings, which a stocked graph decides, and do nothing more. -/
def Reads (x : Work α) : Prop := ∀ g : TypeGraph, g.Stocked → ∃ a ds,
  (∀ d ∈ ds, d.severity = .warning) ∧ ∀ w, w.graph = g → x.run w = (a, w.noteAll ds)

theorem reads_pure (a : α) : (pure a : Work α).Reads :=
  fun _ _ => ⟨a, [], nofun, fun w _ => by rw [Workspace.noteAll_nil]; rfl⟩

theorem Reads.bind {x : Work α} {k : α → Work β} (hx : x.Reads) (hk : ∀ a, (k a).Reads) :
    (x >>= k).Reads := by
  intro g hg
  obtain ⟨a, ds, hds, hrun⟩ := hx g hg
  obtain ⟨b, ds', hds', hrun'⟩ := hk a g hg
  refine ⟨b, ds ++ ds', fun d hd => (List.mem_append.1 hd).elim (hds d) (hds' d), fun w hw => ?_⟩
  rw [StateT.run_bind, hrun w hw]
  exact (hrun' (w.noteAll ds) hw).trans (by rw [Workspace.noteAll_noteAll])

/-- Over the same graph it comes to the same value, whatever has been reported, and leaves the graph. -/
theorem Reads.run_eq {x : Work α} (hx : x.Reads) {w w' : Workspace} (hw : w.graph.Stocked)
    (h : w'.graph = w.graph) : (x.run w').1 = (x.run w).1 ∧ (x.run w').2.graph = w.graph := by
  obtain ⟨a, ds, -, hrun⟩ := hx w.graph hw
  rw [hrun w rfl, hrun w' h]
  exact ⟨rfl, h⟩

theorem reads_graph : Work.graph.Reads :=
  fun g _ => ⟨g, [], nofun, fun w hw => by rw [Workspace.noteAll_nil, run_graph, hw]⟩

theorem reads_warn (location message : String) : (Work.warn location message).Reads :=
  fun _ _ => ⟨(), [⟨.warning, location, message⟩], by simp, fun _ _ => rfl⟩

theorem reads_anyId : Work.anyId.Reads := by
  refine fun g hg => ⟨(g.register Builtin.any).2, [], nofun, fun w hw => ?_⟩
  subst hw
  have hsame : (w.graph.register Builtin.any).1 = w.graph := by
    rw [hg.register (by simp [Builtin.all])]
  rw [run_anyId, hsame, Workspace.noteAll_nil]
  rfl

end Work

open Work

namespace TypeText

theorem reads_anyName : anyName.Reads :=
  reads_anyId.bind fun _ => reads_graph.bind fun _ => reads_pure _

theorem reads_nameOf (id : TypeId) : (nameOf id).Reads := by
  refine reads_graph.bind fun g => ?_
  split
  · exact reads_pure _
  · exact reads_anyName

theorem reads_indexed (key value : String) : (indexed key value).Reads := by
  unfold indexed
  split
  · exact reads_pure _
  · exact (reads_warn _ _).bind fun _ => reads_pure _

mutual

theorem reads_render (i : TypeInstance) : (render i).Reads := by
  cases i with
  | mk d args =>
    unfold render
    refine reads_graph.bind fun g => ?_
    split
    · exact (reads_renderFirst args).bind fun _ => reads_pure _
    · cases args with
      | nil => exact reads_pure _
      | cons key rest =>
        refine (reads_renderFirst rest).bind fun value => ?_
        refine reads_graph.bind fun g => ?_
        split
        · exact (reads_nameOf _).bind fun _ => reads_pure _
        · exact (reads_render key).bind fun key => reads_indexed key value
    · refine (reads_nameOf d).bind fun name => ?_
      split
      · exact reads_pure _
      · exact (reads_renderAll args).bind fun _ => reads_pure _

theorem reads_renderFirst (args : List TypeInstance) : (renderFirst args).Reads := by
  cases args with
  | nil => exact reads_anyName
  | cons a args => exact reads_render a

theorem reads_renderAll (args : List TypeInstance) : (renderAll args).Reads := by
  cases args with
  | nil => exact reads_pure _
  | cons a args =>
    exact (reads_render a).bind fun _ => (reads_renderAll args).bind fun _ => reads_pure _

end

theorem reads_renderList (is : List TypeInstance) (separator : String) :
    (renderList is separator).Reads :=
  reads_anyId.bind fun _ => (reads_renderAll _).bind fun _ => reads_pure _

end TypeText

namespace Artifact

theorem reads_typeParamTexts (ps : List TypeDefinition) : (typeParamTexts ps).Reads := by
  induction ps with
  | nil => exact reads_pure _
  | cons p ps ih =>
    exact (TypeText.reads_renderList _ _).bind fun _ => ih.bind fun _ => reads_pure _

theorem reads_typeParams (d : TypeDefinition) : (typeParams d).Reads := by
  unfold typeParams
  split
  · exact reads_pure _
  · exact reads_graph.bind fun g => (reads_typeParamTexts _).bind fun _ => reads_pure _

theorem reads_propertyLines (s : Settings) (ps : List PropertyDefinition) :
    (propertyLines s ps).Reads := by
  induction ps with
  | nil => exact reads_pure _
  | cons p ps ih =>
    exact (TypeText.reads_render _).bind fun _ => ih.bind fun _ => reads_pure _

theorem reads_interfaceText (s : Settings) (l : Layout) (d : TypeDefinition) :
    (interfaceText s l d).Reads := by
  refine (reads_propertyLines s _).bind fun properties => ?_
  refine (TypeText.reads_renderList _ _).bind fun superTypes => ?_
  refine reads_graph.bind fun g => ?_
  exact (reads_typeParams d).bind fun params => reads_pure _

theorem reads_typeText? (s : Settings) (l : Layout) (d : TypeDefinition) :
    (typeText? s l d).Reads := by
  unfold typeText?
  split
  · exact (reads_interfaceText s l d).bind fun _ => reads_pure _
  · exact reads_pure _
  · exact reads_pure _

theorem reads_signature (ps : List MethodParameter) : (signature ps).Reads := by
  induction ps with
  | nil => exact reads_pure _
  | cons p ps ih =>
    exact (TypeText.reads_render _).bind fun _ => ih.bind fun _ => reads_pure _

theorem reads_methodLines (s : Settings) (m : EndpointMethod) : (methodLines s m).Reads := by
  refine (reads_signature _).bind fun signature => ?_
  split
  · exact (TypeText.reads_render _).bind fun _ => reads_pure _
  · exact (reads_pure _).bind fun _ => reads_pure _

theorem reads_allMethodLines (s : Settings) (ms : List EndpointMethod) :
    (allMethodLines s ms).Reads := by
  induction ms with
  | nil => exact reads_pure _
  | cons m ms ih => exact (reads_methodLines s m).bind fun _ => ih.bind fun _ => reads_pure _

theorem reads_serviceText (s : Settings) (l : Layout) (e : Endpoint) :
    (serviceText s l e).Reads := by
  refine reads_graph.bind fun g => ?_
  exact (reads_allMethodLines s _).bind fun _ => reads_pure _

theorem reads_typeArtifacts (s : Settings) (l : Layout) (ds : List TypeDefinition) :
    (typeArtifacts s l ds).Reads := by
  induction ds with
  | nil => exact reads_pure _
  | cons d ds ih => exact (reads_typeText? s l d).bind fun _ => ih.bind fun _ => reads_pure _

theorem reads_serviceArtifacts (s : Settings) (l : Layout) (es : List Endpoint) :
    (serviceArtifacts s l es).Reads := by
  induction es with
  | nil => exact reads_pure _
  | cons e es ih => exact (reads_serviceText s l e).bind fun _ => ih.bind fun _ => reads_pure _

theorem reads_emission (s : Settings) (endpoints : List Endpoint) :
    (emission s endpoints).Reads := by
  refine reads_graph.bind fun g => ?_
  refine (reads_typeArtifacts s _ _).bind fun types => ?_
  exact (reads_serviceArtifacts s _ endpoints).bind fun services => reads_pure _

end Artifact

end ClientBindings
