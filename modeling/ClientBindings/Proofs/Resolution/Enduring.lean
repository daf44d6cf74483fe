import ClientBindings.Proofs.Endpoint.Assembly
import ClientBindings.Proofs.Resolution.Frame

/-! Properties of graphs that no build can break, however it ends: those that the registrations and
the changes of content keep that builds make. -/
namespace ClientBindings

open BuildContext

/-- Kept by every registration and every change of content, whatever builds are over. -/
structure Enduring (J : TypeGraph → Prop) : Prop where
  register {g : TypeGraph} (d : TypeDefinition) : J g → J (g.register d).1
  update {g : TypeGraph} {change : TypeDefinition → TypeDefinition}
    (hc : TypeDefinition.Keeping change) (id : TypeId) : J g → J (g.update id change)

/-- Kept by what builds over a context do: they register the definitions that are always there to be
used, declared types and placeholders, and change content. -/
structure Persistent (cx : BuildContext) (J : TypeGraph → Prop) : Prop where
  builtin {g : TypeGraph} {d : TypeDefinition} : d ∈ Builtin.all → J g → J (g.register d).1
  declared {g : TypeGraph} {t : DeclaredType} : cx.Definable t.name t → J g →
    J (g.register (cx.outline t)).1
  placeholder {g : TypeGraph} (name : String) (p : TypeParameter) : J g →
    J (g.register (placeholder name p)).1
  update {g : TypeGraph} {change : TypeDefinition → TypeDefinition}
    (hc : TypeDefinition.Keeping change) (id : TypeId) : J g → J (g.update id change)

theorem Enduring.persistent {J : TypeGraph → Prop} (hJ : Enduring J) (cx : BuildContext) :
    Persistent cx J where
  builtin _ := hJ.register _
  declared _ := hJ.register _
  placeholder name p := hJ.register (BuildContext.placeholder name p)
  update := hJ.update

namespace Persistent

variable {J : TypeGraph → Prop} {cx : BuildContext} (hJ : Persistent cx J) {f : Resolver}
include hJ

theorem observant : Observant (Same J) := observant_same fun _ _ hd h => hJ.builtin hd h

theorem yields (id : TypeId) : Yields (Same J) id := by
  rintro w _ change hc ⟨rfl, hw⟩
  exact ⟨rfl, hJ.update hc.toKeeping id hw⟩

theorem settles (id : TypeId) : Settles (Same J) id := by
  rintro w _ bounds ⟨rfl, hw⟩
  exact ⟨rfl, hJ.update (TypeDefinition.keeping_bounded bounds) id hw⟩

theorem keeps_registerPlaceholders (name : String) (ps : List TypeParameter) :
    (FailureLaw.guarding J).Keeps (Same J) (registerPlaceholders name ps)
      (registerPlaceholders name ps) := by
  refine guarding_keeps_iff.2 fun w hw => ?_
  have h : ∃ ids g, (registerPlaceholders name ps).outcome w = (.ok ids, w.withGraph g) ∧ J g ∧ _ :=
    registerPlaceholders_outcome (fun p _ _ => hJ.placeholder name p) hw
  obtain ⟨ids, g, ho, hg, -⟩ := h
  rw [ho]
  exact hg

section steps

variable (hf : ∀ r, (FailureLaw.guarding J).Keeps (Same J) (f r) (f r))
include hf

theorem keeps_populate (id : TypeId) (t : DeclaredType) :
    (FailureLaw.guarding J).Keeps (Same J) (cx.populate f id t) (cx.populate f id t) := by
  refine matches_populate (hJ.yields id) (fun _ _ hw => hw) ?_
  refine (matches_populateInterface (J := fun _ => Same J) (K := fun _ => Same J)
    (hJ.keeps_registerPlaceholders _ _)
    (fun ids => keeps_resolveBounds (fun p _ => hJ.settles p.2) fun _ _ r _ => hf r)
    (fun ids w w' hw => ?_) (fun _ => hJ.yields id) (fun _ => hJ.observant) fun _ r _ => hf r).imp
    (fun _ _ hw => hw) fun _ _ _ ⟨_, hw⟩ => hw
  obtain ⟨rfl, hw⟩ := hw
  exact ⟨rfl, hJ.update (TypeDefinition.keeping_withGenericParams ids) id hw⟩

theorem keeps_define {t : DeclaredType} (ht : cx.Definable t.name t) :
    (FailureLaw.guarding J).Keeps (Same J) (cx.define f t) (cx.define f t) := by
  refine matches_define (J := fun _ => Same J) (K := fun _ => Same J)
    (fun _ _ hw => congrArg _ hw.1) (fun _ _ _ hw _ => hw) ?_
    (fun id => hJ.keeps_populate hf id t) ?_
  · rintro w _ ⟨rfl, hw⟩ -
    exact ⟨rfl, hJ.declared ht hw⟩
  · rintro id w _ ⟨rfl, hw⟩
    exact ⟨rfl, hJ.update TypeDefinition.keeping_finished id hw⟩

theorem keeps_getOrDefine (name : String) :
    (FailureLaw.guarding J).Keeps (Same J) (cx.getOrDefine (cx.define f) name)
      (cx.getOrDefine (cx.define f) name) :=
  BuildContext.keeps_getOrDefine hJ.observant fun _ ht =>
    (hJ.keeps_define hf ht.self).imp (fun _ _ hw => hw.1) fun _ _ _ hw => hw

end steps

theorem keeps_resolveAt (depth : Nat) (r : TypeRef) :
    (FailureLaw.guarding J).Keeps (Same J) (cx.resolveAt depth r) (cx.resolveAt depth r) := by
  induction depth generalizing r with
  | zero => exact FailureLaw.matches_throw fun _ _ hw => .inr hw
  | succ depth ih =>
    refine keeps_resolveStep hJ.observant guarding_admits (fun _ _ ht => ?_) fun a _ => ih a
    exact (hJ.keeps_define ih ht.self).imp (fun _ _ hw => hw.1) fun _ _ _ hw => hw

theorem resolve (r : TypeRef) {w : Workspace} (hw : J w.graph) :
    J ((cx.resolve r).outcome w).2.graph :=
  guarding_keeps_iff.1 (hJ.keeps_resolveAt _ r) w hw

theorem defineName (name : String) {w : Workspace} (hw : J w.graph) :
    J ((cx.defineName name).outcome w).2.graph :=
  guarding_keeps_iff.1 (hJ.keeps_getOrDefine (fun r => hJ.keeps_resolveAt _ r) name) w hw

theorem buildEndpoint (controllerType : String) {w : Workspace} (hw : J w.graph) :
    J ((cx.buildEndpoint controllerType).outcome w).2.graph :=
  guarding_keeps_iff.1 (keeps_assembleEndpoint (hosting_same hJ.observant)
    (fun _ _ _ hw => .inr hw) (fun r => hJ.keeps_resolveAt _ r) controllerType) w hw

end Persistent

namespace Enduring

variable {J : TypeGraph → Prop} (hJ : Enduring J) {cx : BuildContext} {w : Workspace}
include hJ

theorem resolve (r : TypeRef) (hw : J w.graph) : J ((cx.resolve r).outcome w).2.graph :=
  (hJ.persistent cx).resolve r hw

theorem defineName (name : String) (hw : J w.graph) : J ((cx.defineName name).outcome w).2.graph :=
  (hJ.persistent cx).defineName name hw

theorem buildEndpoint (controllerType : String) (hw : J w.graph) :
    J ((cx.buildEndpoint controllerType).outcome w).2.graph :=
  (hJ.persistent cx).buildEndpoint controllerType hw

end Enduring

theorem TypeGraph.enduring_seeded : Enduring fun g => g.seeded = true where
  register d hg := by
    unfold TypeGraph.register
    split
    · exact hg
    · exact hg
  update _ _ hg := hg

end ClientBindings
