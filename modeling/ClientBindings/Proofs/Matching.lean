import ClientBindings.Proofs.Graph.Registry
import ClientBindings.Proofs.Outcome

/-! Two builds run side by side. They agree when they succeed with one value in related workspaces,
or fail together as a law of failures has it. Agreement is put together step by step, like the
builds. -/
namespace ClientBindings

/-- Which failures go together. After a dropped failure of the first build nothing is asked of the
second. -/
structure FailureLaw where
  dropped : BuildError → Prop
  paired : BuildError → Workspace → BuildError → Workspace → Prop

namespace FailureLaw

variable {α β : Type} {law : FailureLaw}

inductive Agree (law : FailureLaw) (post : α → Workspace → Workspace → Prop) :
    Outcome α → Outcome α → Prop
  | ok {a v v'} (h : post a v v') : Agree law post (.ok a, v) (.ok a, v')
  | dropped {e v o} (h : law.dropped e) : Agree law post (.error e, v) o
  | failed {e v e' v'} (h : law.paired e v e' v') : Agree law post (.error e, v) (.error e', v')

/-- From related workspaces the builds come to outcomes that agree. -/
def Matches (law : FailureLaw) (pre : Workspace → Workspace → Prop) (m m' : Build α)
    (post : α → Workspace → Workspace → Prop) : Prop :=
  ∀ ⦃w w'⦄, pre w w' → law.Agree post (m.outcome w) (m'.outcome w')

/-- Matching builds that lead from one relation back to it. -/
def Keeps (law : FailureLaw) (I : Workspace → Workspace → Prop) (m m' : Build α) : Prop :=
  law.Matches I m m' fun _ => I

/-- The failure that a variable without an owner is, in related workspaces, goes with itself. -/
def Admits (law : FailureLaw) (I : Workspace → Workspace → Prop) : Prop :=
  ∀ ⦃w w'⦄ name owner, I w w' → law.dropped (.unknownGenericOwner name owner) ∨
    law.paired (.unknownGenericOwner name owner) w (.unknownGenericOwner name owner) w'

theorem Agree.imp {post post' : α → Workspace → Workspace → Prop} {o o' : Outcome α}
    (h : law.Agree post o o') (hp : ∀ a v v', post a v v' → post' a v v') :
    law.Agree post' o o' := by
  cases h with
  | ok h => exact .ok (hp _ _ _ h)
  | dropped h => exact .dropped h
  | failed h => exact .failed h

/-- What keeps a relation ends in related workspaces, if failures that go together do. -/
theorem Keeps.workspaces {I : Workspace → Workspace → Prop} {m m' : Build α} (h : law.Keeps I m m')
    (hdropped : ∀ e, ¬law.dropped e) (hpaired : ∀ e v e' v', law.paired e v e' v' → I v v')
    {w w' : Workspace} (hw : I w w') : I (m.outcome w).2 (m'.outcome w').2 := by
  have ha : law.Agree (fun _ => I) (m.outcome w) (m'.outcome w') := h hw
  revert ha
  generalize m.outcome w = o
  generalize m'.outcome w' = o'
  intro ha
  cases ha with
  | ok hv => exact hv
  | dropped he => exact absurd he (hdropped _)
  | failed hv => exact hpaired _ _ _ _ hv

section rules

variable {pre pre' : Workspace → Workspace → Prop} {post post' : α → Workspace → Workspace → Prop}

theorem Matches.imp {m m' : Build α} (h : law.Matches pre m m' post)
    (hpre : ∀ w w', pre' w w' → pre w w') (hpost : ∀ a v v', post a v v' → post' a v v') :
    law.Matches pre' m m' post' := fun _ _ hw => (h (hpre _ _ hw)).imp hpost

theorem matches_pure {a : α} (h : ∀ w w', pre w w' → post a w w') :
    law.Matches pre (pure a) (pure a) post := fun _ _ hw => .ok (h _ _ hw)

theorem matches_throw {e e' : BuildError}
    (h : ∀ w w', pre w w' → law.dropped e ∨ law.paired e w e' w') :
    law.Matches pre (throw e) (throw e') post := by
  intro w w' hw
  rcases h w w' hw with hd | hp
  · exact .dropped hd
  · exact .failed hp

theorem matches_lift {x x' : Work α}
    (h : ∀ w w', pre w w' → (x.run w).1 = (x'.run w').1 ∧
      post (x.run w).1 (x.run w).2 (x'.run w').2) :
    law.Matches pre (liftM x) (liftM x') post := by
  intro w w' hw
  obtain ⟨hv, hp⟩ := h w w' hw
  rw [Build.outcome_lift, Build.outcome_lift, ← hv]
  exact .ok hp

theorem Matches.bind {m m' : Build α} {k k' : α → Build β}
    {R : α → Workspace → Workspace → Prop} {post : β → Workspace → Workspace → Prop}
    (hm : law.Matches pre m m' R) (hk : ∀ a, law.Matches (R a) (k a) (k' a) post) :
    law.Matches pre (m >>= k) (m' >>= k') post := by
  intro w w' hw
  rw [Build.outcome_bind, Build.outcome_bind]
  have h := hm hw
  generalize m.outcome w = o at h
  generalize m'.outcome w' = o' at h
  cases h with
  | ok h => exact hk _ h
  | dropped h => exact .dropped h
  | failed h => exact .failed h

end rules

end FailureLaw

/-- A relation of workspaces with one graph that outlasts what every build may do: warning, and
registering the definitions that are always there to be used. -/
structure Observant (I : Workspace → Workspace → Prop) : Prop where
  graph {w w'} : I w w' → w.graph = w'.graph
  warn {w w'} (location message : String) : I w w' →
    I (w.note ⟨.warning, location, message⟩) (w'.note ⟨.warning, location, message⟩)
  builtin {w w' d} : d ∈ Builtin.all → I w w' →
    I (w.withGraph (w.graph.register d).1) (w'.withGraph (w'.graph.register d).1)

/-- A relation that outlasts every change of the graph. -/
structure Lasting (I : Workspace → Workspace → Prop) : Prop where
  graph {w w'} : I w w' → w.graph = w'.graph
  warn {w w'} (location message : String) : I w w' →
    I (w.note ⟨.warning, location, message⟩) (w'.note ⟨.warning, location, message⟩)
  register {w w'} (d : TypeDefinition) : I w w' →
    I (w.withGraph (w.graph.register d).1) (w'.withGraph (w'.graph.register d).1)
  update {w w'} (id : TypeId) (f : TypeDefinition → TypeDefinition) : I w w' →
    I (w.withGraph (w.graph.update id f)) (w'.withGraph (w'.graph.update id f))

theorem Lasting.observant {I : Workspace → Workspace → Prop} (hI : Lasting I) : Observant I where
  graph := hI.graph
  warn := hI.warn
  builtin _ := hI.register _

/-- One workspace on both sides, whose graph has a property. -/
def Same (J : TypeGraph → Prop) (w w' : Workspace) : Prop := w = w' ∧ J w.graph

theorem observant_same {J : TypeGraph → Prop}
    (h : ∀ g d, d ∈ Builtin.all → J g → J (g.register d).1) : Observant (Same J) where
  graph hw := congrArg _ hw.1
  warn _ _ hw := by
    obtain ⟨rfl, hw⟩ := hw
    exact ⟨rfl, hw⟩
  builtin hd hw := by
    obtain ⟨rfl, hw⟩ := hw
    exact ⟨rfl, h _ _ hd hw⟩

theorem lasting_same {J : TypeGraph → Prop} (hr : ∀ g d, J g → J (g.register d).1)
    (hu : ∀ g id f, J g → J (g.update id f)) : Lasting (Same J) where
  graph hw := congrArg _ hw.1
  warn _ _ hw := by
    obtain ⟨rfl, hw⟩ := hw
    exact ⟨rfl, hw⟩
  register d hw := by
    obtain ⟨rfl, hw⟩ := hw
    exact ⟨rfl, hr _ _ hw⟩
  update id f hw := by
    obtain ⟨rfl, hw⟩ := hw
    exact ⟨rfl, hu _ _ _ hw⟩

/-- Whether it succeeds or fails, a build leaves a property of the graph alone. -/
def FailureLaw.guarding (J : TypeGraph → Prop) : FailureLaw :=
  ⟨fun _ => False, fun _ v _ v' => Same J v v'⟩

theorem guarding_keeps_iff {α : Type} {J : TypeGraph → Prop} {m : Build α} :
    (FailureLaw.guarding J).Keeps (Same J) m m ↔
      ∀ w, J w.graph → J (m.outcome w).2.graph := by
  constructor
  · intro h w hw
    have hsame : Same J (m.outcome w).2 (m.outcome w).2 :=
      h.workspaces (fun _ he => he) (fun _ _ _ _ hv => hv) ⟨rfl, hw⟩
    exact hsame.2
  · rintro h w _ ⟨rfl, hw⟩
    have hv : J (m.outcome w).2.graph := h w hw
    rcases ho : m.outcome w with ⟨e | a, v⟩
    · exact .failed ⟨rfl, by simpa [ho] using hv⟩
    · exact .ok ⟨rfl, by simpa [ho] using hv⟩

theorem guarding_admits {J : TypeGraph → Prop} : (FailureLaw.guarding J).Admits (Same J) :=
  fun _ _ _ _ hw => .inr hw

section steps

variable {law : FailureLaw} {I : Workspace → Workspace → Prop}

namespace Observant

theorem keeps_warn (hI : Observant I) (location message : String) :
    law.Keeps I (liftM (Work.warn location message)) (liftM (Work.warn location message)) :=
  FailureLaw.matches_lift fun _ _ hw => ⟨rfl, hI.warn _ _ hw⟩

theorem keeps_register (hI : Observant I) {d : TypeDefinition} (hd : d ∈ Builtin.all) :
    law.Keeps I (liftM (Work.register d)) (liftM (Work.register d)) := by
  refine FailureLaw.matches_lift fun w w' hw => ⟨?_, hI.builtin hd hw⟩
  rw [Work.run_register, Work.run_register, hI.graph hw]

theorem keeps_anyId (hI : Observant I) : law.Keeps I (liftM Work.anyId) (liftM Work.anyId) :=
  hI.keeps_register (d := Builtin.any) (by simp [Builtin.all])

theorem keeps_collectionId (hI : Observant I) :
    law.Keeps I (liftM Work.collectionId) (liftM Work.collectionId) :=
  hI.keeps_register (d := Builtin.collection) (by simp [Builtin.all])

theorem keeps_mapId (hI : Observant I) : law.Keeps I (liftM Work.mapId) (liftM Work.mapId) :=
  hI.keeps_register (d := Builtin.map) (by simp [Builtin.all])

theorem keeps_anyInstance (hI : Observant I) :
    law.Keeps I (liftM Work.anyInstance) (liftM Work.anyInstance) := by
  refine FailureLaw.matches_lift fun w w' hw => ⟨?_, hI.builtin (by simp [Builtin.all]) hw⟩
  rw [Work.run_anyInstance, Work.run_anyInstance, hI.graph hw]

theorem keeps_orAny (hI : Observant I) (i? : Option TypeInstance) :
    law.Keeps I (liftM (Work.orAny i?)) (liftM (Work.orAny i?)) := by
  cases i? with
  | some i => exact FailureLaw.matches_lift fun _ _ hw => ⟨rfl, hw⟩
  | none => exact hI.keeps_anyInstance

/-- Reading the graph gives the same on both sides. -/
theorem matches_graph (hI : Observant I) :
    law.Matches I (liftM Work.graph) (liftM Work.graph) fun g w w' => I w w' ∧ w.graph = g := by
  refine FailureLaw.matches_lift fun w w' hw => ?_
  simp [hI.graph hw, hw]

end Observant

end steps

end ClientBindings
