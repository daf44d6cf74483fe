import ClientBindings.Proofs.Graph.Seeding
import ClientBindings.Proofs.Resolution.Enduring

/-! The numbers of a graph, over everything that can be done to it. Numbers are natural numbers here;
where they are words, the same holds until they are used up. -/
namespace ClientBindings

namespace TypeGraph

variable {g g' g'' : TypeGraph}

/-- Names and definitions belong together, and numbers increase along the definitions. -/
structure Numbered (g : TypeGraph) : Prop extends g.WellFormed where
  ordered : g.definitions.Pairwise fun d d' => d.id < d'.id

theorem numbered_clear (g : TypeGraph) : g.clear.Numbered := ⟨wellFormed_clear g, .nil⟩

theorem numbered_empty : empty.Numbered := numbered_clear empty

theorem Numbered.flag (hg : g.Numbered) (b : Bool) : { g with seeded := b }.Numbered :=
  ⟨⟨hg.indexed, hg.named, hg.fresh, hg.listed⟩, hg.ordered⟩

theorem Numbered.register (hg : g.Numbered) (d : TypeDefinition) : (g.register d).1.Numbered where
  toWellFormed := hg.toWellFormed.register d
  ordered := by
    cases hd : g.idOf? d.fullName with
    | some id =>
      rw [register_of_idOf? hd]
      exact hg.ordered
    | none =>
      rw [register_of_none hd]
      refine List.pairwise_append.2 ⟨hg.ordered, List.pairwise_singleton .., fun d hd d' hd' => ?_⟩
      rw [List.mem_singleton.1 hd']
      exact hg.fresh (hg.listed hd)

theorem Numbered.update (hg : g.Numbered) {change : TypeDefinition → TypeDefinition}
    (hc : TypeDefinition.Keeping change) (id : TypeId) : (g.update id change).Numbered where
  toWellFormed := hg.toWellFormed.update hc id
  ordered := by
    have hid (d : TypeDefinition) : (if d.id = id then change d else d).id = d.id := by
      split
      · exact hc.id d
      · rfl
    refine List.pairwise_map.2 (hg.ordered.imp fun {d d'} h => ?_)
    rwa [hid, hid]

theorem enduring_numbered : Enduring Numbered where
  register d h := h.register d
  update hc id h := h.update hc id

/-- A graph that `g` has become without being cleared: numbers stay with their names, and new ones
are not below those that were given before. -/
structure Continues (g g' : TypeGraph) : Prop extends g'.Numbered where
  names {n : String} {id : TypeId} : g.idOf? n = some id → g'.idOf? n = some id
  later {n : String} {id : TypeId} : g'.idOf? n = some id → g.idOf? n = some id ∨ g.nextId ≤ id
  nextId : g.nextId ≤ g'.nextId

theorem Continues.refl (hg : g.Numbered) : g.Continues g := ⟨hg, fun h => h, .inl, Nat.le_refl _⟩

theorem Continues.trans (h : g.Continues g') (h' : g'.Continues g'') : g.Continues g'' where
  toNumbered := h'.toNumbered
  names hn := h'.names (h.names hn)
  later hn := (h'.later hn).elim h.later fun hle => .inr (Nat.le_trans h.nextId hle)
  nextId := Nat.le_trans h.nextId h'.nextId

theorem Continues.flag (h : g.Continues g') (b : Bool) : g.Continues { g' with seeded := b } :=
  ⟨h.toNumbered.flag b, h.names, h.later, h.nextId⟩

theorem Continues.register (h : g.Continues g') (d : TypeDefinition) :
    g.Continues (g'.register d).1 where
  toNumbered := h.toNumbered.register d
  names hn := idOf?_register (h.names hn)
  later {n id} hn := by
    cases hd : g'.idOf? d.fullName with
    | some i =>
      rw [register_of_idOf? hd] at hn
      exact h.later hn
    | none =>
      by_cases hname : n = d.fullName
      · subst hname
        rw [idOf?_register_self, register_of_none hd] at hn
        exact .inr (Option.some.inj hn ▸ h.nextId)
      · rw [idOf?_register_of_ne hname] at hn
        exact h.later hn
  nextId := by
    refine Nat.le_trans h.nextId ?_
    unfold TypeGraph.register
    split
    · exact Nat.le_refl _
    · exact Nat.le_succ _

theorem enduring_continues (g : TypeGraph) : Enduring g.Continues where
  register d h := h.register d
  update hc id h := ⟨h.toNumbered.update hc id, h.names, h.later, h.nextId⟩

theorem Continues.seed (h : g.Continues g') (s : Settings) : g.Continues (g'.seed s) :=
  seed_induction (fun _ b h => h.flag b) (fun d _ _ h => h.register d) h

end TypeGraph

/-- What can be done to a graph. Builds may be over one context after another. -/
inductive GraphAction where
  | register (d : TypeDefinition)
  | any
  | collection
  | map
  | seed (settings : Settings)
  | clear
  | defineName (cx : BuildContext) (name : String)
  | resolve (cx : BuildContext) (r : TypeRef)
  | buildEndpoint (cx : BuildContext) (controllerType : String)

namespace Workspace

open TypeGraph

/-- Builds that fail leave what they did up to then. -/
def perform (w : Workspace) : GraphAction → Workspace
  | .register d => ((Work.register d).run w).2
  | .any => (Work.anyId.run w).2
  | .collection => (Work.collectionId.run w).2
  | .map => (Work.mapId.run w).2
  | .seed settings => w.withGraph (w.graph.seed settings)
  | .clear => w.withGraph w.graph.clear
  | .defineName cx name => ((cx.defineName name).outcome w).2
  | .resolve cx r => ((cx.resolve r).outcome w).2
  | .buildEndpoint cx controllerType => ((cx.buildEndpoint controllerType).outcome w).2

def performAll (w : Workspace) (actions : List GraphAction) : Workspace := actions.foldl perform w

variable {w : Workspace} {action : GraphAction} {actions : List GraphAction}

theorem perform_continues (hw : w.graph.Numbered) (ha : action ≠ .clear) :
    w.graph.Continues (w.perform action).graph := by
  have hJ : Enduring w.graph.Continues := enduring_continues w.graph
  have h : w.graph.Continues w.graph := .refl hw
  cases action with
  | register d => exact h.register d
  | any => exact h.register Builtin.any
  | collection => exact h.register Builtin.collection
  | map => exact h.register Builtin.map
  | seed settings => exact h.seed settings
  | clear => exact absurd rfl ha
  | defineName cx name => exact hJ.defineName name h
  | resolve cx r => exact hJ.resolve r h
  | buildEndpoint cx controllerType => exact hJ.buildEndpoint controllerType h

theorem perform_numbered (hw : w.graph.Numbered) (action : GraphAction) :
    (w.perform action).graph.Numbered ∧ w.graph.nextId ≤ (w.perform action).graph.nextId := by
  by_cases ha : action = .clear
  · subst ha
    exact ⟨numbered_clear w.graph, Nat.le_refl _⟩
  · have h := perform_continues hw ha
    exact ⟨h.toNumbered, h.nextId⟩

theorem performAll_numbered (hw : w.graph.Numbered) (actions : List GraphAction) :
    (w.performAll actions).graph.Numbered := by
  induction actions generalizing w with
  | nil => exact hw
  | cons action actions ih => exact ih (perform_numbered hw action).1

theorem performAll_continues (hw : w.graph.Numbered) (ha : .clear ∉ actions) :
    w.graph.Continues (w.performAll actions).graph := by
  induction actions generalizing w with
  | nil => exact .refl hw
  | cons action actions ih =>
    have h : w.graph.Continues (w.perform action).graph :=
      perform_continues hw fun h => ha (h ▸ List.mem_cons_self ..)
    exact h.trans (ih h.toNumbered fun h => ha (List.mem_cons_of_mem _ h))

/-- Once a graph was cleared, no number below the next one at that time is in use. -/
theorem performAll_above {k : TypeId} (hw : w.graph.Numbered) (hk : k ≤ w.graph.nextId)
    (ha : .clear ∈ actions ∨ ∀ n i, w.graph.idOf? n = some i → k ≤ i) {n : String} {i : TypeId}
    (h : (w.performAll actions).graph.idOf? n = some i) : k ≤ i := by
  induction actions generalizing w with
  | nil => exact ha.resolve_left List.not_mem_nil n i h
  | cons action actions ih =>
    obtain ⟨hnumbered, hle⟩ := perform_numbered hw action
    refine ih hnumbered (Nat.le_trans hk hle) ?_ h
    by_cases hclear : action = .clear
    · subst hclear
      exact .inr fun n i hn => by cases hn
    · refine ha.imp (fun h => (List.mem_cons.1 h).resolve_left (Ne.symm hclear)) fun h n i hn => ?_
      exact ((perform_continues hw hclear).later hn).elim (h n i) (Nat.le_trans hk)

/-- The index of names and the definitions are each other's inverse, with all numbers below the next
one. A name keeps its number until the graph is cleared; what is registered after that has larger
numbers than everything before. -/
theorem performAll_indexed (actions further : List GraphAction) :
    let g := (Workspace.empty.performAll actions).graph
    let g' := ((Workspace.empty.performAll actions).performAll further).graph
    (∀ n i, g.idOf? n = some i ↔ ∃ d, g.definition? i = some d ∧ d.fullName = n ∧ d.id = i) ∧
      (∀ d ∈ g.definitions, g.definition? d.id = some d ∧ d.id < g.nextId) ∧
      (.clear ∉ further → ∀ n i, g.idOf? n = some i → g'.idOf? n = some i) ∧
      (.clear ∈ further → ∀ n i n' i', g.idOf? n = some i → g'.idOf? n' = some i' → i < i') := by
  have hg : (Workspace.empty.performAll actions).graph.Numbered :=
    performAll_numbered numbered_empty actions
  refine ⟨fun n i => ⟨fun h => ?_, ?_⟩, fun d hd => ⟨hg.listed hd, hg.fresh (hg.listed hd)⟩,
    fun hclear n i h => (performAll_continues hg hclear).names h, fun hclear n i n' i' h h' => ?_⟩
  · obtain ⟨d, hd, hname⟩ := hg.indexed h
    exact ⟨d, hd, hname, id_of_definition? hd⟩
  · rintro ⟨d, hd, rfl, -⟩
    exact hg.named hd
  · obtain ⟨d, hd, -⟩ := hg.indexed h
    exact Nat.lt_of_lt_of_le (hg.fresh hd) (performAll_above hg (Nat.le_refl _) (.inl hclear) h')

/-- The type that stands for everything keeps its number while maps are registered, and gets a larger
one after the graph was cleared. -/
theorem performAll_indexed_any :
    let w := Workspace.empty.performAll [.any]
    w.graph.idOf? Marker.object = some 0 ∧
      (w.performAll [.map]).graph.idOf? Marker.object = some 0 ∧
      (w.performAll [.clear, .any]).graph.idOf? Marker.object = some 1 ∧ (0 : TypeId) < 1 :=
  ⟨rfl, (performAll_indexed [.any] [.map]).2.2.1 (by simp) Marker.object 0 rfl, rfl,
    (performAll_indexed [.any] [.clear, .any]).2.2.2 (by simp) Marker.object 0 Marker.object 1 rfl
      rfl⟩

end Workspace

end ClientBindings
