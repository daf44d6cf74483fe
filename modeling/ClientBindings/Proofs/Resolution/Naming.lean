import ClientBindings.Proofs.Graph.Extension

/-! The definition that a name stands for in a graph. A name without one is a declared type that is
still to be defined; every other name keeps its meaning while the graph grows. -/
namespace ClientBindings.BuildContext

open TypeGraph

variable {cx : BuildContext} {g g' : TypeGraph} {name n : String} {w : Workspace}

/-- The full name of the definition that a name stands for, unless that is still to be defined. -/
def nameIn? (cx : BuildContext) (g : TypeGraph) (name : String) : Option String :=
  if cx.exclusions.excludes name then some Builtin.any.fullName
  else if (g.idOf? name).isSome then some name
  else if cx.symbols.isAssignable name Marker.collection then some Builtin.collection.fullName
  else if cx.symbols.isAssignable name Marker.map then some Builtin.map.fullName
  else if (cx.symbols.type? name).isSome then none
  else some Builtin.any.fullName

/-- A name that stands for a definition stands for a registered one. -/
theorem idOf?_of_nameIn? (hg : g.Stocked) (h : cx.nameIn? g name = some n) :
    ∃ id, g.idOf? n = some id := by
  have hany : ∃ id, g.idOf? Builtin.any.fullName = some id := hg _ (by simp [Builtin.all])
  unfold nameIn? at h
  split at h
  · exact Option.some.inj h ▸ hany
  · split at h
    · rename_i hid
      exact Option.some.inj h ▸ Option.isSome_iff_exists.1 hid
    · split at h
      · exact Option.some.inj h ▸ hg _ (by simp [Builtin.all])
      · split at h
        · exact Option.some.inj h ▸ hg _ (by simp [Builtin.all])
        · split at h
          · cases h
          · exact Option.some.inj h ▸ hany

/-- Looking up such a name does not define anything. -/
theorem getOrDefine_of_named (hg : w.graph.Stocked) (h : cx.nameIn? w.graph name = some n) :
    ∃ id v, w.graph.idOf? n = some id ∧ v.graph = w.graph ∧ v.endpoints = w.endpoints ∧
      ∀ d, (cx.getOrDefine d name).outcome w = (.ok id, v) := by
  obtain ⟨id, hid⟩ := idOf?_of_nameIn? hg h
  have hregister (b : TypeDefinition) (hb : b.fullName = n) (u : Workspace)
      (hu : u.graph = w.graph) : (Work.register b).run u = (id, u) := by
    rw [Work.run_register, hu, register_of_idOf? (by rw [hb, hid]), ← hu]
    rfl
  unfold nameIn? at h
  unfold getOrDefine
  split at h
  · rename_i hex
    have hany : (Work.anyId).run w = (id, w) := hregister Builtin.any (Option.some.inj h) w rfl
    exact ⟨id, w, hid, rfl, rfl, fun d => by rw [if_pos hex, Build.outcome_lift, hany]⟩
  rename_i hex
  split at h
  · rename_i hsome
    obtain rfl := Option.some.inj h
    refine ⟨id, w, hid, rfl, rfl, fun d => ?_⟩
    rw [if_neg hex, Build.outcome_lift_bind, Work.run_graph]
    dsimp only
    rw [hid]
    rfl
  rename_i hnone
  rw [Option.not_isSome_iff_eq_none] at hnone
  split at h
  · rename_i hc
    have hcollection : (Work.collectionId).run w = (id, w) :=
      hregister Builtin.collection (Option.some.inj h) w rfl
    refine ⟨id, w, hid, rfl, rfl, fun d => ?_⟩
    rw [if_neg hex, Build.outcome_lift_bind, Work.run_graph]
    dsimp only
    rw [hnone, if_pos hc, Build.outcome_lift, hcollection]
  rename_i hc
  split at h
  · rename_i hm
    have hmap : (Work.mapId).run w = (id, w) := hregister Builtin.map (Option.some.inj h) w rfl
    refine ⟨id, w, hid, rfl, rfl, fun d => ?_⟩
    rw [if_neg hex, Build.outcome_lift_bind, Work.run_graph]
    dsimp only
    rw [hnone, if_neg hc, if_pos hm, Build.outcome_lift, hmap]
  rename_i hm
  split at h
  · cases h
  · rename_i ht
    rw [Option.not_isSome_iff_eq_none] at ht
    obtain ⟨u, hu, hgraph, hendpoints⟩ : ∃ u, (Work.warn ("type:" ++ name)
        "Type is not part of the symbol export, generating 'any'").run w = ((), u) ∧
          u.graph = w.graph ∧ u.endpoints = w.endpoints := ⟨_, rfl, rfl, rfl⟩
    have hany : (Work.anyId).run u = (id, u) :=
      hregister Builtin.any (Option.some.inj h) u hgraph
    refine ⟨id, u, hid, hgraph, hendpoints, fun d => ?_⟩
    rw [if_neg hex, Build.outcome_lift_bind, Work.run_graph]
    dsimp only
    rw [hnone, if_neg hc, if_neg hm, ht]
    dsimp only
    rw [Build.outcome_lift_bind, hu, Build.outcome_lift, hany]

/-- Looking up a name that is still to be defined, defines it. -/
theorem getOrDefine_of_unnamed (h : cx.nameIn? w.graph name = none) :
    ∃ t, cx.Definable name t ∧ w.graph.idOf? name = none ∧
      ∀ d, (cx.getOrDefine d name).outcome w = (d t).outcome w := by
  unfold nameIn? at h
  split at h
  · cases h
  rename_i hex
  split at h
  · cases h
  rename_i hnone
  split at h
  · cases h
  rename_i hc
  split at h
  · cases h
  rename_i hm
  split at h
  · rename_i ht
    obtain ⟨t, ht⟩ := Option.isSome_iff_exists.1 ht
    rw [Option.not_isSome_iff_eq_none] at hnone
    refine ⟨t, ⟨by simpa using hex, by simpa using hc, by simpa using hm, ht⟩, hnone, fun d => ?_⟩
    rw [getOrDefine, if_neg hex, Build.outcome_lift_bind, Work.run_graph]
    dsimp only
    rw [hnone, if_neg hc, if_neg hm, ht]
  · cases h

theorem nameIn?_of_definable {t : DeclaredType} (ht : cx.Definable name t) {id : TypeId}
    (h : g.idOf? name = some id) : cx.nameIn? g name = some name := by
  simp [nameIn?, ht.1, h]

/-- Meanings last. -/
theorem Extends.nameIn? (hg : cx.Extends g g') (hname : Unreserved name)
    (h : cx.nameIn? g name = some n) : cx.nameIn? g' name = some n := by
  cases hid : g.idOf? name with
  | some id =>
    rw [BuildContext.nameIn?, hid] at h
    rw [BuildContext.nameIn?, hg.names hid]
    exact h
  | none =>
    cases hid' : g'.idOf? name with
    | none =>
      rw [BuildContext.nameIn?, hid] at h
      rw [BuildContext.nameIn?, hid']
      exact h
    | some id' =>
      rcases hg.new hid hid' with ⟨t, ht⟩ | hreserved
      · simp [BuildContext.nameIn?, hid, ht.1, ht.2.1, ht.2.2.1, ht.2.2.2] at h
      · exact absurd hname hreserved

end ClientBindings.BuildContext
