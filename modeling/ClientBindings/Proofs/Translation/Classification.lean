import Mathlib.Logic.Relation
import ClientBindings.Proofs.Resolution.Enduring
import ClientBindings.Proofs.Round.Controllers
import ClientBindings.Proofs.Translation.Calls

/-! What a name stands for does not depend on when it is looked up. Whatever has been built from a
graph that was seeded afresh, and wherever builds have failed, a name that is found gives what the
settings and the declarations say. -/
namespace ClientBindings.BuildContext

open TypeGraph

variable {cx : BuildContext} {g g' g₀ : TypeGraph} {f : Resolver} {name : String} {id : TypeId}
  {w v : Workspace}

/-- The context over the same declarations and settings with another pipeline. -/
def withPipeline (cx : BuildContext) (pipeline : PropertyPipeline) : BuildContext :=
  { cx with pipeline }

/-- The resolvers that definitions are filled with: the whole one and those of a limited depth. -/
inductive Searches (cx : BuildContext) : Resolver → Prop
  | whole : Searches cx cx.resolve
  | limited (depth : Nat) : Searches cx (cx.resolveAt depth)

/-- What changes a graph: lookups, resolving and the building of endpoints, whether they succeed or
fail, and the steps that they are made of. -/
inductive Moves (cx : BuildContext) : TypeGraph → TypeGraph → Prop
  | lookup {pipeline f} (hf : (cx.withPipeline pipeline).Searches f) (name : String) (w : Workspace) :
    Moves cx w.graph
      (((cx.withPipeline pipeline).getOrDefine ((cx.withPipeline pipeline).define f) name).outcome
        w).2.graph
  | resolve {pipeline f} (hf : (cx.withPipeline pipeline).Searches f) (r : TypeRef) (w : Workspace) :
    Moves cx w.graph ((f r).outcome w).2.graph
  | endpoint (pipeline : PropertyPipeline) (controllerType : String) (w : Workspace) :
    Moves cx w.graph (((cx.withPipeline pipeline).buildEndpoint controllerType).outcome w).2.graph
  | builtin {d} (hd : d ∈ Builtin.all) (g : TypeGraph) : Moves cx g (g.register d).1
  | enter {t} (ht : cx.Definable t.name t) (g : TypeGraph) : Moves cx g (g.register (cx.outline t)).1
  | placeholder {t id g} (ht : cx.Definable t.name t) (hid : g.idOf? t.name = some id)
      (p : TypeParameter) : Moves cx g (g.register (placeholder t.name p)).1
  | attach {id d ids g} (hd : g.definition? id = some d) (hnew : d.predefined = false)
      (hids : ∀ i ∈ ids, ∃ q, g.definition? i = some q) :
    Moves cx g (g.update id (.withGenericParams ids))
  | fill {id d change g} (hd : g.definition? id = some d) (hnew : d.predefined = false)
      (hc : TypeDefinition.Keeping change) (hp : ∀ d, (change d).genericParams = d.genericParams) :
    Moves cx g (g.update id change)

/-- At some moment after `g₀` a lookup of the name ends with that number, and leaves that graph. -/
inductive Gives (cx : BuildContext) (g₀ : TypeGraph) (name : String) : TypeId → TypeGraph → Prop
  | intro {pipeline f w v id} (hw : Relation.ReflTransGen cx.Moves g₀ w.graph)
      (hf : (cx.withPipeline pipeline).Searches f)
      (h : ((cx.withPipeline pipeline).getOrDefine ((cx.withPipeline pipeline).define f)
        name).outcome w = (.ok id, v)) : Gives cx g₀ name id v.graph

/-- What a name has to give, by the settings and the declarations. -/
def Answers (cx : BuildContext) (g : TypeGraph) (name : String) (id : TypeId) : Prop :=
  if cx.exclusions.excludes name then g.idOf? Builtin.any.fullName = some id
  else
    match cx.predefined? name with
    | some p => g.definition? id = some { p with id := id }
    | none =>
      if cx.symbols.isAssignable name Marker.collection then
        g.idOf? Builtin.collection.fullName = some id
      else if cx.symbols.isAssignable name Marker.map then
        g.idOf? Builtin.map.fullName = some id
      else
        match cx.symbols.type? name with
        | some _ => ∃ d, g.definition? id = some d ∧ d.fullName = name
        | none => g.idOf? Builtin.any.fullName = some id

/-- A definition that is not predefined is a placeholder or that of a declared type. -/
def Founded (cx : BuildContext) (g : TypeGraph) : Prop :=
  ∀ d ∈ g.definitions, d.predefined = true ∨ d.kind = .genericPlaceholder ∨
    ∃ t, cx.Definable d.fullName t

namespace Searches

theorem framed (hf : cx.Searches f) (hs : cx.symbols.Unreserved) (r : TypeRef) :
    cx.Framed (f r) := by
  cases hf with
  | whole => exact resolveAt_framed hs _ r
  | limited depth => exact resolveAt_framed hs depth r

theorem keeps {J : TypeGraph → Prop} (hf : cx.Searches f) (hJ : Persistent cx J) (r : TypeRef) :
    (FailureLaw.guarding J).Keeps (Same J) (f r) (f r) := by
  cases hf with
  | whole => exact hJ.keeps_resolveAt _ r
  | limited depth => exact hJ.keeps_resolveAt depth r

end Searches

section persistent

variable (cx) (pipeline : PropertyPipeline)

theorem persistent_named (name : String) (id : TypeId) :
    Persistent cx fun g => g.idOf? name = some id where
  builtin _ h := idOf?_register h
  declared _ h := idOf?_register h
  placeholder _ _ h := idOf?_register h
  update _ _ h := h

theorem Founded.register {d : TypeDefinition} (hg : cx.Founded g)
    (hd : d.predefined = true ∨ d.kind = .genericPlaceholder ∨ ∃ t, cx.Definable d.fullName t) :
    cx.Founded (g.register d).1 := by
  unfold TypeGraph.register
  split
  · exact hg
  · intro d' hd'
    rcases List.mem_append.1 hd' with hd' | hd'
    · exact hg d' hd'
    · rw [List.mem_singleton.1 hd']
      exact hd

theorem persistent_founded : Persistent (cx.withPipeline pipeline) cx.Founded where
  builtin hd hg := hg.register cx (.inl (Builtin.predefined_of_mem_all hd))
  declared ht hg := hg.register cx (.inr (.inr ⟨_, ht⟩))
  placeholder _ _ hg := hg.register cx (.inr (.inl rfl))
  update hc id hg := by
    intro d hd
    obtain ⟨d', hd', rfl⟩ := List.mem_map.1 hd
    split
    · rw [hc.predefined, hc.kind, hc.fullName]
      exact hg d' hd'
    · exact hg d' hd'

end persistent

/-- What builds keep, every step of them keeps. -/
theorem Moves.persists {J : TypeGraph → Prop}
    (hJ : ∀ pipeline, Persistent (cx.withPipeline pipeline) J) (h : cx.Moves g g') (hg : J g) :
    J g' := by
  cases h with
  | @lookup pipeline f hf name w =>
    exact guarding_keeps_iff.1 ((hJ pipeline).keeps_getOrDefine (hf.keeps (hJ pipeline)) name) w hg
  | @resolve pipeline f hf r w => exact guarding_keeps_iff.1 (hf.keeps (hJ pipeline) r) w hg
  | endpoint pipeline controllerType w => exact (hJ pipeline).buildEndpoint controllerType hg
  | builtin hd => exact (hJ cx.pipeline).builtin hd hg
  | enter ht => exact (hJ cx.pipeline).declared ht hg
  | placeholder ht hid p => exact (hJ cx.pipeline).placeholder _ p hg
  | attach hd hnew hids =>
    exact (hJ cx.pipeline).update (TypeDefinition.keeping_withGenericParams _) _ hg
  | fill hd hnew hc hp => exact (hJ cx.pipeline).update hc _ hg

theorem persists_of_moves {J : TypeGraph → Prop}
    (hJ : ∀ pipeline, Persistent (cx.withPipeline pipeline) J)
    (h : Relation.ReflTransGen cx.Moves g g') (hg : J g) : J g' := by
  induction h with
  | refl => exact hg
  | tail _ hmove ih => exact hmove.persists hJ ih

/-- Pipelines have nothing to do with names. -/
theorem Extends.of_withPipeline {pipeline : PropertyPipeline}
    (h : (cx.withPipeline pipeline).Extends g g') : cx.Extends g g' :=
  ⟨h.names, h.definitions, h.seeded, h.new⟩

section grown

variable (hs : cx.symbols.Unreserved)
  (hg₀ : ∀ id d, g₀.definition? id = some d → d.predefined = true)

include hg₀ in
/-- What is not predefined was not there at first. -/
theorem Grown.definition?_eq_none (h : cx.Grown g₀ g) {d : TypeDefinition}
    (hd : g.definition? id = some d) (hnew : d.predefined = false) : g₀.definition? id = none := by
  cases hd₀ : g₀.definition? id with
  | none => rfl
  | some d₀ =>
    obtain rfl : d = d₀ := Option.some.inj (hd.symm.trans (h.1.definitions hd₀))
    rw [hg₀ id d hd₀] at hnew
    cases hnew

include hs hg₀

/-- Every step of a build extends the predefined definitions. -/
theorem Moves.grown (hmove : cx.Moves g g') (h : cx.Grown g₀ g) : cx.Grown g₀ g' := by
  obtain ⟨hext, hready⟩ := h
  cases hmove with
  | @lookup pipeline f hf name w =>
    have hs' : (cx.withPipeline pipeline).symbols.Unreserved := hs
    obtain ⟨hext', hready'⟩ := getOrDefine_framed hs' (hf.framed hs') name w hready
    exact ⟨hext.trans hext'.of_withPipeline, hready'⟩
  | @resolve pipeline f hf r w =>
    obtain ⟨hext', hready'⟩ := hf.framed hs r w hready
    exact ⟨hext.trans hext'.of_withPipeline, hready'⟩
  | endpoint pipeline controllerType w =>
    have hs' : (cx.withPipeline pipeline).symbols.Unreserved := hs
    obtain ⟨hext', hready'⟩ :=
      assembleEndpoint_framed (fun r => resolveAt_framed hs' _ r) controllerType w hready
    exact ⟨hext.trans hext'.of_withPipeline, hready'⟩
  | builtin hd =>
    rw [hready.stocked.register hd]
    exact ⟨hext, hready⟩
  | enter ht =>
    exact ⟨hext.register (.inl ⟨_, ht⟩), hready.register_unreserved rfl (ht.unreserved hs)⟩
  | @placeholder t i g ht hid p =>
    refine ⟨hext.register (.inr (not_unreserved_placeholderName _ _)),
      hready.register rfl fun o q ho hn => ?_⟩
    obtain ⟨rfl, -⟩ := placeholderName_inj (ht.unreserved hs) ho hn
    exact ⟨i, hid⟩
  | attach hd hnew hids =>
    have hnone := Grown.definition?_eq_none hg₀ ⟨hext, hready⟩ hd hnew
    exact ⟨hext.update hnone (TypeDefinition.keeping_withGenericParams _),
      hready.withGenericParams hids _⟩
  | fill hd hnew hc hp =>
    have hnone := Grown.definition?_eq_none hg₀ ⟨hext, hready⟩ hd hnew
    exact ⟨hext.update hnone hc, hready.update hc hp _⟩

theorem grown_of_moves (hready : g₀.Ready) (h : Relation.ReflTransGen cx.Moves g₀ g) :
    cx.Grown g₀ g := by
  induction h with
  | refl => exact ⟨.refl g₀, hready⟩
  | tail _ hmove ih => exact hmove.grown hs hg₀ ih

end grown

section fresh

variable (g : TypeGraph)

/-- What is denoted is what has to be given. -/
theorem answers_of_idOf? {g' : TypeGraph} (h : cx.Grown (g.clear.seed cx.settings) g')
    (hid : g'.idOf? (cx.denoted name) = some id) : cx.Answers g' name id := by
  unfold denoted at hid
  unfold Answers
  split at hid
  · rename_i hex
    rwa [if_pos hex]
  · rename_i hex
    rw [if_neg hex]
    cases hp : cx.predefined? name with
    | some p =>
      rw [hp] at hid
      obtain ⟨hmem, rfl⟩ := predefined?_mem hp
      obtain ⟨i, hi⟩ := (offered_seed g cx.settings).registered hmem
      obtain rfl : i = id := Option.some.inj ((h.1.names hi).symm.trans hid)
      obtain ⟨d, hd, hname⟩ := (offered_seed g cx.settings).indexed hi
      obtain ⟨q, hq, rfl⟩ := (offered_seed g cx.settings).first hd
      rw [hname] at hq
      obtain rfl : p = q := Option.some.inj (hp.symm.trans hq)
      exact h.1.definitions hd
    | none =>
      rw [hp, Option.isSome_none, if_neg Bool.false_ne_true] at hid
      dsimp only
      split at hid
      · rename_i hc
        rwa [if_pos hc]
      · rename_i hc
        rw [if_neg hc]
        split at hid
        · rename_i hm
          rwa [if_pos hm]
        · rename_i hm
          rw [if_neg hm]
          cases ht : cx.symbols.type? name with
          | some t =>
            rw [ht] at hid
            exact h.2.indexed hid
          | none =>
            rw [ht] at hid
            exact hid

/-- A lookup at any moment gives the definition of what the name denotes. -/
theorem Gives.denotes (hs : cx.symbols.Unreserved) (hsettings : cx.settings.Unreserved)
    {g' : TypeGraph} (hname : Unreserved name)
    (h : cx.Gives (g.clear.seed cx.settings) name id g') :
    cx.Grown (g.clear.seed cx.settings) g' ∧ g'.idOf? (cx.denoted name) = some id := by
  have hseed := shaped_seed hsettings g
  have hpredefined (id : TypeId) (d : TypeDefinition)
      (hd : (g.clear.seed cx.settings).definition? id = some d) : d.predefined = true :=
    predefined_of_seed g hd
  cases h with
  | @intro pipeline f w v id hw hf h =>
    have hgrown := grown_of_moves hs hpredefined hseed.toReady hw
    have hclassified := hseed.classified.extend hgrown.1
    have hmove : cx.Moves w.graph v.graph := by
      have hmove := Moves.lookup hf name w
      rwa [h] at hmove
    refine ⟨hmove.grown hs hpredefined hgrown, ?_⟩
    have hs' : (cx.withPipeline pipeline).symbols.Unreserved := hs
    have hclassified' : (cx.withPipeline pipeline).Classified w.graph :=
      ⟨hclassified.offered, hclassified.known⟩
    have hid : v.graph.idOf? ((cx.withPipeline pipeline).denoted name) = some id :=
      getOrDefine_denotes hs' (hf.framed hs') hgrown.2 hclassified' hname h
    exact hid

end fresh

/-- From a graph that was seeded afresh on, a name that is looked up gives what it has to, and the
same at any two moments. Names that are excluded or stand for collections or maps are not defined. -/
theorem gives_answers (hs : cx.symbols.Unreserved) (hsettings : cx.settings.Unreserved)
    (g : TypeGraph) :
    (∀ name id g', Unreserved name → cx.Gives (g.clear.seed cx.settings) name id g' →
      cx.Answers g' name id) ∧
    (∀ name id g₁ id' g₂, Unreserved name → cx.Gives (g.clear.seed cx.settings) name id g₁ →
      Relation.ReflTransGen cx.Moves g₁ g₂ → cx.Gives (g.clear.seed cx.settings) name id' g₂ →
      id = id') ∧
    ∀ g', Relation.ReflTransGen cx.Moves (g.clear.seed cx.settings) g' → ∀ d ∈ g'.definitions,
      d.predefined = false → d.kind = .interfaceType ∨ d.kind = .enumType →
      cx.exclusions.excludes d.fullName = false ∧
        cx.symbols.isAssignable d.fullName Marker.collection = false ∧
        cx.symbols.isAssignable d.fullName Marker.map = false := by
  refine ⟨fun name id g' hname h => ?_, fun name id g₁ id' g₂ hname h hlater h' => ?_,
    fun g' h d hd hnew hkind => ?_⟩
  · obtain ⟨hgrown, hid⟩ := h.denotes g hs hsettings hname
    exact answers_of_idOf? g hgrown hid
  · obtain ⟨-, hid⟩ := h.denotes g hs hsettings hname
    obtain ⟨-, hid'⟩ := h'.denotes g hs hsettings hname
    have hlasts : g₂.idOf? (cx.denoted name) = some id :=
      persists_of_moves (fun _ => persistent_named _ (cx.denoted name) id) hlater hid
    exact Option.some.inj (hlasts.symm.trans hid')
  · have hseed : cx.Founded (g.clear.seed cx.settings) := fun d hd =>
      .inl (predefined_of_seed g ((shaped_seed hsettings g).listed hd))
    rcases persists_of_moves (persistent_founded cx) h hseed d hd with hold | hplaceholder | ⟨t, ht⟩
    · rw [hold] at hnew
      cases hnew
    · rw [hplaceholder] at hkind
      rcases hkind with h | h <;> cases h
    · exact ⟨ht.1, ht.2.1, ht.2.2.1⟩

theorem Moves.defineName (cx : BuildContext) (name : String) (w : Workspace) :
    cx.Moves w.graph ((cx.defineName name).outcome w).2.graph :=
  have hwhole : (cx.withPipeline cx.pipeline).Searches cx.resolve := .whole
  .lookup hwhole name w

theorem Moves.buildEndpoint (cx : BuildContext) (controllerType : String) (w : Workspace) :
    cx.Moves w.graph ((cx.buildEndpoint controllerType).outcome w).2.graph :=
  .endpoint cx.pipeline controllerType w

theorem Gives.defineName (hw : Relation.ReflTransGen cx.Moves g₀ w.graph)
    (h : (cx.defineName name).outcome w = (.ok id, v)) : cx.Gives g₀ name id v.graph :=
  have hwhole : (cx.withPipeline cx.pipeline).Searches cx.resolve := .whole
  .intro hw hwhole h

/-- Looking up a record in a graph that was just seeded. -/
def leafOutcome : Outcome TypeId :=
  (nodeContext.defineName "a.Leaf").outcome
    (Workspace.empty.withGraph (TypeGraph.empty.clear.seed nodeContext.settings))

/-- Looking it up again, after a controller was built that returns it. -/
def leafOutcomeAgain : Outcome TypeId :=
  (nodeContext.defineName "a.Leaf").outcome
    ((nodeContext.buildEndpoint "a.Api").outcome leafOutcome.2).2

theorem leafOutcome_ok : leafOutcome.error? = none ∧ leafOutcomeAgain.error? = none := by
  decide +kernel

/-- Both times it is the definition of the record. -/
theorem gives_answers_node : ∃ id, leafOutcome.1 = .ok id ∧ leafOutcomeAgain.1 = .ok id ∧
    ∃ d, leafOutcomeAgain.2.graph.definition? id = some d ∧ d.fullName = "a.Leaf" := by
  obtain ⟨id, h⟩ := Outcome.exists_ok_of_error? leafOutcome_ok.1
  obtain ⟨id', h'⟩ := Outcome.exists_ok_of_error? leafOutcome_ok.2
  have hs : nodeContext.symbols.Tidy := by decide +kernel
  have hname : Unreserved "a.Leaf" := by decide
  have hdefine : nodeContext.Moves (TypeGraph.empty.clear.seed nodeContext.settings)
      leafOutcome.2.graph := Moves.defineName nodeContext "a.Leaf" (Workspace.empty.withGraph _)
  have hbuild := Moves.buildEndpoint nodeContext "a.Api" leafOutcome.2
  have hagain := Moves.defineName nodeContext "a.Leaf"
    ((nodeContext.buildEndpoint "a.Api").outcome leafOutcome.2).2
  obtain ⟨hanswers, hsame, -⟩ := gives_answers hs.unreserved (by decide +kernel) TypeGraph.empty
  have hgives := Gives.defineName (w := Workspace.empty.withGraph _) .refl h
  have hgives' := Gives.defineName ((Relation.ReflTransGen.single hdefine).tail hbuild) h'
  obtain rfl : id = id' := hsame "a.Leaf" id _ id' _ hname hgives
    ((Relation.ReflTransGen.single hbuild).tail hagain) hgives'
  refine ⟨id, congrArg Prod.fst h, congrArg Prod.fst h', ?_⟩
  have hanswer := hanswers "a.Leaf" id _ hname hgives'
  have hplain : nodeContext.exclusions.excludes "a.Leaf" = false ∧
      (nodeContext.predefined? "a.Leaf").isNone ∧
      nodeContext.symbols.isAssignable "a.Leaf" Marker.collection = false ∧
      nodeContext.symbols.isAssignable "a.Leaf" Marker.map = false ∧
      (nodeContext.symbols.type? "a.Leaf").isSome := by decide +kernel
  obtain ⟨hex, hfree, hc, hm, ht⟩ := hplain
  obtain ⟨t, ht⟩ := Option.isSome_iff_exists.1 ht
  rw [Answers, hex, Option.isNone_iff_eq_none.1 hfree, hc, hm, ht] at hanswer
  exact hanswer

end ClientBindings.BuildContext
