import ClientBindings.Graph.Resolution
import ClientBindings.Proofs.Outcome
import ClientBindings.Proofs.Renumbering.Basic

/-! Resolving in a model with moved numbers comes to the same with moved numbers: no build looks at a
number other than to compare it with another. -/
namespace ClientBindings

variable {α α' β β' : Type} {k : Nat}

/-- From the moved workspace the second build comes to what the first comes to, moved; of what it
comes to `σ` is the moved form. -/
def Build.Follows (k : Nat) (σ : α → α') (m : Build α) (m' : Build α') : Prop :=
  ∀ w, m'.outcome (w.shift k) = ((m.outcome w).1.map σ, (m.outcome w).2.shift k)

/-- The same of steps that cannot fail. -/
def Work.Follows (k : Nat) (σ : α → α') (x : Work α) (x' : Work α') : Prop :=
  ∀ w, x'.run (w.shift k) = (σ (x.run w).1, (x.run w).2.shift k)

namespace Work

theorem follows_pure {σ : α → α'} (a : α) : Follows k σ (pure a) (pure (σ a)) := fun _ => rfl

theorem Follows.bind {σ : α → α'} {τ : β → β'} {x : Work α} {x' : Work α'} {c : α → Work β}
    {c' : α' → Work β'} (hx : Follows k σ x x') (hc : ∀ a, Follows k τ (c a) (c' (σ a))) :
    Follows k τ (x >>= c) (x' >>= c') := by
  intro w
  rw [StateT.run_bind, StateT.run_bind, hx w]
  exact hc (x.run w).1 (x.run w).2

theorem follows_graph : Follows k (TypeGraph.shift k) Work.graph Work.graph := fun _ => rfl

theorem follows_endpoint? (controllerType : String) :
    Follows k (Option.map (Endpoint.shift k)) (Work.endpoint? controllerType)
      (Work.endpoint? controllerType) := by
  intro w
  rw [run_endpoint?, run_endpoint?]
  exact congrArg (·, w.shift k) (Dict.get?_mapValues _ _ _)

theorem follows_addEndpoint (e : Endpoint) :
    Follows k (Endpoint.shift k) (Work.addEndpoint e) (Work.addEndpoint (e.shift k)) := by
  intro w
  rw [run_addEndpoint, run_addEndpoint, Workspace.addEndpoint_shift]

theorem follows_report (s : Severity) (location message : String) :
    Follows k id (Work.report s location message) (Work.report s location message) := fun _ => rfl

theorem follows_register {d : TypeDefinition} (hd : d.Blank) :
    Follows k (· + k) (Work.register d) (Work.register d) := by
  intro w
  have h : (w.shift k).graph.register d = _ := TypeGraph.register_shift k w.graph hd
  rw [run_register, run_register, h]
  rfl

theorem follows_update {change change' : TypeDefinition → TypeDefinition}
    (h : ∀ d, change' (d.shift k) = (change d).shift k) (id : TypeId) :
    Follows k (fun u => u) (Work.update id change) (Work.update (id + k) change') := by
  intro w
  have hg : (w.shift k).graph.update (id + k) change' = _ := TypeGraph.update_shift k w.graph h id
  rw [run_update, run_update, hg]
  rfl

theorem follows_anyId : Follows k (· + k) Work.anyId Work.anyId :=
  follows_register (TypeDefinition.blank_builtin _ _ _ _)

theorem follows_collectionId : Follows k (· + k) Work.collectionId Work.collectionId :=
  follows_register (TypeDefinition.blank_builtin _ _ _ _)

theorem follows_mapId : Follows k (· + k) Work.mapId Work.mapId :=
  follows_register (TypeDefinition.blank_builtin _ _ _ _)

theorem follows_anyInstance : Follows k (TypeInstance.shift k) Work.anyInstance Work.anyInstance := by
  refine follows_anyId.bind fun id => ?_
  rw [← TypeInstance.shift_plain]
  exact follows_pure _

theorem follows_orAny (i? : Option TypeInstance) :
    Follows k (TypeInstance.shift k) (Work.orAny i?) (Work.orAny (i?.map (·.shift k))) := by
  cases i? with
  | some i => exact follows_pure i
  | none => exact follows_anyInstance

end Work

namespace Build

theorem follows_pure {σ : α → α'} (a : α) : Follows k σ (pure a) (pure (σ a)) := fun _ => rfl

theorem follows_throw {σ : α → α'} (e : BuildError) : Follows k σ (throw e) (throw e) := fun _ => rfl

theorem follows_lift {σ : α → α'} {x : Work α} {x' : Work α'} (h : Work.Follows k σ x x') :
    Follows k σ (liftM x) (liftM x') := by
  intro w
  rw [outcome_lift, outcome_lift, h w]
  rfl

theorem Follows.bind {σ : α → α'} {τ : β → β'} {m : Build α} {m' : Build α'} {c : α → Build β}
    {c' : α' → Build β'} (hm : Follows k σ m m') (hc : ∀ a, Follows k τ (c a) (c' (σ a))) :
    Follows k τ (m >>= c) (m' >>= c') := by
  intro w
  rw [outcome_bind, outcome_bind, hm w]
  rcases m.outcome w with ⟨e | a, v⟩
  · rfl
  · exact hc a v

theorem follows_graph : Follows k (TypeGraph.shift k) (liftM Work.graph) (liftM Work.graph) :=
  follows_lift Work.follows_graph

end Build

open Build

/-- Resolvers that come to the same in a moved model. -/
def Resolver.Even (k : Nat) (f : Resolver) : Prop :=
  ∀ r, Follows k (Option.map (TypeInstance.shift k)) (f r) (f r)

section resolver

variable {f : Resolver} (hf : f.Even k)
include hf

theorem follows_resolveAll (rs : List TypeRef) :
    Follows k (List.map (TypeInstance.shift k)) (resolveAll f rs) (resolveAll f rs) := by
  induction rs with
  | nil => exact follows_pure _
  | cons r rs ih =>
    refine (hf r).bind fun i? => ih.bind fun is => ?_
    have hlist : (i?.map (TypeInstance.shift k)).toList ++ is.map (TypeInstance.shift k) =
        (i?.toList ++ is).map (TypeInstance.shift k) := by cases i? <;> simp
    rw [hlist]
    exact follows_pure _

namespace BuildContext

variable {cx : BuildContext}

theorem follows_resolveProperties (cs : List (String × PropertyCandidate)) :
    Follows k (List.map (PropertyDefinition.shift k)) (cx.resolveProperties f cs)
      (cx.resolveProperties f cs) := by
  induction cs with
  | nil => exact follows_pure _
  | cons c cs ih =>
    refine (hf _).bind fun i? => ?_
    refine (follows_lift (Work.follows_orAny i?)).bind fun i => ?_
    exact ih.bind fun ps => follows_pure (_ :: ps)

omit hf in
theorem follows_registerPlaceholders (name : String) (ps : List TypeParameter) :
    Follows k (List.map (· + k)) (registerPlaceholders name ps) (registerPlaceholders name ps) := by
  induction ps with
  | nil => exact follows_pure _
  | cons p ps ih =>
    refine (follows_lift (Work.follows_register
      (TypeDefinition.blank_declared _ _ _))).bind fun id => ?_
    exact ih.bind fun ids => follows_pure (id :: ids)

theorem follows_resolveBounds (ps : List (TypeParameter × TypeId)) :
    Follows k (fun u => u) (resolveBounds f ps)
      (resolveBounds f (ps.map fun p => (p.1, p.2 + k))) := by
  induction ps with
  | nil => exact follows_pure _
  | cons p ps ih =>
    refine (follows_resolveAll hf p.1.bounds).bind fun bounds => ?_
    have hbounded (d : TypeDefinition) :
        (d.shift k).bounded (bounds.map (·.shift k)) = (d.bounded bounds).shift k := rfl
    exact (follows_lift (Work.follows_update hbounded p.2)).bind fun _ => ih

theorem follows_populateInterface (id : TypeId) (t : DeclaredType) :
    Follows k (fun u => u) (cx.populateInterface f id t) (cx.populateInterface f (id + k) t) := by
  refine (follows_registerPlaceholders t.name t.typeParameters).bind fun ids => ?_
  have hparams (d : TypeDefinition) : (d.shift k).withGenericParams (ids.map (· + k)) =
      (d.withGenericParams ids).shift k := rfl
  refine (follows_lift (Work.follows_update hparams id)).bind fun _ => ?_
  have hzip : t.typeParameters.zip (ids.map (· + k)) =
      (t.typeParameters.zip ids).map fun p => (p.1, p.2 + k) := by
    rw [List.zip_map_right]
    rfl
  rw [hzip]
  refine (follows_resolveBounds hf _).bind fun _ => ?_
  refine (follows_resolveProperties hf _).bind fun properties => ?_
  have hproperties (d : TypeDefinition) : (d.shift k).withProperties (properties.map (·.shift k)) =
      (d.withProperties properties).shift k := rfl
  refine (follows_lift (Work.follows_update hproperties id)).bind fun _ => ?_
  refine (follows_resolveAll hf _).bind fun superTypes => ?_
  have hsuperTypes (d : TypeDefinition) : (d.shift k).withSuperTypes (superTypes.map (·.shift k)) =
      (d.withSuperTypes superTypes).shift k := rfl
  exact follows_lift (Work.follows_update hsuperTypes id)

theorem follows_populate (id : TypeId) (t : DeclaredType) :
    Follows k (fun u => u) (cx.populate f id t) (cx.populate f (id + k) t) := by
  have henum (d : TypeDefinition) : (d.shift k).withEnumConstants t.enumConstants =
      (d.withEnumConstants t.enumConstants).shift k := rfl
  unfold populate
  split
  · exact follows_populateInterface hf id t
  · exact follows_lift (Work.follows_update henum id)
  · exact follows_pure _

theorem follows_define (t : DeclaredType) :
    Follows k (· + k) (cx.define f t) (cx.define f t) := by
  refine follows_graph.bind fun g => ?_
  rw [TypeGraph.idOf?_shift]
  cases g.idOf? t.name with
  | some id => exact follows_pure id
  | none =>
    refine (follows_lift (Work.follows_register ⟨rfl, rfl, rfl⟩)).bind fun id => ?_
    refine (follows_populate hf id t).bind fun _ => ?_
    have hfinished (d : TypeDefinition) : (d.shift k).finished = d.finished.shift k := rfl
    exact (follows_lift (Work.follows_update hfinished id)).bind fun _ => follows_pure id

theorem follows_getOrDefine (name : String) :
    Follows k (· + k) (cx.getOrDefine (cx.define f) name) (cx.getOrDefine (cx.define f) name) := by
  unfold getOrDefine
  split
  · exact follows_lift Work.follows_anyId
  · refine follows_graph.bind fun g => ?_
    rw [TypeGraph.idOf?_shift]
    cases g.idOf? name with
    | some id => exact follows_pure id
    | none =>
      dsimp only [Option.map_none]
      split
      · exact follows_lift Work.follows_collectionId
      · split
        · exact follows_lift Work.follows_mapId
        · split
          · exact follows_define hf _
          · refine (follows_lift (Work.follows_report _ _ _)).bind fun _ => ?_
            exact follows_lift Work.follows_anyId

omit hf in
theorem placeholder?_shift (g : TypeGraph) (owner : TypeId) (name : String) :
    placeholder? (g.shift k) (owner + k) name = (placeholder? g owner name).map (· + k) := by
  unfold placeholder?
  rw [TypeGraph.definition?_shift]
  cases g.definition? owner with
  | none => rfl
  | some d =>
    have hname : ((fun p => ((g.shift k).definition? p).any (·.shortName == name)) ∘ (· + k)) =
        fun p => (g.definition? p).any (·.shortName == name) := by
      funext p
      rw [Function.comp_apply, TypeGraph.definition?_shift]
      cases g.definition? p <;> rfl
    simp only [Option.map_some, Option.bind_some]
    change (d.genericParams.map (· + k)).find? _ = _
    rw [List.find?_map, hname]

theorem follows_resolveVariable (name : String) (owner : GenericOwner) :
    Follows k (Option.map (TypeInstance.shift k)) (cx.resolveVariable (cx.define f) f name owner)
      (cx.resolveVariable (cx.define f) f name owner) := by
  cases owner with
  | type owner =>
    refine follows_graph.bind fun g => ?_
    have hnone : ((g.shift k).idOf? owner).isNone = (g.idOf? owner).isNone := by
      rw [TypeGraph.idOf?_shift]
      cases g.idOf? owner <;> rfl
    rw [hnone]
    split
    · exact follows_throw _
    · refine (follows_getOrDefine hf owner).bind fun id => ?_
      refine follows_graph.bind fun g => ?_
      rw [placeholder?_shift]
      cases placeholder? g id name with
      | none => exact follows_pure _
      | some p => exact follows_pure (some (TypeInstance.plain p))
  | method declaringType method overload =>
    unfold resolveVariable
    dsimp only
    split
    · exact follows_throw _
    · split
      · exact hf _
      · exact (follows_lift Work.follows_anyInstance).bind fun i => follows_pure (some i)
      · refine (follows_lift (Work.follows_report _ _ _)).bind fun _ => ?_
        exact (follows_lift Work.follows_anyInstance).bind fun i => follows_pure (some i)

theorem follows_resolveStep (r : TypeRef) :
    Follows k (Option.map (TypeInstance.shift k)) (cx.resolveStep (cx.define f) f r)
      (cx.resolveStep (cx.define f) f r) := by
  cases r with
  | primitive name => exact (follows_getOrDefine hf name).bind fun id => follows_pure (some (TypeInstance.plain id))
  | declared name args =>
    refine (follows_getOrDefine hf name).bind fun id => ?_
    refine follows_graph.bind fun g => ?_
    rw [TypeGraph.kind?_shift]
    dsimp only
    split
    · refine (follows_resolveAll hf args).bind fun is => ?_
      rw [← TypeInstance.shift_mk]
      exact follows_pure (some (TypeInstance.mk id is))
    · exact follows_pure (some (TypeInstance.plain id))
  | typeVar name owner => exact follows_resolveVariable hf name owner
  | wildcard upper lower =>
    cases upper with
    | some bound => exact hf bound
    | none => exact (follows_lift Work.follows_anyInstance).bind fun i => follows_pure (some i)
  | array component =>
    refine (hf component).bind fun i? => ?_
    refine (follows_lift Work.follows_collectionId).bind fun id => ?_
    have hlist : (i?.map (TypeInstance.shift k)).toList = i?.toList.map (TypeInstance.shift k) := by
      cases i? <;> rfl
    rw [hlist, ← TypeInstance.shift_mk]
    exact follows_pure (some (TypeInstance.mk id i?.toList))

end BuildContext

end resolver

namespace BuildContext

theorem even_resolveAt (cx : BuildContext) (depth : Nat) : Resolver.Even k (cx.resolveAt depth) := by
  induction depth with
  | zero => exact fun _ => follows_throw _
  | succ depth ih => exact fun r => follows_resolveStep ih r

theorem even_resolve (cx : BuildContext) : Resolver.Even k cx.resolve :=
  fun r => cx.even_resolveAt _ r

end BuildContext

end ClientBindings
