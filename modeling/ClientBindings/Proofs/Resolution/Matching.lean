import ClientBindings.Proofs.Graph.Registry
import ClientBindings.Proofs.Matching
import ClientBindings.Proofs.Resolution.References

/-! Steps of resolving and defining match when the resolvers and definers that they are given do.
Each statement says on which references the resolvers are asked to. -/
namespace ClientBindings

variable {law : FailureLaw} {I : Workspace → Workspace → Prop} {f f' : Resolver}

theorem keeps_resolveAll {rs : List TypeRef} (h : ∀ r ∈ rs, law.Keeps I (f r) (f' r)) :
    law.Keeps I (resolveAll f rs) (resolveAll f' rs) := by
  induction rs with
  | nil => exact FailureLaw.matches_pure fun _ _ hw => hw
  | cons r rs ih =>
    refine (h r (by simp)).bind fun i => ?_
    refine (ih fun r hr => h r (List.mem_cons_of_mem _ hr)).bind fun is => ?_
    exact FailureLaw.matches_pure fun _ _ hw => hw

namespace BuildContext

variable {cx : BuildContext}

theorem keeps_resolveProperties (hI : Observant I) {cs : List (String × PropertyCandidate)}
    (h : ∀ c ∈ cs, law.Keeps I (f c.2.type) (f' c.2.type)) :
    law.Keeps I (cx.resolveProperties f cs) (cx.resolveProperties f' cs) := by
  induction cs with
  | nil => exact FailureLaw.matches_pure fun _ _ hw => hw
  | cons c cs ih =>
    refine (h c (by simp)).bind fun i? => ?_
    refine (hI.keeps_orAny i?).bind fun i => ?_
    refine (ih fun c hc => h c (List.mem_cons_of_mem _ hc)).bind fun ps => ?_
    exact FailureLaw.matches_pure fun _ _ hw => hw

theorem keeps_discover (hI : Observant I) {t : DeclaredType}
    (h : ∀ r ∈ t.references, law.Keeps I (f r) (f' r)) :
    law.Keeps I (cx.discover f t) (cx.discover f' t) :=
  keeps_resolveProperties hI fun _ hc => h _ (SymbolTable.type_mem_references_of_winner hc)

/-- The relation outlasts the filling of the definition of that number. -/
def Yields (I : Workspace → Workspace → Prop) (id : TypeId) : Prop :=
  ∀ ⦃w w'⦄ change, TypeDefinition.Filling change → I w w' →
    I (w.withGraph (w.graph.update id change)) (w'.withGraph (w'.graph.update id change))

theorem Yields.keeps {id : TypeId} (h : Yields I id) {change : TypeDefinition → TypeDefinition}
    (hc : TypeDefinition.Filling change) :
    law.Keeps I (liftM (Work.update id change)) (liftM (Work.update id change)) :=
  FailureLaw.matches_lift fun _ _ hw => ⟨rfl, h change hc hw⟩

/-- The relation outlasts the bounds that the placeholder of that number gets. -/
def Settles (I : Workspace → Workspace → Prop) (id : TypeId) : Prop :=
  ∀ ⦃w w'⦄ bounds, I w w' → I (w.withGraph (w.graph.update id (.bounded bounds)))
    (w'.withGraph (w'.graph.update id (.bounded bounds)))

theorem keeps_resolveBounds {ps : List (TypeParameter × TypeId)} (hp : ∀ p ∈ ps, Settles I p.2)
    (h : ∀ p ∈ ps, ∀ r ∈ p.1.bounds, law.Keeps I (f r) (f' r)) :
    law.Keeps I (resolveBounds f ps) (resolveBounds f' ps) := by
  induction ps with
  | nil => exact FailureLaw.matches_pure fun _ _ hw => hw
  | cons p ps ih =>
    refine (keeps_resolveAll (h p (by simp))).bind fun bounds => ?_
    refine FailureLaw.Matches.bind (R := fun _ => I)
      (FailureLaw.matches_lift fun _ _ hw => ⟨rfl, hp p (by simp) bounds hw⟩) fun _ => ?_
    exact ih (fun p hq => hp p (List.mem_cons_of_mem _ hq))
      fun p hq => h p (List.mem_cons_of_mem _ hq)

/-- Interfaces are filled alike: `J` holds from their placeholders on and `K` from the bounds on. -/
theorem matches_populateInterface {P : Workspace → Workspace → Prop}
    {J K : List TypeId → Workspace → Workspace → Prop} {id : TypeId} {t : DeclaredType}
    (hplaceholders : law.Matches P (registerPlaceholders t.name t.typeParameters)
      (registerPlaceholders t.name t.typeParameters) J)
    (hbounds : ∀ ids, law.Matches (J ids) (resolveBounds f (t.typeParameters.zip ids))
      (resolveBounds f' (t.typeParameters.zip ids)) fun _ => K ids)
    (hattach : ∀ ids w w', J ids w w' →
      J ids (w.withGraph (w.graph.update id (.withGenericParams ids)))
        (w'.withGraph (w'.graph.update id (.withGenericParams ids))))
    (hK : ∀ ids, Yields (K ids) id)
    (hO : ∀ ids, Observant (K ids))
    (h : ∀ ids, ∀ r ∈ t.references, law.Keeps (K ids) (f r) (f' r)) :
    law.Matches P (cx.populateInterface f id t) (cx.populateInterface f' id t)
      fun _ w w' => ∃ ids, K ids w w' := by
  refine hplaceholders.bind fun ids => ?_
  refine FailureLaw.Matches.bind (R := fun _ => J ids)
    (FailureLaw.matches_lift fun w w' hw => ⟨rfl, hattach ids w w' hw⟩) fun _ => ?_
  refine (hbounds ids).bind fun _ => ?_
  refine (keeps_discover (hO ids) (h ids)).bind fun properties => ?_
  refine ((hK ids).keeps (TypeDefinition.filling_withProperties properties)).bind fun _ => ?_
  refine (keeps_resolveAll fun r hr =>
    h ids r (t.mem_references_of_keptSupertype hr)).bind fun superTypes => ?_
  exact ((hK ids).keeps (TypeDefinition.filling_withSuperTypes superTypes)).imp (fun _ _ hw => hw)
    fun _ _ _ hw => ⟨ids, hw⟩

theorem matches_populate {P Q : Workspace → Workspace → Prop} {id : TypeId} {t : DeclaredType}
    (hid : Yields P id) (hPQ : ∀ w w', P w w' → Q w w')
    (hinterface : law.Matches P (cx.populateInterface f id t) (cx.populateInterface f' id t)
      fun _ => Q) :
    law.Matches P (cx.populate f id t) (cx.populate f' id t) fun _ => Q := by
  unfold populate
  split
  · exact hinterface
  · exact (hid.keeps (TypeDefinition.filling_withEnumConstants _)).imp (fun _ _ hw => hw) fun _ => hPQ
  · exact FailureLaw.matches_pure hPQ

/-- Types are defined alike. `J` holds from the registration on and `K` once the definition is
filled. -/
theorem matches_define {Q : Workspace → Workspace → Prop} {J K : TypeId → Workspace → Workspace → Prop}
    {t : DeclaredType} (hI : ∀ w w', I w w' → w.graph = w'.graph)
    (hknown : ∀ w w' id, I w w' → w.graph.idOf? t.name = some id → Q w w')
    (hregister : ∀ w w', I w w' → w.graph.idOf? t.name = none →
      J (w.graph.register (cx.outline t)).2 (w.withGraph (w.graph.register (cx.outline t)).1)
        (w'.withGraph (w'.graph.register (cx.outline t)).1))
    (hpopulate : ∀ id, law.Matches (J id) (cx.populate f id t) (cx.populate f' id t) fun _ => K id)
    (hfinish : ∀ id w w', K id w w' → Q (w.withGraph (w.graph.update id .finished))
      (w'.withGraph (w'.graph.update id .finished))) :
    law.Matches I (cx.define f t) (cx.define f' t) fun _ => Q := by
  have hread : law.Matches I (liftM Work.graph) (liftM Work.graph)
      fun g w w' => I w w' ∧ w.graph = g := by
    refine FailureLaw.matches_lift fun w w' hw => ?_
    simp [hI w w' hw, hw]
  refine hread.bind fun g => ?_
  cases hg : g.idOf? t.name with
  | some id =>
    refine FailureLaw.matches_pure fun w w' hw => hknown w w' id hw.1 ?_
    rw [hw.2, hg]
  | none =>
    refine FailureLaw.Matches.bind (R := J) (FailureLaw.matches_lift fun w w' hw => ?_)
      fun id => ?_
    · refine ⟨?_, hregister w w' hw.1 ?_⟩
      · rw [Work.run_register, Work.run_register, hI w w' hw.1]
      · rw [hw.2, hg]
    · refine (hpopulate id).bind fun _ => ?_
      refine FailureLaw.Matches.bind (R := fun _ => Q)
        (FailureLaw.matches_lift fun w w' hw => ⟨rfl, hfinish id w w' hw⟩) fun _ => ?_
      exact FailureLaw.matches_pure fun _ _ hw => hw

/-- A name stands for the same definition when the types that it may define are defined alike. -/
theorem keeps_getOrDefine (hI : Observant I) {d d' : Definer} {name : String}
    (hd : ∀ t, cx.Definable name t →
      law.Matches (fun w w' => I w w' ∧ w.graph.idOf? t.name = none) (d t) (d' t) fun _ => I) :
    law.Keeps I (cx.getOrDefine d name) (cx.getOrDefine d' name) := by
  unfold getOrDefine
  split
  · exact hI.keeps_anyId
  · rename_i hexcluded
    refine hI.matches_graph.bind fun g => ?_
    cases hg : g.idOf? name with
    | some id => exact FailureLaw.matches_pure fun _ _ hw => hw.1
    | none =>
      dsimp only
      split
      · exact hI.keeps_collectionId.imp (fun _ _ hw => hw.1) fun _ _ _ hw => hw
      · split
        · exact hI.keeps_mapId.imp (fun _ _ hw => hw.1) fun _ _ _ hw => hw
        · cases ht : cx.symbols.type? name with
          | some t =>
            have hname := SymbolTable.type?_name ht
            refine (hd t ⟨?_, ?_, ?_, ht⟩).imp (fun w w' hw => ⟨hw.1, ?_⟩) fun _ _ _ hw => hw
            · simpa using hexcluded
            · simp_all
            · simp_all
            · rw [hw.2, hname, hg]
          | none =>
            refine FailureLaw.Matches.bind (R := fun _ => I) ?_ fun _ => hI.keeps_anyId
            exact (hI.keeps_warn _ _).imp (fun _ _ hw => hw.1) fun _ _ _ hw => hw

/-- Variables stand for the same when names do and when their bounds do. -/
theorem keeps_resolveVariable (hI : Observant I) (hthrow : law.Admits I) {d d' : Definer}
    {name : String} {owner : GenericOwner}
    (hd : ∀ n t, cx.Definable n t →
      law.Matches (fun w w' => I w w' ∧ w.graph.idOf? t.name = none) (d t) (d' t) fun _ => I)
    (h : ∀ b, cx.symbols.soleBound? name owner = some b → law.Keeps I (f b) (f' b)) :
    law.Keeps I (cx.resolveVariable d f name owner) (cx.resolveVariable d' f' name owner) := by
  cases owner with
  | type owner =>
    refine hI.matches_graph.bind fun g => ?_
    split
    · exact FailureLaw.matches_throw fun _ _ hw => hthrow _ _ hw.1
    · refine FailureLaw.Matches.bind (R := fun _ => I)
        ((keeps_getOrDefine hI (hd owner)).imp (fun _ _ hw => hw.1) fun _ _ _ hw => hw)
        fun id => ?_
      refine hI.matches_graph.bind fun g => ?_
      exact FailureLaw.matches_pure fun _ _ hw => hw.1
  | method declaringType method overload =>
    unfold resolveVariable
    dsimp only
    split
    · exact FailureLaw.matches_throw fun _ _ hw => hthrow _ _ hw
    · rename_i p hp
      split
      · rename_i b hb
        exact h b (SymbolTable.soleBound?_method hp hb)
      · refine hI.keeps_anyInstance.bind fun i => ?_
        exact FailureLaw.matches_pure fun _ _ hw => hw
      · refine (hI.keeps_warn _ _).bind fun _ => ?_
        refine hI.keeps_anyInstance.bind fun i => ?_
        exact FailureLaw.matches_pure fun _ _ hw => hw

/-- A reference stands for the same when the references inside and the names do. -/
theorem keeps_resolveStep (hI : Observant I) (hthrow : law.Admits I) {d d' : Definer} {r : TypeRef}
    (hd : ∀ n t, cx.Definable n t →
      law.Matches (fun w w' => I w w' ∧ w.graph.idOf? t.name = none) (d t) (d' t) fun _ => I)
    (h : ∀ a ∈ cx.inner r, law.Keeps I (f a) (f' a)) :
    law.Keeps I (cx.resolveStep d f r) (cx.resolveStep d' f' r) := by
  cases r with
  | primitive name =>
    refine (keeps_getOrDefine hI (hd name)).bind fun id => ?_
    exact FailureLaw.matches_pure fun _ _ hw => hw
  | declared name args =>
    refine (keeps_getOrDefine hI (hd name)).bind fun id => ?_
    refine hI.matches_graph.bind fun g => ?_
    dsimp only
    split
    · refine FailureLaw.Matches.bind (R := fun _ => I)
        ((keeps_resolveAll h).imp (fun _ _ hw => hw.1) fun _ _ _ hw => hw) fun is => ?_
      exact FailureLaw.matches_pure fun _ _ hw => hw
    · exact FailureLaw.matches_pure fun _ _ hw => hw.1
  | typeVar name owner =>
    refine keeps_resolveVariable hI hthrow hd fun b hb => h b ?_
    simp [inner, hb]
  | wildcard upper lower =>
    cases upper with
    | some b => exact h b (by simp [inner])
    | none =>
      refine hI.keeps_anyInstance.bind fun i => ?_
      exact FailureLaw.matches_pure fun _ _ hw => hw
  | array component =>
    refine (h component (by simp [inner])).bind fun i? => ?_
    refine hI.keeps_collectionId.bind fun id => ?_
    exact FailureLaw.matches_pure fun _ _ hw => hw

section lasting

theorem Lasting.keeps_registerPlaceholders (hI : Lasting I) (name : String)
    (ps : List TypeParameter) :
    law.Keeps I (registerPlaceholders name ps) (registerPlaceholders name ps) := by
  induction ps with
  | nil => exact FailureLaw.matches_pure fun _ _ hw => hw
  | cons p ps ih =>
    refine FailureLaw.Matches.bind (R := fun _ => I)
      (FailureLaw.matches_lift fun w w' hw => ⟨?_, hI.register _ hw⟩) fun id => ?_
    · rw [Work.run_register, Work.run_register, hI.graph hw]
    · refine ih.bind fun ids => ?_
      exact FailureLaw.matches_pure fun _ _ hw => hw

theorem Lasting.keeps_populate (hI : Lasting I) {id : TypeId} {t : DeclaredType}
    (h : ∀ r ∈ t.references, law.Keeps I (f r) (f' r)) :
    law.Keeps I (cx.populate f id t) (cx.populate f' id t) := by
  have hid : Yields I id := fun _ _ change _ hw => hI.update id change hw
  refine matches_populate hid (fun _ _ hw => hw) ?_
  refine (matches_populateInterface (J := fun _ => I) (K := fun _ => I)
    (Lasting.keeps_registerPlaceholders hI _ _) (fun ids => keeps_resolveBounds ?_ ?_)
    (fun _ _ _ hw => hI.update id _ hw) (fun _ => hid) (fun _ => hI.observant) fun _ => h).imp (fun _ _ hw => hw)
    fun _ _ _ ⟨_, hw⟩ => hw
  · exact fun p _ _ _ bounds hw => hI.update p.2 _ hw
  · exact fun p hp r hr => h r (t.mem_references_of_bound (List.of_mem_zip hp).1 hr)

/-- A type is defined alike under a relation that holds from its registration on. -/
theorem Lasting.matches_define {J : Workspace → Workspace → Prop} (hJ : Lasting J) {t : DeclaredType}
    (hI : ∀ w w', I w w' → w.graph = w'.graph)
    (hregister : ∀ w w', I w w' → w.graph.idOf? t.name = none →
      J (w.withGraph (w.graph.register (cx.outline t)).1)
        (w'.withGraph (w'.graph.register (cx.outline t)).1))
    (h : ∀ r ∈ t.references, law.Keeps J (f r) (f' r)) :
    law.Matches (fun w w' => I w w' ∧ w.graph.idOf? t.name = none) (cx.define f t) (cx.define f' t)
      fun _ => J :=
  BuildContext.matches_define (J := fun _ => J) (K := fun _ => J) (fun w w' hw => hI w w' hw.1)
    (fun w w' id hw hid => by rw [hw.2] at hid; cases hid)
    (fun w w' hw hnone => hregister w w' hw.1 hnone) (fun id => Lasting.keeps_populate hJ h)
    fun id w w' hw => hJ.update id _ hw

/-- At every depth, where the failures of resolving go with themselves. -/
theorem Lasting.keeps_resolveAt (hI : Lasting I) (hthrow : law.Admits I)
    (hend : ∀ w w', I w w' → law.dropped .endlessBound ∨ law.paired .endlessBound w .endlessBound w')
    (depth : Nat) (r : TypeRef) :
    law.Keeps I (cx.resolveAt depth r) (cx.resolveAt depth r) := by
  induction depth generalizing r with
  | zero => exact FailureLaw.matches_throw hend
  | succ depth ih =>
    refine keeps_resolveStep hI.observant hthrow (fun n t _ => ?_) fun a _ => ih a
    exact Lasting.matches_define hI (fun _ _ hw => hI.graph hw)
      (fun _ _ hw _ => hI.register _ hw) fun r _ => ih r

end lasting

end BuildContext
end ClientBindings
