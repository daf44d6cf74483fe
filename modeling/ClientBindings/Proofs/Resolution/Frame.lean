import Mathlib.Data.List.Forall2
import ClientBindings.Proofs.Graph.Extension
import ClientBindings.Proofs.Resolution.Exactness

/-! Whether it succeeds or fails, resolving leaves what it finds in the graph as it was. A definition
that is entered is the only one that its filling changes, with its placeholders, and it is not marked
as complete before the end. -/
namespace ClientBindings.BuildContext

open TypeGraph

variable {cx : BuildContext} {f : Resolver} {t : DeclaredType}

/-- From a graph that builds can work on the build comes to one that extends it. -/
def Framed (cx : BuildContext) {α : Type} (m : Build α) : Prop :=
  ∀ w, w.graph.Ready → cx.Grown w.graph (m.outcome w).2.graph

theorem framed_iff_keeps {α : Type} {m : Build α} : cx.Framed m ↔
    ∀ g₀, (FailureLaw.guarding (cx.Grown g₀)).Keeps (Same (cx.Grown g₀)) m m := by
  constructor
  · intro h g₀
    refine guarding_keeps_iff.2 fun w hw => ?_
    obtain ⟨hext, hready⟩ := h w hw.2
    exact ⟨hw.1.trans hext, hready⟩
  · exact fun h w hw => guarding_keeps_iff.1 (h w.graph) w ⟨.refl _, hw⟩

theorem Framed.bind {α β : Type} {m : Build α} {k : α → Build β} (hm : cx.Framed m)
    (hk : ∀ a, cx.Framed (k a)) : cx.Framed (m >>= k) :=
  framed_iff_keeps.2 fun g₀ =>
    (framed_iff_keeps.1 hm g₀).bind fun a => framed_iff_keeps.1 (hk a) g₀

/-- A registered type that is still without a part of its content. -/
def HalfBuilt (g : TypeGraph) (id : TypeId) : Prop :=
  ∃ d, g.definition? id = some d ∧ d.predefined = false ∧ d.initialized = false

theorem HalfBuilt.update {g : TypeGraph} {id : TypeId} (h : HalfBuilt g id)
    {change : TypeDefinition → TypeDefinition} (hc : TypeDefinition.Keeping change)
    (hn : ∀ d, (change d).initialized = d.initialized) (id' : TypeId) :
    HalfBuilt (g.update id' change) id := by
  obtain ⟨d, hd, hp, hi⟩ := h
  refine ⟨_, by rw [definition?_update hc.id, hd]; rfl, ?_, ?_⟩
  · dsimp only
    split
    · rw [hc.predefined, hp]
    · exact hp
  · dsimp only
    split
    · rw [hn, hi]
    · exact hi

/-- While a type that was entered in `g₀` is filled. -/
structure Interior (cx : BuildContext) (g₀ : TypeGraph) (t : DeclaredType) (id : TypeId)
    (g : TypeGraph) : Prop where
  base : cx.Extends g₀ g
  ready : g.Ready
  registered : g.idOf? t.name = some id
  halfBuilt : HalfBuilt g id

namespace Interior

variable {g₀ g g' : TypeGraph} {id : TypeId}

theorem extend (h : cx.Interior g₀ t id g) (hg : cx.Extends g g') (hr : g'.Ready) :
    cx.Interior g₀ t id g' where
  base := h.base.trans hg
  ready := hr
  registered := hg.names h.registered
  halfBuilt := h.halfBuilt.imp fun _ hd => ⟨hg.definitions hd.1, hd.2⟩

theorem registerPlaceholder (ht : Unreserved t.name) (h : cx.Interior g₀ t id g)
    (p : TypeParameter) : cx.Interior g₀ t id (g.register (placeholder t.name p)).1 := by
  refine h.extend ((Extends.refl g).register (.inr (not_unreserved_placeholderName _ _)))
    (h.ready.register rfl fun o q ho hn => ?_)
  obtain ⟨rfl, -⟩ := placeholderName_inj ht ho hn
  exact ⟨id, h.registered⟩

section entered

variable (hg₀ : g₀.Ready) (ht : Unreserved t.name) (hnone : g₀.idOf? t.name = none)
include hg₀ hnone

theorem definition?_eq_none (h : cx.Interior g₀ t id g) : g₀.definition? id = none :=
  h.base.definition?_of_new hg₀.toWellFormed h.ready.toWellFormed hnone h.registered

theorem yields : Yields (Same (cx.Interior g₀ t id)) id := by
  rintro w _ change hc ⟨rfl, h⟩
  exact ⟨rfl, h.base.update (h.definition?_eq_none hg₀ hnone) hc.toKeeping,
    h.ready.update hc.toKeeping hc.genericParams id, h.registered,
    h.halfBuilt.update hc.toKeeping hc.initialized id⟩

theorem withGenericParams (h : cx.Interior g₀ t id g) {ids : List TypeId}
    (hids : ∀ p ∈ ids, ∃ q, g.definition? p = some q) :
    cx.Interior g₀ t id (g.update id (.withGenericParams ids)) where
  base := h.base.update (h.definition?_eq_none hg₀ hnone)
    (TypeDefinition.keeping_withGenericParams ids)
  ready := h.ready.withGenericParams hids id
  registered := h.registered
  halfBuilt := h.halfBuilt.update (TypeDefinition.keeping_withGenericParams ids) (fun _ => rfl) id

include ht in
theorem placeholder_unregistered (p : String) : g₀.idOf? (placeholderName t.name p) = none := by
  cases hp : g₀.idOf? (placeholderName t.name p) with
  | none => rfl
  | some id =>
    obtain ⟨id', h⟩ := hg₀.owner ht hp
    rw [hnone] at h
    cases h

include ht in
/-- The placeholders of a type that is entered are new, and they are not the type. -/
theorem bounded {p : String} {i : TypeId} (h : cx.Interior g₀ t id g)
    (hi : g.idOf? (placeholderName t.name p) = some i) (bounds : List TypeInstance) :
    cx.Interior g₀ t id (g.update i (.bounded bounds)) := by
  have hk : TypeDefinition.Keeping (.bounded bounds) := TypeDefinition.keeping_bounded bounds
  have hnew : g₀.definition? i = none := h.base.definition?_of_new hg₀.toWellFormed
    h.ready.toWellFormed (placeholder_unregistered hg₀ ht hnone p) hi
  refine ⟨h.base.update hnew hk, h.ready.update hk (fun _ => rfl) i, h.registered, ?_⟩
  obtain ⟨d, hd, hp, hn⟩ := h.halfBuilt
  have hne : id ≠ i := by
    rintro rfl
    have hname : d.fullName = t.name := h.ready.fullName_of_idOf? h.registered hd
    have hname' : d.fullName = placeholderName t.name p := h.ready.fullName_of_idOf? hi hd
    exact placeholderName_ne t.name p (hname' ▸ hname)
  exact ⟨d, by rw [definition?_update_of_ne hk.id g hne, hd], hp, hn⟩

end entered

end Interior

/-- Entering a type: what is found registered is not entered. -/
theorem define_outcome_of_some {w : Workspace} {id : TypeId}
    (h : w.graph.idOf? t.name = some id) : (cx.define f t).outcome w = (.ok id, w) := by
  rw [define, Build.outcome_lift_bind, Work.run_graph]
  dsimp only
  rw [h]
  rfl

theorem define_outcome_of_none {w : Workspace} (h : w.graph.idOf? t.name = none) :
    (cx.define f t).outcome w =
      match (cx.populate f (w.graph.register (cx.outline t)).2 t).outcome
        (w.withGraph (w.graph.register (cx.outline t)).1) with
      | (.ok (), v) => (.ok (w.graph.register (cx.outline t)).2,
        v.withGraph (v.graph.update (w.graph.register (cx.outline t)).2 .finished))
      | (.error e, v) => (.error e, v) := by
  rw [define, Build.outcome_lift_bind, Work.run_graph]
  dsimp only
  rw [h]
  dsimp only
  rw [Build.outcome_lift_bind, Work.run_register, Build.outcome_bind]
  dsimp only
  rcases (cx.populate f _ t).outcome _ with ⟨e | _, v⟩ <;> rfl

theorem exists_of_forall₂ {α β : Type} {R : α → β → Prop} {xs : List α} {ys : List β} {y : β}
    (h : List.Forall₂ R xs ys) (hy : y ∈ ys) : ∃ x ∈ xs, R x y := by
  induction h with
  | nil => cases hy
  | @cons x y' xs ys hxy _ ih =>
    rcases List.mem_cons.1 hy with rfl | hy
    · exact ⟨x, List.mem_cons_self .., hxy⟩
    · obtain ⟨x', hx', hr⟩ := ih hy
      exact ⟨x', List.mem_cons_of_mem _ hx', hr⟩

/-- Registering placeholders gives their numbers and fails for none. -/
theorem registerPlaceholders_outcome {J : TypeGraph → Prop} {name : String}
    {ps : List TypeParameter} (hJ : ∀ p ∈ ps, ∀ g, J g → J (g.register (placeholder name p)).1)
    {w : Workspace} (hw : J w.graph) : ∃ ids g,
      (registerPlaceholders name ps).outcome w = (.ok ids, w.withGraph g) ∧ J g ∧
        List.Forall₂ (fun p i => g.idOf? (placeholderName name p.name) = some i) ps ids := by
  induction ps generalizing J w with
  | nil => exact ⟨[], w.graph, rfl, hw, .nil⟩
  | cons p ps ih =>
    rw [registerPlaceholders, Build.outcome_lift_bind, Work.run_register]
    obtain ⟨ids, g, ho, ⟨hg, hp⟩, hps⟩ := ih
      (J := fun g => J g ∧ g.idOf? (placeholderName name p.name) =
        some (w.graph.register (placeholder name p)).2)
      (fun q hq g hg => ⟨hJ q (List.mem_cons_of_mem _ hq) g hg.1, idOf?_register hg.2⟩)
      (w := w.withGraph (w.graph.register (placeholder name p)).1)
      ⟨hJ p (by simp) _ hw, idOf?_register_self _ (placeholder name p)⟩
    refine ⟨(w.graph.register (placeholder name p)).2 :: ids, g, ?_, hg, .cons hp hps⟩
    rw [Build.outcome_bind, ho]
    rfl

section frame

variable {g₀ : TypeGraph} {id : TypeId} (hg₀ : g₀.Ready) (ht : Unreserved t.name)
  (hnone : g₀.idOf? t.name = none) (hf : ∀ r, cx.Framed (f r))

include hf in
theorem interior_keeps {X : TypeGraph → Prop}
    (hX : ∀ g g', (∀ n i, g.idOf? n = some i → g'.idOf? n = some i) → X g → X g') (r : TypeRef) :
    (FailureLaw.guarding (cx.Interior g₀ t id)).Keeps
      (Same fun g => cx.Interior g₀ t id g ∧ X g) (f r) (f r) := by
  rintro w _ ⟨rfl, hw, hx⟩
  obtain ⟨hext, hready⟩ := hf r w hw.ready
  have hv : cx.Interior g₀ t id ((f r).outcome w).2.graph := hw.extend hext hready
  have hxv : X ((f r).outcome w).2.graph := hX _ _ (fun _ _ => hext.names) hx
  rcases ho : (f r).outcome w with ⟨e | i?, v⟩
  · exact .failed ⟨rfl, by simpa [ho] using hv⟩
  · rw [ho] at hv hxv
    exact .ok ⟨rfl, hv, hxv⟩

include hg₀ ht hnone hf in
/-- Filling a type that was entered is confined to it, also where it fails. -/
theorem interior_populate : (FailureLaw.guarding (cx.Interior g₀ t id)).Keeps
    (Same (cx.Interior g₀ t id)) (cx.populate f id t) (cx.populate f id t) := by
  let X (ids : List TypeId) (g : TypeGraph) := List.Forall₂
    (fun p i => g.idOf? (placeholderName t.name p.name) = some i) t.typeParameters ids
  have hX (ids : List TypeId) (g g' : TypeGraph)
      (h : ∀ n i, g.idOf? n = some i → g'.idOf? n = some i) (hx : X ids g) : X ids g' :=
    List.Forall₂.imp (fun _ _ => h _ _) hx
  have hyields : Yields (Same (cx.Interior g₀ t id)) id := Interior.yields hg₀ hnone
  have hyieldsX (ids : List TypeId) :
      Yields (Same fun g => cx.Interior g₀ t id g ∧ X ids g) id := by
    rintro w _ change hc ⟨rfl, hw, hx⟩
    exact ⟨rfl, (hyields change hc ⟨rfl, hw⟩).2, hx⟩
  refine matches_populate hyields (fun _ _ hw => hw) ?_
  refine (matches_populateInterface (J := fun ids => Same fun g => cx.Interior g₀ t id g ∧ X ids g)
    (K := fun ids => Same fun g => cx.Interior g₀ t id g ∧ X ids g) ?_ (fun ids => ?_)
    (fun ids => ?_) hyieldsX (fun ids => ?_) fun ids r _ => interior_keeps hf (hX ids) r).imp (fun _ _ hw => hw)
    fun _ _ _ ⟨_, hw⟩ => ⟨hw.1, hw.2.1⟩
  · rintro w _ ⟨rfl, hw⟩
    obtain ⟨ids, g, ho, hg, hids⟩ := registerPlaceholders_outcome (J := cx.Interior g₀ t id)
      (fun p _ g hg => Interior.registerPlaceholder ht hg p) hw
    rw [ho]
    exact .ok ⟨rfl, hg, hids⟩
  · refine keeps_resolveBounds (fun p hp => ?_) fun p _ r _ => interior_keeps hf (hX ids) r
    rintro w _ bounds ⟨rfl, hw, hx⟩
    have hname : w.graph.idOf? (placeholderName t.name p.1.name) = some p.2 :=
      (List.forall₂_iff_zip.1 hx).2 hp
    exact ⟨rfl, hw.bounded hg₀ ht hnone hname bounds, hx⟩
  · rintro w _ ⟨rfl, hw, hx⟩
    refine ⟨rfl, hw.withGenericParams hg₀ hnone fun i hi => ?_, hx⟩
    obtain ⟨p, -, hp⟩ := exists_of_forall₂ hx hi
    obtain ⟨d, hd, -⟩ := hw.ready.indexed hp
    exact ⟨d, hd⟩
  · refine observant_same fun g d hd ⟨h, hx⟩ => ?_
    rw [h.ready.stocked.register hd]
    exact ⟨h, hx⟩

include hg₀ ht hnone in
/-- Entering a type. -/
theorem interior_register (hd : cx.Definable t.name t) :
    cx.Interior g₀ t (g₀.register (cx.outline t)).2 (g₀.register (cx.outline t)).1 where
  base := (Extends.refl g₀).register (.inl ⟨t, hd⟩)
  ready := hg₀.register_unreserved rfl ht
  registered := idOf?_register_self g₀ (cx.outline t)
  halfBuilt := ⟨_, hg₀.definition?_register_self (d := cx.outline t) hnone, rfl, rfl⟩

include ht hf in
theorem define_framed (hd : cx.Definable t.name t) : cx.Framed (cx.define f t) := by
  intro w hw
  cases h : w.graph.idOf? t.name with
  | some id =>
    rw [define_outcome_of_some h]
    exact ⟨.refl _, hw⟩
  | none =>
    have hv := guarding_keeps_iff.1 (interior_populate hw ht h hf)
      (w.withGraph (w.graph.register (cx.outline t)).1) (interior_register hw ht h hd)
    rw [define_outcome_of_none h]
    rcases ho : (cx.populate f (w.graph.register (cx.outline t)).2 t).outcome
      (w.withGraph (w.graph.register (cx.outline t)).1) with ⟨e | _, v⟩
    · rw [ho] at hv
      exact ⟨hv.base, hv.ready⟩
    · rw [ho] at hv
      exact ⟨hv.base.update (hv.definition?_eq_none hw h) TypeDefinition.keeping_finished,
        hv.ready.update TypeDefinition.keeping_finished (fun _ => rfl) _⟩

include ht hf in
/-- A type that is defined is registered under its name. -/
theorem define_ok (hd : cx.Definable t.name t) {w v : Workspace} {id : TypeId}
    (hw : w.graph.Ready) (h : (cx.define f t).outcome w = (.ok id, v)) :
    v.graph.idOf? t.name = some id := by
  cases hn : w.graph.idOf? t.name with
  | some i =>
    rw [define_outcome_of_some hn] at h
    cases h
    exact hn
  | none =>
    have hv := guarding_keeps_iff.1 (interior_populate hw ht hn hf)
      (w.withGraph (w.graph.register (cx.outline t)).1) (interior_register hw ht hn hd)
    rw [define_outcome_of_none hn] at h
    rcases ho : (cx.populate f (w.graph.register (cx.outline t)).2 t).outcome
      (w.withGraph (w.graph.register (cx.outline t)).1) with ⟨e | _, u⟩
    · rw [ho] at h
      cases h
    · rw [ho] at hv h
      cases h
      exact hv.registered

include ht hf in
/-- A type whose definition fails stays registered without a part of its content. -/
theorem define_error (hd : cx.Definable t.name t) {w v : Workspace} {e : BuildError}
    (hw : w.graph.Ready) (h : (cx.define f t).outcome w = (.error e, v)) :
    w.graph.idOf? t.name = none ∧ ∃ id, v.graph.idOf? t.name = some id ∧ HalfBuilt v.graph id := by
  cases hn : w.graph.idOf? t.name with
  | some id =>
    rw [define_outcome_of_some hn] at h
    cases h
  | none =>
    have hv := guarding_keeps_iff.1 (interior_populate hw ht hn hf)
      (w.withGraph (w.graph.register (cx.outline t)).1) (interior_register hw ht hn hd)
    rw [define_outcome_of_none hn] at h
    rcases ho : (cx.populate f (w.graph.register (cx.outline t)).2 t).outcome
      (w.withGraph (w.graph.register (cx.outline t)).1) with ⟨e' | _, v'⟩
    · rw [ho] at hv h
      cases h
      exact ⟨rfl, _, hv.registered, hv.halfBuilt⟩
    · rw [ho] at h
      cases h

end frame

theorem Definable.self {n : String} (h : cx.Definable n t) : cx.Definable t.name t := by
  rw [h.name_eq]
  exact h

section resolver

variable (hs : cx.symbols.Unreserved)
include hs

theorem Definable.unreserved {n : String} (h : cx.Definable n t) : Unreserved t.name :=
  hs t (SymbolTable.type?_mem h.2.2.2)

/-- Looking up a name extends the graph, also where it defines a type. -/
theorem getOrDefine_framed (hf : ∀ r, cx.Framed (f r)) (name : String) :
    cx.Framed (cx.getOrDefine (cx.define f) name) := by
  refine framed_iff_keeps.2 fun g₀ => keeps_getOrDefine (observant_grown g₀) fun t ht => ?_
  have hdefine : cx.Framed (cx.define f t) := define_framed (ht.unreserved hs) hf ht.self
  exact (framed_iff_keeps.1 hdefine g₀).imp (fun _ _ hw => hw.1) fun _ _ _ hw => hw

/-- Resolving extends the graph. -/
theorem resolveAt_framed (depth : Nat) (r : TypeRef) : cx.Framed (cx.resolveAt depth r) := by
  induction depth generalizing r with
  | zero => exact fun w hw => ⟨.refl _, hw⟩
  | succ depth ih =>
    refine framed_iff_keeps.2 fun g₀ => ?_
    refine keeps_resolveStep (observant_grown g₀) guarding_admits (fun n t ht => ?_)
      fun a _ => framed_iff_keeps.1 (ih a) g₀
    exact (framed_iff_keeps.1 (define_framed (ht.unreserved hs) ih ht.self) g₀).imp
      (fun _ _ hv => hv.1) fun _ _ _ hv => hv

end resolver

end ClientBindings.BuildContext
