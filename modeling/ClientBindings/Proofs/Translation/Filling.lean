import ClientBindings.Proofs.Translation.Honest

/-! A type is filled with what its declaration is translated to, if the resolver that fills it gives
what references are translated to. -/
namespace ClientBindings

variable {ps : List TypeParameter} {p : TypeParameter}

theorem boundsOf_cons_of_mem {name : String} (h : ∃ q ∈ ps, q.name = name) :
    boundsOf name (p :: ps) = boundsOf name ps := by
  obtain ⟨q, hq, hname⟩ := h
  have hfound : (ps.reverse.find? (·.name == name)).isSome := by
    rw [List.find?_isSome]
    exact ⟨q, List.mem_reverse.2 hq, by simp [hname]⟩
  obtain ⟨q', hq'⟩ := Option.isSome_iff_exists.1 hfound
  rw [boundsOf, boundsOf, List.reverse_cons, List.find?_append, hq', Option.some_or]

theorem boundsOf_cons_self (h : ∀ q ∈ ps, q.name ≠ p.name) : boundsOf p.name (p :: ps) = p.bounds := by
  have hnone : ps.reverse.find? (·.name == p.name) = none :=
    List.find?_eq_none.2 fun q hq hname => h q (List.mem_reverse.1 hq) (eq_of_beq hname)
  rw [boundsOf, List.reverse_cons, List.find?_append, hnone]
  simp

namespace BuildContext

open TypeGraph

variable {cx : BuildContext} {g g' : TypeGraph} {X : TypeId → Prop} {w v : Workspace} {f : Resolver}
  {id : TypeId} {t : DeclaredType}

/-- What giving bounds to placeholders of a type comes to: other definitions are what they were, and
each placeholder has the bounds of its name. -/
structure Bounded (cx : BuildContext) (X : TypeId → Prop) (ps : List (TypeParameter × TypeId))
    (g g' : TypeGraph) : Prop where
  sound : cx.Sound none X g'
  names {n : String} {i : TypeId} : g.idOf? n = some i → g'.idOf? n = some i
  others {i : TypeId} {d : TypeDefinition} : g.definition? i = some d → (∀ p ∈ ps, p.2 ≠ i) →
    g'.definition? i = some d
  bounds {p : TypeParameter × TypeId} : p ∈ ps → ∃ q, g'.definition? p.2 = some q ∧
    q.initialized = true ∧ cx.Reads g' (boundsOf p.1.name (ps.map (·.1))) q.superTypes

/-- One placeholder gets its bounds before the others. -/
theorem Bounded.cons {u v : TypeGraph} (hname : Unreserved t.name) {p : TypeParameter} {i : TypeId}
    {ps : List (TypeParameter × TypeId)} {bounds : List TypeInstance} (hu : cx.Advances X g u)
    (hi : u.idOf? (placeholderName t.name p.name) = some i)
    (hps : ∀ q ∈ ps, u.idOf? (placeholderName t.name q.1.name) = some q.2)
    (hread : cx.Reads u p.bounds bounds)
    (hv : cx.Bounded X ps (u.update i (.bounded bounds)) v) : cx.Bounded X ((p, i) :: ps) g v := by
  have hk : TypeDefinition.Keeping (.bounded bounds) := TypeDefinition.keeping_bounded bounds
  refine ⟨hv.sound, fun hn => hv.names (hu.grown.names hn), fun {j d} hd hj => ?_,
    fun {q} hq => ?_⟩
  · refine hv.others ?_ fun q hq => hj q (List.mem_cons_of_mem _ hq)
    have hne : j ≠ i := (hj (p, i) (List.mem_cons_self ..)).symm
    rw [definition?_update_of_ne hk.id _ hne]
    exact hu.grown.definitions hd
  · by_cases hagain : ∃ q' ∈ ps, q'.1.name = q.1.name
    · obtain ⟨q', hq', hsame⟩ := hagain
      have hid : q'.2 = q.2 := by
        have hid : u.idOf? (placeholderName t.name q.1.name) = some q'.2 := hsame ▸ hps q' hq'
        rcases List.mem_cons.1 hq with rfl | hq
        · exact Option.some.inj (hid.symm.trans hi)
        · exact Option.some.inj (hid.symm.trans (hps q hq))
      have hb := hv.bounds hq'
      rw [hid, hsame] at hb
      rwa [List.map_cons, boundsOf_cons_of_mem ⟨q'.1, List.mem_map_of_mem hq', hsame⟩]
    · obtain rfl : q = (p, i) :=
        (List.mem_cons.1 hq).resolve_right fun hq => hagain ⟨q, hq, rfl⟩
      obtain ⟨d, hd, hdname⟩ := hu.sound.indexed hi
      -- of the placeholders that are still to come none is this one
      have hlast : ∀ q' ∈ ps, q'.2 ≠ i := by
        intro q' hq' hid
        have hd' : d.fullName = placeholderName t.name q'.1.name :=
          hu.sound.fullName_of_idOf? (hid ▸ hps q' hq') hd
        exact hagain ⟨q', hq', (placeholderName_inj hname hname (hd'.symm.trans hdname)).2⟩
      have hnames : u.KeepsNames v :=
        keepsNames_of_idOf? hu.sound.toWellFormed hv.sound.toWellFormed fun _ _ h => hv.names h
      refine ⟨d.bounded bounds, hv.others ?_ hlast, rfl, ?_⟩
      · rw [definition?_update_self hk.id, hd]
        rfl
      · rw [List.map_cons, boundsOf_cons_self]
        · exact hread.keep hnames
        · intro q' hq' hsame
          obtain ⟨q'', hq'', rfl⟩ := List.mem_map.1 hq'
          exact hagain ⟨q'', hq'', hsame⟩

section resolver

variable (hf : cx.Honest f)
include hf

theorem resolveBounds_ok {ps : List (TypeParameter × TypeId)} (hname : Unreserved t.name)
    (hX : X id) (htidy : ∀ p ∈ ps, ∀ r ∈ p.1.bounds, r.Tidy) (hw : cx.Sound none X w.graph)
    (ht : w.graph.idOf? t.name = some id)
    (hps : ∀ p ∈ ps, w.graph.idOf? (placeholderName t.name p.1.name) = some p.2)
    (h : (resolveBounds f ps).outcome w = (.ok (), v)) : cx.Bounded X ps w.graph v.graph := by
  induction ps generalizing w with
  | nil =>
    cases h
    exact ⟨hw, fun h => h, fun h _ => h, fun h => nomatch h⟩
  | cons p ps ih =>
    obtain ⟨p, i⟩ := p
    obtain ⟨bounds, u, hbounds, h⟩ := Build.outcome_bind_ok.1 h
    rw [Build.outcome_lift_bind, Work.run_update] at h
    obtain ⟨hu, hread⟩ := resolveAll_ok hf hw hbounds
    have hi : u.graph.idOf? (placeholderName t.name p.name) = some i :=
      hu.grown.names (hps _ (List.mem_cons_self ..))
    have hps' : ∀ q ∈ ps, u.graph.idOf? (placeholderName t.name q.1.name) = some q.2 :=
      fun q hq => hu.grown.names (hps q (List.mem_cons_of_mem _ hq))
    have hsound : cx.Sound none X (u.graph.update i (.bounded bounds)) :=
      hu.sound.bound hname (hu.grown.names ht) hX hi bounds
    have hv : cx.Bounded X ps (u.graph.update i (.bounded bounds)) v.graph :=
      ih (w := u.withGraph (u.graph.update i (.bounded bounds)))
        (fun q hq => htidy q (List.mem_cons_of_mem _ hq)) hsound (hu.grown.names ht) hps' h
    exact hv.cons hname hu hi hps' (hread (htidy (p, i) (List.mem_cons_self ..)))

end resolver

theorem mapM_eq_of_forall₂ {α β γ : Type} {k : α → Option γ} {k' : β → Option γ} {xs : List α}
    {ys : List β} (h : List.Forall₂ (fun a b => ∃ c, k a = some c ∧ k' b = some c) xs ys) :
    ∃ zs, xs.mapM k = some zs ∧ ys.mapM k' = some zs := by
  induction h with
  | nil => exact ⟨[], rfl, rfl⟩
  | cons hab _ ih =>
    obtain ⟨c, hc, hc'⟩ := hab
    obtain ⟨zs, hzs, hzs'⟩ := ih
    exact ⟨c :: zs, by rw [List.mapM_cons, hc, hzs]; rfl, by rw [List.mapM_cons, hc', hzs']; rfl⟩

/-- Placeholders that have got their bounds read as the parameters are translated. -/
theorem Bounded.parameters {ids : List TypeId} (hname : Unreserved t.name)
    (hids : List.Forall₂ (fun p i => g.idOf? (placeholderName t.name p.name) = some i)
      t.typeParameters ids)
    (h : cx.Bounded X (t.typeParameters.zip ids) g g') :
    ∃ ns, t.typeParameters.mapM (cx.translateParameter? t) = some ns ∧
      ids.mapM g'.namedPlaceholder? = some ns := by
  refine mapM_eq_of_forall₂ (List.forall₂_iff_zip.2 ⟨hids.length_eq, fun {p i} hmem => ?_⟩)
  obtain ⟨q, hq, hinit, ns, hbounds, hns⟩ := h.bounds hmem
  rw [List.map_fst_zip (Nat.le_of_eq hids.length_eq)] at hbounds
  have hqname : q.fullName = placeholderName t.name p.name :=
    h.sound.fullName_of_idOf? (h.names ((List.forall₂_iff_zip.1 hids).2 hmem)) hq
  obtain ⟨hshort, hkind, -⟩ := (h.sound.entry hq).placeholder_of hname hqname
  refine ⟨⟨placeholderName t.name p.name, p.name, .genericPlaceholder, ns, true⟩, ?_, ?_⟩
  · rw [translateParameter?, hbounds]
    rfl
  · rw [namedPlaceholder?, hq]
    change ((g'.namedAll? q.superTypes).bind _) = _
    rw [hns, Option.bind_some, hqname, hshort, hkind, hinit]
    rfl

/-- Names are kept, and so is every definition but one. -/
structure Retains (id : TypeId) (g g' : TypeGraph) : Prop where
  names : g.KeepsNames g'
  others {i : TypeId} {d : TypeDefinition} : i ≠ id → g.definition? i = some d →
    g'.definition? i = some d

namespace Retains

variable {g'' : TypeGraph}

theorem trans (h : Retains id g g') (h' : Retains id g' g'') : Retains id g g'' :=
  ⟨h.names.trans h'.names, fun hi hd => h'.others hi (h.others hi hd)⟩

theorem update {change : TypeDefinition → TypeDefinition} (hc : TypeDefinition.Keeping change)
    (id : TypeId) (g : TypeGraph) : Retains id g (g.update id change) :=
  ⟨keepsNames_update hc g id, fun hi hd => by rwa [definition?_update_of_ne hc.id g hi]⟩

theorem of_advances (h : cx.Advances X g g') (id : TypeId) : Retains id g g' :=
  ⟨h.keepsNames, fun _ hd => h.grown.definitions hd⟩

end Retains

/-- The definition of the type has all its content, if it does not say so yet. -/
def Filled (cx : BuildContext) (t : DeclaredType) (id : TypeId) (g : TypeGraph) : Prop :=
  ∃ d n, g.definition? id = some d ∧ Own d ∧ d.fullName = t.name ∧
    cx.translateType? t = some n ∧ g.reading? d.finished = some n

/-- A definition that is entered. -/
def entered (cx : BuildContext) (t : DeclaredType) (id : TypeId) : TypeDefinition :=
  { cx.outline t with id := id }

theorem own_entered (cx : BuildContext) (t : DeclaredType) (id : TypeId) : Own (cx.entered t id) :=
  ⟨rfl, kindOf_ne_placeholder t.kind⟩

/-- Placeholders are registered and attached. -/
theorem registerPlaceholders_ok (ht : cx.Definable t.name t) (hname : Unreserved t.name)
    (hkind : kindOf t.kind = .interfaceType) (hX : X id) (hw : cx.Sound (some id) X w.graph)
    (hid : w.graph.idOf? t.name = some id) (hd : w.graph.definition? id = some (cx.entered t id))
    {ids : List TypeId} (h : (registerPlaceholders t.name t.typeParameters).outcome w = (.ok ids, v)) :
    cx.Sound none X (v.graph.update id (.withGenericParams ids)) ∧
      v.graph.idOf? t.name = some id ∧
      (v.graph.update id (.withGenericParams ids)).definition? id =
        some ((cx.entered t id).withGenericParams ids) ∧
      List.Forall₂ (fun p i => v.graph.idOf? (placeholderName t.name p.name) = some i)
        t.typeParameters ids := by
  obtain ⟨ids', g, ho, ⟨hg, hidg, hdg⟩, hids⟩ := registerPlaceholders_outcome
    (J := fun g => cx.Sound (some id) X g ∧ g.idOf? t.name = some id ∧
      g.definition? id = some (cx.entered t id))
    (fun p _ g hg => ⟨hg.1.registerPlaceholder hname hg.2.1 p, idOf?_register hg.2.1,
      definition?_register hg.2.2⟩) ⟨hw, hid, hd⟩
  rw [h] at ho
  cases ho
  have hparameters : Parameters g t ids := (if_pos hkind).mpr hids
  have hk : TypeDefinition.Keeping (.withGenericParams ids) :=
    TypeDefinition.keeping_withGenericParams ids
  refine ⟨hg.attach hdg (cx.own_entered t id) ht hX hparameters, hidg, ?_, hids⟩
  rw [Workspace.withGraph_graph, definition?_update_self hk.id, hdg]
  rfl

section resolver

variable (hf : cx.Honest f)
include hf

/-- What an interface has besides its parameters. -/
theorem resolveMembers_ok (htidy : t.Tidy) (hX : X id) {d : TypeDefinition} (hown : Own d)
    (hw : cx.Sound none X w.graph) (hd : w.graph.definition? id = some d)
    (h : Build.outcome (do
      let properties ← cx.discover f t
      Work.update id (.withProperties properties)
      let superTypes ← resolveAll f (keptSupertypes t)
      Work.update id (.withSuperTypes superTypes)) w = (.ok (), v)) :
    cx.Sound none X v.graph ∧ Retains id w.graph v.graph ∧ ∃ properties superTypes ns,
      v.graph.definition? id = some ((d.withProperties properties).withSuperTypes superTypes) ∧
      (cx.symbols.winners cx.pipeline t).mapM cx.translateProperty? = some ns ∧
      properties.mapM v.graph.namedProperty? = some ns ∧
      cx.Reads v.graph t.parents superTypes := by
  rw [t.keptSupertypes_eq] at h
  obtain ⟨properties, u, hproperties, h⟩ := Build.outcome_bind_ok.1 h
  rw [Build.outcome_lift_bind, Work.run_update] at h
  obtain ⟨superTypes, u', hsuper, h⟩ := Build.outcome_bind_ok.1 h
  rw [Build.outcome_lift, Work.run_update] at h
  cases h
  have hp : TypeDefinition.Keeping (.withProperties properties) :=
    (TypeDefinition.filling_withProperties properties).toKeeping
  have hs : TypeDefinition.Keeping (.withSuperTypes superTypes) :=
    (TypeDefinition.filling_withSuperTypes superTypes).toKeeping
  obtain ⟨hu, ns, hns, hread⟩ := resolveProperties_ok hf
    (fun c hc => htidy.2 _ (SymbolTable.type_mem_references_of_winner hc)) hw hproperties
  have hdu : u.graph.definition? id = some d := hu.grown.definitions hd
  have hsound : cx.Sound none X (u.graph.update id (.withProperties properties)) :=
    hu.sound.fill hdu hown hX hp fun _ => rfl
  obtain ⟨hu', hreads⟩ := resolveAll_ok hf
    (w := u.withGraph (u.graph.update id (.withProperties properties))) hsound hsuper
  have hdu' : u'.graph.definition? id = some (d.withProperties properties) := by
    refine hu'.grown.definitions ?_
    rw [Workspace.withGraph_graph, definition?_update_self hp.id, hdu]
    rfl
  have hlater : Retains id u.graph (u'.graph.update id (.withSuperTypes superTypes)) :=
    ((Retains.update hp id u.graph).trans (.of_advances hu' id)).trans (.update hs id u'.graph)
  refine ⟨hu'.sound.fill hdu' hown hX hs fun _ => rfl, (Retains.of_advances hu id).trans hlater,
    properties, superTypes, ns, ?_, hns, hlater.names.namedProperties? hread, ?_⟩
  · rw [Workspace.withGraph_graph, definition?_update_self hs.id, hdu']
    rfl
  · refine (hreads fun r hr => htidy.2 r (t.mem_references_of_parent hr)).keep ?_
    exact keepsNames_update hs u'.graph id

theorem populateInterface_ok (ht : cx.Definable t.name t) (htidy : t.Tidy)
    (hkind : kindOf t.kind = .interfaceType) (hX : X id) (hw : cx.Sound (some id) X w.graph)
    (hid : w.graph.idOf? t.name = some id) (hd : w.graph.definition? id = some (cx.entered t id))
    (h : (cx.populateInterface f id t).outcome w = (.ok (), v)) :
    cx.Sound none X v.graph ∧ cx.Filled t id v.graph := by
  obtain ⟨ids, u, hregister, h⟩ := Build.outcome_bind_ok.1 h
  obtain ⟨hsound, hidu, hdu, hids⟩ := registerPlaceholders_ok ht htidy.1 hkind hX hw hid hd hregister
  rw [Build.outcome_lift_bind, Work.run_update] at h
  obtain ⟨⟨⟩, u', hbounds, h⟩ := Build.outcome_bind_ok.1 h
  have hnot : ∀ i ∈ ids, i ≠ id := by
    rintro i hi rfl
    obtain ⟨p, -, hp⟩ := exists_of_forall₂ hids hi
    exact placeholderName_ne t.name p.name (hsound.fullName_of_idOf? hp hdu).symm
  have hb : cx.Bounded X (t.typeParameters.zip ids)
      (u.graph.update id (.withGenericParams ids)) u'.graph :=
    resolveBounds_ok hf (w := u.withGraph (u.graph.update id (.withGenericParams ids))) htidy.1 hX
      (fun p hp r hr => htidy.2 r (t.mem_references_of_bound (List.of_mem_zip hp).1 hr)) hsound hidu
      (fun p hp => (List.forall₂_iff_zip.1 hids).2 hp) hbounds
  have hdu' : u'.graph.definition? id = some ((cx.entered t id).withGenericParams ids) :=
    hb.others hdu fun p hp => hnot p.2 (List.of_mem_zip hp).2
  have hown : Own ((cx.entered t id).withGenericParams ids) := cx.own_entered t id
  obtain ⟨placeholders, htranslated, hplaceholders⟩ :=
    Bounded.parameters (g := u.graph.update id (.withGenericParams ids)) htidy.1 hids hb
  obtain ⟨hv, hretains, properties, superTypes, nproperties, hdv, hnproperties, hproperties,
    nsuperTypes, hnsuperTypes, hsuperTypes⟩ :=
      resolveMembers_ok hf htidy hX hown hb.sound hdu' h
  have hplaceholders' : ids.mapM v.graph.namedPlaceholder? = some placeholders :=
    mapM_eq_some_of_imp (fun i hi n hn => hretains.names.namedPlaceholder?
      (fun q hq => hretains.others (hnot i hi) hq) hn) hplaceholders
  refine ⟨hv, _, { cx.heading t with
    placeholders := placeholders, properties := nproperties, superTypes := nsuperTypes }, hdv, hown,
    rfl, ?_, ?_⟩
  · rw [translateType?, hkind, htranslated, hnproperties, hnsuperTypes]
    rfl
  · exact reading?_of_parts hplaceholders' hproperties hsuperTypes

omit hf in
theorem populate_ok_of_plain (hkind : kindOf t.kind ≠ .interfaceType) (hX : X id)
    (hw : cx.Sound none X w.graph) (hd : w.graph.definition? id = some (cx.entered t id))
    (h : (cx.populate f id t).outcome w = (.ok (), v)) :
    cx.Sound none X v.graph ∧ cx.Filled t id v.graph := by
  unfold populate at h
  split at h
  · rename_i hinterface
    exact absurd hinterface hkind
  · rename_i henum
    rw [Build.outcome_lift, Work.run_update] at h
    cases h
    have hk : TypeDefinition.Keeping (.withEnumConstants t.enumConstants) :=
      (TypeDefinition.filling_withEnumConstants t.enumConstants).toKeeping
    refine ⟨hw.fill hd (cx.own_entered t id) hX hk fun _ => rfl,
      (cx.entered t id).withEnumConstants t.enumConstants,
      { cx.heading t with enumConstants := t.enumConstants }, ?_, cx.own_entered t id, rfl, ?_, rfl⟩
    · rw [Workspace.withGraph_graph, definition?_update_self hk.id, hd]
      rfl
    · rw [translateType?, henum]
  · rename_i hunknown
    cases h
    refine ⟨hw, cx.entered t id, cx.heading t, hd, cx.own_entered t id, rfl, ?_, rfl⟩
    unfold translateType?
    split
    · rename_i hinterface
      exact absurd hinterface hkind
    · rename_i henum
      exact absurd henum hunknown
    · rfl

omit hf in
/-- A type that has all its content is left. -/
theorem Filled.finish {g : TypeGraph} (h : cx.Filled t id g) (ht : cx.symbols.type? t.name = some t)
    (hg : cx.Sound none (fun i => X i ∨ i = id) g) : cx.Sound none X (g.update id .finished) := by
  obtain ⟨d, n, hd, hown, hname, hn, hread⟩ := h
  have hk : TypeDefinition.Keeping .finished := TypeDefinition.keeping_finished
  have hsound := hg.fill hd hown (.inr rfl) hk fun _ => rfl
  have hd' : (g.update id .finished).definition? id = some d.finished := by
    rw [definition?_update_self hk.id, hd]
    rfl
  refine hsound.leave hd' ⟨t, n, hname ▸ ht, hn, ?_⟩
  refine (keepsNames_update hk g id).reading? (fun p hp q hq => ?_) hread
  obtain ⟨p', hp'⟩ := hg.idOf?_of_parameter hd hown (Option.some_ne_none id) hp
  have hne : p ≠ id := by
    rintro rfl
    exact placeholderName_ne _ p' (hg.fullName_of_idOf? hp' hd).symm
  rwa [definition?_update_of_ne hk.id g hne]

/-- Defining a type leaves nothing of it unfaithful. -/
theorem define_sound (ht : cx.Definable t.name t) (htidy : t.Tidy) (hw : cx.Sound none X w.graph)
    (h : (cx.define f t).outcome w = (.ok id, v)) : cx.Sound none X v.graph := by
  cases hnone : w.graph.idOf? t.name with
  | some i =>
    rw [define_outcome_of_some hnone] at h
    cases h
    exact hw
  | none =>
    rw [define_outcome_of_none hnone] at h
    have hid : (w.graph.register (cx.outline t)).2 = w.graph.nextId := by
      rw [register_of_none (d := cx.outline t) hnone]
    have hself := hw.toWellFormed.definition?_register_self (d := cx.outline t) hnone
    rw [hid] at h hself
    have hname : (w.graph.register (cx.outline t)).1.idOf? t.name = some w.graph.nextId :=
      hid ▸ idOf?_register_self w.graph (cx.outline t)
    rcases hpopulate : (cx.populate f w.graph.nextId t).outcome
      (w.withGraph (w.graph.register (cx.outline t)).1) with ⟨e | ⟨⟩, u⟩
    · rw [hpopulate] at h
      cases h
    · rw [hpopulate] at h
      cases h
      suffices hu : cx.Sound none (fun i => X i ∨ i = w.graph.nextId) u.graph ∧
          cx.Filled t w.graph.nextId u.graph from hu.2.finish ht.2.2.2 hu.1
      by_cases hkind : kindOf t.kind = .interfaceType
      · rw [populate, hkind] at hpopulate
        exact populateInterface_ok hf ht htidy hkind (.inr rfl)
          (hw.enter ht htidy.1 hnone (.inl rfl)) hname hself hpopulate
      · exact populate_ok_of_plain hkind (.inr rfl) (hw.enter ht htidy.1 hnone (.inr hkind)) hself
          hpopulate

end resolver

end BuildContext

end ClientBindings
