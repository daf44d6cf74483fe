import ClientBindings.Proofs.Graph.Closure
import ClientBindings.Proofs.Resolution.Frame

/-! Resolving leaves nothing dangling, whether it succeeds or fails, and what it comes to refers to
registered definitions only. The same walk through the steps carries any property of graphs that says
which numbers a definition may refer to. -/
namespace ClientBindings

open TypeGraph

/-- The graph has the property, and no endpoint refers to what is not registered. -/
structure Workspace.Closed (I : TypeGraph → Prop) (w : Workspace) : Prop where
  graph : I w.graph
  endpoints : ∀ e ∈ w.endpoints, ∀ id ∈ e.2.mentioned, w.graph.Registered id

/-- A build from a workspace to a closed one, in which names keep their numbers; of what it comes to
`Q` holds. -/
structure Leads {α : Type} (I : TypeGraph → Prop) (w : Workspace) (o : Outcome α)
    (Q : α → TypeGraph → Prop) : Prop where
  closed : o.2.Closed I
  grows : w.graph.Grows o.2.graph
  result {a : α} : o.1 = .ok a → Q a o.2.graph

/-- From every closed workspace. -/
def Tied {α : Type} (I : TypeGraph → Prop) (m : Build α) (Q : α → TypeGraph → Prop) : Prop :=
  ∀ ⦃w⦄, w.Closed I → Leads I w (m.outcome w) Q

/-- Kept by the registration of what is always there to be used. -/
def Stockable (I : TypeGraph → Prop) : Prop :=
  ∀ ⦃g d⦄, d ∈ Builtin.all → I g → I (g.register d).1

theorem stockable_closed (strict : Prop) : Stockable (TypeGraph.Closed strict) :=
  fun _ _ hd hg => hg.register_builtin hd

namespace BuildContext

/-- The number is that of the name, or of a definition that is always there to be used instead. -/
def Stands (name : String) (g : TypeGraph) (id : TypeId) : Prop :=
  g.idOf? name = some id ∨ ∃ b ∈ Builtin.all, g.idOf? b.fullName = some id

theorem durable_stands (name : String) : Durable (Stands name) where
  grow hg h := h.imp hg.names fun ⟨b, hb, hid⟩ => ⟨b, hb, hg.names hid⟩
  builtin hd h := .inr ⟨_, hd, h⟩

/-- `Q` holds of everything that references of a class come to, as long as it does of what a single
step finds. -/
structure Grants (cx : BuildContext) (I : TypeGraph → Prop) (C : TypeRef → Prop)
    (Q : TypeGraph → TypeId → Prop) : Prop where
  durable : Durable Q
  name {r : TypeRef} {n : String} {g : TypeGraph} {id : TypeId} : C r → r.name? = some n →
    g.idOf? n = some id → Q g id
  placeholder {name n : String} {g : TypeGraph} {id p : TypeId} : C (.typeVar name (.type n)) → I g →
    Stands n g id → placeholder? g id name = some p → Q g p
  inner {r a : TypeRef} : C r → a ∈ cx.inner r → C a

/-- A placeholder that is found is a parameter of the definition. -/
theorem mem_genericParams_of_placeholder? {g : TypeGraph} {owner id : TypeId} {name : String}
    (h : placeholder? g owner name = some id) :
    ∃ d, g.definition? owner = some d ∧ id ∈ d.genericParams := by
  obtain ⟨d, hd, hfind⟩ := Option.bind_eq_some_iff.1 h
  exact ⟨d, hd, List.mem_of_find?_eq_some hfind⟩

/-- What resolving comes to is registered, whatever the reference. -/
theorem grants_registered (cx : BuildContext) {I : TypeGraph → Prop}
    (hI : ∀ g, I g → g.Closed False) : cx.Grants I (fun _ => True) Registered where
  durable := durable_registered
  name _ _ h := ⟨_, h⟩
  placeholder _ hg _ h := by
    obtain ⟨d, hd, hp⟩ := mem_genericParams_of_placeholder? h
    exact (hI _ hg).mentioned hd (TypeDefinition.mem_mentioned.2 (.inl hp))
  inner _ _ := trivial

/-- A property of graphs that builds over a context keep when they fill the definition of a type, and
those of its parameters, with numbers of which `P` holds. -/
structure Fillable (cx : BuildContext) (P : String → TypeGraph → TypeId → Prop)
    (I : TypeGraph → Prop) : Prop where
  closed {g : TypeGraph} : I g → g.Closed False
  content {t : DeclaredType} : cx.symbols.type? t.name = some t →
    ∃ C, cx.Grants I C (P t.name) ∧ ∀ r ∈ cx.content t, C r
  builtin : Stockable I
  declared {g : TypeGraph} {t : DeclaredType} : cx.symbols.type? t.name = some t → I g →
    I (g.register (cx.outline t)).1
  placeholder {g : TypeGraph} {t : DeclaredType} (p : TypeParameter) :
    cx.symbols.type? t.name = some t → I g → I (g.register (placeholder t.name p)).1
  attach {g : TypeGraph} {t : DeclaredType} {id : TypeId} {d : TypeDefinition} {ids : List TypeId} :
    cx.symbols.type? t.name = some t → I g → g.idOf? t.name = some id → g.definition? id = some d →
      d.predefined = false → d.genericParams = [] →
      (∀ i ∈ ids, ∃ param, g.idOf? (placeholderName t.name param) = some i) →
      I (g.update id (.withGenericParams ids))
  fill {g : TypeGraph} {t : DeclaredType} {id : TypeId} {change : TypeDefinition → TypeDefinition} :
    cx.symbols.type? t.name = some t → I g → g.Home t.name id →
      TypeDefinition.Adding (All (P t.name) g) change → I (g.update id change)

/-- Nothing dangles if definitions are filled with numbers that are registered. -/
theorem fillable_closed {cx : BuildContext} {strict : Prop}
    (hsymbols : strict → cx.symbols.Unreserved) :
    cx.Fillable (fun _ => Registered) (TypeGraph.Closed strict) where
  closed hg := hg.lax
  content _ := ⟨_, cx.grants_registered fun _ hg => hg.lax, fun _ _ => trivial⟩
  builtin := stockable_closed strict
  declared ht hg := hg.register_unreserved rfl fun hs => hsymbols hs _ (SymbolTable.type?_mem ht)
  placeholder _ ht hg := hg.register rfl fun hs _ =>
    ⟨rfl, _, hsymbols hs _ (SymbolTable.type?_mem ht), rfl⟩
  attach ht hg hid _ _ _ hids := hg.attach (fun hs => hsymbols hs _ (SymbolTable.type?_mem ht)) hid hids
  fill _ hg _ hc := hg.fill hc _

end BuildContext

variable {I : TypeGraph → Prop} {w : Workspace} {α β : Type}

namespace Leads

variable {Q : α → TypeGraph → Prop} {R : β → TypeGraph → Prop}

theorem pure {a : α} (hw : w.Closed I) (ha : Q a w.graph) :
    Leads I w ((Pure.pure a : Build α).outcome w) Q :=
  ⟨hw, .refl _, fun h => Except.ok.inj h ▸ ha⟩

theorem throw (hw : w.Closed I) (e : BuildError) :
    Leads I w ((MonadExcept.throw e : Build α).outcome w) Q := ⟨hw, .refl _, fun h => nomatch h⟩

theorem lift {x : Work α} (hw : (x.run w).2.Closed I)
    (hgrows : w.graph.Grows (x.run w).2.graph) (ha : Q (x.run w).1 (x.run w).2.graph) :
    Leads I w ((liftM x : Build α).outcome w) Q :=
  ⟨hw, hgrows, fun h => Except.ok.inj h ▸ ha⟩

theorem imp {o : Outcome α} {Q' : α → TypeGraph → Prop} (h : Leads I w o Q)
    (hQ : ∀ a g, Q a g → Q' a g) : Leads I w o Q' :=
  ⟨h.closed, h.grows, fun ha => hQ _ _ (h.result ha)⟩

/-- A sequence leads on from everything that its first part may come to. -/
theorem bind {m : Build α} {k : α → Build β} (hm : Leads I w (m.outcome w) Q)
    (hk : ∀ a v, v.Closed I → w.graph.Grows v.graph → Q a v.graph →
      Leads I v ((k a).outcome v) R) : Leads I w ((m >>= k).outcome w) R := by
  rw [Build.outcome_bind]
  rcases ho : m.outcome w with ⟨e | a, v⟩
  · rw [ho] at hm
    exact ⟨hm.closed, hm.grows, fun h => nomatch h⟩
  · rw [ho] at hm
    have h := hk a v hm.closed hm.grows (hm.result rfl)
    exact ⟨h.closed, hm.grows.trans h.grows, h.result⟩

end Leads

namespace Workspace.Closed

theorem withGraph (hw : w.Closed I) {J : TypeGraph → Prop} {g : TypeGraph} (hg : J g)
    (hgrows : w.graph.Grows g) : (w.withGraph g).Closed J :=
  ⟨hg, fun e he id hid => (hw.endpoints e he id hid).grow hgrows⟩

theorem note (hw : w.Closed I) (d : Diagnostic) : (w.note d).Closed I :=
  ⟨hw.graph, hw.endpoints⟩

theorem report (hw : w.Closed I) (s : Severity) (location message : String) :
    Leads I w ((liftM (Work.report s location message) : Build Unit).outcome w)
      fun _ _ => True := .lift (hw.note _) (.refl _) trivial

theorem register (hw : w.Closed I) {d : TypeDefinition} (hd : I (w.graph.register d).1) :
    Leads I w ((liftM (Work.register d) : Build TypeId).outcome w)
      fun id g => g.idOf? d.fullName = some id :=
  .lift (hw.withGraph hd (grows_register _ d)) (grows_register _ d) (idOf?_register_self _ d)

/-- A name that is new gets the definition that is offered for it. -/
theorem enter (hw : w.Closed I) {d : TypeDefinition} (hgraph : w.graph.WellFormed)
    (hnew : w.graph.idOf? d.fullName = none) (hd : I (w.graph.register d).1) :
    Leads I w ((liftM (Work.register d) : Build TypeId).outcome w)
      fun id g => g.idOf? d.fullName = some id ∧ g.definition? id = some { d with id } := by
  have h := hw.register hd
  refine ⟨h.closed, h.grows, fun {id} hid => ⟨h.result hid, ?_⟩⟩
  obtain rfl : (w.graph.register d).2 = id := Except.ok.inj hid
  refine (hgraph.definition?_register_self hnew).trans ?_
  rw [register_of_none hnew]

theorem update (hw : w.Closed I) {id : TypeId} {change : TypeDefinition → TypeDefinition}
    (hg : I (w.graph.update id change)) (hgrows : w.graph.Grows (w.graph.update id change)) :
    Leads I w ((liftM (Work.update id change) : Build Unit).outcome w) fun _ _ => True :=
  .lift (hw.withGraph hg hgrows) hgrows trivial

section durable

variable {P : TypeGraph → TypeId → Prop} (hI : Stockable I) (hP : Durable P)
include hI hP

theorem register_durable (hw : w.Closed I) {d : TypeDefinition} (hd : d ∈ Builtin.all) :
    Leads I w ((liftM (Work.register d) : Build TypeId).outcome w) fun id g => P g id :=
  (hw.register (hI hd hw.graph)).imp fun _ _ h => hP.builtin hd h

theorem anyId (hw : w.Closed I) :
    Leads I w ((liftM Work.anyId : Build TypeId).outcome w) fun id g => P g id :=
  hw.register_durable hI hP (d := Builtin.any) (by simp [Builtin.all])

theorem collectionId (hw : w.Closed I) :
    Leads I w ((liftM Work.collectionId : Build TypeId).outcome w) fun id g => P g id :=
  hw.register_durable hI hP (d := Builtin.collection) (by simp [Builtin.all])

theorem mapId (hw : w.Closed I) :
    Leads I w ((liftM Work.mapId : Build TypeId).outcome w) fun id g => P g id :=
  hw.register_durable hI hP (d := Builtin.map) (by simp [Builtin.all])

theorem anyInstance (hw : w.Closed I) :
    Leads I w ((liftM Work.anyInstance : Build TypeInstance).outcome w)
      fun i g => All P g [i] := by
  have h := hw.anyId hI hP
  exact .lift h.closed h.grows (all_plain (h.result rfl))

theorem orAny (hw : w.Closed I) {i? : Option TypeInstance}
    (hi : All P w.graph i?.toList) :
    Leads I w ((liftM (Work.orAny i?) : Build TypeInstance).outcome w)
      fun i g => All P g [i] := by
  cases i? with
  | some i => exact .lift hw (.refl _) hi
  | none => exact hw.anyInstance hI hP

end durable

end Workspace.Closed

variable {f : Resolver} {P : TypeGraph → TypeId → Prop}

/-- What holds of every number that each of the references comes to, holds of all of them. -/
theorem tied_resolveAll (hP : Durable P) {rs : List TypeRef}
    (hf : ∀ r ∈ rs, Tied I (f r) fun i? g => All P g i?.toList) :
    Tied I (resolveAll f rs) fun is g => All P g is := by
  intro w hw
  induction rs generalizing w with
  | nil => exact .pure hw (all_nil P _)
  | cons r rs ih =>
    refine (hf r (List.mem_cons_self ..) hw).bind fun i? u hu _ hi => ?_
    refine (ih (fun r hr => hf r (List.mem_cons_of_mem _ hr)) hu).bind fun is v hv hgrows his => ?_
    exact .pure hv ((hi.grow hP hgrows).append his)

namespace BuildContext

variable {cx : BuildContext}

theorem tied_resolveProperties (hI : Stockable I) (hP : Durable P)
    {cs : List (String × PropertyCandidate)}
    (hf : ∀ c ∈ cs, Tied I (f c.2.type) fun i? g => All P g i?.toList) :
    Tied I (cx.resolveProperties f cs) fun ps g => All P g (ps.map (·.type)) := by
  intro w hw
  induction cs generalizing w with
  | nil => exact .pure hw (all_nil P _)
  | cons c cs ih =>
    refine (hf c (List.mem_cons_self ..) hw).bind fun i? u hu _ hi? => ?_
    refine (hu.orAny hI hP hi?).bind fun i u hu _ hi => ?_
    refine (ih (fun c hc => hf c (List.mem_cons_of_mem _ hc)) hu).bind fun ps v hv hgrows hps => ?_
    exact .pure hv ((hi.grow hP hgrows).append hps)

section fillable

variable {P : String → TypeGraph → TypeId → Prop} (hI : cx.Fillable P I) {t : DeclaredType}
  (ht : cx.symbols.type? t.name = some t)
include hI ht

theorem Fillable.durable : Durable (P t.name) := by
  obtain ⟨C, hC, -⟩ := hI.content ht
  exact hC.durable

theorem Fillable.leads_fill (hw : w.Closed I) {id : TypeId} {change : TypeDefinition → TypeDefinition}
    (hid : w.graph.Home t.name id) (hc : TypeDefinition.Adding (All (P t.name) w.graph) change) :
    Leads I w ((liftM (Work.update id change) : Build Unit).outcome w) fun _ _ => True :=
  hw.update (hI.fill ht hw.graph hid hc)
    (grows_update hc.toKeeping fun d _ => hc.genericParams d ▸ List.Subset.refl _)

/-- Placeholders get numbers of their own. -/
theorem Fillable.leads_registerPlaceholders (ps : List TypeParameter) (hw : w.Closed I) {id : TypeId}
    {d : TypeDefinition} (hd : w.graph.definition? id = some d) :
    Leads I w ((registerPlaceholders t.name ps).outcome w) fun ids g => g.definition? id = some d ∧
      ∀ i ∈ ids, ∃ param, g.idOf? (placeholderName t.name param) = some i := by
  have houtcome : ∃ ids g, (registerPlaceholders t.name ps).outcome w = (.ok ids, w.withGraph g) ∧ _ :=
    registerPlaceholders_outcome
      (J := fun g => I g ∧ w.graph.Grows g ∧ g.definition? id = some d)
      (fun p _ g ⟨hg, hgrows, hd⟩ =>
        ⟨hI.placeholder p ht hg, hgrows.trans (grows_register g _), definition?_register hd⟩)
      ⟨hw.graph, .refl _, hd⟩
  obtain ⟨ids, g, ho, ⟨hg, hgrows, hdg⟩, hids⟩ := houtcome
  rw [ho]
  refine ⟨hw.withGraph hg hgrows, hgrows, fun h => ?_⟩
  obtain rfl := Except.ok.inj h
  refine ⟨hdg, fun i hi => ?_⟩
  obtain ⟨p, -, hp⟩ := exists_of_forall₂ hids hi
  exact ⟨p.name, hp⟩

theorem Fillable.leads_resolveBounds {ps : List (TypeParameter × TypeId)} (hw : w.Closed I)
    (hps : ∀ p ∈ ps, ∃ param, w.graph.idOf? (placeholderName t.name param) = some p.2)
    (hf : ∀ p ∈ ps, ∀ r ∈ p.1.bounds, Tied I (f r) fun i? g => All (P t.name) g i?.toList) :
    Leads I w ((resolveBounds f ps).outcome w) fun _ _ => True := by
  induction ps generalizing w with
  | nil => exact .pure hw trivial
  | cons p ps ih =>
    obtain ⟨⟨param, hp⟩, hps⟩ := List.forall_mem_cons.1 hps
    obtain ⟨hfp, hf⟩ := List.forall_mem_cons.1 hf
    refine (tied_resolveAll (hI.durable ht) hfp hw).bind fun bounds u hu hgrows hbounds => ?_
    refine (hI.leads_fill ht hu (.inr ⟨param, hgrows.names hp⟩)
      (TypeDefinition.adding_bounded hbounds)).bind fun _ v hv hgrows' _ => ?_
    exact ih hv (fun q hq => (hps q hq).imp fun _ h => hgrows'.names (hgrows.names h)) hf

variable (hf : ∀ r ∈ cx.content t, Tied I (f r) fun i? g => All (P t.name) g i?.toList)
include hf

theorem Fillable.leads_populateInterface (hkind : kindOf t.kind = .interfaceType) (hw : w.Closed I)
    {id : TypeId} {d : TypeDefinition}
    (hid : w.graph.idOf? t.name = some id) (hd : w.graph.definition? id = some d)
    (hown : d.predefined = false) (hparams : d.genericParams = []) :
    Leads I w ((cx.populateInterface f id t).outcome w) fun _ _ => True := by
  have hP : Durable (P t.name) := hI.durable ht
  rw [content_interface hkind, ← t.keptSupertypes_eq, List.forall_mem_append, List.forall_mem_append] at hf
  obtain ⟨hbounds, hproperties, hsupertypes⟩ := hf
  refine (hI.leads_registerPlaceholders ht t.typeParameters hw hd).bind fun ids u hu hgrows h => ?_
  obtain ⟨hd, hids⟩ := h
  have hattached : u.graph.Grows (u.graph.update id (.withGenericParams ids)) :=
    grows_update (TypeDefinition.keeping_withGenericParams ids) fun d' hd' => by
      obtain rfl := Option.some.inj (hd.symm.trans hd')
      exact hparams ▸ List.nil_subset _
  refine (hu.update (hI.attach ht hu.graph (hgrows.names hid) hd hown hparams hids) hattached).bind
    fun _ v hv hgrows' _ => ?_
  have hid : v.graph.idOf? t.name = some id := hgrows'.names (hgrows.names hid)
  refine (hI.leads_resolveBounds ht hv (fun p hp => ?_) fun p hp r hr => ?_).bind
    fun _ u hu hgrows _ => ?_
  · exact (hids p.2 (List.of_mem_zip hp).2).imp fun _ h => hgrows'.names h
  · exact hbounds r (List.mem_flatMap.2 ⟨p.1, (List.of_mem_zip hp).1, hr⟩)
  have hid : u.graph.idOf? t.name = some id := hgrows.names hid
  refine (tied_resolveProperties hI.builtin hP
    (fun c hc => hproperties _ (List.mem_map_of_mem hc)) hu).bind fun properties v hv hgrows hps => ?_
  have hid : v.graph.idOf? t.name = some id := hgrows.names hid
  refine (hI.leads_fill ht hv (.inl hid) (TypeDefinition.adding_withProperties hps)).bind
    fun _ u hu hgrows _ => ?_
  refine (tied_resolveAll hP hsupertypes hu).bind fun superTypes v hv hgrows' htypes => ?_
  exact hI.leads_fill ht hv (.inl (hgrows'.names (hgrows.names hid)))
    (TypeDefinition.adding_withSuperTypes htypes)

theorem Fillable.leads_populate (hw : w.Closed I) {id : TypeId} {d : TypeDefinition}
    (hid : w.graph.idOf? t.name = some id) (hd : w.graph.definition? id = some d)
    (hown : d.predefined = false) (hparams : d.genericParams = []) :
    Leads I w ((cx.populate f id t).outcome w) fun _ _ => True := by
  unfold populate
  split
  · rename_i hkind
    exact hI.leads_populateInterface ht hf hkind hw hid hd hown hparams
  · exact hI.leads_fill ht hw (.inl hid) (TypeDefinition.adding_withEnumConstants _)
  · exact .pure hw trivial

theorem Fillable.tied_define : Tied I (cx.define f t) fun id g => g.idOf? t.name = some id := by
  intro w hw
  rw [define, Build.outcome_lift_bind, Work.run_graph]
  dsimp only
  cases hid : w.graph.idOf? t.name with
  | some id => exact .pure hw hid
  | none =>
    refine (hw.enter (d := cx.outline t) (hI.closed hw.graph).toWellFormed hid
      (hI.declared ht hw.graph)).bind fun id u hu _ h => ?_
    obtain ⟨hid, hd⟩ := h
    refine (hI.leads_populate ht hf hu hid hd rfl rfl).bind fun _ u hu hgrows _ => ?_
    refine (hI.leads_fill ht hu (.inl (hgrows.names hid)) TypeDefinition.adding_finished).bind
      fun _ v hv hgrows' _ => ?_
    exact .pure hv (hgrows'.names (hgrows.names hid))

end fillable

section step

variable {P : String → TypeGraph → TypeId → Prop} (hI : cx.Fillable P I)
  (hf : ∀ t, cx.symbols.type? t.name = some t → ∀ r ∈ cx.content t,
    Tied I (f r) fun i? g => All (P t.name) g i?.toList)
  {Q : TypeGraph → TypeId → Prop}
include hI hf

/-- What holds of a name's number, and of what may stand for it, holds of what is looked up. -/
theorem Fillable.tied_getOrDefine (hQ : Durable Q) {name : String}
    (hname : ∀ g id, g.idOf? name = some id → Q g id) :
    Tied I (cx.getOrDefine (cx.define f) name) fun id g => Q g id := by
  intro w hw
  unfold getOrDefine
  split
  · exact hw.anyId hI.builtin hQ
  · rw [Build.outcome_lift_bind, Work.run_graph]
    dsimp only
    cases hid : w.graph.idOf? name with
    | some id => exact .pure hw (hname _ _ hid)
    | none =>
      dsimp only
      split
      · exact hw.collectionId hI.builtin hQ
      · split
        · exact hw.mapId hI.builtin hQ
        · cases ht : cx.symbols.type? name with
          | some t =>
            obtain rfl := SymbolTable.type?_name ht
            exact (hI.tied_define ht (hf t ht) hw).imp fun id g h => hname g id h
          | none => exact (hw.report _ _ _).bind fun _ v hv _ _ => hv.anyId hI.builtin hQ

theorem Fillable.tied_resolveVariable {C : TypeRef → Prop} (hC : cx.Grants I C Q) {name : String}
    {owner : GenericOwner} (hr : C (.typeVar name owner))
    (hin : ∀ a ∈ cx.inner (.typeVar name owner), Tied I (f a) fun i? g => All Q g i?.toList) :
    Tied I (cx.resolveVariable (cx.define f) f name owner)
      fun i? g => All Q g i?.toList := by
  intro w hw
  cases owner with
  | type owner =>
    rw [resolveVariable, Build.outcome_lift_bind, Work.run_graph]
    dsimp only
    split
    · exact .throw hw _
    · have howner : Tied I (cx.getOrDefine (cx.define f) owner) fun id g => Stands owner g id :=
        hI.tied_getOrDefine hf (durable_stands owner) fun _ _ h => .inl h
      refine (howner hw).bind fun id v hv _ hstands => ?_
      rw [Build.outcome_lift_bind, Work.run_graph]
      refine .pure hv ?_
      cases hp : placeholder? v.graph id name with
      | none => exact all_nil Q _
      | some p => exact all_plain (hC.placeholder hr hv.graph hstands hp)
  | method declaringType method overload =>
    unfold resolveVariable
    dsimp only
    split
    · exact .throw hw _
    · rename_i p hp
      split
      · rename_i bound hbound
        exact hin bound (Option.mem_toList.2 (SymbolTable.soleBound?_method hp hbound)) hw
      · exact (hw.anyInstance hI.builtin hC.durable).bind fun i v hv _ hi => .pure hv hi
      · refine (hw.report _ _ _).bind fun _ u hu _ _ => ?_
        exact (hu.anyInstance hI.builtin hC.durable).bind fun i v hv _ hi => .pure hv hi

/-- What holds of the numbers of the names in a reference, of placeholders that it stands for and of
what the references inside come to, holds of what it comes to. -/
theorem Fillable.tied_resolveStep {C : TypeRef → Prop} (hC : cx.Grants I C Q) {r : TypeRef} (hr : C r)
    (hin : ∀ a ∈ cx.inner r, Tied I (f a) fun i? g => All Q g i?.toList) :
    Tied I (cx.resolveStep (cx.define f) f r) fun i? g => All Q g i?.toList := by
  intro w hw
  cases r with
  | primitive name =>
    have hget : Tied I (cx.getOrDefine (cx.define f) name) fun id g => Q g id :=
      hI.tied_getOrDefine hf hC.durable fun _ _ h => hC.name hr rfl h
    exact (hget hw).bind fun id v hv _ hid => .pure hv (all_plain hid)
  | declared name args =>
    have hget : Tied I (cx.getOrDefine (cx.define f) name) fun id g => Q g id :=
      hI.tied_getOrDefine hf hC.durable fun _ _ h => hC.name hr rfl h
    refine (hget hw).bind fun id u hu _ hid => ?_
    rw [Build.outcome_lift_bind, Work.run_graph]
    dsimp only
    split
    · refine (tied_resolveAll hC.durable hin hu).bind fun is v hv hgrows his => ?_
      exact .pure hv (all_mk (hC.durable.grow hgrows hid) his)
    · exact .pure hu (all_plain hid)
  | typeVar name owner =>
    exact hI.tied_resolveVariable hf hC hr hin hw
  | wildcard upper lower =>
    cases upper with
    | some bound => exact hin bound (Option.mem_toList.2 rfl) hw
    | none => exact (hw.anyInstance hI.builtin hC.durable).bind fun i v hv _ hi => .pure hv hi
  | array component =>
    refine (hin component (List.mem_singleton.2 rfl) hw).bind fun i? u hu _ hi => ?_
    refine (hu.collectionId hI.builtin hC.durable).bind fun id v hv hgrows hid => ?_
    exact .pure hv (all_mk hid (hi.grow hC.durable hgrows))

end step

/-- The induction is on the depth, over all classes at once: the contents of the types that are defined
on the way are a class of their own. -/
theorem Fillable.tied_resolveAt {P : String → TypeGraph → TypeId → Prop} (hI : cx.Fillable P I)
    {C : TypeRef → Prop} {Q : TypeGraph → TypeId → Prop} (hC : cx.Grants I C Q) (depth : Nat)
    {r : TypeRef} (hr : C r) : Tied I (cx.resolveAt depth r) fun i? g => All Q g i?.toList := by
  induction depth generalizing C Q r with
  | zero => exact fun w hw => .throw hw _
  | succ depth ih =>
    refine hI.tied_resolveStep (fun t ht r hr => ?_) hC hr fun a ha => ih hC (hC.inner hr ha)
    obtain ⟨C', hC', hcontents⟩ := hI.content ht
    exact ih hC' (hcontents r hr)

theorem Fillable.tied_resolve {P : String → TypeGraph → TypeId → Prop} (hI : cx.Fillable P I)
    (r : TypeRef) : Tied I (cx.resolve r) fun i? g => g.Covers i?.toList :=
  hI.tied_resolveAt (cx.grants_registered fun _ hg => hI.closed hg) _ trivial

end BuildContext

end ClientBindings
