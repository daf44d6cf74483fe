import ClientBindings.Proofs.Resolution.Blame
import ClientBindings.Proofs.Resolution.Naming
import ClientBindings.Proofs.Symbol.Names

/-! A build that is done again. What has been resolved once is resolved to the same without a change
of the graph, and so is the way to a failure, unless the failure came up inside a definition: that one
is found registered the second time. -/
namespace ClientBindings.BuildContext

open TypeGraph

variable {cx : BuildContext} {α β : Type} {w : Workspace}

/-- How a build and its attributing twin go on from a workspace. They fail apart, or they come to the
same, and from every graph that extends the one they leave the build comes to it again. -/
inductive RepeatsAt (cx : BuildContext) (w : Workspace) (m m' : Build α) : Prop
  | parted {e e'} (h : (m.outcome w).1 = .error e) (h' : (m'.outcome w).1 = .error e')
      (hne : e ≠ e')
  | repeated (hsame : m'.outcome w = m.outcome w) (hgrown : cx.Grown w.graph (m.outcome w).2.graph)
      (hagain : ∀ u, cx.Extends (m.outcome w).2.graph u.graph →
        (m.outcome u).1 = (m.outcome w).1 ∧ (m.outcome u).2.graph = u.graph)

/-- From every graph that builds can work on. -/
def Repeats (cx : BuildContext) (m m' : Build α) : Prop :=
  ∀ w, w.graph.Ready → cx.RepeatsAt w m m'

theorem Extends.stocked {g g' : TypeGraph} (h : cx.Extends g g') (hg : g.Stocked) : g'.Stocked :=
  fun d hd => (hg d hd).imp fun _ => h.names

/-- Builds that change no graph. -/
theorem repeatsAt_of_still {m : Build α} (hw : w.graph.Ready)
    (h : ∀ u, cx.Extends w.graph u.graph →
      (m.outcome u).1 = (m.outcome w).1 ∧ (m.outcome u).2.graph = u.graph) :
    cx.RepeatsAt w m m := by
  have hgraph : (m.outcome w).2.graph = w.graph := (h w (.refl _)).2
  refine .repeated rfl ?_ fun u hu => h u ?_
  · rw [hgraph]
    exact ⟨.refl _, hw⟩
  · rwa [hgraph] at hu

theorem repeats_pure (a : α) : cx.Repeats (pure a) (pure a) :=
  fun _ hw => repeatsAt_of_still hw fun _ _ => ⟨rfl, rfl⟩

theorem repeats_throw (e : BuildError) : cx.Repeats (throw e : Build α) (throw e) :=
  fun _ hw => repeatsAt_of_still hw fun _ _ => ⟨rfl, rfl⟩

theorem repeats_report (s : Severity) (location message : String) :
    cx.Repeats (liftM (Work.report s location message)) (liftM (Work.report s location message)) :=
  fun _ hw => repeatsAt_of_still hw fun _ _ => ⟨rfl, rfl⟩

theorem register_of_stocked {g g' : TypeGraph} {d : TypeDefinition} (hd : d ∈ Builtin.all)
    (hg : g.Stocked) (h : cx.Extends g g') : g'.register d = (g', (g.register d).2) := by
  obtain ⟨id, hid⟩ := hg d hd
  rw [register_of_idOf? (h.names hid), register_of_idOf? hid]

theorem repeats_register {d : TypeDefinition} (hd : d ∈ Builtin.all) :
    cx.Repeats (liftM (Work.register d)) (liftM (Work.register d)) := by
  refine fun w hw => repeatsAt_of_still hw fun u hu => ?_
  rw [Build.outcome_lift, Build.outcome_lift, Work.run_register, Work.run_register,
    register_of_stocked hd hw.stocked hu]
  exact ⟨rfl, rfl⟩

theorem repeats_anyInstance : cx.Repeats (liftM Work.anyInstance) (liftM Work.anyInstance) := by
  refine fun w hw => repeatsAt_of_still hw fun u hu => ?_
  rw [Build.outcome_lift, Build.outcome_lift, Work.run_anyInstance, Work.run_anyInstance,
    register_of_stocked (by simp [Builtin.all]) hw.stocked hu]
  exact ⟨rfl, rfl⟩

theorem repeats_orAny (i? : Option TypeInstance) :
    cx.Repeats (liftM (Work.orAny i?)) (liftM (Work.orAny i?)) := by
  cases i? with
  | some i => exact fun _ hw => repeatsAt_of_still hw fun _ _ => ⟨rfl, rfl⟩
  | none => exact repeats_anyInstance

/-- A sequence is done again step by step. -/
theorem RepeatsAt.bind {m m' : Build α} {k k' : α → Build β} (hm : cx.RepeatsAt w m m')
    (hk : ∀ a v, m.outcome w = (.ok a, v) → v.graph.Ready → cx.RepeatsAt v (k a) (k' a)) :
    cx.RepeatsAt w (m >>= k) (m' >>= k') := by
  cases hm with
  | parted h h' hne =>
    exact .parted (Build.outcome_bind_of_error h) (Build.outcome_bind_of_error h') hne
  | repeated hsame hgrown hagain =>
    rcases ho : m.outcome w with ⟨e | a, v⟩
    · rw [ho] at hsame hgrown hagain
      have hbind : (m >>= k).outcome w = (.error e, v) := by rw [Build.outcome_bind, ho]
      have hbind' : (m' >>= k').outcome w = (.error e, v) := by rw [Build.outcome_bind, hsame]
      refine .repeated (hbind'.trans hbind.symm) (by rw [hbind]; exact hgrown) fun u hu => ?_
      rw [hbind] at hu
      obtain ⟨hr, hg⟩ := hagain u hu
      rcases hou : m.outcome u with ⟨r, u'⟩
      rw [hou] at hr hg
      cases hr
      rw [hbind, Build.outcome_bind, hou]
      exact ⟨rfl, hg⟩
    · rw [ho] at hsame hgrown hagain
      have hbind : (m >>= k).outcome w = (k a).outcome v := by rw [Build.outcome_bind, ho]
      have hbind' : (m' >>= k').outcome w = (k' a).outcome v := by rw [Build.outcome_bind, hsame]
      cases hk a v ho hgrown.2 with
      | parted h h' hne => exact .parted (by rw [hbind, h]) (by rw [hbind', h']) hne
      | repeated hsame' hgrown' hagain' =>
        rw [← hbind] at hsame' hgrown' hagain'
        refine .repeated (hbind'.trans hsame') ⟨hgrown.1.trans hgrown'.1, hgrown'.2⟩ fun u hu => ?_
        obtain ⟨hr, hg⟩ := hagain u (hgrown'.1.trans hu)
        rcases hou : m.outcome u with ⟨r, u'⟩
        rw [hou] at hr hg
        cases hr
        obtain ⟨hr', hg'⟩ := hagain' u' (hg ▸ hu)
        rw [Build.outcome_bind, hou]
        exact ⟨hr', hg'.trans hg⟩

theorem Repeats.bind {m m' : Build α} {k k' : α → Build β} (hm : cx.Repeats m m')
    (hk : ∀ a, cx.Repeats (k a) (k' a)) : cx.Repeats (m >>= k) (m' >>= k') :=
  fun w hw => (hm w hw).bind fun a v _ hv => hk a v hv

/-- A step that reads of the graph what does not change as it grows. -/
theorem RepeatsAt.graph {k k' : TypeGraph → Build α}
    (hstable : ∀ g, cx.Extends w.graph g → k g = k w.graph)
    (h : cx.RepeatsAt w (k w.graph) (k' w.graph)) :
    cx.RepeatsAt w (liftM Work.graph >>= k) (liftM Work.graph >>= k') := by
  have hread (k : TypeGraph → Build α) (u : Workspace) :
      (liftM Work.graph >>= k).outcome u = (k u.graph).outcome u := by
    rw [Build.outcome_lift_bind, Work.run_graph]
  cases h with
  | parted h h' hne => exact .parted (by rw [hread, h]) (by rw [hread, h']) hne
  | repeated hsame hgrown hagain =>
    rw [← hread] at hsame hgrown hagain
    rw [← hread] at hsame
    refine .repeated hsame hgrown fun u hu => ?_
    rw [hread k u, hstable u.graph (hgrown.1.trans hu)]
    exact hagain u hu

theorem repeats_resolveAll {f f' : Resolver} {rs : List TypeRef}
    (h : ∀ r ∈ rs, cx.Repeats (f r) (f' r)) : cx.Repeats (resolveAll f rs) (resolveAll f' rs) := by
  induction rs with
  | nil => exact repeats_pure []
  | cons r rs ih =>
    refine (h r (List.mem_cons_self ..)).bind fun i? => ?_
    refine (ih fun r hr => h r (List.mem_cons_of_mem _ hr)).bind fun is => ?_
    exact repeats_pure _

section names

variable {f : Resolver} {name : String}

/-- The definition that a name gets is registered. -/
theorem getOrDefine_registered (hs : cx.symbols.Unreserved) (hframe : ∀ r, cx.Framed (f r))
    {v : Workspace} {id : TypeId} (hw : w.graph.Ready)
    (h : (cx.getOrDefine (cx.define f) name).outcome w = (.ok id, v)) :
    ∃ d, v.graph.definition? id = some d := by
  cases hn : cx.nameIn? w.graph name with
  | some n =>
    obtain ⟨i, u, hid, hu, -, ho⟩ := getOrDefine_of_named hw.stocked hn
    rw [ho] at h
    cases h
    rw [hu]
    exact (hw.indexed hid).imp fun _ hd => hd.1
  | none =>
    obtain ⟨t, ht, -, ho⟩ := getOrDefine_of_unnamed hn
    rw [ho] at h
    have hv := (define_framed (ht.unreserved hs) hframe ht.self w hw).2
    rw [h] at hv
    exact (hv.indexed (define_ok (ht.unreserved hs) hframe ht.self hw h)).imp fun _ hd => hd.1

/-- A name that is looked up again stands for what it stood for, unless its definition failed. -/
theorem repeats_getOrDefine (hs : cx.symbols.Unreserved) (hframe : ∀ r, cx.Framed (f r))
    (hf : ∀ g₀ X r, (fillingLaw g₀).Keeps (Same (Confined g₀ X)) (f r) (f r))
    (hname : Unreserved name) : cx.Repeats (cx.getOrDefine (cx.define f) name)
      (cx.getOrDefine (attributed (cx.define f)) name) := by
  intro w hw
  cases hn : cx.nameIn? w.graph name with
  | some n =>
    obtain ⟨id, v, hid, hv, -, ho⟩ := getOrDefine_of_named hw.stocked hn
    refine .repeated (by rw [ho, ho]) ?_ fun u hu => ?_
    · rw [ho, hv]
      exact ⟨.refl _, hw⟩
    · rw [ho, hv] at hu
      obtain ⟨id', v', hid', hv', -, ho'⟩ :=
        getOrDefine_of_named (hu.stocked hw.stocked) (hu.nameIn? hname hn)
      obtain rfl : id = id' := Option.some.inj ((hu.names hid).symm.trans hid')
      rw [ho, ho']
      exact ⟨rfl, hv'⟩
  | none =>
    obtain ⟨t, ht, hnone, ho⟩ := getOrDefine_of_unnamed hn
    have hunreserved : Unreserved t.name := ht.unreserved hs
    obtain ⟨hext, hready⟩ := define_framed hunreserved hframe ht.self w hw
    rcases hd : (cx.define f t).outcome w with ⟨e | id, v⟩
    · have ha : (fillingLaw w.graph).Agree _ ((cx.define f t).outcome w)
          ((cx.define f t).outcome w) := define_confined (hf w.graph) (HalfBuilt w.graph) t
        ⟨rfl, ⟨hw.toWellFormed, fun h => h⟩, fun h => h⟩
      rw [hd] at ha
      have hfails : ((cx.getOrDefine (cx.define f) name).outcome w).1 = .error e := by rw [ho, hd]
      have hblames : ((cx.getOrDefine (attributed (cx.define f)) name).outcome w).1 =
          .error (.missingType t.name) := by rw [ho, attributed_outcome, hd]
      refine .parted hfails hblames ?_
      rintro rfl
      cases ha with
      | dropped h => exact h.elim
      | failed h => exact nomatch h.1
    · rw [hd] at hext hready
      have hid : v.graph.idOf? t.name = some id := define_ok hunreserved hframe ht.self hw hd
      refine .repeated (by rw [ho, ho, attributed_outcome, hd]) ?_ fun u hu => ?_
      · rw [ho, hd]
        exact ⟨hext, hready⟩
      · rw [ho, hd] at hu ⊢
        have hid' : u.graph.idOf? name = some id := ht.name_eq ▸ hu.names hid
        obtain ⟨id', v', hid'', hv', -, ho'⟩ := getOrDefine_of_named (hu.stocked hready.stocked)
          (nameIn?_of_definable ht hid')
        obtain rfl : id = id' := Option.some.inj (hid'.symm.trans hid'')
        rw [ho']
        exact ⟨rfl, hv'⟩

theorem kind?_extends {g g' : TypeGraph} {id : TypeId} (hg : ∃ d, g.definition? id = some d)
    (h : cx.Extends g g') : g'.kind? id = g.kind? id := by
  obtain ⟨d, hd⟩ := hg
  rw [kind?, kind?, h.definitions hd, hd]

theorem placeholder?_extends {g g' : TypeGraph} {id : TypeId} (hg : g.Ready)
    (hid : ∃ d, g.definition? id = some d) (h : cx.Extends g g') (name : String) :
    placeholder? g' id name = placeholder? g id name := by
  obtain ⟨d, hd⟩ := hid
  rw [placeholder?, placeholder?, h.definitions hd, hd, Option.bind_some, Option.bind_some]
  rw [← List.head?_filter, ← List.head?_filter]
  refine congrArg List.head? (List.filter_congr fun p hp => ?_)
  obtain ⟨q, hq⟩ := hg.closed hd hp
  rw [h.definitions hq, hq]

variable {f' : Resolver} {r : TypeRef}

theorem repeats_resolveVariable (hs : cx.symbols.Unreserved) (hframe : ∀ r, cx.Framed (f r))
    (hf : ∀ g₀ X r, (fillingLaw g₀).Keeps (Same (Confined g₀ X)) (f r) (f r)) {f₀ f' : Resolver}
    {owner : GenericOwner} (hr : (TypeRef.typeVar name owner).Tidy)
    (h : ∀ b, cx.symbols.soleBound? name owner = some b → cx.Repeats (f₀ b) (f' b)) :
    cx.Repeats (cx.resolveVariable (cx.define f) f₀ name owner)
      (cx.resolveVariable (attributed (cx.define f)) f' name owner) := by
  intro w hw
  cases owner with
  | type owner =>
    have howner : Unreserved owner := hr owner (by simp [TypeRef.names])
    refine .graph (fun g hg => ?_) ?_
    · -- an owner that is not declared is registered at once or never
      have hcond : ((cx.symbols.type? owner).isNone && (g.idOf? owner).isNone) =
          ((cx.symbols.type? owner).isNone && (w.graph.idOf? owner).isNone) := by
        cases ht : cx.symbols.type? owner with
        | some t => rfl
        | none =>
          cases hid : w.graph.idOf? owner with
          | some id => rw [hg.names hid]
          | none =>
            cases hid' : g.idOf? owner with
            | none => rfl
            | some id =>
              rcases hg.new hid hid' with ⟨t, hdef⟩ | hreserved
              · rw [hdef.2.2.2] at ht
                cases ht
              · exact absurd howner hreserved
      simp only [hcond]
    · split
      · exact repeats_throw _ w hw
      · refine (repeats_getOrDefine hs hframe hf howner w hw).bind fun id v ho hv => ?_
        have hid := getOrDefine_registered hs hframe hw ho
        refine .graph (fun g hg => ?_) (repeats_pure _ v hv)
        rw [placeholder?_extends hv hid hg]
  | method declaringType method overload =>
    unfold resolveVariable
    dsimp only
    split
    · exact repeats_throw _ w hw
    · rename_i p hp
      split
      · rename_i b hb
        exact h b (SymbolTable.soleBound?_method hp hb) w hw
      · exact (repeats_anyInstance.bind fun i => repeats_pure _) w hw
      · exact ((repeats_report _ _ _).bind fun _ =>
          repeats_anyInstance.bind fun i => repeats_pure _) w hw

theorem repeats_resolveStep (hs : cx.symbols.Unreserved) (hframe : ∀ r, cx.Framed (f r))
    (hf : ∀ g₀ X r, (fillingLaw g₀).Keeps (Same (Confined g₀ X)) (f r) (f r)) {f₀ f' : Resolver}
    (hr : r.Tidy) (h : ∀ a ∈ cx.inner r, cx.Repeats (f₀ a) (f' a)) :
    cx.Repeats (cx.resolveStep (cx.define f) f₀ r)
      (cx.resolveStep (attributed (cx.define f)) f' r) := by
  cases r with
  | primitive name =>
    exact (repeats_getOrDefine hs hframe hf (hr name (by simp [TypeRef.names]))).bind
      fun id => repeats_pure _
  | declared name args =>
    intro w hw
    refine (repeats_getOrDefine hs hframe hf (hr name (by simp [TypeRef.names])) w hw).bind
      fun id v ho hv => ?_
    have hid := getOrDefine_registered hs hframe hw ho
    refine .graph (fun g hg => ?_) ?_
    · dsimp only
      rw [kind?_extends hid hg]
    · dsimp only
      split
      · exact ((repeats_resolveAll h).bind fun is => repeats_pure _) v hv
      · exact repeats_pure _ v hv
  | typeVar name owner =>
    exact repeats_resolveVariable hs hframe hf hr fun b hb => h b (by simp [inner, hb])
  | wildcard upper lower =>
    cases upper with
    | some b => exact h b (by simp [inner])
    | none => exact repeats_anyInstance.bind fun i => repeats_pure _
  | array component =>
    refine (h component (by simp [inner])).bind fun i? => ?_
    exact (repeats_register (d := Builtin.collection) (by simp [Builtin.all])).bind
      fun id => repeats_pure _

end names

/-- References inside a reference without the sign of placeholders are without it as well. -/
theorem tidy_inner (hs : cx.symbols.Tidy) {r a : TypeRef} (hr : r.Tidy) (ha : a ∈ cx.inner r) :
    a.Tidy := by
  cases r with
  | primitive => cases ha
  | declared name args => exact hr.argument ha
  | typeVar name owner =>
    simp only [inner, Option.mem_toList] at ha
    obtain ⟨t, ht, ha⟩ := SymbolTable.mem_references_of_soleBound? ha
    exact (hs t ht).2 a ha
  | wildcard upper lower =>
    cases upper with
    | none => cases ha
    | some b =>
      obtain rfl : a = b := by simpa [inner] using ha
      exact hr.upper
  | array component =>
    obtain rfl : a = component := by simpa [inner] using ha
    exact hr.component

/-- Resolving a reference again comes to the same, unless it failed inside a definition. -/
theorem repeats_resolveAt (hs : cx.symbols.Tidy) (depth : Nat) {r : TypeRef} (hr : r.Tidy) :
    cx.Repeats (cx.resolveAt depth r) (cx.blamingAt depth r) := by
  induction depth generalizing r with
  | zero => exact repeats_throw _
  | succ depth ih =>
    exact repeats_resolveStep hs.unreserved (resolveAt_framed hs.unreserved depth)
      (fun g₀ X r => resolveAt_confined depth X r) hr fun a ha => ih (tidy_inner hs hr ha)

end ClientBindings.BuildContext
