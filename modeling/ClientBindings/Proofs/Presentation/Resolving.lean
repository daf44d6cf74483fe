import ClientBindings.Proofs.Presentation.Passage
import ClientBindings.Proofs.Translation.Resolving

/-! Each step of resolving comes to what its account says, if the resolver that it is given does so on
the references that the account follows. -/
namespace ClientBindings.BuildContext

open TypeGraph

variable {cx : BuildContext} {excused : Prop} {names : Nat} {f : Resolver} {w u v : Workspace}
  {t : DeclaredType} {id : TypeId} {name : String}

/-- Nothing is said of a result. -/
abbrev Anything {α : Type} : α → TypeGraph → Prop := fun _ _ => True

/-- From every graph with fewer than so many names to be registered, resolving the reference comes to
what its account says. -/
def Obeys (cx : BuildContext) (excused : Prop) (names : Nat) (f : Resolver) (r : TypeRef) : Prop :=
  ∀ ⦃w⦄, cx.Able names w.graph → cx.Came excused w (cx.account? r) Anything ((f r).outcome w)

@[simp] theorem accountAll?_nil : cx.accountAll? [] = some [] := rfl

@[simp] theorem accountAll?_cons (r : TypeRef) (rs : List TypeRef) :
    cx.accountAll? (r :: rs) = andThen? (cx.account? r) (cx.accountAll? rs) := gather?_cons r rs

theorem accountAll?_append (rs rs' : List TypeRef) :
    cx.accountAll? (rs ++ rs') = andThen? (cx.accountAll? rs) (cx.accountAll? rs') :=
  gather?_append rs rs'

namespace Came

variable {α β : Type} {o : Option (List Effect)} {Q : α → TypeGraph → Prop}
  {R : β → TypeGraph → Prop} {new : List DeclaredType}

/-- After a step that adds nothing. -/
theorem step {x : Work α} {k : α → Build β} (h : cx.Passage w [] new (x.run w).2)
    (hk : cx.Came excused (x.run w).2 o R ((k (x.run w).1).outcome (x.run w).2)) :
    cx.Came excused w o R ((liftM x >>= k : Build β).outcome w) := by
  have hstep := Came.lift_bind h hk
  rwa [nil_andThen?] at hstep

/-- After a build that adds nothing. -/
theorem quietly {m : Build α} {k : α → Build β} (hm : cx.Came excused w (some []) Q (m.outcome w))
    (hk : ∀ a v new, cx.Passage w [] new v → Q a v.graph →
      cx.Came excused v o R ((k a).outcome v)) :
    cx.Came excused w o R ((m >>= k).outcome w) := by
  rw [Build.outcome_bind]
  generalize m.outcome w = out at hm
  cases hm with
  | ok ho h hq =>
    obtain rfl := Option.some.inj ho
    have hrest := (hk _ _ _ h hq).after h
    rwa [nil_andThen?] at hrest
  | failed h => exact .failed h

/-- Before a build that adds nothing. -/
theorem ending {m : Build α} {k : α → Build β} (hm : cx.Came excused w o Q (m.outcome w))
    (hk : ∀ a v as new, cx.Passage w as new v → Q a v.graph →
      cx.Came excused v (some []) R ((k a).outcome v)) :
    cx.Came excused w o R ((m >>= k).outcome w) := by
  have h := hm.bind hk
  rwa [andThen?_nil] at h

end Came

/-- One of the definitions that are always there is asked for. -/
theorem passage_builtin (hw : cx.Identified w.graph) {b : TypeDefinition} (hb : b ∈ Builtin.all) :
    cx.Passage w [] [] (w.withGraph (w.graph.register b).1) := by
  have hsame : (w.graph.register b).1 = w.graph := hw.register_builtin hb
  rw [hsame]
  exact .refl hw

theorem came_builtin (hw : cx.Identified w.graph) {b : TypeDefinition} (hb : b ∈ Builtin.all) :
    cx.Came excused w (some []) (fun id g => g.idOf? b.fullName = some id)
      ((liftM (Work.register b) : Build TypeId).outcome w) :=
  .lift (passage_builtin hw hb) (idOf?_register_self w.graph b)

theorem came_anyInstance (hw : cx.Identified w.graph) :
    cx.Came excused w (some []) Anything
      (Build.outcome (do return some (← Work.anyInstance)) w) :=
  .step (passage_builtin hw (b := Builtin.any) (by simp [Builtin.all]))
    (.pure (passage_builtin hw (by simp [Builtin.all])).identified trivial)

theorem came_orAny (hw : cx.Identified w.graph) (i? : Option TypeInstance) :
    cx.Came excused w (some []) Anything ((liftM (Work.orAny i?) : Build TypeInstance).outcome w) := by
  cases i? with
  | some i => exact .lift (.refl hw) trivial
  | none => exact .lift (passage_builtin hw (b := Builtin.any) (by simp [Builtin.all])) trivial

theorem came_resolveAll {rs : List TypeRef} (h : ∀ r ∈ rs, cx.Obeys excused names f r)
    (hw : cx.Able names w.graph) :
    cx.Came excused w (cx.accountAll? rs) Anything ((resolveAll f rs).outcome w) := by
  induction rs generalizing w with
  | nil => exact .pure hw.toIdentified trivial
  | cons r rs ih =>
    rw [accountAll?_cons]
    refine (h r (List.mem_cons_self ..) hw).bind fun i? u as new hu _ => ?_
    have hrest := ih (fun r hr => h r (List.mem_cons_of_mem _ hr)) (hu.able hw)
    exact hrest.bind_pure fun _ _ _ => trivial

theorem came_resolveProperties {cs : List (String × PropertyCandidate)}
    (h : ∀ c ∈ cs, cx.Obeys excused names f c.2.type) (hw : cx.Able names w.graph) :
    cx.Came excused w (cx.accountAll? (cs.map (·.2.type))) Anything
      ((cx.resolveProperties f cs).outcome w) := by
  induction cs generalizing w with
  | nil => exact .pure hw.toIdentified trivial
  | cons c cs ih =>
    rw [List.map_cons, accountAll?_cons]
    refine (h c (List.mem_cons_self ..) hw).bind fun i? u as new hu _ => ?_
    refine (came_orAny hu.identified i?).quietly fun i v new' hv _ => ?_
    have hrest := ih (fun c hc => h c (List.mem_cons_of_mem _ hc)) (hv.able (hu.able hw))
    exact hrest.bind_pure fun _ _ _ => trivial

/-- Placeholders are registered, one for each parameter. -/
theorem came_registerPlaceholders (hw : cx.Identified w.graph) (ht : cx.Defined t)
    (hname : Unreserved t.name) (hkind : kindOf t.kind = .interfaceType) :
    cx.Came excused w (some []) (fun ids _ => t.typeParameters.length = ids.length)
      ((registerPlaceholders t.name t.typeParameters).outcome w) := by
  obtain ⟨ids, g, ho, ⟨hg, hnames, hown⟩, hids⟩ := registerPlaceholders_outcome
    (J := fun g => cx.Identified g ∧ (∀ n id, w.graph.idOf? n = some id → g.idOf? n = some id) ∧
      cx.ownNames g = cx.ownNames w.graph)
    (fun p hp g hg => ⟨hg.1.registerPlaceholder ht hname hkind hp,
      fun n id hn => idOf?_register (hg.2.1 n id hn),
      (ownNames_register_reserved (not_unreserved_placeholderName _ _) g).trans hg.2.2⟩)
    ⟨hw, fun _ _ h => h, rfl⟩
  rw [ho]
  exact .ok rfl (.of_graph hg hnames hown) hids.length_eq

theorem came_resolveBounds {ps : List (TypeParameter × TypeId)}
    (h : ∀ p ∈ ps, ∀ r ∈ p.1.bounds, cx.Obeys excused names f r) (hw : cx.Able names w.graph) :
    cx.Came excused w (cx.accountAll? (ps.flatMap (·.1.bounds))) Anything
      ((resolveBounds f ps).outcome w) := by
  induction ps generalizing w with
  | nil => exact .pure hw.toIdentified trivial
  | cons p ps ih =>
    rw [List.flatMap_cons, accountAll?_append]
    refine (came_resolveAll (h p (List.mem_cons_self ..)) hw).bind fun bounds u as new hu _ => ?_
    have hv : cx.Passage u [] [] (u.withGraph (u.graph.update p.2 (.bounded bounds))) :=
      .update (TypeDefinition.keeping_bounded bounds) (hu.identified.bounded p.2 bounds)
    exact .step hv (ih (fun q hq => h q (List.mem_cons_of_mem _ hq)) (hv.able (hu.able hw)))

/-- The definition of a type is changed. -/
theorem passage_fill {change : TypeDefinition → TypeDefinition} (hw : cx.Identified w.graph)
    (hid : w.graph.idOf? name = some id) (hname : Unreserved name)
    (hc : TypeDefinition.Keeping change) :
    cx.Passage w [] [] (w.withGraph (w.graph.update id change)) :=
  .update hc (hw.update_of_unreserved hc hid hname)

theorem came_populateInterface (ht : cx.Defined t) (hname : Unreserved t.name)
    (hkind : kindOf t.kind = .interfaceType) (h : ∀ r ∈ cx.content t, cx.Obeys excused names f r)
    (hw : cx.Able names w.graph) (hid : w.graph.idOf? t.name = some id) :
    cx.Came excused w (cx.accountType? t) Anything ((cx.populateInterface f id t).outcome w) := by
  rw [content_interface hkind, ← t.keptSupertypes_eq] at h
  rw [accountType?, content_interface hkind, ← t.keptSupertypes_eq, accountAll?_append,
    accountAll?_append]
  refine (came_registerPlaceholders hw.toIdentified ht hname hkind).quietly
    fun ids u new hu hlength => ?_
  have hattach : cx.Passage u [] [] (u.withGraph (u.graph.update id (.withGenericParams ids))) :=
    passage_fill hu.identified (hu.names hid) hname (TypeDefinition.keeping_withGenericParams ids)
  refine .step hattach ?_
  have hu' := hu.trans hattach
  have hzip : (t.typeParameters.zip ids).flatMap (·.1.bounds) = t.typeParameters.flatMap (·.bounds) := by
    rw [← List.flatMap_map Prod.fst, List.map_fst_zip (Nat.le_of_eq hlength)]
  have hbound : ∀ p ∈ t.typeParameters.zip ids, ∀ r ∈ p.1.bounds, cx.Obeys excused names f r :=
    fun p hp r hr => h r (List.mem_append_left _
      (List.mem_flatMap.2 ⟨p.1, (List.of_mem_zip hp).1, hr⟩))
  have hbounds := came_resolveBounds hbound (hu'.able hw)
  rw [hzip] at hbounds
  refine hbounds.bind fun _ v as new hv _ => ?_
  have hv' := hu'.trans hv
  refine Came.bind (came_resolveProperties (fun c hc => h _ (List.mem_append_right _
    (List.mem_append_left _ (List.mem_map_of_mem hc)))) (hv'.able hw)) fun properties x as new hx _ => ?_
  have hx' := hv'.trans hx
  have hfill := passage_fill hx'.identified (hx'.names hid) hname
    (TypeDefinition.filling_withProperties properties).toKeeping
  refine .step hfill ?_
  have hsupers := came_resolveAll (fun r hr => h r (List.mem_append_right _
    (List.mem_append_right _ hr))) ((hx'.trans hfill).able hw)
  refine hsupers.ending fun superTypes y as new hy _ => ?_
  have hy' := (hx'.trans hfill).trans hy
  exact .lift (passage_fill hy'.identified (hy'.names hid) hname
    (TypeDefinition.filling_withSuperTypes superTypes).toKeeping) trivial

theorem came_populate (ht : cx.Defined t) (hname : Unreserved t.name)
    (h : ∀ r ∈ cx.content t, cx.Obeys excused names f r) (hw : cx.Able names w.graph)
    (hid : w.graph.idOf? t.name = some id) :
    cx.Came excused w (cx.accountType? t) Anything ((cx.populate f id t).outcome w) := by
  by_cases hkind : kindOf t.kind = .interfaceType
  · rw [populate, hkind]
    exact came_populateInterface ht hname hkind h hw hid
  · rw [accountType?, content_plain hkind, accountAll?_nil]
    unfold populate
    split
    · rename_i hinterface
      exact absurd hinterface hkind
    · exact .lift (passage_fill hw.toIdentified hid hname
        (TypeDefinition.filling_withEnumConstants t.enumConstants).toKeeping) trivial
    · exact .pure hw.toIdentified trivial

/-- A type that is not there yet is entered and filled. -/
theorem came_define (ht : cx.Defined t) (hname : Unreserved t.name)
    (h : ∀ r ∈ cx.content t, cx.Obeys excused names f r) (hw : cx.Able (names + 1) w.graph)
    (hnone : w.graph.idOf? t.name = none) :
    cx.Came excused w (some [.enters t.name]) (fun id g => g.idOf? t.name = some id)
      ((cx.define f t).outcome w) := by
  have hlt : cx.pending (w.graph.register (cx.outline t)).1 < cx.pending w.graph :=
    pending_register_lt (outline_mem_registrable ht.1) hnone
  have hentered : cx.Able names (w.graph.register (cx.outline t)).1 :=
    ⟨hw.toIdentified.enter ht hname, Nat.lt_of_lt_of_le hlt (Nat.le_of_lt_succ hw.pending)⟩
  have hid : (w.graph.register (cx.outline t)).1.idOf? t.name =
      some (w.graph.register (cx.outline t)).2 := idOf?_register_self w.graph (cx.outline t)
  have hpopulate := came_populate ht hname h
    (w := w.withGraph (w.graph.register (cx.outline t)).1) hentered hid
  rw [define_outcome_of_none hnone]
  generalize (cx.populate f (w.graph.register (cx.outline t)).2 t).outcome
    (w.withGraph (w.graph.register (cx.outline t)).1) = out at hpopulate
  cases hpopulate with
  | failed he => exact .failed he
  | @ok _ v as new ho hv _ =>
    have hfinish := passage_fill hv.identified (hv.names hid) hname TypeDefinition.keeping_finished
    have hway := hv.trans hfinish
    rw [List.append_nil, List.append_nil] at hway
    exact .ok rfl (.enter ht hname hnone ho hway) (hway.names hid)

/-- After a finding. -/
theorem Came.warned {α : Type} {o : Option (List Effect)} {Q : α → TypeGraph → Prop} {m : Build α}
    (hw : cx.Identified w.graph) (location message : String)
    (hm : ∀ v, cx.Identified v.graph → cx.Came excused v o Q (m.outcome v)) :
    cx.Came excused w (andThen? (some [.notes ⟨.warning, location, message⟩]) o) Q
      (Build.outcome (do Work.warn location message; m) w) := by
  have hnote := Passage.noteAll hw [⟨.warning, location, message⟩]
  exact Came.lift_bind (x := Work.warn location message) (k := fun _ => m) hnote
    (hm _ hnote.identified)

/-- A type that is there already counts as entered. -/
theorem passage_known (hw : cx.Identified w.graph) (ht : cx.Defined t) (hname : Unreserved t.name)
    (hid : w.graph.idOf? t.name = some id) : cx.Passage w [.enters t.name] [] w where
  identified := hw
  names hn := hn
  endpoints := rfl
  own := by simp
  reached {n} hn := by
    obtain rfl : n = t.name := by simpa using hn
    exact (mem_ownNames hw.toWellFormed).2 ⟨hname, ht.2, id, hid⟩
  complete ht := nomatch ht
  within _ _ _ ht := nomatch ht
  noted x := by simp

/-- A name leads to the definition of what it denotes. -/
theorem came_getOrDefine {d : Definer} (hw : cx.Identified w.graph) (hname : Unreserved name)
    (hd : ∀ t, cx.Defined t → t.name = name → w.graph.idOf? t.name = none →
      cx.Came excused w (some [.enters t.name]) (fun id g => g.idOf? t.name = some id)
        ((d t).outcome w)) :
    cx.Came excused w (some (cx.naming name)) (fun id g => g.idOf? (cx.denoted name) = some id)
      ((cx.getOrDefine d name).outcome w) := by
  have hbuiltin (b : TypeDefinition) (hb : b ∈ Builtin.all) (hnaming : cx.naming name = [])
      (hdenoted : cx.denoted name = b.fullName) :
      cx.Came excused w (some (cx.naming name)) (fun id g => g.idOf? (cx.denoted name) = some id)
        ((liftM (Work.register b) : Build TypeId).outcome w) := by
    rw [hnaming, hdenoted]
    exact came_builtin hw hb
  unfold getOrDefine
  cases hex : cx.exclusions.excludes name with
  | true =>
    rw [if_pos rfl]
    exact hbuiltin Builtin.any (by simp [Builtin.all]) (by simp [naming, hex]) (by simp [denoted, hex])
  | false =>
    rw [if_neg Bool.false_ne_true, Build.outcome_lift_bind, Work.run_graph]
    dsimp only
    cases hid : w.graph.idOf? name with
    | some id =>
      rcases hw.predefined_or_defined hname hid with hp | ⟨t, ht, rfl⟩
      · have hnaming : cx.naming name = [] := by simp [naming, hp]
        have hdenoted : cx.denoted name = name := by simp [denoted, hex, hp]
        rw [hnaming, hdenoted]
        exact .pure hw hid
      · rw [naming_of_defined ht, denoted_of_definable ht.1]
        exact .ok rfl (passage_known hw ht hname hid) hid
    | none =>
      have hfree : cx.predefined? name = none := hw.predefined?_eq_none hid
      dsimp only
      split
      · rename_i hc
        exact hbuiltin Builtin.collection (by simp [Builtin.all]) (by simp [naming, hc])
          (by simp [denoted, hex, hfree, hc])
      · rename_i hc
        split
        · rename_i hm
          exact hbuiltin Builtin.map (by simp [Builtin.all]) (by simp [naming, hm])
            (by simp [denoted, hex, hfree, hc, hm])
        · rename_i hm
          cases htype : cx.symbols.type? name with
          | some t =>
            obtain rfl : t.name = name := SymbolTable.type?_name htype
            have ht : cx.Defined t := ⟨⟨hex, by simpa using hc, by simpa using hm, htype⟩, hfree⟩
            rw [naming_of_defined ht, denoted_of_definable ht.1]
            exact hd t ht rfl hid
          | none =>
            have hnaming : cx.naming name = [.notes ⟨.warning, "type:" ++ name,
                "Type is not part of the symbol export, generating 'any'"⟩] := by
              simp [naming, hex, hfree, hc, hm, htype]
            have hdenoted : cx.denoted name = Builtin.any.fullName := by
              simp [denoted, hex, hfree, hc, hm, htype]
            have hany (v : Workspace) (hv : cx.Identified v.graph) :
                cx.Came excused v (some []) (fun id g => g.idOf? Builtin.any.fullName = some id)
                  ((liftM Work.anyId : Build TypeId).outcome v) :=
              came_builtin hv (by simp [Builtin.all])
            rw [hnaming, hdenoted]
            exact Came.warned hw _ _ hany

/-- What a step needs: that a fault is excused, that the references it follows are resolved as their
accounts say, and so is the content of the types that it enters. -/
structure StepObeys (cx : BuildContext) (excused : Prop) (names : Nat) (f : Resolver) (r : TypeRef) :
    Prop where
  fault : cx.immediate? r = none → excused
  followed : ∀ a ∈ cx.followed r, cx.Obeys excused (names + 1) f a
  entered {as : List Effect} {t : DeclaredType} {c : TypeRef} : cx.immediate? r = some as →
    t.name ∈ entries as → cx.Defined t → c ∈ cx.content t → cx.Obeys excused names f c

theorem StepObeys.getOrDefine {r : TypeRef} (h : cx.StepObeys excused names f r)
    (hr : cx.immediate? r = some (cx.naming name)) (hw : cx.Able (names + 1) w.graph)
    (hname : Unreserved name) :
    cx.Came excused w (some (cx.naming name)) (fun id g => g.idOf? (cx.denoted name) = some id)
      ((cx.getOrDefine (cx.define f) name).outcome w) := by
  refine came_getOrDefine hw.toIdentified hname fun t ht hn hnone => ?_
  subst hn
  refine came_define ht hname (fun c hc => h.entered hr ?_ ht hc) hw hnone
  rw [naming_of_defined ht]
  exact List.mem_singleton.2 rfl

theorem came_declared {args : List TypeRef}
    (h : cx.StepObeys excused names f (.declared name args)) (hw : cx.Able (names + 1) w.graph)
    (hname : Unreserved name) (hdenoted : Unreserved (cx.denoted name)) :
    cx.Came excused w (cx.account? (.declared name args)) Anything
      ((cx.resolveStep (cx.define f) f (.declared name args)).outcome w) := by
  rw [account?_eq]
  refine (h.getOrDefine rfl hw hname).bind fun id u as new hu hid => ?_
  refine .step (.refl hu.identified) ?_
  have hkind : u.graph.kind? id = cx.kindNamed? (cx.denoted name) := hu.identified.kind?_eq hdenoted hid
  rw [followed]
  simp only [Work.run_graph, hkind]
  by_cases htakes : (cx.kindNamed? (cx.denoted name)).any (·.hasTypeParams) = true
  · have hargs : ∀ a ∈ args, cx.Obeys excused (names + 1) f a := by
      intro a ha
      refine h.followed a ?_
      rw [followed, if_pos htakes]
      exact ha
    rw [if_pos htakes]
    split
    · exact (came_resolveAll hargs (hu.able hw)).bind_pure fun _ _ _ => trivial
    · rename_i hnil
      obtain rfl : args = [] := by simpa [htakes] using hnil
      exact .pure hu.identified trivial
  · rw [if_neg htakes, if_neg (by simp [htakes])]
    exact .pure hu.identified trivial

/-- A variable of a type leads to the type. -/
theorem came_variable_of_type {owner : String}
    (h : cx.StepObeys excused names f (.typeVar name (.type owner)))
    (hw : cx.Able (names + 1) w.graph) (hname : Unreserved owner) :
    cx.Came excused w (cx.account? (.typeVar name (.type owner))) Anything
      ((cx.resolveVariable (cx.define f) f name (.type owner)).outcome w) := by
  have hfollowed : cx.followed (.typeVar name (.type owner)) = [] := rfl
  have hfault := h.fault
  have hlook (hr : cx.immediate? (.typeVar name (.type owner)) = some (cx.naming owner)) :
      cx.Came excused w (some (cx.naming owner)) (fun id g => g.idOf? (cx.denoted owner) = some id)
        ((cx.getOrDefine (cx.define f) owner).outcome w) := h.getOrDefine hr hw hname
  rw [account?_eq, hfollowed, accountAll?_nil, andThen?_nil]
  rw [immediate?] at hfault hlook ⊢
  rw [resolveVariable, Build.outcome_lift_bind, Work.run_graph]
  dsimp only
  rw [hw.unknown_eq hname]
  split
  · rename_i hunknown
    rw [if_pos hunknown] at hfault
    exact .failed (hfault rfl)
  · rename_i hknown
    rw [if_neg hknown] at hlook
    refine (hlook rfl).ending fun id u as new hu _ => ?_
    exact .step (.refl hu.identified) (.pure hu.identified trivial)

/-- A variable of a method leads to its only bound. -/
theorem came_variable_of_method {declaringType method : String} {overload : Nat}
    (h : cx.StepObeys excused names f (.typeVar name (.method declaringType method overload)))
    (hw : cx.Able (names + 1) w.graph) :
    cx.Came excused w (cx.account? (.typeVar name (.method declaringType method overload))) Anything
      ((cx.resolveVariable (cx.define f) f name (.method declaringType method overload)).outcome w) := by
  have hfault := h.fault
  rw [account?_eq]
  rw [immediate?] at hfault ⊢
  unfold resolveVariable
  dsimp only at hfault ⊢
  cases hp : cx.symbols.typeParameter? (.method declaringType method overload) name with
  | none =>
    rw [hp] at hfault
    exact .failed (hfault rfl)
  | some p =>
    obtain ⟨param, bounds⟩ := p
    have hfollowed : cx.followed (.typeVar name (.method declaringType method overload)) =
        (cx.symbols.soleBound? name (.method declaringType method overload)).toList := rfl
    have hbound := h.followed
    rw [hfollowed] at hbound ⊢
    rcases bounds with _ | ⟨b, _ | ⟨b', bs⟩⟩
    · have hsole : cx.symbols.soleBound? name (.method declaringType method overload) = none := by
        simp only [SymbolTable.soleBound?, hp]
      rw [hsole]
      exact came_anyInstance hw.toIdentified
    · rw [SymbolTable.soleBound?_method hp rfl] at hbound ⊢
      have hsole := hbound b (List.mem_singleton.2 rfl) hw
      rw [Option.map_some, if_pos (show [b].length ≤ 1 from Nat.le_refl 1), nil_andThen?,
        Option.toList_some, accountAll?_cons, accountAll?_nil, andThen?_nil]
      exact hsole
    · have hsole : cx.symbols.soleBound? name (.method declaringType method overload) = none := by
        simp only [SymbolTable.soleBound?, hp]
      rw [hsole, Option.map_some, if_neg (by simp)]
      exact Came.warned hw.toIdentified _ _ fun v hv => came_anyInstance hv

/-- One level of a reference. -/
theorem came_resolveStep {r : TypeRef} (h : cx.StepObeys excused names f r)
    (hw : cx.Able (names + 1) w.graph) (htidy : r.Tidy) :
    cx.Came excused w (cx.account? r) Anything ((cx.resolveStep (cx.define f) f r).outcome w) := by
  cases r with
  | primitive name =>
    have hlook := h.getOrDefine rfl hw (htidy name (by simp [TypeRef.names]))
    rw [account?_eq]
    refine Came.bind hlook fun id u as new hu _ => ?_
    exact .pure hu.identified trivial
  | declared name args =>
    have hname : Unreserved name := htidy name (by simp [TypeRef.names])
    exact came_declared h hw hname (unreserved_denoted hname)
  | typeVar name owner =>
    cases owner with
    | type owner => exact came_variable_of_type h hw (htidy owner (by simp [TypeRef.names]))
    | method declaringType method overload => exact came_variable_of_method h hw
  | wildcard upper lower =>
    rw [account?_eq]
    cases upper with
    | some b =>
      have hbound := h.followed b (List.mem_singleton.2 rfl) hw
      have hfollowed : cx.followed (.wildcard (some b) lower) = [b] := rfl
      rw [immediate?, hfollowed, nil_andThen?, accountAll?_cons, accountAll?_nil, andThen?_nil]
      exact hbound
    | none => exact came_anyInstance hw.toIdentified
  | array component =>
    have hfollowed : cx.followed (.array component) = [component] := rfl
    rw [account?_eq, immediate?, hfollowed, nil_andThen?, accountAll?_cons]
    refine (h.followed component (List.mem_singleton.2 rfl) hw).bind fun c? u as new hu _ => ?_
    have hcollection := passage_builtin hu.identified (b := Builtin.collection) (by simp [Builtin.all])
    exact .step hcollection (.pure hcollection.identified trivial)

end ClientBindings.BuildContext
