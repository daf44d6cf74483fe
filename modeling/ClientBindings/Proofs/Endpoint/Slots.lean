import ClientBindings.Proofs.Endpoint.Returns
import ClientBindings.Proofs.Resolution.Closure
import ClientBindings.Proofs.Round.Kinds

/-! Which endpoints mention placeholders. A type in a signature comes to one exactly if it leads to a
variable of a type for which there is a parameter: in itself, in an argument that is kept, or by the only
bound of a variable of a method. -/
namespace ClientBindings

open BuildContext TypeGraph

/-- A placeholder is among the numbers in these instances, at any depth. -/
def TypeGraph.Generic (g : TypeGraph) (is : List TypeInstance) : Prop :=
  ∃ id ∈ TypeInstance.idsAll is, g.kind? id = some .genericPlaceholder

namespace TypeGraph

variable {g : TypeGraph} {is js : List TypeInstance} {id : TypeId}

theorem not_generic_nil (g : TypeGraph) : ¬g.Generic [] := fun ⟨_, h, _⟩ => nomatch h

theorem generic_append : g.Generic (is ++ js) ↔ g.Generic is ∨ g.Generic js := by
  simp only [Generic, TypeInstance.idsAll_append, List.mem_append, or_and_right, exists_or]

theorem generic_mk {args : List TypeInstance} :
    g.Generic [.mk id args] ↔ g.kind? id = some .genericPlaceholder ∨ g.Generic args := by
  simp [Generic, TypeInstance.idsAll, TypeInstance.ids]

theorem generic_plain : g.Generic [.plain id] ↔ g.kind? id = some .genericPlaceholder := by
  rw [TypeInstance.plain, generic_mk, or_iff_left (not_generic_nil g)]

/-- Numbers of names without the sign of placeholders are not those of placeholders. -/
theorem Clear.kind?_ne (hg : g.Regular) (h : g.Clear id) : g.kind? id ≠ some .genericPlaceholder := by
  obtain ⟨n, hn, hid⟩ := h
  intro hkind
  obtain ⟨d, hd, hd'⟩ := Option.map_eq_some_iff.1 hkind
  exact hg.ne_placeholder hn hid hd hd'

/-- Placeholders have their sign in their names and nothing else has, and the parameters of definitions are
placeholders. -/
structure Kinded (g : TypeGraph) : Prop where
  regular : g.Regular
  closed : g.Closed True

theorem Kinded.kind?_of_mem_genericParams (hg : g.Kinded) {d : TypeDefinition} {p : TypeId}
    (hd : g.definition? id = some d) (hp : p ∈ d.genericParams) :
    g.kind? p = some .genericPlaceholder := by
  obtain ⟨q, hq, hkind, -⟩ := hg.closed.params trivial hd hp
  rw [kind?, hq, Option.map_some, hkind]

end TypeGraph

namespace BuildContext

variable {cx : BuildContext} {g : TypeGraph} {id : TypeId} {name : String} {r : TypeRef}

/-- A reference leads to a variable of a type that stands for a definition with such a parameter: it is
that variable or a variable of a method whose only bound leads to it, it is bounded above by what does, an
array of it, or a type that keeps an argument which does. -/
inductive LeadsToSlot (cx : BuildContext) (g : TypeGraph) : TypeRef → Prop
  | slot {name owner : String} {id : TypeId} (hid : cx.StandsFor g owner id) (h : g.HasParameter id name) :
      LeadsToSlot cx g (.typeVar name (.type owner))
  | bound {name declaringType method : String} {overload : Nat} {p : TypeParameter} {b : TypeRef}
      (hp : cx.symbols.typeParameter? (.method declaringType method overload) name = some p)
      (hb : p.bounds = [b]) (h : LeadsToSlot cx g b) :
      LeadsToSlot cx g (.typeVar name (.method declaringType method overload))
  | upper {b : TypeRef} {lower : Option TypeRef} (h : LeadsToSlot cx g b) :
      LeadsToSlot cx g (.wildcard (some b) lower)
  | component {c : TypeRef} (h : LeadsToSlot cx g c) : LeadsToSlot cx g (.array c)
  | argument {name : String} {id : TypeId} {args : List TypeRef} {a : TypeRef}
      (hid : cx.StandsFor g name id) (hkind : (g.kind? id).any (·.hasTypeParams) = true) (ha : a ∈ args)
      (h : LeadsToSlot cx g a) : LeadsToSlot cx g (.declared name args)

theorem StandsFor.leadsToSlot_iff {owner : String} (h : cx.StandsFor g owner id) :
    cx.LeadsToSlot g (.typeVar name (.type owner)) ↔ g.HasParameter id name := by
  constructor
  · intro hleads
    cases hleads with
    | slot hid hparameter => exact h.unique hid ▸ hparameter
  · exact .slot h

theorem leadsToSlot_method_iff {declaringType method : String} {overload : Nat} {p : TypeParameter}
    (hp : cx.symbols.typeParameter? (.method declaringType method overload) name = some p) :
    cx.LeadsToSlot g (.typeVar name (.method declaringType method overload)) ↔
      ∃ b, p.bounds = [b] ∧ cx.LeadsToSlot g b := by
  constructor
  · intro h
    cases h with
    | bound hp' hb h =>
      obtain rfl := Option.some.inj (hp.symm.trans hp')
      exact ⟨_, hb, h⟩
  · rintro ⟨b, hb, h⟩
    exact .bound hp hb h

theorem StandsFor.leadsToSlot_declared_iff {args : List TypeRef} (h : cx.StandsFor g name id) :
    cx.LeadsToSlot g (.declared name args) ↔
      (g.kind? id).any (·.hasTypeParams) = true ∧ ∃ a ∈ args, cx.LeadsToSlot g a := by
  constructor
  · intro hleads
    cases hleads with
    | argument hid hkind ha hleads => exact ⟨h.unique hid ▸ hkind, _, ha, hleads⟩
  · rintro ⟨hkind, a, ha, hleads⟩
    exact .argument h hkind ha hleads

theorem leadsToSlot_upper_iff {b : TypeRef} {lower : Option TypeRef} :
    cx.LeadsToSlot g (.wildcard (some b) lower) ↔ cx.LeadsToSlot g b := by
  constructor
  · intro h
    cases h with
    | upper h => exact h
  · exact .upper

theorem leadsToSlot_array_iff {c : TypeRef} : cx.LeadsToSlot g (.array c) ↔ cx.LeadsToSlot g c := by
  constructor
  · intro h
    cases h with
    | component h => exact h
  · exact .component

/-- A name without the sign of placeholders stands for a definition of such a name. -/
theorem StandsFor.clear (h : cx.StandsFor g name id) (hname : Unreserved name) : g.Clear id := by
  obtain ⟨n, hn, hid⟩ := h
  refine ⟨n, ?_, hid⟩
  unfold nameIn? at hn
  split at hn
  · exact Option.some.inj hn ▸ unreserved_builtin (by simp [Builtin.all])
  split at hn
  · exact Option.some.inj hn ▸ hname
  split at hn
  · exact Option.some.inj hn ▸ unreserved_builtin (by simp [Builtin.all])
  split at hn
  · exact Option.some.inj hn ▸ unreserved_builtin (by simp [Builtin.all])
  split at hn
  · cases hn
  · exact Option.some.inj hn ▸ unreserved_builtin (by simp [Builtin.all])

/-- Wherever a resolver succeeds, what it comes to mentions a placeholder of a later graph exactly if the
reference leads to a slot of that. -/
def Places (cx : BuildContext) (g : TypeGraph) (f : Resolver) (r : TypeRef) : Prop :=
  ∀ ⦃w v i?⦄, w.graph.Ready → (f r).outcome w = (.ok i?, v) → cx.Extends v.graph g →
    (g.Generic i?.toList ↔ cx.LeadsToSlot g r)

section resolving

variable {f : Resolver} {w v : Workspace} {i? : Option TypeInstance}

theorem clear_of_register {b : TypeDefinition} (hb : b ∈ Builtin.all)
    (h : (liftM (Work.register b) : Build TypeId).outcome w = (.ok id, v)) (hext : cx.Extends v.graph g) :
    g.Clear id := by
  rw [Build.outcome_lift, Work.run_register] at h
  cases h
  exact ⟨b.fullName, unreserved_builtin hb, hext.names (idOf?_register_self _ b)⟩

/-- References that are resolved in order extend the graph. -/
theorem resolveAll_framed (hf : ∀ r, cx.Framed (f r)) (rs : List TypeRef) : cx.Framed (resolveAll f rs) :=
  framed_iff_keeps.2 fun g₀ => keeps_resolveAll fun r _ => framed_iff_keeps.1 (hf r) g₀

/-- A name without the sign of placeholders goes on standing for what it was looked up as. -/
theorem getOrDefine_standsFor_later (hs : cx.symbols.Unreserved) (hf : ∀ r, cx.Framed (f r))
    (hw : w.graph.Ready) (hname : Unreserved name)
    (h : (cx.getOrDefine (cx.define f) name).outcome w = (.ok id, v)) (hext : cx.Extends v.graph g) :
    cx.StandsFor g name id :=
  (getOrDefine_standsFor hs hf hw h).extend hext (.inl hname)

/-- References in order come to a placeholder exactly if one of them leads to a slot. -/
theorem resolveAll_generic_iff (hf : ∀ r, cx.Framed (f r)) {rs : List TypeRef}
    (hplaces : ∀ r ∈ rs, cx.Places g f r) {is : List TypeInstance} (hw : w.graph.Ready)
    (h : (resolveAll f rs).outcome w = (.ok is, v)) (hext : cx.Extends v.graph g) :
    g.Generic is ↔ ∃ r ∈ rs, cx.LeadsToSlot g r := by
  induction rs generalizing w is with
  | nil =>
    cases h
    simp [not_generic_nil]
  | cons r rs ih =>
    obtain ⟨i?, u, hi, h⟩ := Build.outcome_bind_ok.1 h
    obtain ⟨rest, u', hrest, h⟩ := Build.outcome_bind_ok.1 h
    cases h
    rw [List.forall_mem_cons] at hplaces
    have hu : u.graph.Ready := ((hf r).grown hw hi).2
    have hlater : cx.Extends u.graph v.graph := ((resolveAll_framed hf rs).grown hu hrest).1
    rw [generic_append, hplaces.1 hw hi (hlater.trans hext), ih hplaces.2 hu hrest]
    simp only [List.mem_cons, exists_eq_or_imp]

variable (hg : g.Kinded)
include hg

theorem not_generic_any {i : TypeInstance}
    (h : (liftM Work.anyInstance : Build TypeInstance).outcome w = (.ok i, v))
    (hext : cx.Extends v.graph g) : ¬g.Generic [i] := by
  cases h
  rw [generic_plain]
  exact (clear_of_register (b := Builtin.any) (by simp [Builtin.all]) rfl hext).kind?_ne hg.regular

variable (hs : cx.symbols.Tidy)
include hs

theorem places_primitive (hf : ∀ r, cx.Framed (f r)) (hr : (TypeRef.primitive name).Tidy) :
    cx.Places g (cx.resolveStep (cx.define f) f) (.primitive name) := by
  intro w v i? hw h hext
  obtain ⟨id, u, hid, h⟩ := Build.outcome_bind_ok.1 h
  cases h
  have hname : Unreserved name := hr.unreserved_of_name? rfl
  have hstands : cx.StandsFor g name id := getOrDefine_standsFor_later hs.unreserved hf hw hname hid hext
  refine iff_of_false (fun hgeneric => ?_) fun hleads => nomatch hleads
  exact (hstands.clear hname).kind?_ne hg.regular (generic_plain.1 hgeneric)

theorem places_declared (hf : ∀ r, cx.Framed (f r)) {args : List TypeRef}
    (hr : (TypeRef.declared name args).Tidy) (hargs : ∀ a ∈ args, cx.Places g f a) :
    cx.Places g (cx.resolveStep (cx.define f) f) (.declared name args) := by
  intro w v i? hw h hext
  obtain ⟨id, u, hid, h⟩ := Build.outcome_bind_ok.1 h
  rw [Build.outcome_lift_bind, Work.run_graph] at h
  dsimp only at h
  have hname : Unreserved name := hr.unreserved_of_name? rfl
  have hu : u.graph.Ready := ((getOrDefine_framed hs.unreserved hf name).grown hw hid).2
  obtain ⟨d, hd⟩ := getOrDefine_registered hs.unreserved hf hw hid
  split at h
  · rename_i htakes
    obtain ⟨is, u', his, h⟩ := Build.outcome_bind_ok.1 h
    cases h
    have hlater : cx.Extends u.graph g := ((resolveAll_framed hf args).grown hu his).1.trans hext
    have hstands : cx.StandsFor g name id := getOrDefine_standsFor_later hs.unreserved hf hw hname hid hlater
    have hkind : (g.kind? id).any (·.hasTypeParams) = true := by
      rw [kind?_extends ⟨d, hd⟩ hlater]
      exact (Bool.and_eq_true_iff.1 htakes).1
    rw [Option.toList_some, generic_mk, or_iff_right ((hstands.clear hname).kind?_ne hg.regular),
      resolveAll_generic_iff hf hargs hu his hext, hstands.leadsToSlot_declared_iff, and_iff_right hkind]
  · rename_i htakes
    cases h
    have hstands : cx.StandsFor g name id := getOrDefine_standsFor_later hs.unreserved hf hw hname hid hext
    rw [Option.toList_some, generic_plain, hstands.leadsToSlot_declared_iff]
    -- arguments are left out where there are none or the definition takes none
    refine iff_of_false ((hstands.clear hname).kind?_ne hg.regular) ?_
    rintro ⟨hkind, a, ha, -⟩
    rw [kind?_extends ⟨d, hd⟩ hext] at hkind
    exact htakes (Bool.and_eq_true_iff.2 ⟨hkind, by simp [List.ne_nil_of_mem ha]⟩)

omit hs in
theorem places_array {d : Definer} {c : TypeRef} (hf : cx.Framed (f c)) (hc : cx.Places g f c) :
    cx.Places g (cx.resolveStep d f) (.array c) := by
  intro w v i? hw h hext
  obtain ⟨i?, u, hi, h⟩ := Build.outcome_bind_ok.1 h
  obtain ⟨id, u', hid, h⟩ := Build.outcome_bind_ok.1 h
  cases h
  have hmem : Builtin.collection ∈ Builtin.all := by simp [Builtin.all]
  have hclear : g.Clear id := clear_of_register hmem hid hext
  have hsame : v.graph = u.graph := by
    rw [Build.outcome_lift, Work.run_collectionId, (hf.grown hw hi).2.stocked.register hmem] at hid
    cases hid
    rfl
  rw [Option.toList_some, generic_mk, or_iff_right (hclear.kind?_ne hg.regular), hc hw hi (hsame ▸ hext),
    leadsToSlot_array_iff]

theorem places_typeVar {owner : String} (hf : ∀ r, cx.Framed (f r))
    (hr : (TypeRef.typeVar name (.type owner)).Tidy) :
    cx.Places g (cx.resolveStep (cx.define f) f) (.typeVar name (.type owner)) := by
  intro w v i? hw h hext
  rw [resolveStep, resolveVariable, Build.outcome_lift_bind, Work.run_graph] at h
  dsimp only at h
  split at h
  · cases h
  · obtain ⟨id, u, hid, h⟩ := Build.outcome_bind_ok.1 h
    rw [Build.outcome_lift_bind, Work.run_graph] at h
    cases h
    have howner : Unreserved owner := hr owner (by simp [TypeRef.names])
    have hu : u.graph.Ready := ((getOrDefine_framed hs.unreserved hf owner).grown hw hid).2
    have hstands : cx.StandsFor g owner id := getOrDefine_standsFor_later hs.unreserved hf hw howner hid hext
    rw [← placeholder?_extends hu (getOrDefine_registered hs.unreserved hf hw hid) hext,
      hstands.leadsToSlot_iff]
    cases hp : placeholder? g id name with
    | none => exact iff_of_false (not_generic_nil g) (placeholder?_eq_none_iff.1 hp)
    | some p =>
      obtain ⟨d, hd, hmem⟩ := mem_genericParams_of_placeholder? hp
      refine iff_of_true (generic_plain.2 (hg.kind?_of_mem_genericParams hd hmem)) ?_
      exact not_not.1 fun hno => by simp [placeholder?_eq_none_iff.2 hno] at hp

omit hs in
theorem places_method {d : Definer} {declaringType method : String} {overload : Nat}
    (hb : ∀ b, cx.symbols.soleBound? name (.method declaringType method overload) = some b →
      cx.Places g f b) :
    cx.Places g (cx.resolveStep d f) (.typeVar name (.method declaringType method overload)) := by
  intro w v i? hw h hext
  simp only [resolveStep, resolveVariable] at h
  split at h
  · cases h
  rename_i p hp
  rw [leadsToSlot_method_iff hp]
  split at h
  · rename_i b hbounds
    rw [hb b (SymbolTable.soleBound?_method hp hbounds) hw h hext, hbounds]
    simp
  · rename_i hbounds
    obtain ⟨i, u, hi, h⟩ := Build.outcome_bind_ok.1 h
    cases h
    rw [hbounds]
    exact iff_of_false (not_generic_any hg hi hext) (by simp)
  · rename_i hbounds _
    obtain ⟨_, u, -, h⟩ := Build.outcome_bind_ok.1 h
    obtain ⟨i, u', hi, h⟩ := Build.outcome_bind_ok.1 h
    cases h
    refine iff_of_false (not_generic_any hg hi hext) ?_
    rintro ⟨b, heq, -⟩
    exact hbounds b heq

/-- What resolving comes to mentions a placeholder of a later graph exactly if the reference leads to a
slot. -/
theorem resolveAt_places (depth : Nat) (hr : r.Tidy) : cx.Places g (cx.resolveAt depth) r := by
  induction depth generalizing r with
  | zero => exact fun _ _ _ _ h => nomatch h
  | succ depth ih =>
    have hf := resolveAt_framed hs.unreserved depth
    have hinner (a : TypeRef) (ha : a ∈ cx.inner r) : cx.Places g (cx.resolveAt depth) a :=
      ih (tidy_of_inner hs hr ha)
    cases r with
    | primitive name => exact places_primitive hg hs hf hr
    | declared name args => exact places_declared hg hs hf hr hinner
    | typeVar name owner =>
      cases owner with
      | type owner => exact places_typeVar hg hs hf hr
      | method declaringType method overload =>
        exact places_method hg fun b hb => hinner b (Option.mem_toList.2 hb)
    | wildcard upper lower =>
      intro w v i? hw h hext
      cases upper with
      | some b =>
        rw [hinner b (Option.mem_toList.2 rfl) hw h hext, leadsToSlot_upper_iff]
      | none =>
        obtain ⟨i, u, hi, h⟩ := Build.outcome_bind_ok.1 h
        cases h
        exact iff_of_false (not_generic_any hg hi hext) fun hleads => nomatch hleads
    | array component => exact places_array hg (hf _) (hinner component (List.mem_singleton.2 rfl))

theorem resolve_places (hr : r.Tidy) : cx.Places g cx.resolve r :=
  fun _ _ _ hw h hext => resolveAt_places hg hs _ hr hw h hext

end resolving

section endpoints

variable {f : Resolver} {w v : Workspace} {location controller : String} {default? : Option Mapping}

theorem warnOfClash_framed (cx : BuildContext) (location : String) (p : Parameter) (place : BindingLocation)
    (others : List (BindingLocation × ResolvedAnnotation)) :
    cx.Framed (liftM (warnOfClash location p place others) : Build Unit) :=
  framed_iff_keeps.2 fun g₀ => (observant_grown g₀).keeps_warnOfClash location p place others

theorem orAny_framed (cx : BuildContext) (i? : Option TypeInstance) :
    cx.Framed (liftM (Work.orAny i?) : Build TypeInstance) :=
  framed_iff_keeps.2 fun g₀ => (observant_grown g₀).keeps_orAny i?

theorem buildParameter_framed (p : Parameter) (hf : cx.Framed (f p.type)) :
    cx.Framed (cx.buildParameter f p location) :=
  framed_iff_keeps.2 fun g₀ =>
    keeps_buildParameter (observant_grown g₀) (framed_iff_keeps.1 hf g₀) location

theorem buildMethods_framed (hf : ∀ r, cx.Framed (f r)) (ms : List Method) :
    cx.Framed (cx.buildMethods f controller default? ms) :=
  framed_iff_keeps.2 fun g₀ => keeps_buildMethods (observant_grown g₀) (fun _ _ _ _ hw => .inr hw)
    (fun r => framed_iff_keeps.1 (hf r) g₀) controller default? ms

variable (hg : g.Kinded) (hf : ∀ r, cx.Framed (f r))
include hg

/-- What stands where an instance is needed is any type, unless there is one. -/
theorem orAny_generic_iff {i? : Option TypeInstance} {i : TypeInstance}
    (h : (liftM (Work.orAny i?) : Build TypeInstance).outcome w = (.ok i, v)) (hext : cx.Extends v.graph g) :
    g.Generic [i] ↔ g.Generic i?.toList := by
  cases i? with
  | some i =>
    cases h
    rfl
  | none => exact iff_of_false (not_generic_any hg h hext) (not_generic_nil g)

include hf

theorem buildParameter_generic_iff {p : Parameter} {built : Option MethodParameter}
    (hplaces : ∀ r ∈ cx.symbols.boundTypes p, cx.Places g f r) (hw : w.graph.Ready)
    (h : (cx.buildParameter f p location).outcome w = (.ok built, v)) (hext : cx.Extends v.graph g) :
    g.Generic (built.toList.map (·.type)) ↔ ∃ r ∈ cx.symbols.boundTypes p, cx.LeadsToSlot g r := by
  unfold buildParameter at h
  split at h
  · rename_i hbindings
    cases h
    simp [SymbolTable.boundTypes, hbindings, not_generic_nil]
  · rename_i place resolved others hbindings
    have hbound : cx.symbols.boundTypes p = [p.type] := by simp [SymbolTable.boundTypes, hbindings]
    rw [hbound, List.forall_mem_singleton] at hplaces
    obtain ⟨_, u, hwarn, h⟩ := Build.outcome_bind_ok.1 h
    obtain ⟨i?, u', hi?, h⟩ := Build.outcome_bind_ok.1 h
    obtain ⟨i, u'', hi, h⟩ := Build.outcome_bind_ok.1 h
    cases h
    have hu : u.graph.Ready := ((warnOfClash_framed cx location p place others).grown hw hwarn).2
    have hu' : u'.graph.Ready := ((hf p.type).grown hu hi?).2
    have hlater : cx.Extends u'.graph g := ((orAny_framed cx i?).grown hu' hi).1.trans hext
    rw [Option.toList_some, List.map_singleton, orAny_generic_iff hg hi hext, hplaces hu hi? hlater, hbound]
    simp

theorem buildParameters_generic_iff {ps : List Parameter} {built : List MethodParameter}
    (hplaces : ∀ r ∈ ps.flatMap cx.symbols.boundTypes, cx.Places g f r) (hw : w.graph.Ready)
    (h : (cx.buildParameters f location ps).outcome w = (.ok built, v)) (hext : cx.Extends v.graph g) :
    g.Generic (built.map (·.type)) ↔ ∃ r ∈ ps.flatMap cx.symbols.boundTypes, cx.LeadsToSlot g r := by
  induction ps generalizing w built with
  | nil =>
    cases h
    simp [not_generic_nil]
  | cons p ps ih =>
    obtain ⟨first, u, hfirst, h⟩ := Build.outcome_bind_ok.1 h
    obtain ⟨rest, u', hrest, h⟩ := Build.outcome_bind_ok.1 h
    cases h
    rw [List.flatMap_cons, List.forall_mem_append] at hplaces
    have hu : u.graph.Ready := ((buildParameter_framed p (hf p.type)).grown hw hfirst).2
    have hlater : cx.Extends u.graph v.graph := ((buildParameters_framed hf location ps).grown hu hrest).1
    rw [List.map_append, generic_append, ih hplaces.2 hu hrest,
      buildParameter_generic_iff hg hf hplaces.1 hw hfirst (hlater.trans hext), List.flatMap_cons]
    simp only [List.mem_append, or_and_right, exists_or]

theorem buildMethod_generic_iff {m : Method} {built : Option EndpointMethod}
    (hplaces : ∀ r ∈ cx.symbols.signature m, cx.Places g f r) (hw : w.graph.Ready)
    (h : (cx.buildMethod f controller default? m).outcome w = (.ok built, v)) (hext : cx.Extends v.graph g) :
    g.Generic (built.toList.flatMap Endpoint.typesOfMethod) ↔
      ∃ r ∈ cx.symbols.signature m, cx.LeadsToSlot g r := by
  unfold buildMethod at h
  obtain ⟨mapping?, u, hmapping, h⟩ := Build.outcome_bind_ok.1 h
  have hu : u.graph.Ready := ((resolveMapping_framed cx _ _).grown hw hmapping).2
  have hmapped := SymbolTable.mayBeMappedAs_of_outcome hmapping
  cases mapping? with
  | none =>
    cases h
    rw [SymbolTable.MayBeMappedAs] at hmapped
    simp [SymbolTable.signature, hmapped, not_generic_nil]
  | some own =>
    obtain ⟨params, u', hparams, h⟩ := Build.outcome_bind_ok.1 h
    obtain ⟨returnType, u'', hreturn, h⟩ := Build.outcome_bind_ok.1 h
    cases h
    have hsignature : cx.symbols.signature m =
        m.parameters.flatMap cx.symbols.boundTypes ++ m.returnType.toList := if_pos hmapped.isMarked
    rw [hsignature, List.forall_mem_append] at hplaces
    have hu' : u'.graph.Ready := ((buildParameters_framed hf _ m.parameters).grown hu hparams).2
    have hlater : cx.Extends u'.graph v.graph ∧
        (g.Generic returnType.toList ↔ ∃ r ∈ m.returnType.toList, cx.LeadsToSlot g r) := by
      cases hr : m.returnType with
      | none =>
        rw [hr] at hreturn
        cases hreturn
        exact ⟨.refl _, by simp [not_generic_nil]⟩
      | some r =>
        rw [hr] at hreturn hplaces
        refine ⟨((hf r).grown hu' hreturn).1, ?_⟩
        rw [hplaces.2 r (by simp) hu' hreturn hext]
        simp
    rw [hsignature, Option.toList_some, List.flatMap_singleton, Endpoint.typesOfMethod, generic_append,
      buildParameters_generic_iff hg hf hplaces.1 hu hparams (hlater.1.trans hext), hlater.2]
    simp only [List.mem_append, or_and_right, exists_or]

theorem buildMethods_generic_iff {ms : List Method} {built : List EndpointMethod}
    (hplaces : ∀ r ∈ ms.flatMap cx.symbols.signature, cx.Places g f r) (hw : w.graph.Ready)
    (h : (cx.buildMethods f controller default? ms).outcome w = (.ok built, v)) (hext : cx.Extends v.graph g) :
    g.Generic (built.flatMap Endpoint.typesOfMethod) ↔
      ∃ r ∈ ms.flatMap cx.symbols.signature, cx.LeadsToSlot g r := by
  induction ms generalizing w built with
  | nil =>
    cases h
    simp [not_generic_nil]
  | cons m ms ih =>
    obtain ⟨first, u, hfirst, h⟩ := Build.outcome_bind_ok.1 h
    obtain ⟨rest, u', hrest, h⟩ := Build.outcome_bind_ok.1 h
    cases h
    rw [List.flatMap_cons, List.forall_mem_append] at hplaces
    have hu : u.graph.Ready := ((buildMethod_framed hf controller default? m).grown hw hfirst).2
    have hlater : cx.Extends u.graph v.graph := ((buildMethods_framed hf ms).grown hu hrest).1
    rw [List.flatMap_append, generic_append, ih hplaces.2 hu hrest,
      buildMethod_generic_iff hg hf hplaces.1 hw hfirst (hlater.trans hext), List.flatMap_cons]
    simp only [List.mem_append, or_and_right, exists_or]

/-- A draft mentions a placeholder of a later graph exactly if a type in a signature leads to a slot. -/
theorem draft_generic_iff {c : String} {t : DeclaredType} {marker : ResolvedAnnotation} {e : Endpoint}
    (hplaces : ∀ r ∈ cx.symbols.signatures t, cx.Places g f r) (hw : w.graph.Ready)
    (h : (cx.draft f c t marker).outcome w = (.ok e, v)) (hext : cx.Extends v.graph g) :
    g.Generic (e.methods.flatMap Endpoint.typesOfMethod) ↔
      ∃ r ∈ cx.symbols.signatures t, cx.LeadsToSlot g r := by
  obtain ⟨mapping?, u, hmapping, h⟩ := Build.outcome_bind_ok.1 h
  obtain ⟨methods, u', hmethods, h⟩ := Build.outcome_bind_ok.1 h
  cases h
  have hu : u.graph.Ready := ((resolveMapping_framed cx _ _).grown hw hmapping).2
  exact buildMethods_generic_iff hg hf hplaces hu hmethods hext

end endpoints

end BuildContext

end ClientBindings
