import ClientBindings.Proofs.Symbol.Substitution

/-! The variables that are left in the methods that a type inherits. A parameter of a supertype stands
for the argument that is passed for it or else for its first bound, as that is written. A bound that
mentions a parameter again is not replaced in turn, and the variable in it stays on all ways down. -/
namespace ClientBindings

namespace TypeRef

variable {r : TypeRef} {t : DeclaredType} {owner : String} {bindings : Bindings}

/-- Of the variables that belong to types, the reference mentions parameters of this one only. -/
def Within (r : TypeRef) (t : DeclaredType) : Prop :=
  ∀ v ∈ r.vars, ∀ owner, v.2 = .type owner → t.Owns v

instance (r : TypeRef) (t : DeclaredType) : Decidable (r.Within t) :=
  decidable_of_iff (∀ v ∈ r.vars, v.2 matches .type _ → t.Owns v)
    (forall₂_congr fun v _ => by cases v.2 <;> simp)

theorem Within.keepsTo (h : r.Within t) : r.KeepsTo t := fun v hv owner howner =>
  GenericOwner.type.inj (howner.symm.trans (h v hv owner howner).1)

theorem keepsTo_typeVar_type {name : String} :
    (typeVar name (.type owner)).KeepsTo t ↔ owner = t.name := by
  simp [KeepsTo, vars]

theorem keepsTo_typeVar_method {name declaringType method : String} {overload : Nat} :
    (typeVar name (.method declaringType method overload)).KeepsTo t := by
  simp [KeepsTo, vars]

/-- It depends on what the variables are replaced by only. -/
theorem keepsTo_substitute_iff : (r.substitute owner bindings).KeepsTo t ↔
    ∀ v ∈ r.vars, ((typeVar v.1 v.2).substitute owner bindings).KeepsTo t := by
  rw [KeepsTo, vars_substitute]
  constructor
  · exact fun h v hv w hw => h w (List.mem_flatMap.2 ⟨v, hv, hw⟩)
  · intro h w hw
    obtain ⟨v, hv, hw⟩ := List.mem_flatMap.1 hw
    exact h v hv w hw

end TypeRef

theorem Method.types_substitute (m : Method) (owner : String) (bindings : Bindings) :
    (m.substitute owner bindings).types = m.types.map (·.substitute owner bindings) := by
  rw [substitute_eq]
  cases h : m.returnType <;> simp [types, h]

/-- Of the variables that belong to types, bounds, supertypes and signatures mention parameters of the type
itself only. -/
def DeclaredType.SelfContained (t : DeclaredType) : Prop := ∀ r ∈ t.surface, r.Within t

instance (t : DeclaredType) : Decidable t.SelfContained :=
  inferInstanceAs (Decidable (∀ r ∈ t.surface, r.Within t))

theorem DeclaredType.SelfContained.separate {t : DeclaredType} (h : t.SelfContained) : t.Separate :=
  fun r hr => (h r hr).keepsTo

/-- In these uses, the last one first, something is left open in what the parameter stands for: a variable
of the same type again, from a bound, or a variable of the type below for which that is so. -/
inductive LeftOpen : List Use → String → Prop
  | bound {use : Use} {below : List Use} {p q : String} {r : TypeRef}
      (hp : use.meaning.lookup p = some r) (hq : (q, .type use.type.name) ∈ r.vars) :
      LeftOpen (use :: below) p
  | passed {use next : Use} {below : List Use} {p q : String} {r : TypeRef}
      (hp : use.meaning.lookup p = some r) (hq : (q, .type next.type.name) ∈ r.vars)
      (h : LeftOpen (next :: below) q) : LeftOpen (use :: next :: below) p

namespace SymbolTable

open TypeRef DeclaredType

variable {s : SymbolTable} {t u w : DeclaredType} {bindings : Bindings} {uses : List Use}
  {r : TypeRef} {m : Method}

namespace Ascent

theorem leftOpen_cons_iff (h : s.Ascent t u bindings uses) {use : Use} {p : String}
    (hp : use.meaning.lookup p = some r) : LeftOpen (use :: uses) p ↔
      ∃ v ∈ r.vars, v.2 = .type use.type.name ∨ v.2 = .type u.name ∧ LeftOpen uses v.1 := by
  constructor
  · intro hopen
    cases hopen with
    | bound hp' hq =>
      obtain rfl := Option.some.inj (hp.symm.trans hp')
      exact ⟨_, hq, .inl rfl⟩
    | passed hp' hq hnext =>
      obtain rfl := Option.some.inj (hp.symm.trans hp')
      cases h
      exact ⟨_, hq, .inr ⟨rfl, hnext⟩⟩
  · rintro ⟨⟨q, owner⟩, hq, rfl | ⟨rfl, hopen⟩⟩
    · exact .bound hp hq
    · cases h with
      | start => cases hopen
      | up => exact .passed hp hq hopen

/-- What a parameter stands for keeps to the first type unless it is left open. The induction is on the
way up; on each level arguments mention variables of the level below and bounds those of the same. -/
theorem keepsTo_parameter_iff (h : s.Ascent t u bindings uses) (hs : ∀ u ∈ s.types, u.SelfContained)
    (ht : s.type? t.name = some t) {p : String} (hp : p ∈ u.typeParameters.map (·.name)) :
    ((typeVar p (.type u.name)).substitute u.name bindings).KeepsTo t ↔ ¬LeftOpen uses p := by
  induction h generalizing p with
  | start =>
    rw [substitute_nil, keepsTo_typeVar_type]
    exact iff_of_true rfl fun hopen => nomatch hopen
  | @up u w bindings uses args below hsuper hw hnew ih =>
    have hu := hs u (type?_mem (below.declared ht))
    have hw' := hs w (type?_mem hw)
    have hne : w.name ≠ u.name := fun heq => hnew (heq ▸ below.name_mem)
    have hfirst : w.name ≠ t.name := fun heq => hnew (by simp [heq])
    obtain ⟨r, hr⟩ : ∃ r, (Use.mk w args).meaning.lookup p = some r :=
      Option.isSome_iff_exists.1 (lookup_parameterBindings p hp)
    have hlookup := lookup_substitute (Use.mk w args).meaning u.name bindings p
    rw [below.meaning_substitute hw'.separate hnew] at hlookup
    rw [substitute_typeVar_self, hlookup, hr, Option.map_some, Option.getD_some,
      keepsTo_substitute_iff, below.leftOpen_cons_iff hr, not_exists]
    refine forall_congr' fun v => ?_
    rw [not_and]
    refine forall_congr' fun hv => ?_
    obtain ⟨q, owner⟩ := v
    cases owner with
    | method declaringType method overload =>
      rw [substitute_typeVar_of_ne (by simp)]
      exact iff_of_true keepsTo_typeVar_method (by simp)
    | type owner =>
      rcases mem_vars_meaning (Bindings.mem_of_lookup hr) hv with hv | ⟨p', hp', r', hhead, hv⟩
      -- A variable in an argument is one of the level below, and it is open here if it is there.
      · obtain ⟨howner, hq⟩ := hu _ (mem_surface_of_supertype hsuper) _ (by rwa [vars]) owner rfl
        obtain rfl := GenericOwner.type.inj howner
        rw [ih hq]
        simp [Ne.symm hne]
      -- A variable in a bound is one of the type itself, and no level below replaces it.
      · have hbound := mem_surface_of_bound (List.mem_of_mem_drop hp') (List.mem_of_mem_head? hhead)
        obtain rfl := (hw' r' hbound).keepsTo _ hv owner rfl
        rw [substitute_typeVar_of_ne (by simpa using hne), keepsTo_typeVar_type]
        simp [hfirst]

theorem keepsTo_iff (h : s.Ascent t u bindings uses) (hs : ∀ u ∈ s.types, u.SelfContained)
    (ht : s.type? t.name = some t) (hr : r.Within u) :
    (r.substitute u.name bindings).KeepsTo t ↔
      ∀ p, (p, .type u.name) ∈ r.vars → ¬LeftOpen uses p := by
  rw [keepsTo_substitute_iff]
  constructor
  · intro hkeeps p hp
    exact (h.keepsTo_parameter_iff hs ht (hr _ hp u.name rfl).2).1 (hkeeps _ hp)
  · rintro hclosed ⟨p, owner⟩ hp
    cases owner with
    | method declaringType method overload =>
      rw [substitute_typeVar_of_ne (by simp)]
      exact keepsTo_typeVar_method
    | type owner =>
      obtain ⟨howner, hmem⟩ := hr _ hp owner rfl
      obtain rfl := GenericOwner.type.inj howner
      exact (h.keepsTo_parameter_iff hs ht hmem).2 (hclosed p hp)

theorem method_keepsTo_iff (h : s.Ascent t u bindings uses)
    (hs : ∀ u ∈ s.types, u.SelfContained) (ht : s.type? t.name = some t) (hm : m ∈ u.methods) :
    (∀ r ∈ (m.substitute u.name bindings).types, r.KeepsTo t) ↔
      ∀ r ∈ m.types, ∀ p, (p, .type u.name) ∈ r.vars → ¬LeftOpen uses p := by
  rw [Method.types_substitute, List.forall_mem_map]
  have hu := hs u (type?_mem (h.declared ht))
  exact forall₂_congr fun r hr => h.keepsTo_iff hs ht (hu r (mem_surface_of_signature hm hr))

end Ascent

/-- No parameter that a supertype leaves out has a first bound that mentions a variable of a type. -/
def Erases (s : SymbolTable) : Prop :=
  ∀ u ∈ s.types, ∀ w args, .declared w.name args ∈ u.supertypes → s.type? w.name = some w →
    ∀ p ∈ w.typeParameters.drop args.length, ∀ r, p.bounds.head? = some r →
      ∀ v ∈ r.vars, ∀ owner, v.2 ≠ .type owner

theorem Ascent.not_leftOpen (h : s.Ascent t u bindings uses) (hs : ∀ u ∈ s.types, u.SelfContained)
    (ht : s.type? t.name = some t) (herases : s.Erases) {p : String} : ¬LeftOpen uses p := by
  induction h generalizing p with
  | start => exact fun hopen => nomatch hopen
  | @up u w bindings uses args below hsuper hw hnew ih =>
    intro hopen
    cases hopen with
    | passed hp hq hnext => exact ih hnext
    | @bound _ _ _ q r hp hq =>
      have hu := type?_mem (below.declared ht)
      rcases mem_vars_meaning (Bindings.mem_of_lookup hp) hq with hq | ⟨p', hp', r', hhead, hq⟩
      · have hargs := (hs u hu).separate _ (mem_surface_of_supertype hsuper)
        have hname := hargs _ (by rwa [vars]) w.name rfl
        exact hnew (hname ▸ below.name_mem)
      · exact herases u hu w args hsuper hw p' hp' r' hhead _ hq w.name rfl

/-- The signatures that a type has and inherits mention, of the variables of types, its own only: exactly
if no unhidden method of a visited type mentions a parameter that is left open on the way up to it, and
so wherever the first bounds that are put in place of arguments mention no variables of types. -/
theorem allMethods_own_iff (hs : ∀ u ∈ s.types, u.SelfContained)
    (hn : ∀ u ∈ s.types, NamesSupertypes u) (ht : s.type? t.name = some t) :
    ((∀ m ∈ s.allMethods t, ∀ r ∈ m.types, r.KeepsTo t) ↔
      ∀ before v after, s.lineage t = before ++ v :: after → ∀ m ∈ unhidden before v.1,
        ∀ uses, s.Ascent t v.1 v.2 uses → ∀ r ∈ m.types, ∀ p, (p, .type v.1.name) ∈ r.vars →
          ¬LeftOpen uses p) ∧
    (s.Erases → ∀ m ∈ s.allMethods t, ∀ r ∈ m.types, r.KeepsTo t) := by
  rw [forall_mem_allMethods]
  constructor
  · refine forall₃_congr fun before v after => forall_congr' fun heq => forall₂_congr fun m hm => ?_
    have hv : v ∈ s.lineage t := by simp [heq]
    obtain ⟨uses, hway, -⟩ := (s.breadthFirst_lineage t).exists_ascent ht hn v hv
    have hm' : m ∈ v.1.methods := (List.mem_filter.1 hm).1
    constructor
    · exact fun hkeeps uses' hway' => (hway'.method_keepsTo_iff hs ht hm').1 hkeeps
    · exact fun hclosed => (hway.method_keepsTo_iff hs ht hm').2 (hclosed uses hway)
  · intro herases before v after heq m hm
    have hv : v ∈ s.lineage t := by simp [heq]
    obtain ⟨uses, hway, -⟩ := (s.breadthFirst_lineage t).exists_ascent ht hn v hv
    refine (hway.method_keepsTo_iff hs ht (List.mem_filter.1 hm).1).2 fun r _ p _ => ?_
    exact hway.not_leftOpen hs ht herases

/-- A class whose second parameter is bounded by the first, and a method that returns one of them. -/
def baseType (result : String) : DeclaredType :=
  plainType "a.Base" [⟨"T", [.declared "java.lang.Number" []]⟩, ⟨"U", [.typeVar "T" (.type "a.Base")]⟩]
    none [] [plainMethod "get" [] (.typeVar result (.type "a.Base"))]

def rawType : DeclaredType := plainType "a.Raw" [] (some (.declared "a.Base" [])) [] []

/-- A class that extends the other without arguments. -/
def rawExport (result : String) : SymbolTable := ⟨[baseType result, rawType], []⟩

/-- The first parameter is not left open, as the method that returns it keeps to the subclass; the second
one is. -/
theorem allMethods_own_iff_raw :
    ¬LeftOpen [⟨baseType "T", []⟩] "T" ∧ LeftOpen [⟨baseType "T", []⟩] "U" := by
  have hway : (rawExport "T").Ascent rawType (baseType "T")
      (parameterBindings (baseType "T").typeParameters []) [⟨baseType "T", []⟩] := by
    have hsuper : .declared (baseType "T").name [] ∈ rawType.supertypes := List.mem_singleton.2 rfl
    have hdeclared : (rawExport "T").type? (baseType "T").name = some (baseType "T") := rfl
    exact Ascent.start.up hsuper hdeclared (by decide)
  have hlineage : (rawExport "T").lineage rawType = [(rawType, [])] ++
      (baseType "T", parameterBindings (baseType "T").typeParameters []) :: [] := by
    with_unfolding_all rfl
  have hkeeps : ∀ m ∈ (rawExport "T").allMethods rawType, ∀ r ∈ m.types, r.KeepsTo rawType := by
    decide +kernel
  have hiff := (allMethods_own_iff (s := rawExport "T") (t := rawType) (by decide +kernel)
    (by decide +kernel) rfl).1
  constructor
  · refine hiff.1 hkeeps _ _ _ hlineage _ (List.mem_filter.2 ⟨List.mem_singleton.2 rfl, ?_⟩) _ hway
      (.typeVar "T" (.type "a.Base")) (List.mem_singleton.2 rfl) "T" (List.mem_singleton.2 rfl)
    decide +kernel
  · exact .bound (p := "U") (q := "T") rfl (List.mem_singleton.2 rfl)

/-- The second one stands for its bound there, which is the first one of a type that is not the
subclass. -/
theorem not_keepsTo_raw : (∀ u ∈ (rawExport "U").types, u.SelfContained) ∧
    (rawExport "U").type? "a.Raw" = some rawType ∧
    ∃ m ∈ (rawExport "U").allMethods rawType, ∃ r ∈ m.types, ¬r.KeepsTo rawType ∧
      ("T", .type "a.Base") ∈ r.vars := by
  refine ⟨?_, rfl, ?_⟩ <;> decide +kernel

end SymbolTable

end ClientBindings
