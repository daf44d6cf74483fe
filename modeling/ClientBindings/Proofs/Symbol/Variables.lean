import Mathlib.Logic.Relation
import ClientBindings.Proofs.Symbol.Names

/-! The type variables in references. In what a type without parameters inherits, those of the
supertypes have been replaced, as long as each supertype is given as many arguments as it takes. -/
namespace ClientBindings

namespace TypeRef

mutual

/-- The type variables of a reference, at any depth, and what they belong to. -/
def vars : TypeRef → List (String × GenericOwner)
  | .primitive _ => []
  | .declared _ args => varsAll args
  | .typeVar name owner => [(name, owner)]
  | .wildcard upper lower => varsOption upper ++ varsOption lower
  | .array component => vars component

def varsAll : List TypeRef → List (String × GenericOwner)
  | [] => []
  | r :: rs => vars r ++ varsAll rs

def varsOption : Option TypeRef → List (String × GenericOwner)
  | none => []
  | some r => vars r

end

variable {v : String × GenericOwner} {owner : String} {bindings : Bindings}

theorem mem_varsAll {rs : List TypeRef} : v ∈ varsAll rs ↔ ∃ r ∈ rs, v ∈ r.vars := by
  induction rs with
  | nil => simp [varsAll]
  | cons r rs ih => simp [varsAll, ih]

theorem length_substituteAll (rs : List TypeRef) :
    (substituteAll owner bindings rs).length = rs.length := by
  induction rs with
  | nil => rfl
  | cons r rs ih => rw [substituteAll, List.length_cons, List.length_cons, ih]

theorem substitute_typeVar_self {name : String} : (typeVar name (.type owner)).substitute owner bindings =
    (bindings.lookup name).getD (typeVar name (.type owner)) := by
  rw [substitute, if_pos rfl]
  cases bindings.lookup name <;> rfl

theorem substitute_typeVar_of_ne {name : String} {o : GenericOwner} (h : o ≠ .type owner) :
    (typeVar name o).substitute owner bindings = typeVar name o := by
  cases o with
  | type declaredBy => rw [substitute, if_neg fun heq => h (congrArg _ heq)]
  | method declaringType method overload => rw [substitute]

mutual

/-- Each variable gives way to those of what it is replaced by. -/
theorem vars_substitute (r : TypeRef) : (r.substitute owner bindings).vars =
    r.vars.flatMap fun v => ((typeVar v.1 v.2).substitute owner bindings).vars := by
  cases r with
  | primitive name => rfl
  | declared name args => rw [substitute, vars, vars, varsAll_substituteAll args]
  | typeVar name o => rw [vars, List.flatMap_singleton]
  | wildcard upper lower =>
    rw [substitute, vars, vars, varsOption_substituteOption upper, varsOption_substituteOption lower,
      List.flatMap_append]
  | array component => rw [substitute, vars, vars, vars_substitute component]

theorem varsAll_substituteAll (rs : List TypeRef) : varsAll (substituteAll owner bindings rs) =
    (varsAll rs).flatMap fun v => ((typeVar v.1 v.2).substitute owner bindings).vars := by
  cases rs with
  | nil => rfl
  | cons r rs =>
    rw [substituteAll, varsAll, varsAll, vars_substitute r, varsAll_substituteAll rs,
      List.flatMap_append]

theorem varsOption_substituteOption (r? : Option TypeRef) :
    varsOption (substituteOption owner bindings r?) =
      (varsOption r?).flatMap fun v => ((typeVar v.1 v.2).substitute owner bindings).vars := by
  cases r? with
  | none => rfl
  | some r => rw [substituteOption, varsOption, varsOption, vars_substitute r]

end

/-- What a variable is replaced by mentions it, if it has no binding, or else what its binding does. -/
theorem mem_vars_substitute_typeVar {q : String × GenericOwner} :
    v ∈ ((typeVar q.1 q.2).substitute owner bindings).vars ↔
      v = q ∧ (q.2 = .type owner → bindings.lookup q.1 = none) ∨
        q.2 = .type owner ∧ ∃ bound, bindings.lookup q.1 = some bound ∧ v ∈ bound.vars := by
  obtain ⟨name, o⟩ := q
  by_cases ho : o = .type owner
  · subst ho
    rw [substitute_typeVar_self]
    cases bindings.lookup name <;> simp [vars]
  · rw [substitute_typeVar_of_ne ho]
    simp [vars, ho]

variable {Q : String × GenericOwner → Prop}

/-- Variables of the owner with a binding are replaced, the others stay. -/
theorem of_mem_vars_replaced (hb : ∀ b ∈ bindings, ∀ v ∈ b.2.vars, Q v)
    {vs : List (String × GenericOwner)}
    (h : ∀ v ∈ vs, Q v ∨ v.2 = .type owner ∧ (bindings.lookup v.1).isSome = true) :
    ∀ v ∈ vs.flatMap fun v => ((typeVar v.1 v.2).substitute owner bindings).vars, Q v := by
  intro v hv
  obtain ⟨q, hq, hvar⟩ := List.mem_flatMap.1 hv
  rcases mem_vars_substitute_typeVar.1 hvar with ⟨rfl, hnone⟩ | ⟨-, bound, hbound, hmem⟩
  · rcases h v hq with hQ | ⟨howner, hsome⟩
    · exact hQ
    · rw [hnone howner] at hsome
      cases hsome
  · exact hb (q.1, bound) (Bindings.mem_of_lookup hbound) v hmem

theorem of_mem_vars_substitute (hb : ∀ b ∈ bindings, ∀ v ∈ b.2.vars, Q v) {r : TypeRef}
    (h : ∀ v ∈ r.vars, Q v ∨ v.2 = .type owner ∧ (bindings.lookup v.1).isSome = true) :
    ∀ v ∈ (r.substitute owner bindings).vars, Q v := by
  rw [vars_substitute]
  exact of_mem_vars_replaced hb h

theorem of_mem_vars_substituteAll (hb : ∀ b ∈ bindings, ∀ v ∈ b.2.vars, Q v)
    {rs : List TypeRef}
    (h : ∀ v ∈ varsAll rs, Q v ∨ v.2 = .type owner ∧ (bindings.lookup v.1).isSome = true) :
    ∀ v ∈ varsAll (substituteAll owner bindings rs), Q v := by
  rw [varsAll_substituteAll]
  exact of_mem_vars_replaced hb h

end TypeRef

namespace Method

variable {m : Method} {r : TypeRef}

/-- What the method refers to, the bounds of its type parameters included. -/
def references (m : Method) : List TypeRef :=
  m.typeParameters.flatMap (·.bounds) ++ m.types

/-- No bound that a type parameter of the method may be replaced by mentions a variable of a type. -/
def Detached (m : Method) : Prop :=
  ∀ p ∈ m.typeParameters, ∀ b, p.bounds = [b] → ∀ v ∈ b.vars, ∀ owner, v.2 ≠ .type owner

theorem Tidy.of_mem_types (h : m.Tidy) (hr : r ∈ m.types) : r.Tidy := by
  rcases List.mem_append.1 hr with hr | hr
  · obtain ⟨p, hp, rfl⟩ := List.mem_map.1 hr
    exact h.1 p hp
  · exact h.2 r (Option.mem_toList.1 hr)

theorem substitute_typeParameters (m : Method) (owner : String) (bindings : Bindings) :
    (m.substitute owner bindings).typeParameters = m.typeParameters := by
  unfold Method.substitute
  split <;> rfl

end Method

namespace DeclaredType

/-- The variable is one of the type's own parameters. -/
def Owns (t : DeclaredType) (v : String × GenericOwner) : Prop :=
  v.2 = .type t.name ∧ v.1 ∈ t.typeParameters.map (·.name)

instance (t : DeclaredType) : DecidablePred t.Owns := fun v =>
  inferInstanceAs (Decidable (v.2 = .type t.name ∧ v.1 ∈ t.typeParameters.map (·.name)))

/-- The variable belongs to that method of the type. -/
def Lends (t : DeclaredType) (m : Method) (v : String × GenericOwner) : Prop :=
  ∃ overload, v.2 = .method t.name m.name overload ∧ t.method? m.name overload = some m

/-- Bounds and supertypes mention variables of the type only, methods those of the type and their
own. -/
structure Scoped (t : DeclaredType) : Prop where
  bounds : ∀ p ∈ t.typeParameters, ∀ r ∈ p.bounds, ∀ v ∈ r.vars, t.Owns v
  supertypes : ∀ r ∈ t.supertypes, ∀ v ∈ r.vars, t.Owns v
  methods : ∀ m ∈ t.methods, ∀ r ∈ m.references, ∀ v ∈ r.vars, t.Owns v ∨ t.Lends m v

/-- The variable is one of the type's own parameters or belongs to one of its methods. -/
def Encloses (t : DeclaredType) (v : String × GenericOwner) : Prop :=
  t.Owns v ∨ ∃ m ∈ t.methods, t.Lends m v

/-- The declaration mentions no variables but those of the type and of its methods. -/
def Enclosed (t : DeclaredType) : Prop := ∀ r ∈ t.references, ∀ v ∈ r.vars, t.Encloses v

end DeclaredType

namespace SymbolTable

open TypeRef

variable {s : SymbolTable} {t u : DeclaredType} {bindings : Bindings} {m m₀ : Method} {r a : TypeRef}

/-- A supertype that is given as many arguments as it takes. -/
def Complete (s : SymbolTable) : TypeRef → Prop
  | .declared name args => ∀ u, s.type? name = some u → args.length = u.typeParameters.length
  | .typeVar _ _ => False
  | _ => True

/-- Every declaration keeps to its own variables, and every supertype is given as many arguments as
it takes. -/
structure Fitting (s : SymbolTable) : Prop where
  keeping : ∀ t ∈ s.types, t.Scoped
  complete : ∀ t ∈ s.types, ∀ r ∈ t.supertypes, s.Complete r

/-- A type as it is seen from one without parameters: it is found by its name, and each of its
parameters stands for a type without variables. -/
structure Grounded (s : SymbolTable) (step : DeclaredType × Bindings) : Prop where
  found : s.type? step.1.name = some step.1
  bound : ∀ n ∈ step.1.typeParameters.map (·.name), (step.2.lookup n).isSome = true
  ground : ∀ b ∈ step.2, b.2.vars = []

theorem lookup_parameterBindings {ps : List TypeParameter} {args : List TypeRef} :
    ∀ n ∈ ps.map (·.name), ((parameterBindings ps args).lookup n).isSome = true := by
  induction ps generalizing args with
  | nil => exact fun n hn => nomatch hn
  | cons p ps ih =>
    intro n hn
    have hrest (value : TypeRef) (args : List TypeRef) :
        (((p.name, value) :: parameterBindings ps args).lookup n).isSome = true := by
      rw [List.lookup_cons]
      cases hp : n == p.name with
      | true => rfl
      | false =>
        have hne : n ≠ p.name := by simpa using hp
        exact ih n ((List.mem_cons.1 hn).resolve_left hne)
    cases args with
    | nil => exact hrest _ []
    | cons a args => exact hrest a args

theorem mem_args_of_parameterBindings {ps : List TypeParameter} {args : List TypeRef}
    (h : args.length = ps.length) : ∀ b ∈ parameterBindings ps args, b.2 ∈ args := by
  intro b hb
  refine (mem_parameterBindings hb).resolve_right ?_
  simp [h]

theorem Grounded.above (hs : s.Fitting) {below above : View} (h : s.Grounded below)
    (habove : above ∈ s.viewsAbove below) : s.Grounded above := by
  have ht : below.1 ∈ s.types := type?_mem h.found
  obtain ⟨r, hr, args, heq, hdeclared, hbound⟩ := mem_viewsAbove_iff.1 habove
  have hcomplete : s.Complete r := hs.complete below.1 ht r hr
  cases r with
  | declared name written =>
    rw [substitute, TypeRef.declared.injEq] at heq
    obtain ⟨rfl, rfl⟩ := heq
    have hvariables : ∀ v ∈ varsAll (substituteAll below.1.name below.2 written), False := by
      refine of_mem_vars_substituteAll (fun b hb v hv => ?_) fun v hv => .inr ?_
      · rw [h.ground b hb] at hv
        cases hv
      · obtain ⟨howner, hname⟩ := (hs.keeping below.1 ht).supertypes _ hr v (by rwa [vars])
        exact ⟨howner, h.bound v.1 hname⟩
    have hlength : (substituteAll below.1.name below.2 written).length =
        above.1.typeParameters.length :=
      (length_substituteAll written).trans (hcomplete above.1 hdeclared)
    refine ⟨hdeclared, ?_, fun b hb => ?_⟩
    · rw [hbound]
      exact lookup_parameterBindings
    · rw [hbound] at hb
      have hmem := mem_args_of_parameterBindings hlength b hb
      exact List.eq_nil_iff_forall_not_mem.2 fun v hv =>
        hvariables v (mem_varsAll.2 ⟨b.2, hmem, hv⟩)
  | typeVar name owner => exact hcomplete.elim
  | primitive name => rw [substitute] at heq; cases heq
  | wildcard upper lower => rw [substitute] at heq; cases heq
  | array component => rw [substitute] at heq; cases heq

theorem grounded_lineage (hs : s.Fitting) (ht : s.type? t.name = some t)
    (hparams : t.typeParameters = []) : ∀ step ∈ s.lineage t, s.Grounded step := by
  have hself : s.Grounded (t, []) :=
    ⟨ht, fun n hn => by simp [hparams] at hn, fun b hb => nomatch hb⟩
  exact (s.breadthFirst_lineage t).forall_mem hself fun _ _ h habove => h.above hs habove

/-- Where the parameters of the type are bound to types without variables, the signatures mention
variables of their methods only. -/
theorem Grounded.lends (hs : s.Fitting) {step : DeclaredType × Bindings} (h : s.Grounded step)
    (hm : m ∈ step.1.methods) (hr : r ∈ (m.substitute step.1.name step.2).types) :
    ∀ v ∈ r.vars, step.1.Lends m v := by
  have hscoped : ∀ r₀ ∈ m.types, ∀ v ∈ r₀.vars, step.1.Owns v ∨ step.1.Lends m v :=
    fun r₀ hr₀ => (hs.keeping _ (type?_mem h.found)).methods m hm r₀ (List.mem_append_right _ hr₀)
  rcases Method.mem_types_substitute hr with ⟨hempty, hr⟩ | ⟨r₀, hr₀, rfl⟩
  · intro v hv
    refine (hscoped r hr v hv).resolve_left fun howns => ?_
    have hbound := h.bound v.1 howns.2
    rw [hempty] at hbound
    cases hbound
  · refine of_mem_vars_substitute (fun b hb v hv => ?_) fun v hv => ?_
    · rw [h.ground b hb] at hv
      cases hv
    · exact (hscoped r₀ hr₀ v hv).symm.imp_right fun howns => ⟨howns.1, h.bound v.1 howns.2⟩

/-- Every method of a type without parameters, its own or inherited, is that of a declaration, and its
signature mentions no variables but the method's own. -/
theorem exists_lends_of_mem_allMethods (hs : s.Fitting) (ht : s.type? t.name = some t)
    (hparams : t.typeParameters = []) (hm : m ∈ s.allMethods t) :
    ∃ u m₀, s.type? u.name = some u ∧ m₀ ∈ u.methods ∧ m.typeParameters = m₀.typeParameters ∧
      ∀ r ∈ m.types, ∀ v ∈ r.vars, u.Lends m₀ v := by
  obtain ⟨step, hstep, m₀, hm₀, rfl⟩ := exists_of_mem_allMethods hm
  have h : s.Grounded step := grounded_lineage hs ht hparams step hstep
  exact ⟨step.1, m₀, h.found, hm₀, Method.substitute_typeParameters .., fun r hr => h.lends hs hm₀ hr⟩

/-- A variable of a method is replaced by the bound of one of its type parameters. -/
theorem exists_bounded_of_soleBound? (hu : s.type? u.name = some u) {v : String × GenericOwner}
    (hv : u.Lends m v) (ha : s.soleBound? v.1 v.2 = some a) :
    ∃ p ∈ m.typeParameters, p.bounds = [a] := by
  obtain ⟨overload, howner, hmethod⟩ := hv
  obtain ⟨_, _, _, p, _, hp, hb⟩ := soleBound?_eq_some ha
  rw [howner, typeParameter?, hu, Option.bind_some, hmethod, Option.bind_some] at hp
  exact ⟨p, List.mem_of_find?_eq_some hp, hb⟩

/-- What a variable of the method is replaced by mentions no others either, where the bounds of its
type parameters do not mention variables of a type. -/
theorem Fitting.lends_of_soleBound? (hs : s.Fitting) (hu : s.type? u.name = some u)
    (hm : m ∈ u.methods) (hd : m.Detached) {v : String × GenericOwner} (hv : u.Lends m v)
    (ha : s.soleBound? v.1 v.2 = some a) : ∀ w ∈ a.vars, u.Lends m w := by
  obtain ⟨p, hp, hb⟩ := exists_bounded_of_soleBound? hu hv ha
  intro w hw
  have hreference : a ∈ m.references :=
    List.mem_append_left _ (List.mem_flatMap.2 ⟨p, hp, by simp [hb]⟩)
  refine ((hs.keeping u (type?_mem hu)).methods m hm a hreference w hw).resolve_left fun howns => ?_
  exact hd p hp a hb w hw u.name howns.1

/-- Variables of the type and its methods are replaced by what mentions no others. -/
theorem encloses_of_soleBound? (ht : s.type? t.name = some t) (henclosed : t.Enclosed)
    {v : String × GenericOwner} (hv : t.Encloses v) (ha : s.soleBound? v.1 v.2 = some a) :
    ∀ w ∈ a.vars, t.Encloses w := by
  rcases hv with howns | ⟨m, hm, hlends⟩
  · rw [howns.1] at ha
    cases ha
  · obtain ⟨p, hp, hb⟩ := exists_bounded_of_soleBound? ht hlends ha
    refine henclosed a ?_
    simp only [DeclaredType.references, List.mem_append, List.mem_flatMap]
    exact .inr ⟨m, hm, .inl (.inl ⟨p, hp, by simp [hb]⟩)⟩

end SymbolTable

namespace BuildContext

open TypeRef

variable {cx : BuildContext} {r a : TypeRef}

/-- The variables of what one step leaves over are variables of the reference, or else those of the
bound that a variable is replaced by. -/
theorem mem_vars_of_inner (ha : a ∈ cx.inner r) {v : String × GenericOwner}
    (hv : v ∈ a.vars) :
    v ∈ r.vars ∨ ∃ w ∈ r.vars, cx.symbols.soleBound? w.1 w.2 = some a := by
  cases r with
  | primitive name => cases ha
  | declared name args => exact .inl (by rw [vars]; exact mem_varsAll.2 ⟨a, ha, hv⟩)
  | typeVar name owner =>
    exact .inr ⟨(name, owner), List.mem_singleton.2 rfl, Option.mem_toList.1 ha⟩
  | wildcard upper lower =>
    obtain rfl : upper = some a := Option.mem_toList.1 ha
    exact .inl (by rw [vars]; exact List.mem_append_left _ hv)
  | array component =>
    obtain rfl : a = component := List.mem_singleton.1 ha
    exact .inl hv

end BuildContext

end ClientBindings
