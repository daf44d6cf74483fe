import ClientBindings.Proofs.Symbol.Variables

/-! Substitutions for the variables of two types, one after the other, and what becomes of a signature
on the way down to a subtype. What a supertype is seen with from below has been put together on the
way up, one level into the next; replacing variables by it once comes to the same as replacing them
level by level by what is written there. -/
namespace ClientBindings

/-- The bindings with the variables of a type replaced in what is bound. -/
def Bindings.substitute (u : Bindings) (owner : String) (w : Bindings) : Bindings :=
  u.map fun b => (b.1, b.2.substitute owner w)

namespace TypeRef

variable {r : TypeRef} {owner other name : String} {bindings u w : Bindings}

theorem lookup_substitute (u : Bindings) (owner : String) (w : Bindings) (name : String) :
    (u.substitute owner w).lookup name = (u.lookup name).map (·.substitute owner w) := by
  induction u with
  | nil => rfl
  | cons b u ih =>
    rw [Bindings.substitute, List.map_cons, List.lookup_cons, List.lookup_cons]
    cases name == b.1 with
    | true => rfl
    | false => exact ih

mutual

theorem substitute_eq_self {r : TypeRef}
    (h : ∀ v ∈ r.vars, v.2 = .type owner → bindings.lookup v.1 = none) :
    r.substitute owner bindings = r := by
  cases r with
  | primitive name => rw [substitute]
  | declared name args =>
    rw [vars] at h
    rw [substitute, substituteAll_eq_self h]
  | typeVar name o =>
    by_cases ho : o = .type owner
    · subst ho
      have hnone := h (name, .type owner) (List.mem_singleton.2 rfl) rfl
      rw [substitute_typeVar_self, hnone, Option.getD_none]
    · exact substitute_typeVar_of_ne ho
  | wildcard upper lower =>
    rw [vars] at h
    rw [substitute, substituteOption_eq_self fun v hv => h v (List.mem_append_left _ hv),
      substituteOption_eq_self fun v hv => h v (List.mem_append_right _ hv)]
  | array component =>
    rw [vars] at h
    rw [substitute, substitute_eq_self h]

theorem substituteAll_eq_self {rs : List TypeRef}
    (h : ∀ v ∈ varsAll rs, v.2 = .type owner → bindings.lookup v.1 = none) :
    substituteAll owner bindings rs = rs := by
  cases rs with
  | nil => rw [substituteAll]
  | cons r rs =>
    rw [varsAll] at h
    rw [substituteAll, substitute_eq_self fun v hv => h v (List.mem_append_left _ hv),
      substituteAll_eq_self fun v hv => h v (List.mem_append_right _ hv)]

theorem substituteOption_eq_self {r? : Option TypeRef}
    (h : ∀ v ∈ varsOption r?, v.2 = .type owner → bindings.lookup v.1 = none) :
    substituteOption owner bindings r? = r? := by
  cases r? with
  | none => rw [substituteOption]
  | some r =>
    rw [varsOption] at h
    rw [substituteOption, substitute_eq_self h]

end

theorem substitute_of_unmentioned (h : ∀ v ∈ r.vars, v.2 ≠ .type owner) :
    r.substitute owner bindings = r :=
  substitute_eq_self fun v hv howner => absurd howner (h v hv)

theorem substitute_nil (r : TypeRef) (owner : String) : r.substitute owner [] = r :=
  substitute_eq_self fun _ _ _ => rfl

/-- A variable is of one of the two types, or of neither. In what `w` binds there is nothing left to
replace. -/
theorem substitute_substitute_typeVar (hne : owner ≠ other)
    (hw : ∀ b ∈ w, ∀ v ∈ b.2.vars, v.2 ≠ .type owner) (name : String) (o : GenericOwner) :
    ((typeVar name o).substitute owner u).substitute other w =
      ((typeVar name o).substitute other w).substitute owner (u.substitute other w) := by
  by_cases ho : o = .type owner
  · subst ho
    have hother : GenericOwner.type owner ≠ .type other := fun h => hne (GenericOwner.type.inj h)
    rw [substitute_typeVar_of_ne hother, substitute_typeVar_self, substitute_typeVar_self,
      lookup_substitute]
    cases u.lookup name with
    | none => exact substitute_typeVar_of_ne hother
    | some bound => rfl
  · rw [substitute_typeVar_of_ne ho]
    by_cases ho' : o = .type other
    · subst ho'
      rw [substitute_typeVar_self]
      cases hbound : w.lookup name with
      | none => exact (substitute_typeVar_of_ne ho).symm
      | some bound =>
        exact (substitute_of_unmentioned (hw _ (Bindings.mem_of_lookup hbound))).symm
    · rw [substitute_typeVar_of_ne ho', substitute_typeVar_of_ne ho]

mutual

/-- Substitutions for two types can be made in the other order, if the one that is then made later has
the other made in what it binds. -/
theorem substitute_substitute (hne : owner ≠ other)
    (hw : ∀ b ∈ w, ∀ v ∈ b.2.vars, v.2 ≠ .type owner) (r : TypeRef) :
    (r.substitute owner u).substitute other w =
      (r.substitute other w).substitute owner (u.substitute other w) := by
  cases r with
  | primitive name => simp only [substitute]
  | declared name args => simp only [substitute, substituteAll_substituteAll hne hw args]
  | typeVar name o => exact substitute_substitute_typeVar hne hw name o
  | wildcard upper lower =>
    simp only [substitute, substituteOption_substituteOption hne hw upper,
      substituteOption_substituteOption hne hw lower]
  | array component => simp only [substitute, substitute_substitute hne hw component]

theorem substituteAll_substituteAll (hne : owner ≠ other)
    (hw : ∀ b ∈ w, ∀ v ∈ b.2.vars, v.2 ≠ .type owner) (rs : List TypeRef) :
    substituteAll other w (substituteAll owner u rs) =
      substituteAll owner (u.substitute other w) (substituteAll other w rs) := by
  cases rs with
  | nil => simp only [substituteAll]
  | cons r rs =>
    simp only [substituteAll, substitute_substitute hne hw r,
      substituteAll_substituteAll hne hw rs]

theorem substituteOption_substituteOption (hne : owner ≠ other)
    (hw : ∀ b ∈ w, ∀ v ∈ b.2.vars, v.2 ≠ .type owner) (r? : Option TypeRef) :
    substituteOption other w (substituteOption owner u r?) =
      substituteOption owner (u.substitute other w) (substituteOption other w r?) := by
  cases r? with
  | none => simp only [substituteOption]
  | some r => simp only [substituteOption, substitute_substitute hne hw r]

end

end TypeRef

namespace Method

variable {m : Method}

theorem substitute_eq (m : Method) (owner : String) (bindings : Bindings) :
    m.substitute owner bindings = { m with
      parameters := m.parameters.map fun p => { p with type := p.type.substitute owner bindings }
      returnType := m.returnType.map (·.substitute owner bindings) } := by
  unfold substitute
  split
  · rename_i hempty
    obtain rfl := List.isEmpty_iff.1 hempty
    simp [TypeRef.substitute_nil]
  · rfl

end Method

/-- A type as it is used on the way up, with the arguments that are written there. -/
structure Use where
  type : DeclaredType
  args : List TypeRef

namespace Use

/-- What the parameters of the type stand for in this use, as it is written. -/
def meaning (use : Use) : Bindings :=
  SymbolTable.parameterBindings use.type.typeParameters use.args

/-- A reference with the variables of these types replaced one level after the other. -/
def descend (uses : List Use) (r : TypeRef) : TypeRef :=
  uses.foldl (fun r use => r.substitute use.type.name use.meaning) r

/-- A method with the variables of these types replaced one level after the other. -/
def instantiate (uses : List Use) (m : Method) : Method :=
  uses.foldl (fun m use => m.substitute use.type.name use.meaning) m

theorem instantiate_eq (uses : List Use) (m : Method) : instantiate uses m = { m with
    parameters := m.parameters.map fun p => { p with type := descend uses p.type }
    returnType := m.returnType.map (descend uses) } := by
  induction uses generalizing m with
  | nil =>
    have hnil : descend [] = id := rfl
    simp [instantiate, hnil]
  | cons use uses ih =>
    have hfirst : instantiate (use :: uses) m =
        instantiate uses (m.substitute use.type.name use.meaning) := rfl
    rw [hfirst, ih, Method.substitute_eq]
    simp only [List.map_map, Option.map_map]
    rfl

end Use

/-- Of the variables that belong to types, the reference mentions those of this one only. -/
def TypeRef.KeepsTo (r : TypeRef) (t : DeclaredType) : Prop :=
  ∀ v ∈ r.vars, ∀ owner, v.2 = .type owner → owner = t.name

instance (r : TypeRef) (t : DeclaredType) : Decidable (r.KeepsTo t) :=
  decidable_of_iff (∀ v ∈ r.vars, v.2 matches .type _ → v.2 = .type t.name)
    (forall₂_congr fun v _ => by cases v.2 <;> simp)

namespace DeclaredType

variable {t : DeclaredType} {r : TypeRef}

/-- What subtypes see of a declaration: the bounds of its parameters, its supertypes and the signatures
of its methods. -/
def surface (t : DeclaredType) : List TypeRef :=
  t.typeParameters.flatMap (·.bounds) ++ t.supertypes ++ t.methods.flatMap (·.types)

theorem mem_surface_of_bound {p : TypeParameter} (hp : p ∈ t.typeParameters) (hr : r ∈ p.bounds) :
    r ∈ t.surface := by
  simp only [surface, List.mem_append, List.mem_flatMap]
  exact .inl (.inl ⟨p, hp, hr⟩)

theorem mem_surface_of_supertype (hr : r ∈ t.supertypes) : r ∈ t.surface := by
  simp [surface, hr]

theorem mem_surface_of_signature {m : Method} (hm : m ∈ t.methods) (hr : r ∈ m.types) :
    r ∈ t.surface := by
  simp only [surface, List.mem_append, List.mem_flatMap]
  exact .inr ⟨m, hm, hr⟩

/-- Bounds, supertypes and signatures mention variables of no other type. -/
def Separate (t : DeclaredType) : Prop := ∀ r ∈ t.surface, r.KeepsTo t

instance (t : DeclaredType) : Decidable t.Separate :=
  inferInstanceAs (Decidable (∀ r ∈ t.surface, r.KeepsTo t))

end DeclaredType

namespace SymbolTable

open TypeRef DeclaredType

/-- A way up from a type over supertypes as they are written, the last use first, and what the
parameters of the type that it leads to stand for at the start. No type is met twice. -/
inductive Ascent (s : SymbolTable) (t : DeclaredType) :
    DeclaredType → Bindings → List Use → Prop
  | start : Ascent s t t [] []
  | up {u w : DeclaredType} {bindings : Bindings} {uses : List Use} {args : List TypeRef}
      (below : Ascent s t u bindings uses) (hr : .declared w.name args ∈ u.supertypes)
      (hw : s.type? w.name = some w) (hnew : w.name ∉ uses.map (·.type.name) ++ [t.name]) :
      Ascent s t w (parameterBindings w.typeParameters (substituteAll u.name bindings args))
        (⟨w, args⟩ :: uses)

variable {s : SymbolTable} {t u w : DeclaredType} {bindings : Bindings} {uses : List Use}
  {r : TypeRef}

theorem parameterBindings_substitute {ps : List TypeParameter} {owner : String}
    (h : ∀ p ∈ ps, ∀ r ∈ p.bounds, ∀ v ∈ r.vars, v.2 ≠ .type owner) (args : List TypeRef)
    (bindings : Bindings) :
    (parameterBindings ps args).substitute owner bindings =
      parameterBindings ps (substituteAll owner bindings args) := by
  induction ps generalizing args with
  | nil => rfl
  | cons p ps ih =>
    have hps := ih fun q hq => h q (List.mem_cons_of_mem _ hq)
    cases args with
    | nil =>
      have hbound : (p.bounds.head?.getD (.wildcard none none)).substitute owner bindings =
          p.bounds.head?.getD (.wildcard none none) := by
        cases hhead : p.bounds.head? with
        | none => simp [substitute, substituteOption]
        | some r =>
          exact substitute_of_unmentioned
            (h p (List.mem_cons_self ..) r (List.mem_of_mem_head? hhead))
      change (p.name, (p.bounds.head?.getD (.wildcard none none)).substitute owner bindings) ::
        (parameterBindings ps []).substitute owner bindings = _
      rw [hps [], hbound]
      rfl
    | cons a args =>
      change (p.name, a.substitute owner bindings) ::
        (parameterBindings ps args).substitute owner bindings = _
      rw [hps args]
      rfl

theorem mem_vars_meaning {use : Use} {b : String × TypeRef} (hb : b ∈ use.meaning)
    {v : String × GenericOwner} (hv : v ∈ b.2.vars) : v ∈ varsAll use.args ∨
      ∃ p ∈ use.type.typeParameters.drop use.args.length, ∃ r, p.bounds.head? = some r ∧ v ∈ r.vars := by
  rcases mem_parameterBindings hb with ha | ⟨p, hp, hbound⟩
  · exact .inl (mem_varsAll.2 ⟨_, ha, hv⟩)
  · rw [hbound] at hv
    cases hhead : p.bounds.head? with
    | none =>
      rw [hhead] at hv
      cases hv
    | some r =>
      rw [hhead] at hv
      exact .inr ⟨p, hp, r, hhead, hv⟩

/-- In a use of a supertype, variables of the subtype occur in arguments and variables of the type itself
in bounds. -/
theorem owner_of_mem_meaning (hu : u.Separate) (hw : w.Separate) {args : List TypeRef}
    (hr : .declared w.name args ∈ u.supertypes) {b : String × TypeRef}
    (hb : b ∈ (Use.mk w args).meaning) {v : String × GenericOwner} (hv : v ∈ b.2.vars)
    {owner : String} (howner : v.2 = .type owner) : owner = u.name ∨ owner = w.name := by
  rcases mem_vars_meaning hb hv with hv | ⟨p, hp, r, hhead, hv⟩
  · exact .inl (hu _ (mem_surface_of_supertype hr) v (by rwa [vars]) owner howner)
  · have hbound := mem_surface_of_bound (List.mem_of_mem_drop hp) (List.mem_of_mem_head? hhead)
    exact .inr (hw r hbound v hv owner howner)

namespace Ascent

/-- The names of the types on the way, the last one first. -/
theorem name_mem (h : s.Ascent t u bindings uses) : u.name ∈ uses.map (·.type.name) ++ [t.name] := by
  cases h <;> simp

theorem declared (h : s.Ascent t u bindings uses) (ht : s.type? t.name = some t) :
    s.type? u.name = some u := by
  cases h with
  | start => exact ht
  | up _ _ hw _ => exact hw

/-- Bounds of a supertype mention no variables of types further down, so the bindings there are those
that are written with the variables of the subtype replaced. -/
theorem meaning_substitute (h : s.Ascent t u bindings uses) (hw : w.Separate)
    (hnew : w.name ∉ uses.map (·.type.name) ++ [t.name]) (args : List TypeRef) :
    (Use.mk w args).meaning.substitute u.name bindings =
      parameterBindings w.typeParameters (substituteAll u.name bindings args) := by
  refine parameterBindings_substitute (fun p hp r hr v hv howner => ?_) args bindings
  have hname := hw r (mem_surface_of_bound hp hr) v hv u.name howner
  exact hnew (hname ▸ h.name_mem)

/-- Variables of types in what the parameters stand for are those of types on the way. -/
theorem owner_mem (h : s.Ascent t u bindings uses) (hs : ∀ u ∈ s.types, u.Separate)
    (ht : s.type? t.name = some t) : ∀ b ∈ bindings, ∀ v ∈ b.2.vars, ∀ owner, v.2 = .type owner →
      owner ∈ uses.map (·.type.name) ++ [t.name] := by
  induction h with
  | start => exact fun b hb => nomatch hb
  | @up u w bindings uses args below hr hw hnew ih =>
    have hu := hs u (type?_mem (below.declared ht))
    have hw' := hs w (type?_mem hw)
    rw [← below.meaning_substitute hw' hnew args]
    intro b hb
    obtain ⟨b₀, hb₀, rfl⟩ := List.mem_map.1 hb
    refine of_mem_vars_substitute (fun b hb v hv owner howner => ?_) fun v hv => .inl ?_
    · exact List.mem_cons_of_mem _ (ih b hb v hv owner howner)
    · intro owner howner
      rcases owner_of_mem_meaning hu hw' hr hb₀ hv howner with rfl | rfl
      · exact List.mem_cons_of_mem _ below.name_mem
      · exact List.mem_cons_self ..

/-- Of the types on the way the reference mentions variables of the last one only. -/
def Reaches (t u : DeclaredType) (uses : List Use) (r : TypeRef) : Prop :=
  ∀ v ∈ r.vars, ∀ owner, v.2 = .type owner → owner ∈ uses.map (·.type.name) ++ [t.name] →
    owner = u.name

/-- The induction is on the way up, and the reference is what it has become on the levels above. There
variables of types that the way has left may occur, where a bound was put in place of an argument. -/
theorem substitute_eq (h : s.Ascent t u bindings uses) (hs : ∀ u ∈ s.types, u.Separate)
    (ht : s.type? t.name = some t) {r : TypeRef} (hr : Reaches t u uses r) :
    r.substitute u.name bindings = Use.descend uses r := by
  induction h generalizing r with
  | start => exact substitute_nil r t.name
  | @up u w bindings uses args below hsuper hw hnew ih =>
    have hu := hs u (type?_mem (below.declared ht))
    have hw' := hs w (type?_mem hw)
    have hne : w.name ≠ u.name := fun heq => hnew (heq ▸ below.name_mem)
    have hbelow : ∀ v ∈ r.vars, ∀ owner, v.2 = .type owner →
        owner ∉ uses.map (·.type.name) ++ [t.name] := by
      intro v hv owner howner hmem
      obtain rfl := hr v hv owner howner (List.mem_cons_of_mem _ hmem)
      exact hnew hmem
    have hstep : Reaches t u uses (r.substitute w.name (Use.mk w args).meaning) := by
      refine of_mem_vars_substitute (fun b hb v hv owner howner hmem => ?_)
        fun v hv => .inl fun owner howner hmem => absurd hmem (hbelow v hv owner howner)
      rcases owner_of_mem_meaning hu hw' hsuper hb hv howner with hname | rfl
      · exact hname
      · exact absurd hmem hnew
    have hfresh : ∀ b ∈ bindings, ∀ v ∈ b.2.vars, v.2 ≠ .type w.name :=
      fun b hb v hv howner => hnew (below.owner_mem hs ht b hb v hv w.name howner)
    have hself : r.substitute u.name bindings = r :=
      substitute_of_unmentioned fun v hv howner => hbelow v hv u.name howner below.name_mem
    have hfirst : Use.descend (⟨w, args⟩ :: uses) r =
        Use.descend uses (r.substitute w.name (Use.mk w args).meaning) := rfl
    rw [hfirst, ← ih hstep, substitute_substitute hne hfresh, hself,
      below.meaning_substitute hw' hnew]

theorem substitute_eq_instantiate (h : s.Ascent t u bindings uses)
    (hs : ∀ u ∈ s.types, u.Separate) (ht : s.type? t.name = some t) {m : Method}
    (hm : m ∈ u.methods) : m.substitute u.name bindings = Use.instantiate uses m := by
  have htypes : ∀ r ∈ m.types, r.substitute u.name bindings = Use.descend uses r := by
    intro r hr
    refine h.substitute_eq hs ht fun v hv owner howner _ => ?_
    have hu := hs u (type?_mem (h.declared ht))
    exact hu r (mem_surface_of_signature hm hr) v hv owner howner
  have hparameters : ∀ p ∈ m.parameters,
      { p with type := p.type.substitute u.name bindings } =
        { p with type := Use.descend uses p.type } := by
    intro p hp
    rw [htypes _ (List.mem_append_left _ (List.mem_map_of_mem hp))]
  have hresult : m.returnType.map (·.substitute u.name bindings) =
      m.returnType.map (Use.descend uses) :=
    Option.map_congr fun r hr => htypes r (List.mem_append_right _ (Option.mem_toList.2 hr))
  rw [Method.substitute_eq, Use.instantiate_eq, List.map_congr_left hparameters, hresult]

end Ascent

/-- The way goes on over each supertype that it has not met. -/
theorem Ascent.above {v w : View} (h : s.Ascent t w.1 w.2 uses) (hn : NamesSupertypes w.1)
    (hv : v ∈ s.viewsAbove w) (hnew : v.1.name ∉ uses.map (·.type.name) ++ [t.name]) :
    ∃ args, s.Ascent t v.1 v.2 (⟨v.1, args⟩ :: uses) := by
  obtain ⟨r, hr, args, heq, hdeclared, hbindings⟩ := mem_viewsAbove_iff.1 hv
  obtain ⟨written, rfl, rfl⟩ := exists_declared_of_substitute hn hr heq
  refine ⟨written, ?_⟩
  rw [hbindings]
  exact h.up hr hdeclared hnew

/-- Every type is visited by a way up over types that are visited. -/
theorem BreadthFirst.exists_ascent {visits : List View} (h : s.BreadthFirst t visits)
    (ht : s.type? t.name = some t) (hn : ∀ u ∈ s.types, NamesSupertypes u) :
    ∀ v ∈ visits, ∃ uses, s.Ascent t v.1 v.2 uses ∧
      uses.map (·.type.name) ++ [t.name] ⊆ visits.map (·.1.name) := by
  refine h.induction ?_ fun visited v hsub ih habove hnew => ?_
  · exact List.forall_mem_singleton.2 ⟨[], .start, by simp⟩
  obtain ⟨w, hw, hv⟩ := habove
  obtain ⟨uses, hway, hnames⟩ := ih w hw
  have hnotmet : v.1.name ∉ uses.map (·.type.name) ++ [t.name] := by
    intro hmet
    obtain ⟨w', hw', hname⟩ := List.mem_map.1 (hnames hmet)
    exact hnew w' hw' hname
  obtain ⟨args, hlast⟩ := hway.above (hn _ (type?_mem (h.declared ht w (hsub hw)))) hv hnotmet
  simp only [List.map_append, List.map_singleton]
  refine List.forall_mem_append.2 ⟨fun v' hv' => ?_, List.forall_mem_singleton.2 ?_⟩
  · obtain ⟨uses', hway', hnames'⟩ := ih v' hv'
    exact ⟨uses', hway', List.subset_append_of_subset_left _ hnames'⟩
  · refine ⟨_, hlast, fun n hn => ?_⟩
    rcases List.mem_cons.1 hn with rfl | hn
    · simp
    · exact List.mem_append_left _ (hnames hn)

/-- Substitutions for the variables of two types commute, as long as what is bound for the one mentions no
variables of the other. So where declarations mention variables of no other type, what a type is seen
with from below does the same to its methods, at once, as the uses on a way up to it do level by
level. -/
theorem substitute_commutes (s : SymbolTable) :
    (∀ (r : TypeRef) (owner other : String) (u w : Bindings), owner ≠ other →
      (∀ b ∈ w, ∀ v ∈ b.2.vars, v.2 ≠ .type owner) →
      (r.substitute owner u).substitute other w =
        (r.substitute other w).substitute owner (u.substitute other w)) ∧
    ((∀ u ∈ s.types, u.Separate) → (∀ u ∈ s.types, NamesSupertypes u) →
      ∀ t, s.type? t.name = some t → ∀ v ∈ s.lineage t, ∃ uses, s.Ascent t v.1 v.2 uses ∧
        ∀ m ∈ v.1.methods, m.substitute v.1.name v.2 = Use.instantiate uses m) := by
  refine ⟨fun r owner other u w hne hw => substitute_substitute hne hw r, ?_⟩
  intro hs hn t ht v hv
  obtain ⟨uses, h, -⟩ := (s.breadthFirst_lineage t).exists_ascent ht hn v hv
  exact ⟨uses, h, fun m hm => h.substitute_eq_instantiate hs ht hm⟩

/-- In the diamond the type at the top is reached over one side with an array of what the other side's
parameter stands for. -/
theorem substitute_commutes_diamond :
    ((typeVar "T" (.type "a.Top")).substitute "a.Top"
        [("T", .array (typeVar "T" (.type "a.Left")))]).substitute "a.Left" [("T", text)] =
      (typeVar "T" (.type "a.Top")).substitute "a.Top" [("T", .array text)] ∧
    ∀ v ∈ diamond.lineage bottomType, ∃ uses, diamond.Ascent bottomType v.1 v.2 uses ∧
      ∀ m ∈ v.1.methods, m.substitute v.1.name v.2 = Use.instantiate uses m := by
  have hself : ∀ u ∈ diamond.types, u.Separate := by decide +kernel
  have hnames : ∀ u ∈ diamond.types, NamesSupertypes u := by decide +kernel
  refine ⟨?_, (substitute_commutes diamond).2 hself hnames bottomType rfl⟩
  exact (substitute_commutes diamond).1 (typeVar "T" (.type "a.Top")) "a.Top" "a.Left"
    [("T", .array (typeVar "T" (.type "a.Left")))] [("T", text)] (by decide) (by decide)

end SymbolTable

end ClientBindings
