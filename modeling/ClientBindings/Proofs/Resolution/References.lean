import ClientBindings.Graph.Resolution

/-! Which references of a declaration its definition is made of, and which references a single step
of resolving a reference leaves over. -/
namespace ClientBindings

namespace SymbolTable

variable {s : SymbolTable} {t : DeclaredType}

theorem mem_of_mem_mergeCandidates {cs : List PropertyCandidate}
    {merged : List (String × PropertyCandidate)} {c : String × PropertyCandidate}
    (h : c ∈ s.mergeCandidates merged cs) : c ∈ merged ∨ c.2 ∈ cs := by
  induction cs generalizing merged with
  | nil => exact .inl h
  | cons d cs ih =>
    simp only [mergeCandidates] at h
    split at h
    · exact (ih h).imp_right (List.mem_cons_of_mem _)
    · rcases ih h with hm | hc
      · rcases List.mem_append.1 hm with hm | hd
        · exact .inl hm
        · rw [List.mem_singleton] at hd
          exact .inr (by simp [hd])
      · exact .inr (List.mem_cons_of_mem _ hc)

/-- The types of properties are references of the declaration. -/
theorem type_mem_references_of_winner {p : PropertyPipeline} {c : String × PropertyCandidate}
    (h : c ∈ s.winners p t) : c.2.type ∈ t.references := by
  rcases mem_of_mem_mergeCandidates h with h | h
  · cases h
  · obtain ⟨l, -, hl⟩ := List.mem_flatMap.1 h
    exact l.declared hl

/-- The bound of a variable of a method that has just one. -/
def soleBound? (s : SymbolTable) (name : String) : GenericOwner → Option TypeRef
  | .type _ => none
  | .method declaringType method overload =>
    match s.typeParameter? (.method declaringType method overload) name with
    | some ⟨_, [bound]⟩ => some bound
    | _ => none

/-- The bounds that variables of methods can be replaced by. -/
def soleBounds (s : SymbolTable) : List TypeRef :=
  (s.types.flatMap fun t => t.methods.flatMap (·.typeParameters)).filterMap fun p =>
    match p.bounds with
    | [bound] => some bound
    | _ => none

theorem type?_name {name : String} (h : s.type? name = some t) : t.name = name := by
  simpa using List.find?_some h

theorem type?_mem {name : String} (h : s.type? name = some t) : t ∈ s.types :=
  List.mem_of_find?_eq_some h

theorem typeParameter?_method_mem {name declaringType method : String} {overload : Nat}
    {p : TypeParameter}
    (h : s.typeParameter? (.method declaringType method overload) name = some p) :
    ∃ t ∈ s.types, ∃ m ∈ t.methods, p ∈ m.typeParameters := by
  simp only [typeParameter?, Option.bind_eq_some_iff] at h
  obtain ⟨m, ⟨t, ht, hm⟩, hp⟩ := h
  refine ⟨t, type?_mem ht, m, ?_, List.mem_of_find?_eq_some hp⟩
  exact (List.mem_filter.1 (List.mem_of_getElem? hm)).1

theorem soleBound?_eq_some {name : String} {owner : GenericOwner} {b : TypeRef}
    (h : s.soleBound? name owner = some b) : ∃ declaringType method overload p,
      owner = .method declaringType method overload ∧
        s.typeParameter? owner name = some p ∧ p.bounds = [b] := by
  cases owner with
  | type owner => cases h
  | method declaringType method overload =>
    simp only [soleBound?] at h
    split at h
    · rename_i p' hp
      cases h
      exact ⟨_, _, _, _, rfl, hp, rfl⟩
    · cases h

theorem soleBound?_method {name declaringType method : String} {overload : Nat}
    {p : TypeParameter} {b : TypeRef}
    (h : s.typeParameter? (.method declaringType method overload) name = some p)
    (hb : p.bounds = [b]) : s.soleBound? name (.method declaringType method overload) = some b := by
  obtain ⟨n, bounds⟩ := p
  cases hb
  simp only [soleBound?, h]

theorem soleBound?_mem_soleBounds {name : String} {owner : GenericOwner} {b : TypeRef}
    (h : s.soleBound? name owner = some b) : b ∈ s.soleBounds := by
  obtain ⟨declaringType, method, overload, p, rfl, hp, hb⟩ := soleBound?_eq_some h
  obtain ⟨t, ht, m, hm, hpm⟩ := typeParameter?_method_mem hp
  rw [soleBounds, List.mem_filterMap]
  refine ⟨p, ?_, by simp [hb]⟩
  exact List.mem_flatMap.2 ⟨t, ht, List.mem_flatMap.2 ⟨m, hm, hpm⟩⟩

theorem mem_references_of_soleBound? {name : String} {owner : GenericOwner} {b : TypeRef}
    (h : s.soleBound? name owner = some b) : ∃ t ∈ s.types, b ∈ t.references := by
  obtain ⟨declaringType, method, overload, p, rfl, hp, hb⟩ := soleBound?_eq_some h
  obtain ⟨t, ht, m, hm, hpm⟩ := typeParameter?_method_mem hp
  refine ⟨t, ht, ?_⟩
  simp only [DeclaredType.references, List.mem_append, List.mem_flatMap]
  exact .inr ⟨m, hm, .inl (.inl ⟨p, hpm, by simp [hb]⟩)⟩

end SymbolTable

/-- A reference to the root of the hierarchy. -/
def TypeRef.isRoot : TypeRef → Bool
  | .primitive name | .declared name _ => name == "java.lang.Object"
  | _ => false

namespace DeclaredType

variable {t : DeclaredType}

theorem mem_references_of_bound {p : TypeParameter} {r : TypeRef} (hp : p ∈ t.typeParameters)
    (hr : r ∈ p.bounds) : r ∈ t.references := by
  simp only [references, List.mem_append, List.mem_flatMap]
  exact .inl (.inl (.inl (.inl ⟨p, hp, hr⟩)))

/-- What a type extends and implements: its superclass and then its interfaces, of which
`java.lang.Object` says nothing. -/
def parents (t : DeclaredType) : List TypeRef := (t.superclass.toList ++ t.interfaces).filter (!·.isRoot)

theorem mem_parents {r : TypeRef} : r ∈ t.parents ↔ r ∈ t.superclass.toList ++ t.interfaces ∧
    (∀ args, r ≠ .declared "java.lang.Object" args) ∧ r ≠ .primitive "java.lang.Object" := by
  rw [parents, List.mem_filter]
  refine and_congr_right fun _ => ?_
  cases r <;> simp [TypeRef.isRoot]

theorem mem_references_of_parent {r : TypeRef} (h : r ∈ t.parents) : r ∈ t.references := by
  simp only [references, List.mem_append]
  exact .inl (.inl (.inl (.inr (List.mem_filter.1 h).1)))

/-- The supertypes that a definition is filled with. -/
theorem keptSupertypes_eq (t : DeclaredType) : BuildContext.keptSupertypes t = t.parents := by
  refine List.filter_congr fun r _ => ?_
  cases r <;> simp [TypeRef.name?, TypeRef.isRoot, Marker.object, bne]

theorem mem_references_of_keptSupertype {r : TypeRef} (h : r ∈ BuildContext.keptSupertypes t) :
    r ∈ t.references := t.mem_references_of_parent (t.keptSupertypes_eq ▸ h)

end DeclaredType

namespace BuildContext

/-- The name stands for a declared type that gets a definition of its own. -/
def Definable (cx : BuildContext) (name : String) (t : DeclaredType) : Prop :=
  cx.exclusions.excludes name = false ∧ cx.symbols.isAssignable name Marker.collection = false ∧
    cx.symbols.isAssignable name Marker.map = false ∧ cx.symbols.type? name = some t

theorem Definable.name_eq {cx : BuildContext} {name : String} {t : DeclaredType}
    (h : cx.Definable name t) : t.name = name := SymbolTable.type?_name h.2.2.2

/-- The references that the content of a definition is resolved from. -/
def content (cx : BuildContext) (t : DeclaredType) : List TypeRef :=
  if kindOf t.kind = .interfaceType then
    t.typeParameters.flatMap (·.bounds) ++
      ((cx.symbols.winners cx.pipeline t).map (·.2.type) ++ t.parents)
  else []

section content

variable {cx : BuildContext} {t : DeclaredType}

theorem content_interface (hkind : kindOf t.kind = .interfaceType) : cx.content t =
    t.typeParameters.flatMap (·.bounds) ++
      ((cx.symbols.winners cx.pipeline t).map (·.2.type) ++ t.parents) := if_pos hkind

theorem content_plain (hkind : kindOf t.kind ≠ .interfaceType) : cx.content t = [] := if_neg hkind

theorem content_subset_references (t : DeclaredType) : cx.content t ⊆ t.references := by
  intro r hr
  unfold content at hr
  split at hr
  · rcases List.mem_append.1 hr with hr | hr
    · obtain ⟨p, hp, hr⟩ := List.mem_flatMap.1 hr
      exact t.mem_references_of_bound hp hr
    · rcases List.mem_append.1 hr with hr | hr
      · obtain ⟨c, hc, rfl⟩ := List.mem_map.1 hr
        exact SymbolTable.type_mem_references_of_winner hc
      · exact t.mem_references_of_parent hr
  · cases hr

end content

/-- The references that one step leaves to the resolver. -/
def inner (cx : BuildContext) : TypeRef → List TypeRef
  | .primitive _ => []
  | .declared _ args => args
  | .typeVar name owner => (cx.symbols.soleBound? name owner).toList
  | .wildcard upper _ => upper.toList
  | .array component => [component]

end BuildContext

end ClientBindings
