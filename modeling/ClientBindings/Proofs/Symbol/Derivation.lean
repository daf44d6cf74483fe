import ClientBindings.Proofs.Symbol.Inheritance

/-! References that are derived from those of an export: their parts, and what becomes of them in the
signatures that a type inherits. What is kept by both holds of all signatures if it holds of what is
written. -/
namespace ClientBindings

namespace Method

variable {m : Method} {r : TypeRef}

/-- The types of the parameters and the return type. -/
def types (m : Method) : List TypeRef := m.parameters.map (·.type) ++ m.returnType.toList

/-- In a method with replaced variables every type is one of the method, as it was or with its variables
replaced. -/
theorem mem_types_substitute {owner : String} {bindings : Bindings}
    (h : r ∈ (m.substitute owner bindings).types) :
    bindings = [] ∧ r ∈ m.types ∨ ∃ r₀ ∈ m.types, r = r₀.substitute owner bindings := by
  unfold Method.substitute at h
  split at h
  · rename_i hempty
    exact .inl ⟨List.isEmpty_iff.1 hempty, h⟩
  · refine .inr ?_
    rcases List.mem_append.1 h with h | h
    · obtain ⟨p, hp, rfl⟩ := List.mem_map.1 h
      obtain ⟨p₀, hp₀, rfl⟩ := List.mem_map.1 hp
      exact ⟨p₀.type, List.mem_append_left _ (List.mem_map_of_mem hp₀), rfl⟩
    · obtain ⟨r₀, hr₀, rfl⟩ := Option.map_eq_some_iff.1 (Option.mem_toList.1 h)
      exact ⟨r₀, List.mem_append_right _ (Option.mem_toList.2 hr₀), rfl⟩

theorem mem_references_of_mem_types {t : DeclaredType} (hm : m ∈ t.methods) (hr : r ∈ m.types) :
    r ∈ t.references := by
  rw [types, List.mem_append] at hr
  simp only [DeclaredType.references, List.mem_append, List.mem_flatMap]
  exact .inr ⟨m, hm, hr.imp_left .inr⟩

end Method

namespace SymbolTable

variable {s : SymbolTable} {t : DeclaredType} {bindings : Bindings} {m : Method} {r : TypeRef}

/-- A reference that a declaration of the export contains, a part of one, or one with variables replaced.
Nothing but an unbounded wildcard is put in from outside. -/
inductive Derived (s : SymbolTable) : TypeRef → Prop
  | written {t : DeclaredType} {r : TypeRef} (ht : t ∈ s.types) (hr : r ∈ t.references) : Derived s r
  | argument {name : String} {args : List TypeRef} {a : TypeRef} (h : Derived s (.declared name args))
      (ha : a ∈ args) : Derived s a
  | upper {b : TypeRef} {lower : Option TypeRef} (h : Derived s (.wildcard (some b) lower)) :
      Derived s b
  | component {c : TypeRef} (h : Derived s (.array c)) : Derived s c
  | replaced {r : TypeRef} {owner : String} {bindings : Bindings} (h : Derived s r)
      (hb : ∀ b ∈ bindings, Derived s b.2) : Derived s (r.substitute owner bindings)
  | unbounded : Derived s (.wildcard none none)

/-- What a parameter stands for is an argument, or what is put in place of one that is left out. -/
theorem mem_parameterBindings {ps : List TypeParameter} {args : List TypeRef}
    {b : String × TypeRef} (h : b ∈ parameterBindings ps args) :
    b.2 ∈ args ∨ ∃ p ∈ ps.drop args.length, b.2 = p.bounds.head?.getD (.wildcard none none) := by
  induction ps generalizing args with
  | nil => cases h
  | cons p ps ih =>
    cases args with
    | nil =>
      rcases List.mem_cons.1 h with rfl | h
      · exact .inr ⟨p, List.mem_cons_self .., rfl⟩
      · rcases ih h with h | ⟨q, hq, h⟩
        · cases h
        · exact .inr ⟨q, List.mem_cons_of_mem _ hq, h⟩
    | cons a args =>
      rcases List.mem_cons.1 h with rfl | h
      · exact .inl (List.mem_cons_self ..)
      · exact (ih h).imp_left (List.mem_cons_of_mem _)

theorem derived_parameterBindings {ps : List TypeParameter} {args : List TypeRef}
    (hps : ∀ p ∈ ps, ∀ r ∈ p.bounds, s.Derived r) (hargs : ∀ r ∈ args, s.Derived r) :
    ∀ b ∈ parameterBindings ps args, s.Derived b.2 := by
  intro b hb
  rcases mem_parameterBindings hb with ha | ⟨p, hp, hbound⟩
  · exact hargs _ ha
  · rw [hbound]
    cases hhead : p.bounds.head? with
    | none => exact .unbounded
    | some r => exact hps p (List.mem_of_mem_drop hp) r (List.mem_of_mem_head? hhead)

/-- What the types further up are used with is derived. -/
theorem derived_lineage (ht : t ∈ s.types) :
    ∀ step ∈ s.lineage t, step.1 ∈ s.types ∧ ∀ b ∈ step.2, s.Derived b.2 := by
  refine (s.breadthFirst_lineage t).forall_mem ⟨ht, fun b hb => absurd hb List.not_mem_nil⟩
    fun below above ⟨hbelow, hbindings⟩ habove => ?_
  obtain ⟨r, hr, args, heq, hdeclared, hbound⟩ := mem_viewsAbove_iff.1 habove
  have hderived : s.Derived (r.substitute below.1.name below.2) := by
    refine .replaced (.written hbelow ?_) hbindings
    simp [DeclaredType.references, hr]
  rw [heq] at hderived
  have hmem := type?_mem hdeclared
  refine ⟨hmem, ?_⟩
  rw [hbound]
  exact derived_parameterBindings
    (fun p hp r hr => .written hmem (above.1.mem_references_of_bound hp hr))
    fun r hr => hderived.argument hr

/-- The signatures of a type's methods, its own and inherited. -/
theorem derived_of_mem_allMethods (ht : t ∈ s.types) (hm : m ∈ s.allMethods t) (hr : r ∈ m.types) :
    s.Derived r := by
  obtain ⟨step, hstep, m₀, hm₀, rfl⟩ := exists_of_mem_allMethods hm
  obtain ⟨hmem, hb⟩ := derived_lineage ht step hstep
  have hwritten {r : TypeRef} (hr : r ∈ m₀.types) : s.Derived r :=
    .written hmem (Method.mem_references_of_mem_types hm₀ hr)
  rcases Method.mem_types_substitute hr with ⟨-, hr⟩ | ⟨r₀, hr₀, rfl⟩
  · exact hwritten hr
  · exact .replaced (hwritten hr₀) hb

end SymbolTable

end ClientBindings
