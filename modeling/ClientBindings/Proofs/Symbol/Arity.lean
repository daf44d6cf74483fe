import Mathlib.Data.Option.Basic
import ClientBindings.Proofs.Symbol.Variables

/-! How many arguments references pass. What is derived from an export passes as many as what is written
in it, since replacing variables leaves the number of arguments as it is. -/
namespace ClientBindings

namespace TypeRef

def arguments : TypeRef → List TypeRef
  | .declared _ args => args
  | _ => []

mutual

/-- The names that a reference uses as types, at any depth, each with the number of arguments passed. -/
def uses : TypeRef → List (String × Nat)
  | .primitive name => [(name, 0)]
  | .declared name args => (name, args.length) :: usesAll args
  | .typeVar _ _ => []
  | .wildcard upper lower => usesOption upper ++ usesOption lower
  | .array component => uses component

def usesAll : List TypeRef → List (String × Nat)
  | [] => []
  | r :: rs => uses r ++ usesAll rs

def usesOption : Option TypeRef → List (String × Nat)
  | none => []
  | some r => uses r

end

variable {u : String × Nat} {owner : String} {bindings : Bindings}

theorem mem_usesAll {rs : List TypeRef} : u ∈ usesAll rs ↔ ∃ r ∈ rs, u ∈ r.uses := by
  induction rs with
  | nil => simp [usesAll]
  | cons r rs ih => simp [usesAll, ih]

/-- What a reference names at the outside is used by it. -/
theorem mem_uses_of_name? {r : TypeRef} {n : String} (h : r.name? = some n) :
    (n, r.arguments.length) ∈ r.uses := by
  cases r with
  | primitive name =>
    obtain rfl := Option.some.inj h
    exact List.mem_singleton_self _
  | declared name args =>
    obtain rfl := Option.some.inj h
    exact List.mem_cons_self ..
  | typeVar name owner => cases h
  | wildcard upper lower => cases h
  | array component => cases h

mutual

/-- What is used once variables are replaced was used before or is used by what is put in. -/
theorem of_mem_uses_substitute {r : TypeRef} (h : u ∈ (r.substitute owner bindings).uses) :
    u ∈ r.uses ∨ ∃ b ∈ bindings, u ∈ b.2.uses := by
  cases r with
  | primitive name => exact .inl h
  | declared name args =>
    rw [substitute, uses, length_substituteAll] at h
    rw [uses]
    rcases List.mem_cons.1 h with rfl | h
    · exact .inl (List.mem_cons_self ..)
    · exact (of_mem_uses_substituteAll h).imp_left (List.mem_cons_of_mem _)
  | typeVar name o =>
    cases o with
    | method declaringType method overload => exact .inl h
    | type declaredBy =>
      rw [substitute] at h
      split at h
      · split at h
        · rename_i bound hbound
          exact .inr ⟨(name, bound), Bindings.mem_of_lookup hbound, h⟩
        · exact .inl h
      · exact .inl h
  | wildcard upper lower =>
    rw [substitute, uses] at h
    rw [uses]
    rcases List.mem_append.1 h with h | h
    · exact (of_mem_uses_substituteOption h).imp_left (List.mem_append_left _)
    · exact (of_mem_uses_substituteOption h).imp_left (List.mem_append_right _)
  | array component =>
    rw [substitute, uses] at h
    rw [uses]
    exact of_mem_uses_substitute h

theorem of_mem_uses_substituteAll {rs : List TypeRef}
    (h : u ∈ usesAll (substituteAll owner bindings rs)) :
    u ∈ usesAll rs ∨ ∃ b ∈ bindings, u ∈ b.2.uses := by
  cases rs with
  | nil => exact .inl h
  | cons r rs =>
    rw [substituteAll, usesAll] at h
    rw [usesAll]
    rcases List.mem_append.1 h with h | h
    · exact (of_mem_uses_substitute h).imp_left (List.mem_append_left _)
    · exact (of_mem_uses_substituteAll h).imp_left (List.mem_append_right _)

theorem of_mem_uses_substituteOption {r? : Option TypeRef}
    (h : u ∈ usesOption (substituteOption owner bindings r?)) :
    u ∈ usesOption r? ∨ ∃ b ∈ bindings, u ∈ b.2.uses := by
  cases r? with
  | none => exact .inl h
  | some r =>
    rw [substituteOption, usesOption] at h
    exact of_mem_uses_substitute h

end

end TypeRef

namespace SymbolTable

open TypeRef

variable {s : SymbolTable} {r : TypeRef}

/-- Every use of a declared type passes as many arguments as the type has parameters, or none. -/
def Applied (s : SymbolTable) : Prop :=
  ∀ t ∈ s.types, ∀ r ∈ t.references, ∀ u ∈ r.uses, ∀ d ∈ s.type? u.1,
    u.2 = d.typeParameters.length ∨ u.2 = 0

/-- No type with parameters is used without arguments. -/
def Saturated (s : SymbolTable) : Prop :=
  ∀ t ∈ s.types, ∀ r ∈ t.references, ∀ u ∈ r.uses, ∀ d ∈ s.type? u.1, u.2 = 0 → d.typeParameters = []

instance : DecidablePred Applied := fun s =>
  inferInstanceAs (Decidable (∀ t ∈ s.types, ∀ r ∈ t.references, ∀ u ∈ r.uses, ∀ d ∈ s.type? u.1,
    u.2 = d.typeParameters.length ∨ u.2 = 0))

instance : DecidablePred Saturated := fun s =>
  inferInstanceAs (Decidable (∀ t ∈ s.types, ∀ r ∈ t.references, ∀ u ∈ r.uses, ∀ d ∈ s.type? u.1,
    u.2 = 0 → d.typeParameters = []))

theorem Derived.of_mem_arguments (h : s.Derived r) {a : TypeRef} (ha : a ∈ r.arguments) : s.Derived a := by
  cases r with
  | declared name args => exact h.argument ha
  | _ => exact absurd ha List.not_mem_nil

/-- What a derived reference uses is used in the export. -/
theorem Derived.exists_use (h : s.Derived r) {u : String × Nat} (hu : u ∈ r.uses) :
    ∃ t ∈ s.types, ∃ r₀ ∈ t.references, u ∈ r₀.uses := by
  induction h with
  | @written t r ht hr => exact ⟨t, ht, r, hr, hu⟩
  | argument _ ha ih =>
    rw [uses] at ih
    exact ih (List.mem_cons_of_mem _ (mem_usesAll.2 ⟨_, ha, hu⟩))
  | upper _ ih =>
    rw [uses] at ih
    exact ih (List.mem_append_left _ hu)
  | component _ ih => exact ih (by rwa [uses])
  | replaced _ _ ih ihb =>
    rcases of_mem_uses_substitute hu with hu | ⟨b, hb, hu⟩
    · exact ih hu
    · exact ihb b hb hu
  | unbounded => simp [uses, usesOption] at hu

/-- The variables of a derived reference are variables of the export. -/
theorem Derived.exists_var (h : s.Derived r) {v : String × GenericOwner} (hv : v ∈ r.vars) :
    ∃ t ∈ s.types, ∃ r₀ ∈ t.references, v ∈ r₀.vars := by
  induction h generalizing v with
  | @written t r ht hr => exact ⟨t, ht, r, hr, hv⟩
  | argument _ ha ih =>
    rw [vars] at ih
    exact ih (mem_varsAll.2 ⟨_, ha, hv⟩)
  | upper _ ih =>
    rw [vars] at ih
    exact ih (List.mem_append_left _ hv)
  | component _ ih => exact ih (by rwa [vars])
  | @replaced r owner bindings _ _ ih ihb =>
    have hwritten : ∀ v ∈ (r.substitute owner bindings).vars,
        ∃ t ∈ s.types, ∃ r₀ ∈ t.references, v ∈ r₀.vars :=
      of_mem_vars_substitute (fun b hb v hv => ihb b hb hv) fun v hv => .inl (ih hv)
    exact hwritten v hv
  | unbounded => simp [vars, varsOption] at hv

/-- A derived reference to a declared type passes as many arguments as the type has parameters, or
none. -/
theorem Applied.arguments (hs : s.Applied) (h : s.Derived r) {n : String} (hn : r.name? = some n)
    {d : DeclaredType} (hd : s.type? n = some d) :
    r.arguments.length = d.typeParameters.length ∨ r.arguments.length = 0 := by
  obtain ⟨t, ht, r₀, hr₀, hu⟩ := h.exists_use (mem_uses_of_name? hn)
  exact hs t ht r₀ hr₀ _ hu d hd

theorem Saturated.arguments (hs : s.Saturated) (h : s.Derived r) {n : String}
    (hn : r.name? = some n) {d : DeclaredType} (hd : s.type? n = some d)
    (hr : r.arguments.length = 0) : d.typeParameters = [] := by
  obtain ⟨t, ht, r₀, hr₀, hu⟩ := h.exists_use (mem_uses_of_name? hn)
  exact hs t ht r₀ hr₀ _ hu d hd hr

end SymbolTable

end ClientBindings
