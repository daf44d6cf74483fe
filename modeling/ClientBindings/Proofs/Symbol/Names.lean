import ClientBindings.Proofs.Graph.Extension
import ClientBindings.Proofs.Symbol.Derivation

/-! The names that references look up, and that none of them has the sign of placeholders. Methods
that are inherited have no names in their signatures but those of the export. -/
namespace ClientBindings

theorem Bindings.mem_of_lookup {bindings : Bindings} {name : String} {r : TypeRef}
    (h : bindings.lookup name = some r) : (name, r) ∈ bindings := by
  obtain ⟨before, after, rfl, -⟩ := List.lookup_eq_some_iff.1 h
  simp

namespace TypeRef

mutual

/-- The names that a reference looks up, those of variables of methods apart. -/
def names : TypeRef → List String
  | .primitive name => [name]
  | .declared name args => name :: namesAll args
  | .typeVar _ (.type owner) => [owner]
  | .typeVar _ (.method ..) => []
  | .wildcard upper lower => namesOption upper ++ namesOption lower
  | .array component => names component

def namesAll : List TypeRef → List String
  | [] => []
  | r :: rs => names r ++ namesAll rs

def namesOption : Option TypeRef → List String
  | none => []
  | some r => names r

end

/-- The sign of placeholders is in no name of the reference. -/
def Tidy (r : TypeRef) : Prop := ∀ n ∈ r.names, Unreserved n

instance : DecidablePred Tidy := fun r => inferInstanceAs (Decidable (∀ n ∈ r.names, Unreserved n))

theorem mem_namesAll {rs : List TypeRef} {n : String} :
    n ∈ namesAll rs ↔ ∃ r ∈ rs, n ∈ r.names := by
  induction rs with
  | nil => simp [namesAll]
  | cons r rs ih => simp [namesAll, ih]

theorem Tidy.argument {name : String} {args : List TypeRef} (h : (declared name args).Tidy)
    {a : TypeRef} (ha : a ∈ args) : a.Tidy :=
  fun n hn => h n (by simp only [names]; exact List.mem_cons_of_mem _ (mem_namesAll.2 ⟨a, ha, hn⟩))

theorem Tidy.upper {b : TypeRef} {lower : Option TypeRef} (h : (wildcard (some b) lower).Tidy) :
    b.Tidy := fun n hn => h n (by simp [names, namesOption, hn])

theorem Tidy.component {c : TypeRef} (h : (array c).Tidy) : c.Tidy :=
  fun n hn => h n (by simpa [names] using hn)

theorem Tidy.unreserved_of_name? {r : TypeRef} (h : r.Tidy) {n : String}
    (hn : r.name? = some n) : Unreserved n := by
  cases r with
  | primitive name =>
    obtain rfl := Option.some.inj hn
    exact h name (List.mem_singleton.2 rfl)
  | declared name args =>
    obtain rfl := Option.some.inj hn
    exact h name (List.mem_cons_self ..)
  | typeVar name owner => cases hn
  | wildcard upper lower => cases hn
  | array component => cases hn

variable {owner : String} {bindings : Bindings}

mutual

/-- Names come from the reference or from what is put in. -/
theorem Tidy.substitute {r : TypeRef} (h : r.Tidy) (hb : ∀ b ∈ bindings, b.2.Tidy) :
    (r.substitute owner bindings).Tidy := by
  cases r with
  | primitive name => exact h
  | declared name args =>
    intro n hn
    rw [TypeRef.substitute, names] at hn
    rcases List.mem_cons.1 hn with rfl | hn
    · exact h n (by simp [names])
    · exact tidy_substituteAll (fun n hn => h n (by simp [names, hn])) hb n hn
  | typeVar name o =>
    cases o with
    | method => exact h
    | type declaredBy =>
      rw [TypeRef.substitute]
      split
      · split
        · rename_i bound hbound
          exact hb (name, bound) (Bindings.mem_of_lookup hbound)
        · exact h
      · exact h
  | wildcard upper lower =>
    intro n hn
    rw [TypeRef.substitute, names] at hn
    rcases List.mem_append.1 hn with hn | hn
    · exact tidy_substituteOption (fun n hn => h n (by simp [names, hn])) hb n hn
    · exact tidy_substituteOption (fun n hn => h n (by simp [names, hn])) hb n hn
  | array component =>
    rw [TypeRef.substitute]
    intro n hn
    rw [names] at hn
    exact h.component.substitute hb n hn

theorem tidy_substituteAll {rs : List TypeRef} (h : ∀ n ∈ namesAll rs, Unreserved n)
    (hb : ∀ b ∈ bindings, b.2.Tidy) :
    ∀ n ∈ namesAll (substituteAll owner bindings rs), Unreserved n := by
  cases rs with
  | nil => exact h
  | cons r rs =>
    intro n hn
    rw [substituteAll, namesAll] at hn
    rcases List.mem_append.1 hn with hn | hn
    · exact Tidy.substitute (r := r) (fun n hn => h n (by simp [namesAll, hn])) hb n hn
    · exact tidy_substituteAll (fun n hn => h n (by simp [namesAll, hn])) hb n hn

theorem tidy_substituteOption {r? : Option TypeRef} (h : ∀ n ∈ namesOption r?, Unreserved n)
    (hb : ∀ b ∈ bindings, b.2.Tidy) :
    ∀ n ∈ namesOption (substituteOption owner bindings r?), Unreserved n := by
  cases r? with
  | none => exact h
  | some r =>
    rw [substituteOption]
    exact Tidy.substitute (r := r) h hb

end

end TypeRef

/-- The sign of placeholders is in no name that a declaration mentions, nor in its own. -/
def DeclaredType.Tidy (t : DeclaredType) : Prop := Unreserved t.name ∧ ∀ r ∈ t.references, r.Tidy

instance : DecidablePred DeclaredType.Tidy := fun t =>
  inferInstanceAs (Decidable (Unreserved t.name ∧ ∀ r ∈ t.references, r.Tidy))

/-- The sign of placeholders is in no name of an export. -/
def SymbolTable.Tidy (s : SymbolTable) : Prop := ∀ t ∈ s.types, t.Tidy

instance : DecidablePred SymbolTable.Tidy := fun s =>
  inferInstanceAs (Decidable (∀ t ∈ s.types, t.Tidy))

/-- The sign of placeholders is in no name of a signature. -/
def Method.Tidy (m : Method) : Prop :=
  (∀ p ∈ m.parameters, p.type.Tidy) ∧ ∀ r, m.returnType = some r → r.Tidy

theorem SymbolTable.Tidy.unreserved {s : SymbolTable} (h : s.Tidy) : s.Unreserved :=
  fun t ht => (h t ht).1

/-- What is derived from an export has no names but those of the export. -/
theorem SymbolTable.Derived.tidy {s : SymbolTable} {r : TypeRef} (hs : s.Tidy) (h : s.Derived r) :
    r.Tidy := by
  induction h with
  | @written t r ht hr => exact (hs t ht).2 r hr
  | argument _ ha ih => exact ih.argument ha
  | upper _ ih => exact ih.upper
  | component _ ih => exact ih.component
  | replaced _ _ ih ihb => exact ih.substitute ihb
  | unbounded => exact fun n hn => by simp [TypeRef.names, TypeRef.namesOption] at hn

/-- The methods of a controller, its own and inherited. -/
theorem SymbolTable.Tidy.allMethods {s : SymbolTable} (h : s.Tidy) {t : DeclaredType}
    (ht : t ∈ s.types) : ∀ m ∈ s.allMethods t, m.Tidy := by
  have htypes (m : Method) (hm : m ∈ s.allMethods t) : ∀ r ∈ m.types, r.Tidy :=
    fun r hr => (derived_of_mem_allMethods ht hm hr).tidy h
  refine fun m hm => ⟨fun p hp => htypes m hm _ ?_, fun r hr => htypes m hm _ ?_⟩
  · exact List.mem_append_left _ (List.mem_map_of_mem hp)
  · exact List.mem_append_right _ (Option.mem_toList.2 hr)

namespace BuildContext

/-- The references that a step leaves over are as tidy as the export. -/
theorem tidy_of_inner {cx : BuildContext} {r a : TypeRef} (hs : cx.symbols.Tidy) (hr : r.Tidy)
    (ha : a ∈ cx.inner r) : a.Tidy := by
  cases r with
  | primitive name => cases ha
  | declared name args => exact hr.argument ha
  | typeVar name owner =>
    obtain ⟨t, ht, hmem⟩ := SymbolTable.mem_references_of_soleBound? (Option.mem_toList.1 ha)
    exact (hs t ht).2 a hmem
  | wildcard upper lower =>
    obtain rfl : upper = some a := Option.mem_toList.1 ha
    exact hr.upper
  | array component =>
    obtain rfl : a = component := List.mem_singleton.1 ha
    exact hr.component

end BuildContext

end ClientBindings
