import ClientBindings.Symbol.Catalog
import ClientBindings.Symbol.Traversal

/-! The type hierarchy: assignability by name, and the methods that a type has or inherits. -/
namespace ClientBindings.SymbolTable

/-- The names of the declared supertypes of a type and of those that the catalog knows. -/
def supertypeNames (s : SymbolTable) (name : String) : List String :=
  (((s.type? name).map (·.supertypes)).getD []).filterMap (·.name?) ++ Catalog.supertypes name

/-- Every name that can have supertypes. -/
def hierarchyNames (s : SymbolTable) : List String :=
  s.typeNames ++ Catalog.supertypeRows.map (·.1)

/-- Whether `target` is `name` or one of its supertypes, however far up. -/
def isAssignable (s : SymbolTable) (name target : String) : Bool :=
  (name :: Traversal.expand id s.supertypeNames s.hierarchyNames [name]).contains target

/-- What each type parameter of a supertype stands for when it is used with these arguments: the
argument, or else the first bound, or else anything. -/
def parameterBindings (parameters : List TypeParameter) (args : List TypeRef) : Bindings :=
  match parameters, args with
  | [], _ => []
  | p :: ps, a :: as => (p.name, a) :: parameterBindings ps as
  | p :: ps, [] => (p.name, p.bounds.head?.getD (.wildcard none none)) :: parameterBindings ps []

/-- The declared supertypes with their arguments, seen from a subtype. -/
def parents (t : DeclaredType) (bindings : Bindings) : List (String × List TypeRef) :=
  t.supertypes.filterMap fun r => match r.substitute t.name bindings with
    | .declared name args => some (name, args)
    | _ => none

/-- The steps that walking up from these types can still take. -/
def walkWork : List DeclaredType → Nat
  | [] => 0
  | t :: types => 1 + t.supertypes.length + walkWork types

theorem walkWork_filter_le (p : DeclaredType → Bool) (types : List DeclaredType) :
    walkWork (types.filter p) ≤ walkWork types := by
  induction types with
  | nil => exact Nat.le_refl _
  | cons t types ih =>
    cases h : p t with
    | true => simpa [walkWork, h] using ih
    | false =>
      simp only [List.filter_cons, h, walkWork]
      exact Nat.le_trans ih (Nat.le_add_left ..)

theorem walkWork_filter_ne {types : List DeclaredType} {t : DeclaredType} (h : t ∈ types) :
    walkWork (types.filter (·.name != t.name)) + (1 + t.supertypes.length) ≤ walkWork types := by
  induction types with
  | nil => simp at h
  | cons u types ih =>
    by_cases hu : u = t
    · subst hu
      have := walkWork_filter_le (·.name != u.name) types
      simp only [List.filter_cons, bne_self_eq_false, Bool.false_eq_true, if_false, walkWork]
      omega
    · have ht : t ∈ types := by simpa [Ne.symm hu] using h
      have := ih ht
      cases hn : u.name != t.name with
      | true =>
        simp only [List.filter_cons, hn, if_true, walkWork]
        omega
      | false =>
        simp only [List.filter_cons, hn, Bool.false_eq_true, if_false, walkWork]
        omega

theorem length_parents_le (t : DeclaredType) (bindings : Bindings) :
    (parents t bindings).length ≤ t.supertypes.length := List.length_filterMap_le ..

/-- The types reached from the pending references, breadth first, each name once, with the
bindings of the first way in. Only the types of `types` are still to be reached. -/
def ancestors (types : List DeclaredType) :
    List (String × List TypeRef) → List (DeclaredType × Bindings)
  | [] => []
  | (name, args) :: pending =>
    match _h : types.find? (·.name == name) with
    | none => ancestors types pending
    | some t =>
      let bindings := parameterBindings t.typeParameters args
      (t, bindings) ::
        ancestors (types.filter (·.name != t.name)) (pending ++ parents t bindings)
  termination_by pending => walkWork types + pending.length
  decreasing_by
  · simp
  · have := walkWork_filter_ne (List.mem_of_find?_eq_some _h)
    have := length_parents_le t (parameterBindings t.typeParameters args)
    simp
    omega

/-- A type and its declared supertypes, breadth first. -/
def lineage (s : SymbolTable) (t : DeclaredType) : List (DeclaredType × Bindings) :=
  (t, []) :: ancestors (s.types.filter (·.name != t.name)) (parents t [])

/-- Adds the methods of a type that none before hides, as seen from the subtype. -/
def addMethods (found : List Method) (step : DeclaredType × Bindings) : List Method :=
  found ++ (step.1.methods.filter fun m => !found.any (·.overrides m)).map fun m =>
    m.substitute step.1.name step.2

/-- The methods of a type and those it inherits. -/
def allMethods (s : SymbolTable) (t : DeclaredType) : List Method :=
  (s.lineage t).foldl addMethods []

/-- The types with an endpoint annotation of their own. -/
def controllers (s : SymbolTable) : List DeclaredType :=
  s.types.filter fun t => carriesMarker t.annotations Marker.endpoint

end ClientBindings.SymbolTable
