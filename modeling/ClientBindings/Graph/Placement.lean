import ClientBindings.Model.Type
import ClientBindings.Symbol.Table

/-! Where a declared type belongs: the types around it and its package. -/
namespace ClientBindings.SymbolTable

/-- What following the links to enclosing types finds, innermost first: the last type reached, and
an enclosing name that is not declared, if the walk ends at one. -/
structure EnclosingWalk where
  enclosing : List EnclosingType
  outermost : DeclaredType
  dangling : Option String

def typesExcept (name : String) (types : List DeclaredType) : List DeclaredType :=
  types.filter (·.name != name)

theorem length_typesExcept_lt {name : String} {types : List DeclaredType} {t : DeclaredType}
    (h : types.find? (·.name == name) = some t) :
    (typesExcept name types).length < types.length := by
  have hp : t.name = name := by simpa using List.find?_some h
  exact List.length_filter_lt_length_iff_exists.2
    ⟨t, List.mem_of_find?_eq_some h, by simp [hp]⟩

/-- Follows the links to enclosing types. Each name is followed once: `unseen` are the types that
are still to be reached. -/
def walkOutward (s : SymbolTable) (unseen : List DeclaredType) (t : DeclaredType) : EnclosingWalk :=
  match t.enclosingType with
  | none => ⟨[], t, none⟩
  | some name =>
    match _h : unseen.find? (·.name == name) with
    | some outer =>
      let walk := walkOutward s (typesExcept name unseen) outer
      { walk with enclosing := ⟨outer.name, outer.simpleName⟩ :: walk.enclosing }
    | none =>
      if (s.type? name).isSome then ⟨[], t, none⟩
      else ⟨[⟨name, lastSegment name⟩], t, some name⟩
  termination_by unseen.length
  decreasing_by exact length_typesExcept_lt _h

/-- The package is the type's own, or else that of the name where the walk broke off, or else that
of the outermost type. -/
def placeOf (s : SymbolTable) (t : DeclaredType) : Container :=
  let walk := s.walkOutward s.types t
  let package := match t.package, walk.dangling with
    | some package, _ => package
    | none, some name => parentName name
    | none, none => walk.outermost.package.getD (parentName walk.outermost.name)
  ⟨some package, walk.enclosing.reverse⟩

end ClientBindings.SymbolTable
