/-! References to types as they are written at a use, and the substitution of type variables. -/
namespace ClientBindings

/-- The generic declaration that a type variable belongs to. Methods of one name are told apart by
their position among the methods of that name. -/
inductive GenericOwner where
  | type (name : String)
  | method (declaringType : String) (method : String) (overload : Nat)
  deriving DecidableEq, Repr, Inhabited

def GenericOwner.display : GenericOwner → String
  | .type name => name
  | .method declaringType name 0 => declaringType ++ "#" ++ name
  | .method declaringType name overload =>
    declaringType ++ "#" ++ name ++ "[" ++ toString overload ++ "]"

inductive TypeRef where
  | primitive (name : String)
  | declared (name : String) (args : List TypeRef)
  | typeVar (name : String) (owner : GenericOwner)
  | wildcard (upper : Option TypeRef) (lower : Option TypeRef)
  | array (component : TypeRef)
  deriving Repr, Inhabited

abbrev Bindings := List (String × TypeRef)

namespace TypeRef

/-- The qualified name of a declared or primitive reference. -/
def name? : TypeRef → Option String
  | .primitive name => some name
  | .declared name _ => some name
  | _ => none

def isPrimitive : TypeRef → Bool
  | .primitive _ => true
  | _ => false

mutual

/-- Replaces the variables of the type `owner` that have a binding. -/
def substitute (owner : String) (bindings : Bindings) : TypeRef → TypeRef
  | .primitive name => .primitive name
  | .declared name args => .declared name (substituteAll owner bindings args)
  | .typeVar name (.type declaredBy) =>
    if declaredBy = owner then
      match bindings.lookup name with
      | some bound => bound
      | none => .typeVar name (.type declaredBy)
    else .typeVar name (.type declaredBy)
  | .typeVar name (.method declaringType method overload) =>
    .typeVar name (.method declaringType method overload)
  | .wildcard upper lower =>
    .wildcard (substituteOption owner bindings upper) (substituteOption owner bindings lower)
  | .array component => .array (substitute owner bindings component)

def substituteAll (owner : String) (bindings : Bindings) : List TypeRef → List TypeRef
  | [] => []
  | r :: rs => substitute owner bindings r :: substituteAll owner bindings rs

def substituteOption (owner : String) (bindings : Bindings) : Option TypeRef → Option TypeRef
  | none => none
  | some r => some (substitute owner bindings r)

end

mutual

/-- The number of nodes of a reference. -/
def size : TypeRef → Nat
  | .primitive _ => 1
  | .declared _ args => 1 + sizeAll args
  | .typeVar _ _ => 1
  | .wildcard upper lower => 1 + sizeOption upper + sizeOption lower
  | .array component => 1 + size component

def sizeAll : List TypeRef → Nat
  | [] => 0
  | r :: rs => size r + sizeAll rs

def sizeOption : Option TypeRef → Nat
  | none => 0
  | some r => size r

end

end TypeRef

structure TypeParameter where
  name : String
  bounds : List TypeRef
  deriving Repr, Inhabited

end ClientBindings
