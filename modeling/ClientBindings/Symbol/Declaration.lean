import ClientBindings.Symbol.TypeRef
import ClientBindings.Symbol.Annotation
import ClientBindings.Text.Basic

/-! Declarations of types and of their members. -/
namespace ClientBindings

inductive DeclaredKind where
  | classType | interfaceType | recordType | enumType | annotationType
  deriving DecidableEq, Repr, Inhabited

structure Field where
  name : String
  type : TypeRef
  modifiers : List String
  annotations : List Annotation
  deriving Repr, Inhabited

structure Parameter where
  name : String
  type : TypeRef
  annotations : List Annotation
  deriving Repr, Inhabited

/-- A method; one without a return type returns nothing. -/
structure Method where
  name : String
  modifiers : List String
  annotations : List Annotation
  typeParameters : List TypeParameter
  parameters : List Parameter
  returnType : Option TypeRef
  deriving Repr, Inhabited

structure RecordComponent where
  name : String
  type : TypeRef
  annotations : List Annotation
  deriving Repr, Inhabited

structure DeclaredType where
  name : String
  explicitSimpleName : Option String
  package : Option String
  enclosingType : Option String
  kind : DeclaredKind
  modifiers : List String
  annotations : List Annotation
  typeParameters : List TypeParameter
  superclass : Option TypeRef
  interfaces : List TypeRef
  fields : List Field
  methods : List Method
  recordComponents : List RecordComponent
  enumConstants : List String
  deriving Repr, Inhabited

/-- The last segment of a qualified name, nested names included. -/
def lastSegment (name : String) : String := Text.afterLast (fun c => c == '.' || c == '$') name

/-- What stands before the last dot, or nothing. -/
def parentName (name : String) : String := (Text.beforeLast? (· == '.') name).getD ""

namespace Method

/-- A method of a subtype hides those of its name and number of parameters. -/
def overrides (m other : Method) : Bool :=
  m.name == other.name && m.parameters.length == other.parameters.length

/-- Replaces variables of the type `owner` in the signature. -/
def substitute (m : Method) (owner : String) (bindings : Bindings) : Method :=
  if bindings.isEmpty then m
  else { m with
    parameters := m.parameters.map fun p => { p with type := p.type.substitute owner bindings }
    returnType := m.returnType.map (·.substitute owner bindings) }

end Method

namespace DeclaredType

def simpleName (t : DeclaredType) : String := t.explicitSimpleName.getD (lastSegment t.name)

/-- The superclass, then the interfaces. -/
def supertypes (t : DeclaredType) : List TypeRef := t.superclass.toList ++ t.interfaces

def typeParameter? (t : DeclaredType) (name : String) : Option TypeParameter :=
  t.typeParameters.find? (·.name == name)

/-- Every reference that a declaration contains. -/
def references (t : DeclaredType) : List TypeRef :=
  t.typeParameters.flatMap (·.bounds) ++ t.supertypes ++ t.fields.map (·.type) ++
    t.recordComponents.map (·.type) ++
    t.methods.flatMap fun m =>
      m.typeParameters.flatMap (·.bounds) ++ m.parameters.map (·.type) ++ m.returnType.toList

/-- The method of that name at that position among the methods of the name. -/
def method? (t : DeclaredType) (name : String) (overload : Nat) : Option Method :=
  (t.methods.filter (·.name == name))[overload]?

end DeclaredType

end ClientBindings
