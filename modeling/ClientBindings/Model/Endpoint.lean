import ClientBindings.Model.Type

/-! Endpoints: the mapped methods of a controller, with their parameters and return types. -/
namespace ClientBindings

inductive Verb where
  | get | head | post | put | patch | delete | options | trace
  deriving DecidableEq, Repr, Inhabited

namespace Verb

def all : List Verb := [get, head, post, put, patch, delete, options, trace]

def label : Verb → String
  | get => "GET"
  | head => "HEAD"
  | post => "POST"
  | put => "PUT"
  | patch => "PATCH"
  | delete => "DELETE"
  | options => "OPTIONS"
  | trace => "TRACE"

/-- A verb by its name, in any case and with or without qualification. -/
def parse? (raw : String) : Option Verb :=
  let name := (Text.trimChars (Text.afterLast (· == '.') raw).toList).map Char.toUpper
  all.find? fun v => v.label == String.ofList name

end Verb

structure Mapping where
  urlTemplate : Option String
  verb : Option Verb
  deriving DecidableEq, Repr, Inhabited

inductive BindingLocation where
  | query | path | body
  deriving DecidableEq, Repr, Inhabited

def BindingLocation.label : BindingLocation → String
  | query => "query"
  | path => "path"
  | body => "body"

/-- Where a parameter travels in a request, and under which name. -/
structure ParameterBinding where
  location : BindingLocation
  name : String
  required : Bool
  deriving DecidableEq, Repr, Inhabited

structure MethodParameter where
  name : String
  type : TypeInstance
  binding : ParameterBinding
  deriving Repr, Inhabited

structure EndpointMethod where
  name : String
  mapping : Mapping
  params : List MethodParameter
  returnType : Option TypeInstance
  deriving Repr, Inhabited

structure Endpoint where
  controllerType : String
  name : String
  moduleName : Option String
  defaultMapping : Option Mapping
  methods : List EndpointMethod
  container : Option Container
  deriving Repr, Inhabited

namespace Endpoint

def packageName (e : Endpoint) : String := packageNameOf e.container

/-- The types of a method's parameters and its return type. -/
def typesOfMethod (m : EndpointMethod) : List TypeInstance :=
  m.params.map (·.type) ++ m.returnType.toList

end Endpoint

end ClientBindings
