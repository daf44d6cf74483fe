import ClientBindings.Workspace
import ClientBindings.Symbol.Aliasing

/-! Request mappings and parameter bindings as annotations give them. -/
namespace ClientBindings

/-- Warns of values after the first. -/
def warnOfMany (location noun : String) (values : List String) : Work Unit :=
  match values with
  | first :: _ :: _ =>
    Work.warn location
      s!"Mapping declares {values.length} {noun}, only the first ('{first}') is used"
  | _ => pure ()

namespace SymbolTable

/-- The mapping of an element, if it has one: its first path and its first verb. -/
def resolveMapping (s : SymbolTable) (annotations : List Annotation) (location : String) :
    Build (Option Mapping) := do
  match s.resolveAnnotation annotations Marker.requestMapping with
  | none => pure none
  | some resolved =>
    let paths := resolved.texts "path"
    warnOfMany location "paths" paths
    let verbs := resolved.texts "method"
    warnOfMany location "methods" verbs
    match verbs with
    | [] => pure (some ⟨paths.head?, none⟩)
    | raw :: _ => match Verb.parse? raw with
      | some verb => pure (some ⟨paths.head?, some verb⟩)
      | none => throw (.invalidVerb location raw)

end SymbolTable

/-- Markers of bound parameters, in order of precedence. -/
def bindingMarkers : List (String × BindingLocation) := [
  (Marker.requestParam, .query), (Marker.pathVariable, .path), (Marker.requestBody, .body)]

namespace SymbolTable

/-- The bindings that a parameter carries. -/
def bindingsOf (s : SymbolTable) (p : Parameter) : List (BindingLocation × ResolvedAnnotation) :=
  bindingMarkers.filterMap fun (marker, location) =>
    (s.resolveAnnotation p.annotations marker).map fun r => (location, r)

/-- The name and necessity that a marker gives to a parameter. -/
def toBinding (p : Parameter) (location : BindingLocation) (r : ResolvedAnnotation) :
    ParameterBinding where
  location := location
  name := ((r.text? "name").filter fun n => !Text.isBlankText n).getD p.name
  required := (r.bool? "required").getD true

end SymbolTable

end ClientBindings
