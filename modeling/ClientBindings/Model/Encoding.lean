import ClientBindings.Document.Basic
import ClientBindings.Diagnostic
import ClientBindings.Model.Endpoint

/-! Writing definitions, endpoints and diagnostics as documents. -/
namespace ClientBindings.Encode

open Document

/-- A package, wrapped by its enclosing types from the outermost to the innermost. -/
def container (c : Container) : Document :=
  let package : Option Document := c.package.map fun name => .map [
    ("package_element", .bool true), ("full_name", .text name),
    ("short_name", .text (Text.afterLast (· == '.') name))]
  (c.enclosing.foldl (fun (outer : Option Document) e => some (.map ([
    ("package_element", Document.bool false), ("full_name", .text e.fullName),
    ("short_name", .text e.shortName)] ++ match outer with
      | none => []
      | some outer => [("container", outer)]))) package).getD .null

mutual

def typeInstance : TypeInstance → Document
  | .mk d [] => .map [("definition", .int d)]
  | .mk d (a :: as) =>
    .map [("definition", .int d), ("arguments", .list (typeInstance a :: typeInstances as))]

def typeInstances : List TypeInstance → List Document
  | [] => []
  | a :: as => typeInstance a :: typeInstances as

end

def property (p : PropertyDefinition) : Document := .map [
  ("name", .text p.name), ("type", typeInstance p.type), ("nullable", .bool p.nullable)]

def typeDefinition (d : TypeDefinition) : Document := .map [
  ("id", .int d.id),
  ("full_name", .text d.fullName),
  ("short_name", .text d.shortName),
  ("ts_name", .text d.tsName),
  ("kind", .text d.kind.label),
  ("super_types", .list (typeInstances d.superTypes)),
  ("properties", .list (d.properties.map property)),
  ("enum_constants", ofTexts d.enumConstants),
  ("generic_params", .list (d.genericParams.map fun (p : TypeId) => Document.int (p : Nat))),
  ("container", ofOption container d.container),
  ("predefined", .bool d.predefined),
  ("initialized", .bool d.initialized)]

def mapping (m : Mapping) : Document := .map ((match m.urlTemplate with
    | none => []
    | some url => [("url_template", .text url)]) ++
  [("verb", ofOption (fun v => .text v.label) m.verb)])

def binding (b : ParameterBinding) : Document := .map [
  ("location", .text b.location.label), ("name", .text b.name), ("required", .bool b.required)]

def methodParameter (p : MethodParameter) : Document := .map [
  ("name", .text p.name), ("type", typeInstance p.type), ("binding", binding p.binding)]

def endpointMethod (m : EndpointMethod) : Document := .map [
  ("name", .text m.name),
  ("mapping", mapping m.mapping),
  ("params", .list (m.params.map methodParameter)),
  ("return_type", ofOption typeInstance m.returnType)]

def endpoint (e : Endpoint) : Document := .map [
  ("controller_type", .text e.controllerType),
  ("name", .text e.name),
  ("module_name", ofOption .text e.moduleName),
  ("default_mapping", ofOption mapping e.defaultMapping),
  ("methods", .list (e.methods.map endpointMethod)),
  ("container", ofOption container e.container)]

def severity : Severity → Document
  | .info => .text "Info"
  | .warning => .text "Warning"
  | .error => .text "Error"

def diagnostic (d : Diagnostic) : Document := .map [
  ("severity", severity d.severity), ("location", .text d.location), ("message", .text d.message)]

end ClientBindings.Encode
