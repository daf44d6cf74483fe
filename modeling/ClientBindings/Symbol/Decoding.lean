import ClientBindings.Document.Scalar
import ClientBindings.Symbol.Table

/-! Reading declarations out of documents. A type reference names its kind in the field `kind`; an
owner is a map of one entry. Both, and attribute values, have their scalars settled first. -/
namespace ClientBindings

mutual

/-- How deep lists and maps nest in a document. -/
def Document.depth : Document → Nat
  | .list items => 1 + depthAll items
  | .map entries => 1 + depthEntries entries
  | .tagged _ d => d.depth
  | _ => 0

def Document.depthAll : List Document → Nat
  | [] => 0
  | d :: ds => max d.depth (depthAll ds)

def Document.depthEntries : List (String × Document) → Nat
  | [] => 0
  | (_, d) :: entries => max d.depth (depthEntries entries)

end

/-- An enumeration value that carries content is a map from its name to the content. -/
def Document.variant? : Document → Option (String × Document)
  | .map [entry] => some entry
  | _ => none

namespace Decode

open Document

def genericOwner (d : Document) : Option GenericOwner := do
  let (tag, content) ← d.variant?
  if tag = "type" then (text? content).map .type
  else if tag = "method" then do
    let f ← content.fields? ["declaring_type", "method", "overload"]
    let declaringType ← f.required "declaring_type" text?
    let method ← f.required "method" text?
    let overload ← f.withDefault "overload" 0 natural?
    pure (.method declaringType method overload)
  else none

/-- The kind of a reference and its other fields: the first item of a list is the kind. -/
def tagged? : Document → Option (String × Document)
  | .map entries =>
    match entries.filter fun e => e.1 == "kind" with
    | [(_, tag)] => (text? tag).map fun t => (t, .map (entries.filter fun e => e.1 != "kind"))
    | _ => none
  | .list (tag :: rest) => (text? tag).map fun t => (t, .list rest)
  | _ => none

/-- Reads a settled reference of at most that depth. -/
def typeRefAt : Nat → Document → Option TypeRef
  | 0, _ => none
  | n + 1, d => do
    let (kind, content) ← tagged? d
    if kind = "primitive" then do
      let f ← content.fields? ["name"]
      (f.required "name" text?).map .primitive
    else if kind = "declared" then do
      let f ← content.fields? ["name", "args"]
      let name ← f.required "name" text?
      let args ← f.list "args" (typeRefAt n)
      pure (.declared name args)
    else if kind = "type_var" then do
      let f ← content.fields? ["name", "owner"]
      let name ← f.required "name" text?
      let owner ← f.required "owner" genericOwner
      pure (.typeVar name owner)
    else if kind = "wildcard" then do
      let f ← content.fields? ["extends", "super"]
      let upper ← f.optional "extends" (typeRefAt n)
      let lower ← f.optional "super" (typeRefAt n)
      pure (.wildcard upper lower)
    else if kind = "array" then do
      let f ← content.fields? ["component"]
      (f.required "component" (typeRefAt n)).map .array
    else none

def typeRef (d : Document) : Option TypeRef := d.settle.bind fun d => typeRefAt d.depth d

mutual

/-- Reads a settled attribute value; integers beyond a signed word are read as numbers. -/
def settledValue : Document → Option AnnotationValue
  | .bool b => some (.bool b)
  | .int n =>
    if Word.fitsSigned 63 n then some (.int n)
    else some (.float (Double.ofFloat (Float.ofInt n)))
  | .float d => some (.float d)
  | .text s => some (.text s)
  | .list items => (settledValues items).map .list
  | _ => none

def settledValues : List Document → Option (List AnnotationValue)
  | [] => some []
  | d :: ds => match settledValue d, settledValues ds with
    | some v, some vs => some (v :: vs)
    | _, _ => none

end

def annotationValue (d : Document) : Option AnnotationValue := d.settle.bind settledValue

/-- The attribute values of an annotation, in the order in which they are given. -/
def annotationValues (d : Document) : Option (List (String × AnnotationValue)) := do
  let entries ← d.entries?
  let values ← decodeAll (fun e => annotationValue e) (entries.map (·.2))
  pure ((entries.map (·.1)).zip values)

def annotationUse (d : Document) : Option Annotation := do
  let f ← d.fields? ["name", "values"]
  let name ← f.required "name" text?
  let values ← f.withDefault "values" [] annotationValues
  pure (.written name values)

def annotations (d : Document) : Option (List Annotation) := listOf annotationUse d

def aliasFor (d : Document) : Option AliasFor := do
  let f ← d.fields? ["annotation", "attribute"]
  let owner ← f.optional "annotation" text?
  let target ← f.optional "attribute" text?
  pure ⟨owner, target⟩

def annotationAttribute (d : Document) : Option AnnotationAttribute := do
  let f ← d.fields? ["name", "alias_for"]
  let name ← f.required "name" text?
  let meaning ← f.optional "alias_for" aliasFor
  pure ⟨name, meaning⟩

def annotationType (d : Document) : Option AnnotationType := do
  let f ← d.fields? ["name", "annotations", "attributes"]
  let name ← f.required "name" text?
  let annotations ← f.list "annotations" annotationUse
  let attributes ← f.list "attributes" annotationAttribute
  pure ⟨name, annotations, attributes⟩

def declaredKind : Document → Option DeclaredKind :=
  enumOf [("class", .classType), ("interface", .interfaceType), ("record", .recordType),
    ("enum", .enumType), ("annotation", .annotationType)]

def typeParameter (d : Document) : Option TypeParameter := do
  let f ← d.fields? ["name", "bounds"]
  let name ← f.required "name" text?
  let bounds ← f.list "bounds" typeRef
  pure ⟨name, bounds⟩

def field (d : Document) : Option Field := do
  let f ← d.fields? ["name", "type", "modifiers", "annotations"]
  let name ← f.required "name" text?
  let type ← f.required "type" typeRef
  let modifiers ← f.list "modifiers" text?
  let annotations ← f.list "annotations" annotationUse
  pure ⟨name, type, modifiers, annotations⟩

def parameter (d : Document) : Option Parameter := do
  let f ← d.fields? ["name", "type", "annotations"]
  let name ← f.required "name" text?
  let type ← f.required "type" typeRef
  let annotations ← f.list "annotations" annotationUse
  pure ⟨name, type, annotations⟩

def method (d : Document) : Option Method := do
  let f ← d.fields?
    ["name", "modifiers", "annotations", "type_parameters", "parameters", "return_type"]
  let name ← f.required "name" text?
  let modifiers ← f.list "modifiers" text?
  let annotations ← f.list "annotations" annotationUse
  let typeParameters ← f.list "type_parameters" typeParameter
  let parameters ← f.list "parameters" parameter
  let returnType ← f.optional "return_type" typeRef
  pure ⟨name, modifiers, annotations, typeParameters, parameters, returnType⟩

def recordComponent (d : Document) : Option RecordComponent := do
  let f ← d.fields? ["name", "type", "annotations"]
  let name ← f.required "name" text?
  let type ← f.required "type" typeRef
  let annotations ← f.list "annotations" annotationUse
  pure ⟨name, type, annotations⟩

def declaredType (d : Document) : Option DeclaredType := do
  let f ← d.fields? ["name", "simple_name", "package", "enclosing_type", "kind", "modifiers",
    "annotations", "type_parameters", "superclass", "interfaces", "fields", "methods",
    "record_components", "enum_constants"]
  let name ← f.required "name" text?
  let simpleName ← f.optional "simple_name" text?
  let package ← f.optional "package" text?
  let enclosingType ← f.optional "enclosing_type" text?
  let kind ← f.required "kind" declaredKind
  let modifiers ← f.list "modifiers" text?
  let annotations ← f.list "annotations" annotationUse
  let typeParameters ← f.list "type_parameters" typeParameter
  let superclass ← f.optional "superclass" typeRef
  let interfaces ← f.list "interfaces" typeRef
  let fields ← f.list "fields" field
  let methods ← f.list "methods" method
  let recordComponents ← f.list "record_components" recordComponent
  let enumConstants ← f.list "enum_constants" text?
  pure {
    name, explicitSimpleName := simpleName, package, enclosingType, kind, modifiers, annotations,
    typeParameters, superclass, interfaces, fields, methods, recordComponents, enumConstants }

def symbolExport (d : Document) : Option Export := do
  let f ← d.fields? ["types", "annotation_types"]
  let types ← f.list "types" declaredType
  let annotationTypes ← f.list "annotation_types" annotationType
  pure ⟨types, annotationTypes⟩

end Decode

end ClientBindings
