import ClientBindings.Document.Basic
import ClientBindings.Symbol.Table

/-! Writing declarations as documents. References leave out empty arguments and absent bounds, an
owner its overload when it is the first, an annotation its values when there are none. -/
namespace ClientBindings.Encode

open Document

def genericOwner : GenericOwner → Document
  | .type name => .map [("type", .text name)]
  | .method declaringType method overload => .map [("method", .map
      ([("declaring_type", .text declaringType), ("method", .text method)] ++
        if overload = 0 then [] else [("overload", .int overload)]))]

mutual

def typeRef : TypeRef → Document
  | .primitive name => .map [("kind", .text "primitive"), ("name", .text name)]
  | .declared name args => .map ([("kind", .text "declared"), ("name", .text name)] ++
      match args with
      | [] => []
      | r :: rs => [("args", .list (typeRef r :: typeRefs rs))])
  | .typeVar name owner =>
    .map [("kind", .text "type_var"), ("name", .text name), ("owner", genericOwner owner)]
  | .wildcard upper lower => .map ([("kind", .text "wildcard")] ++
      (match upper with
        | none => []
        | some r => [("extends", typeRef r)]) ++
      (match lower with
        | none => []
        | some r => [("super", typeRef r)]))
  | .array component => .map [("kind", .text "array"), ("component", typeRef component)]

def typeRefs : List TypeRef → List Document
  | [] => []
  | r :: rs => typeRef r :: typeRefs rs

end

mutual

def annotationValue : AnnotationValue → Document
  | .bool b => .bool b
  | .int n => .int n
  | .float d => .float d
  | .text s => .text s
  | .list items => .list (annotationValues items)

def annotationValues : List AnnotationValue → List Document
  | [] => []
  | v :: vs => annotationValue v :: annotationValues vs

end

def annotationUse (a : Annotation) : Document := .map ([("name", .text a.name)] ++
  if a.values.isEmpty then []
  else [("values", .map (a.values.map fun (key, v) => (key, annotationValue v)))])

def annotations (as : List Annotation) : Document := .list (as.map annotationUse)

def aliasFor (a : AliasFor) : Document := .map [
  ("annotation", ofOption .text a.owner), ("attribute", ofOption .text a.target)]

def annotationAttribute (a : AnnotationAttribute) : Document := .map [
  ("name", .text a.name), ("alias_for", ofOption aliasFor a.aliasFor)]

def annotationType (t : AnnotationType) : Document := .map [
  ("name", .text t.name),
  ("annotations", annotations t.annotations),
  ("attributes", .list (t.attributes.map annotationAttribute))]

def declaredKind : DeclaredKind → Document
  | .classType => .text "class"
  | .interfaceType => .text "interface"
  | .recordType => .text "record"
  | .enumType => .text "enum"
  | .annotationType => .text "annotation"

def typeParameter (p : TypeParameter) : Document := .map [
  ("name", .text p.name), ("bounds", .list (p.bounds.map typeRef))]

def field (f : Field) : Document := .map [
  ("name", .text f.name), ("type", typeRef f.type), ("modifiers", ofTexts f.modifiers),
  ("annotations", annotations f.annotations)]

def parameter (p : Parameter) : Document := .map [
  ("name", .text p.name), ("type", typeRef p.type), ("annotations", annotations p.annotations)]

def method (m : Method) : Document := .map [
  ("name", .text m.name),
  ("modifiers", ofTexts m.modifiers),
  ("annotations", annotations m.annotations),
  ("type_parameters", .list (m.typeParameters.map typeParameter)),
  ("parameters", .list (m.parameters.map parameter)),
  ("return_type", ofOption typeRef m.returnType)]

def recordComponent (c : RecordComponent) : Document := .map [
  ("name", .text c.name), ("type", typeRef c.type), ("annotations", annotations c.annotations)]

def declaredType (t : DeclaredType) : Document := .map [
  ("name", .text t.name),
  ("simple_name", ofOption .text t.explicitSimpleName),
  ("package", ofOption .text t.package),
  ("enclosing_type", ofOption .text t.enclosingType),
  ("kind", declaredKind t.kind),
  ("modifiers", ofTexts t.modifiers),
  ("annotations", annotations t.annotations),
  ("type_parameters", .list (t.typeParameters.map typeParameter)),
  ("superclass", ofOption typeRef t.superclass),
  ("interfaces", .list (t.interfaces.map typeRef)),
  ("fields", .list (t.fields.map field)),
  ("methods", .list (t.methods.map method)),
  ("record_components", .list (t.recordComponents.map recordComponent)),
  ("enum_constants", ofTexts t.enumConstants)]

def symbolExport (e : Export) : Document := .map [
  ("types", .list (e.types.map declaredType)),
  ("annotation_types", .list (e.annotationTypes.map annotationType))]

end ClientBindings.Encode
