import ClientBindings.Symbol.Catalog
import ClientBindings.Symbol.Traversal

/-! What an element's annotations say about a target annotation: directly, through annotations of
annotations, and through attributes that stand for attributes of the target. -/
namespace ClientBindings

/-- The values of a target annotation on an element. -/
structure ResolvedAnnotation where
  name : String
  values : Dict AnnotationValue
  deriving Repr, Inhabited

namespace ResolvedAnnotation

def texts (r : ResolvedAnnotation) (key : String) : List String :=
  ((r.values.get? key).map (·.texts)).getD []

def text? (r : ResolvedAnnotation) (key : String) : Option String :=
  (r.values.get? key).bind (·.text?)

def bool? (r : ResolvedAnnotation) (key : String) : Option Bool :=
  (r.values.get? key).bind (·.bool?)

end ResolvedAnnotation

namespace AnnotationType

def attribute? (t : AnnotationType) (name : String) : Option AnnotationAttribute :=
  t.attributes.find? (·.name == name)

end AnnotationType

/-- The attribute of the same declaration that `a` stands for. -/
def AnnotationAttribute.localTarget? (declaration : String) (a : AnnotationAttribute) :
    Option String :=
  match a.aliasFor with
  | none => none
  | some meaning => match meaning.owner with
    | none => meaning.target
    | some name => if name = declaration then meaning.target else none

def attributesExcept (key : String) (attributes : List AnnotationAttribute) :
    List AnnotationAttribute :=
  attributes.filter (·.name != key)

theorem length_attributesExcept_lt {key : String} {attributes : List AnnotationAttribute}
    {a : AnnotationAttribute} (h : attributes.find? (·.name == key) = some a) :
    (attributesExcept key attributes).length < attributes.length := by
  have hp : a.name = key := by simpa using List.find?_some h
  exact List.length_filter_lt_length_iff_exists.2
    ⟨a, List.mem_of_find?_eq_some h, by simp [hp]⟩

/-- Sets a value and then those of the attributes that its attribute stands for, up to the first
that has a value. Each attribute is followed once, so cycles end. -/
def setWithAliases (declaration : String) (attributes : List AnnotationAttribute)
    (values : Dict AnnotationValue) (key : String) (value : AnnotationValue) :
    Dict AnnotationValue :=
  if values.contains key then values
  else
    match _h : attributes.find? (·.name == key) with
    | none => values.insert key value
    | some a => match a.localTarget? declaration with
      | none => values.insert key value
      | some other =>
        setWithAliases declaration (attributesExcept key attributes) (values.insert key value)
          other value
  termination_by attributes.length
  decreasing_by exact length_attributesExcept_lt _h

namespace SymbolTable

/-- The declaration of an annotation type, in the export or else in the catalog. -/
def declaredAnnotation? (s : SymbolTable) (name : String) : Option AnnotationType :=
  (s.annotationType? name).or (Catalog.annotationType? name)

/-- The annotations on the declaration of an annotation type. -/
def metaAnnotations (s : SymbolTable) (name : String) : List Annotation :=
  ((s.declaredAnnotation? name).map (·.annotations)).getD []

/-- The annotation types that are looked into. -/
def openAnnotationNames (s : SymbolTable) : List String :=
  (s.annotationTypes.map (·.name) ++ Catalog.annotationTypes.map (·.name)).filter fun n =>
    !Text.startsWith Marker.metaNamespace n

/-- The annotations of an element, followed by their meta-annotations to any depth. -/
def collectAnnotations (s : SymbolTable) (direct : List Annotation) : List Annotation :=
  direct ++ Traversal.expand Annotation.name s.metaAnnotations s.openAnnotationNames direct

/-- The attributes of the target that one annotation gives, in the order of its keys. -/
def contributions (s : SymbolTable) (target : String) (a : Annotation) :
    List (String × AnnotationValue) :=
  if a.name = target then a.values
  else match s.declaredAnnotation? a.name with
    | none => []
    | some declaration => a.values.filterMap fun (key, value) =>
      match (declaration.attribute? key).bind (·.aliasFor) with
      | none => none
      | some meaning =>
        if meaning.owner = some target then some (meaning.target.getD key, value) else none

/-- The values of `target` on an element with these annotations. The first value of a key stays. -/
def resolveAnnotation (s : SymbolTable) (annotations : List Annotation) (target : String) :
    Option ResolvedAnnotation :=
  let all := s.collectAnnotations annotations
  let given := all.flatMap (s.contributions target)
  if all.any (·.name == target) || !given.isEmpty then
    let (declaration, attributes) := match s.declaredAnnotation? target with
      | some t => (t.name, t.attributes)
      | none => (target, [])
    some ⟨target, given.foldl
      (fun values e => setWithAliases declaration attributes values e.1 e.2) []⟩
  else none

def isMarked (s : SymbolTable) (annotations : List Annotation) (target : String) : Bool :=
  (s.resolveAnnotation annotations target).isSome

/-- The text under `key`, unless it is blank. -/
def markerText? (s : SymbolTable) (annotations : List Annotation) (target key : String) :
    Option String :=
  ((s.resolveAnnotation annotations target).bind (·.text? key)).filter fun t =>
    !Text.isBlankText t

/-- The name that an annotation puts in place of the declared one. -/
def displayName? (s : SymbolTable) (annotations : List Annotation) : Option String :=
  s.markerText? annotations Marker.displayName "value"

end SymbolTable

end ClientBindings
