import ClientBindings.Dict
import ClientBindings.Document.Double

/-! Annotations with their attribute values, and the declarations of annotation types. -/
namespace ClientBindings

inductive AnnotationValue where
  | bool (value : Bool)
  | int (value : Int)
  | float (value : Double)
  | text (value : String)
  | list (items : List AnnotationValue)
  deriving Repr, Inhabited

namespace AnnotationValue

/-- The text itself, or that of the first item. -/
def text? : AnnotationValue → Option String
  | .text s => some s
  | .list (first :: _) => first.text?
  | _ => none

/-- A truth value, also when it is given as a text. -/
def bool? : AnnotationValue → Option Bool
  | .bool b => some b
  | .text s => if s = "true" then some true else if s = "false" then some false else none
  | _ => none

/-- Every item's text; a single text counts as a list of one. -/
def texts : AnnotationValue → List String
  | .text s => [s]
  | .list items => items.filterMap text?
  | _ => []

def isEmpty : AnnotationValue → Bool
  | .text s => s.isEmpty
  | .list items => items.isEmpty
  | _ => false

end AnnotationValue

/-- A name with attribute values, in the order of their names. -/
structure Annotation where
  name : String
  values : Dict AnnotationValue
  sorted : values.Sorted
  deriving Repr

namespace Annotation

/-- An annotation as it is written; of an attribute that is given again the last value counts. -/
def written (name : String) (values : List (String × AnnotationValue)) : Annotation :=
  ⟨name, .ofEntries values, Dict.sorted_ofEntries values⟩

instance : Inhabited Annotation := ⟨written "" []⟩

end Annotation

/-- The attribute that an attribute stands for. Without an annotation it is one of the same
declaration, without a target the one of the same name. -/
structure AliasFor where
  owner : Option String
  target : Option String
  deriving DecidableEq, Repr, Inhabited

structure AnnotationAttribute where
  name : String
  aliasFor : Option AliasFor
  deriving DecidableEq, Repr, Inhabited

/-- The declaration of an annotation type: its meta-annotations and its attributes. -/
structure AnnotationType where
  name : String
  annotations : List Annotation
  attributes : List AnnotationAttribute
  deriving Repr, Inhabited

/-- Whether an annotation of that name is written on the element itself. -/
def carriesMarker (annotations : List Annotation) (name : String) : Bool :=
  annotations.any fun a => a.name == name

end ClientBindings
