import ClientBindings.Property.Locator

/-! The properties of a type: candidates of several locators, merged by name, the first one of a
name winning. -/
namespace ClientBindings

/-- A strategy that decides whether a property is never null. -/
structure PropertyClassifier where
  isNotNull : SymbolTable → PropertyCandidate → Bool

/-- Never null is what one of the annotations stands on, or what leads to one. -/
def PropertyClassifier.validation (markers : List String) : PropertyClassifier where
  isNotNull s c := (s.collectAnnotations c.annotations).any fun a => markers.contains a.name

/-- Lists of annotations stand for the classifiers that look for them. -/
instance : Coe (List (List String)) (List PropertyClassifier) := ⟨List.map .validation⟩

/-- Locators in order of precedence, and classifiers. -/
structure PropertyPipeline where
  locators : List PropertyLocator
  classifiers : List PropertyClassifier
  deriving Inhabited

namespace PropertyPipeline

def labels (p : PropertyPipeline) : List String := p.locators.map (·.label)

/-- The locators by their labels, and the number of the classifiers. -/
instance : Repr PropertyPipeline := ⟨fun p => reprPrec (p.labels, p.classifiers.length)⟩

def jakarta : List String := [Marker.notNull, Marker.notEmpty]

def standard : PropertyPipeline := ⟨[.accessor, .record, .field], [.validation jakarta]⟩

end PropertyPipeline

namespace SymbolTable

/-- The name that a property gets: the display name of its member, or else its own. -/
def effectiveName (s : SymbolTable) (c : PropertyCandidate) : String :=
  (s.displayName? c.annotations).getD c.name

/-- Of the candidates with one effective name, the first. -/
def mergeCandidates (s : SymbolTable) (merged : List (String × PropertyCandidate)) :
    List PropertyCandidate → List (String × PropertyCandidate)
  | [] => merged
  | c :: cs =>
    let name := s.effectiveName c
    if merged.any (·.1 == name) then s.mergeCandidates merged cs
    else s.mergeCandidates (merged ++ [(name, c)]) cs

/-- The winning candidates, in the order of their first occurrence. -/
def winners (s : SymbolTable) (p : PropertyPipeline) (t : DeclaredType) :
    List (String × PropertyCandidate) :=
  s.mergeCandidates [] (p.locators.flatMap (·.locate s t))

/-- Primitive values are never null, nor are those that a classifier marks. -/
def isNotNull (s : SymbolTable) (p : PropertyPipeline) (c : PropertyCandidate) : Bool :=
  c.type.isPrimitive || p.classifiers.any (·.isNotNull s c)

end SymbolTable

end ClientBindings
