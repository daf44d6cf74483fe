import ClientBindings.Symbol.Declaration

/-! The declarations of one export, looked up by qualified name. -/
namespace ClientBindings

/-- An export as it is written down. -/
structure Export where
  types : List DeclaredType
  annotationTypes : List AnnotationType
  deriving Repr, Inhabited

/-- Declarations in the order in which their names first occur. -/
structure SymbolTable where
  types : List DeclaredType
  annotationTypes : List AnnotationType
  deriving Repr, Inhabited

/-- Replaces the element of that key where it stands, or puts it at the end. -/
def replaceOrAppend (key : α → String) (items : List α) (item : α) : List α :=
  match items with
  | [] => [item]
  | a :: rest => if key a = key item then item :: rest else a :: replaceOrAppend key rest item

namespace SymbolTable

/-- A declaration that comes later takes the place of an earlier one of its name. -/
def ofExport (e : Export) : SymbolTable where
  types := e.types.foldl (replaceOrAppend DeclaredType.name) []
  annotationTypes := e.annotationTypes.foldl (replaceOrAppend AnnotationType.name) []

def empty : SymbolTable := ⟨[], []⟩

def type? (s : SymbolTable) (name : String) : Option DeclaredType := s.types.find? (·.name == name)

def annotationType? (s : SymbolTable) (name : String) : Option AnnotationType :=
  s.annotationTypes.find? (·.name == name)

def typeNames (s : SymbolTable) : List String := s.types.map (·.name)

def typeParameter? (s : SymbolTable) (owner : GenericOwner) (name : String) :
    Option TypeParameter :=
  match owner with
  | .type owner => (s.type? owner).bind (·.typeParameter? name)
  | .method declaringType method overload =>
    ((s.type? declaringType).bind (·.method? method overload)).bind fun m =>
      m.typeParameters.find? (·.name == name)

end SymbolTable

end ClientBindings
