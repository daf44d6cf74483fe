import ClientBindings.Symbol.Aliasing
import ClientBindings.Text.Case

/-! Members that expose a property: accessors, record components and fields. -/
namespace ClientBindings

/-- A member that may become a property, under the name that convention gives it. -/
structure PropertyCandidate where
  name : String
  type : TypeRef
  annotations : List Annotation
  /-- The label of the locator that found it. -/
  source : String
  deriving Repr, Inhabited

/-- A strategy that lists candidates under one convention. Their types are taken from the declaration. -/
structure PropertyLocator where
  label : String
  locate : SymbolTable → DeclaredType → List PropertyCandidate
  declared {s : SymbolTable} {t : DeclaredType} {c : PropertyCandidate} :
    c ∈ locate s t → c.type ∈ t.references

/-- The property that a method name stands for: `get` or `is` before an upper case letter, which
becomes lower case. -/
def accessorProperty? (methodName : String) : Option String :=
  let cs := methodName.toList
  let rest := (Text.stripStart? ['g', 'e', 't'] cs).or (Text.stripStart? ['i', 's'] cs)
  match rest with
  | some (c :: cs) =>
    if Text.isUpper c && !cs.contains '\n' then some (String.ofList (Text.lower c ++ cs)) else none
  | _ => none

namespace Method

/-- Public instance methods without parameters that return something. -/
def isAccessor (m : Method) : Bool :=
  m.modifiers.contains "public" && !m.modifiers.contains "static" && m.parameters.isEmpty &&
    m.returnType.isSome

end Method

namespace Field

def isInstance (f : Field) : Bool :=
  !f.modifiers.contains "static" && !f.modifiers.contains "transient"

end Field

namespace SymbolTable

def isIgnored (s : SymbolTable) (annotations : List Annotation) : Bool :=
  s.isMarked annotations Marker.ignore

/-- Fields that also hide the accessor of their name. -/
def ignoredFieldNames (s : SymbolTable) (t : DeclaredType) : List String :=
  (t.fields.filter fun f => f.isInstance && s.isIgnored f.annotations).map (·.name)

def accessorCandidates (s : SymbolTable) (t : DeclaredType) : List PropertyCandidate :=
  let hidden := s.ignoredFieldNames t
  (t.methods.filter fun m => m.isAccessor && !s.isIgnored m.annotations).filterMap fun m =>
    match accessorProperty? m.name, m.returnType with
    | some name, some type =>
      if hidden.contains name then none else some ⟨name, type, m.annotations, "accessor"⟩
    | _, _ => none

def recordCandidates (s : SymbolTable) (t : DeclaredType) : List PropertyCandidate :=
  (t.recordComponents.filter fun c => !s.isIgnored c.annotations).map fun c =>
    ⟨c.name, c.type, c.annotations, "record"⟩

/-- Whether an annotation on the type exposes all its fields. -/
def exposesFields (s : SymbolTable) (t : DeclaredType) : Bool :=
  [Marker.lombokData, Marker.lombokValue, Marker.lombokGetter].any fun marker =>
    s.isMarked t.annotations marker

def fieldCandidates (s : SymbolTable) (t : DeclaredType) : List PropertyCandidate :=
  let all := s.exposesFields t
  (t.fields.filter fun f =>
    f.isInstance && !s.isIgnored f.annotations &&
      (all || s.isMarked f.annotations Marker.lombokGetter)).map fun f =>
    ⟨f.name, f.type, f.annotations, "field"⟩

variable {s : SymbolTable} {t : DeclaredType} {c : PropertyCandidate}

theorem type_mem_references_of_accessor (h : c ∈ s.accessorCandidates t) : c.type ∈ t.references := by
  simp only [accessorCandidates, List.mem_filterMap, List.mem_filter] at h
  obtain ⟨m, ⟨hm, -⟩, hc⟩ := h
  split at hc
  · rename_i htype
    split at hc
    · cases hc
    · cases hc
      refine List.mem_append_right _ (List.mem_flatMap.2 ⟨m, hm, List.mem_append_right _ ?_⟩)
      rw [htype]
      exact List.mem_singleton_self _
  · cases hc

theorem type_mem_references_of_record (h : c ∈ s.recordCandidates t) : c.type ∈ t.references := by
  simp only [recordCandidates, List.mem_map, List.mem_filter] at h
  obtain ⟨r, ⟨hr, -⟩, rfl⟩ := h
  exact List.mem_append_left _ (List.mem_append_right _ (List.mem_map_of_mem hr))

theorem type_mem_references_of_field (h : c ∈ s.fieldCandidates t) : c.type ∈ t.references := by
  simp only [fieldCandidates, List.mem_map, List.mem_filter] at h
  obtain ⟨f, ⟨hf, -⟩, rfl⟩ := h
  exact List.mem_append_left _ (List.mem_append_left _ (List.mem_append_right _ (List.mem_map_of_mem hf)))

end SymbolTable

namespace PropertyLocator

def accessor : PropertyLocator :=
  ⟨"accessor", SymbolTable.accessorCandidates, SymbolTable.type_mem_references_of_accessor⟩

def record : PropertyLocator :=
  ⟨"record", SymbolTable.recordCandidates, SymbolTable.type_mem_references_of_record⟩

def field : PropertyLocator :=
  ⟨"field", SymbolTable.fieldCandidates, SymbolTable.type_mem_references_of_field⟩

end PropertyLocator

end ClientBindings
