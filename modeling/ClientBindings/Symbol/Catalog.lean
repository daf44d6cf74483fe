import ClientBindings.Symbol.Table
import ClientBindings.Symbol.Marker

/-! What is known of library types that no export declares: the collection hierarchy and the
annotations of the web framework. -/
namespace ClientBindings.Catalog

/-- Collection and map types with their direct supertypes. -/
def supertypeRows : List (String × List String) := [
  ("java.util.List", ["java.util.Collection"]),
  ("java.util.Set", ["java.util.Collection"]),
  ("java.util.Queue", ["java.util.Collection"]),
  ("java.util.Deque", ["java.util.Queue"]),
  ("java.util.SortedSet", ["java.util.Set"]),
  ("java.util.NavigableSet", ["java.util.SortedSet"]),
  ("java.util.AbstractCollection", ["java.util.Collection"]),
  ("java.util.AbstractList", ["java.util.AbstractCollection", "java.util.List"]),
  ("java.util.ArrayList", ["java.util.AbstractList", "java.util.List"]),
  ("java.util.LinkedList", ["java.util.AbstractList", "java.util.List", "java.util.Deque"]),
  ("java.util.Vector", ["java.util.AbstractList", "java.util.List"]),
  ("java.util.HashSet", ["java.util.AbstractCollection", "java.util.Set"]),
  ("java.util.LinkedHashSet", ["java.util.HashSet", "java.util.Set"]),
  ("java.util.TreeSet", ["java.util.AbstractCollection", "java.util.NavigableSet"]),
  ("java.util.EnumSet", ["java.util.AbstractCollection", "java.util.Set"]),
  ("java.util.ArrayDeque", ["java.util.AbstractCollection", "java.util.Deque"]),
  ("java.util.PriorityQueue", ["java.util.AbstractCollection", "java.util.Queue"]),
  ("java.util.concurrent.CopyOnWriteArrayList", ["java.util.List"]),
  ("java.util.SortedMap", ["java.util.Map"]),
  ("java.util.NavigableMap", ["java.util.SortedMap"]),
  ("java.util.AbstractMap", ["java.util.Map"]),
  ("java.util.HashMap", ["java.util.AbstractMap", "java.util.Map"]),
  ("java.util.LinkedHashMap", ["java.util.HashMap", "java.util.Map"]),
  ("java.util.TreeMap", ["java.util.AbstractMap", "java.util.NavigableMap"]),
  ("java.util.EnumMap", ["java.util.AbstractMap", "java.util.Map"]),
  ("java.util.Hashtable", ["java.util.Map"]),
  ("java.util.concurrent.ConcurrentMap", ["java.util.Map"]),
  ("java.util.concurrent.ConcurrentHashMap",
    ["java.util.AbstractMap", "java.util.concurrent.ConcurrentMap"])]

def supertypes (name : String) : List String := (supertypeRows.lookup name).getD []

def aliased (name : String) (owner : Option String) (target : String) :
    AnnotationAttribute :=
  ⟨name, some ⟨owner, some target⟩⟩

def unaliased (name : String) : AnnotationAttribute := ⟨name, none⟩

/-- A mapping that fixes the verb and hands its other attributes on. -/
def verbMapping (name verb : String) : AnnotationType where
  name := name
  annotations := [.written Marker.requestMapping [("method", .list [.text verb])]]
  attributes := [
    aliased "value" (some Marker.requestMapping) "value",
    aliased "path" (some Marker.requestMapping) "path",
    aliased "name" (some Marker.requestMapping) "name"]

/-- An annotation whose `value` and `name` stand for each other. -/
def named (name : String) (others : List String) : AnnotationType where
  name := name
  annotations := []
  attributes := aliased "value" none "name" :: aliased "name" none "value" :: others.map unaliased

def annotationTypes : List AnnotationType := [
  ⟨Marker.requestMapping, [],
    [aliased "value" none "path", aliased "path" none "value", unaliased "method",
      unaliased "name"]⟩,
  verbMapping Marker.getMapping "GET",
  verbMapping Marker.postMapping "POST",
  verbMapping Marker.putMapping "PUT",
  verbMapping Marker.deleteMapping "DELETE",
  verbMapping Marker.patchMapping "PATCH",
  named Marker.requestParam ["required", "defaultValue"],
  named Marker.pathVariable ["required"],
  ⟨Marker.requestBody, [], [unaliased "required"]⟩]

def annotationType? (name : String) : Option AnnotationType :=
  annotationTypes.find? (·.name == name)

end ClientBindings.Catalog
