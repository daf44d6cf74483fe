import ClientBindings.Workspace
import ClientBindings.Proofs.Graph.Registry
import ClientBindings.Proofs.Graph.Seeding

/-! Models with all numbers moved up by one offset. What a graph is asked gives the same with moved
numbers. -/
namespace ClientBindings

namespace TypeInstance

mutual

def shift (k : Nat) : TypeInstance → TypeInstance
  | mk d as => mk (d + k) (shiftAll k as)

def shiftAll (k : Nat) : List TypeInstance → List TypeInstance
  | [] => []
  | a :: as => shift k a :: shiftAll k as

end

variable (k : Nat)

@[simp] theorem shiftAll_eq_map (as : List TypeInstance) : shiftAll k as = as.map (shift k) := by
  induction as with
  | nil => rfl
  | cons a as ih => rw [shiftAll, ih, List.map_cons]

@[simp] theorem shift_mk (d : TypeId) (as : List TypeInstance) :
    (mk d as).shift k = mk (d + k) (as.map (shift k)) := by rw [shift, shiftAll_eq_map]

@[simp] theorem shift_plain (d : TypeId) : (plain d).shift k = plain (d + k) := shift_mk k d []

@[simp] theorem definition_shift (i : TypeInstance) : (i.shift k).definition = i.definition + k := by
  cases i
  rfl

mutual

theorem ids_shift (i : TypeInstance) : (i.shift k).ids = i.ids.map (· + k) := by
  cases i with
  | mk d as => rw [shift, ids, ids, idsAll_shift as, List.map_cons]

theorem idsAll_shift (as : List TypeInstance) : idsAll (shiftAll k as) = (idsAll as).map (· + k) := by
  cases as with
  | nil => rfl
  | cons a as => rw [shiftAll, idsAll, idsAll, ids_shift a, idsAll_shift as, List.map_append]

end

end TypeInstance

def PropertyDefinition.shift (k : Nat) (p : PropertyDefinition) : PropertyDefinition :=
  { p with type := p.type.shift k }

namespace TypeDefinition

def shift (k : Nat) (d : TypeDefinition) : TypeDefinition :=
  { d with
    id := d.id + k
    superTypes := d.superTypes.map (·.shift k)
    properties := d.properties.map (·.shift k)
    genericParams := d.genericParams.map (· + k) }

/-- A definition that refers to no other. -/
structure Blank (d : TypeDefinition) : Prop where
  superTypes : d.superTypes = []
  properties : d.properties = []
  genericParams : d.genericParams = []

theorem Blank.shift {d : TypeDefinition} (hd : d.Blank) (k id : Nat) :
    { d with id := id + k } = { d with id := id }.shift k := by
  simp only [TypeDefinition.shift, hd.superTypes, hd.properties, hd.genericParams, List.map_nil]

theorem blank_builtin (fullName shortName tsName : String) (kind : TypeKind) :
    (builtin fullName shortName tsName kind).Blank := ⟨rfl, rfl, rfl⟩

theorem blank_declared (fullName shortName : String) (kind : TypeKind) :
    (declared fullName shortName kind).Blank := ⟨rfl, rfl, rfl⟩

end TypeDefinition

namespace TypeGraph

variable (k : Nat) (g : TypeGraph)

def shift : TypeGraph where
  names := g.names.map fun e => (e.1, e.2 + k)
  definitions := g.definitions.map (·.shift k)
  nextId := g.nextId + k
  seeded := g.seeded

theorem idOf?_shift (n : String) : (g.shift k).idOf? n = (g.idOf? n).map (· + k) := by
  unfold idOf? shift
  dsimp only
  induction g.names with
  | nil => rfl
  | cons e names ih =>
    obtain ⟨m, id⟩ := e
    rw [List.map_cons, List.lookup_cons, List.lookup_cons]
    cases n == m with
    | true => rfl
    | false => exact ih

theorem definition?_shift (id : TypeId) :
    (g.shift k).definition? (id + k) = (g.definition? id).map (·.shift k) := by
  have hid : ((fun d : TypeDefinition => d.id == id + k) ∘ TypeDefinition.shift k) =
      fun d => d.id == id := by
    funext d
    rw [Bool.eq_iff_iff]
    simp [TypeDefinition.shift]
  rw [definition?, shift, List.find?_map, hid]
  rfl

theorem kind?_shift (id : TypeId) : (g.shift k).kind? (id + k) = g.kind? id := by
  rw [kind?, definition?_shift, Option.map_map]
  rfl

theorem tsName?_shift (id : TypeId) : (g.shift k).tsName? (id + k) = g.tsName? id := by
  rw [tsName?, definition?_shift, Option.map_map]
  rfl

theorem register_shift {d : TypeDefinition} (hd : d.Blank) :
    (g.shift k).register d = ((g.register d).1.shift k, (g.register d).2 + k) := by
  cases hid : g.idOf? d.fullName with
  | some id =>
    have hid' : (g.shift k).idOf? d.fullName = some (id + k) := by rw [idOf?_shift, hid]; rfl
    rw [register_of_idOf? hid, register_of_idOf? hid']
  | none =>
    have hid' : (g.shift k).idOf? d.fullName = none := by rw [idOf?_shift, hid]; rfl
    rw [register_of_none hid, register_of_none hid']
    have hnew : { d with id := g.nextId + k } = { d with id := g.nextId }.shift k :=
      hd.shift k g.nextId
    simp [shift, hnew, Nat.add_right_comm]

theorem update_shift {change change' : TypeDefinition → TypeDefinition}
    (h : ∀ d, change' (d.shift k) = (change d).shift k) (id : TypeId) :
    (g.shift k).update (id + k) change' = (g.update id change).shift k := by
  have hd (d : TypeDefinition) : (if (d.shift k).id = id + k then change' (d.shift k) else d.shift k) =
      (if d.id = id then change d else d).shift k := by
    have hid : (d.shift k).id = id + k ↔ d.id = id := Nat.add_right_cancel_iff
    simp only [hid]
    split
    · exact h d
    · rfl
  simp only [update, shift, List.map_map]
  congr 1
  exact List.map_congr_left fun d _ => hd d

theorem emittable_shift : (g.shift k).emittable = g.emittable.map (·.shift k) := by
  rw [emittable, shift, List.filter_map]
  rfl

theorem seed_shift (s : Settings) : (g.shift k).seed s = (g.seed s).shift k := by
  have hblank : ∀ d ∈ predefined s, d.Blank := by
    intro d hd
    obtain ⟨kind, e, rfl⟩ := exists_predefinedType_of_mem hd
    exact TypeDefinition.blank_builtin _ _ _ _
  have hfold (ds : List TypeDefinition) (hds : ∀ d ∈ ds, d.Blank) (g : TypeGraph) :
      ds.foldl (fun g d => (g.register d).1) (g.shift k) =
        (ds.foldl (fun g d => (g.register d).1) g).shift k := by
    induction ds generalizing g with
    | nil => rfl
    | cons d ds ih =>
      rw [List.foldl_cons, List.foldl_cons, register_shift k g (hds d (List.mem_cons_self ..))]
      exact ih (fun d hd => hds d (List.mem_cons_of_mem _ hd)) _
  unfold seed
  cases hs : g.seeded with
  | true => simp [shift, hs]
  | false =>
    have hs' : (g.shift k).seeded = false := hs
    simp only [hs', Bool.false_eq_true, if_false, hfold _ hblank]
    rfl

end TypeGraph

namespace Endpoint

def shiftMethod (k : Nat) (m : EndpointMethod) : EndpointMethod :=
  { m with
    params := m.params.map fun p => { p with type := p.type.shift k }
    returnType := m.returnType.map (·.shift k) }

def shift (k : Nat) (e : Endpoint) : Endpoint := { e with methods := e.methods.map (shiftMethod k) }

end Endpoint

namespace Dict

variable {α β : Type} (f : α → β)

/-- The values of a dictionary changed. -/
def mapValues (d : Dict α) : Dict β := List.map (fun e => (e.1, f e.2)) d

theorem get?_mapValues (d : Dict α) (key : String) :
    (d.mapValues f).get? key = (d.get? key).map f := by
  unfold get? mapValues
  induction d with
  | nil => rfl
  | cons e d ih =>
    rw [List.map_cons, List.lookup_cons, List.lookup_cons]
    cases key == e.1 with
    | true => rfl
    | false => exact ih

theorem insert_mapValues (d : Dict α) (key : String) (value : α) :
    (d.mapValues f).insert key (f value) = (d.insert key value).mapValues f := by
  induction d with
  | nil => rfl
  | cons e d ih =>
    obtain ⟨k, v⟩ := e
    rw [mapValues, List.map_cons, insert, insert]
    split
    · rfl
    · split
      · rfl
      · change (k, f v) :: insert (mapValues f d) key (f value) = _
        rw [ih]
        rfl

end Dict

namespace Workspace

def shift (k : Nat) (w : Workspace) : Workspace :=
  ⟨w.graph.shift k, w.endpoints.mapValues (·.shift k), w.diagnostics⟩

theorem addEndpoint_shift (k : Nat) (w : Workspace) (e : Endpoint) :
    (w.shift k).addEndpoint (e.shift k) =
      ((w.addEndpoint e).1.shift k, (w.addEndpoint e).2.shift k) := by
  have hget : (w.shift k).endpoints.get? (e.shift k).controllerType =
      (w.endpoints.get? e.controllerType).map (Endpoint.shift k) :=
    Dict.get?_mapValues (Endpoint.shift k) w.endpoints e.controllerType
  rw [addEndpoint, addEndpoint, hget]
  cases w.endpoints.get? e.controllerType with
  | some existing => rfl
  | none =>
    have hinsert := Dict.insert_mapValues (Endpoint.shift k) w.endpoints e.controllerType e
    exact congrArg (fun es => ((⟨w.graph.shift k, es, w.diagnostics⟩ : Workspace), e.shift k)) hinsert

end Workspace

end ClientBindings
