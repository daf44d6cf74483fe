import ClientBindings.Graph.Basic

/-! Names and definitions of a graph after a registration and after a change of one definition, and
what holds of every graph that is made by these. -/
namespace ClientBindings

namespace TypeDefinition

/-- Changes that leave alone what tells definitions apart, and what they are called. -/
structure Keeping (change : TypeDefinition → TypeDefinition) : Prop where
  id d : (change d).id = d.id
  fullName d : (change d).fullName = d.fullName
  shortName d : (change d).shortName = d.shortName
  kind d : (change d).kind = d.kind
  predefined d : (change d).predefined = d.predefined
  tsName d : (change d).tsName = d.tsName

/-- Changes that fill in content other than parameters, and do not say that it is complete. -/
structure Filling (change : TypeDefinition → TypeDefinition) : Prop extends Keeping change where
  genericParams d : (change d).genericParams = d.genericParams
  initialized d : (change d).initialized = d.initialized

theorem filling_withProperties (ps : List PropertyDefinition) : Filling (.withProperties ps) :=
  ⟨⟨fun _ => rfl, fun _ => rfl, fun _ => rfl, fun _ => rfl, fun _ => rfl, fun _ => rfl⟩,
    fun _ => rfl, fun _ => rfl⟩

theorem filling_withSuperTypes (types : List TypeInstance) : Filling (.withSuperTypes types) :=
  ⟨⟨fun _ => rfl, fun _ => rfl, fun _ => rfl, fun _ => rfl, fun _ => rfl, fun _ => rfl⟩,
    fun _ => rfl, fun _ => rfl⟩

theorem filling_withEnumConstants (names : List String) : Filling (.withEnumConstants names) :=
  ⟨⟨fun _ => rfl, fun _ => rfl, fun _ => rfl, fun _ => rfl, fun _ => rfl, fun _ => rfl⟩,
    fun _ => rfl, fun _ => rfl⟩

theorem keeping_withGenericParams (ids : List TypeId) : Keeping (.withGenericParams ids) :=
  ⟨fun _ => rfl, fun _ => rfl, fun _ => rfl, fun _ => rfl, fun _ => rfl, fun _ => rfl⟩

theorem keeping_finished : Keeping .finished :=
  ⟨fun _ => rfl, fun _ => rfl, fun _ => rfl, fun _ => rfl, fun _ => rfl, fun _ => rfl⟩

theorem keeping_bounded (bounds : List TypeInstance) : Keeping (.bounded bounds) :=
  ⟨fun _ => rfl, fun _ => rfl, fun _ => rfl, fun _ => rfl, fun _ => rfl, fun _ => rfl⟩

end TypeDefinition

namespace Builtin

/-- The definitions that are registered where they are needed. -/
def all : List TypeDefinition := [any, collection, map]

theorem predefined_of_mem_all {d : TypeDefinition} (hd : d ∈ all) : d.predefined = true := by
  simp only [all, List.mem_cons, List.not_mem_nil, or_false] at hd
  rcases hd with rfl | rfl | rfl <;> rfl

end Builtin

namespace TypeGraph

variable {g : TypeGraph} {d : TypeDefinition} {id : TypeId}

/-- The definitions that are registered where they are needed are registered. -/
def Stocked (g : TypeGraph) : Prop := ∀ d ∈ Builtin.all, ∃ id, g.idOf? d.fullName = some id

theorem register_of_idOf? (h : g.idOf? d.fullName = some id) : g.register d = (g, id) := by
  simp only [register, h]

theorem register_of_none (h : g.idOf? d.fullName = none) :
    g.register d = ({ g with
        names := (d.fullName, g.nextId) :: g.names
        definitions := g.definitions ++ [{ d with id := g.nextId }]
        nextId := g.nextId + 1 }, g.nextId) := by
  simp only [register, h]

theorem Stocked.register (hg : g.Stocked) (hd : d ∈ Builtin.all) : (g.register d).1 = g := by
  obtain ⟨id, h⟩ := hg d hd
  rw [register_of_idOf? h]

theorem idOf?_register_self (g : TypeGraph) (d : TypeDefinition) :
    (g.register d).1.idOf? d.fullName = some (g.register d).2 := by
  cases h : g.idOf? d.fullName with
  | some id => rw [register_of_idOf? h, h]
  | none => simp [register_of_none h, idOf?]

theorem idOf?_register_of_ne {n : String} (h : n ≠ d.fullName) :
    (g.register d).1.idOf? n = g.idOf? n := by
  cases hd : g.idOf? d.fullName with
  | some id => rw [register_of_idOf? hd]
  | none => simp [register_of_none hd, idOf?, List.lookup_cons, beq_false_of_ne h]

/-- Names keep their numbers. -/
theorem idOf?_register {n : String} (h : g.idOf? n = some id) :
    (g.register d).1.idOf? n = some id := by
  by_cases hn : n = d.fullName
  · subst hn
    rw [register_of_idOf? h, h]
  · rw [idOf?_register_of_ne hn, h]

theorem idOf?_of_register_eq_none {n : String} (h : (g.register d).1.idOf? n = none) :
    g.idOf? n = none := by
  cases hn : g.idOf? n with
  | none => rfl
  | some id => rw [idOf?_register hn] at h; cases h

@[simp] theorem idOf?_update (g : TypeGraph) (id : TypeId) (f : TypeDefinition → TypeDefinition)
    (n : String) : (g.update id f).idOf? n = g.idOf? n := rfl

@[simp] theorem seeded_update (g : TypeGraph) (id : TypeId) (f : TypeDefinition → TypeDefinition) :
    (g.update id f).seeded = g.seeded := rfl

@[simp] theorem seeded_register (g : TypeGraph) (d : TypeDefinition) :
    (g.register d).1.seeded = g.seeded := by
  unfold register
  split <;> rfl

/-- Names and definitions belong together, and numbers are below the next one. -/
structure WellFormed (g : TypeGraph) : Prop where
  indexed {n : String} {id : TypeId} : g.idOf? n = some id → ∃ d, g.definition? id = some d ∧ d.fullName = n
  named {id : TypeId} {d : TypeDefinition} : g.definition? id = some d → g.idOf? d.fullName = some id
  fresh {id : TypeId} {d : TypeDefinition} : g.definition? id = some d → id < g.nextId
  listed {d : TypeDefinition} : d ∈ g.definitions → g.definition? d.id = some d

theorem id_of_definition? (h : g.definition? id = some d) : d.id = id := by
  simpa using List.find?_some h

theorem mem_of_definition? (h : g.definition? id = some d) : d ∈ g.definitions :=
  List.mem_of_find?_eq_some h

theorem definition?_update {f : TypeDefinition → TypeDefinition} (hf : ∀ d, (f d).id = d.id)
    (g : TypeGraph) (id id' : TypeId) : (g.update id f).definition? id' =
      (g.definition? id').map fun d => if d.id = id then f d else d := by
  have hid : ((fun d : TypeDefinition => d.id == id') ∘ fun d => if d.id = id then f d else d) =
      fun d => d.id == id' := by
    funext d
    rw [Function.comp_apply]
    split
    · rw [hf]
    · rfl
  rw [definition?, update, List.find?_map, hid]
  rfl

theorem definition?_update_self {f : TypeDefinition → TypeDefinition} (hf : ∀ d, (f d).id = d.id)
    (g : TypeGraph) (id : TypeId) :
    (g.update id f).definition? id = (g.definition? id).map f := by
  rw [definition?_update hf]
  cases h : g.definition? id with
  | none => rfl
  | some d => simp [id_of_definition? h]

theorem definition?_update_of_ne {f : TypeDefinition → TypeDefinition}
    (hf : ∀ d, (f d).id = d.id) (g : TypeGraph) {id id' : TypeId} (hne : id' ≠ id) :
    (g.update id f).definition? id' = g.definition? id' := by
  rw [definition?_update hf]
  cases h : g.definition? id' with
  | none => rfl
  | some d => simp [id_of_definition? h, hne]

/-- A definition after a change of one was there before, or is the changed one. -/
theorem definition?_of_update {f : TypeDefinition → TypeDefinition} (hf : ∀ d, (f d).id = d.id)
    {id' : TypeId} {d' : TypeDefinition} (h : (g.update id f).definition? id' = some d') :
    g.definition? id' = some d' ∨ id' = id ∧ ∃ d, g.definition? id = some d ∧ d' = f d := by
  by_cases hid : id' = id
  · subst hid
    rw [definition?_update_self hf, Option.map_eq_some_iff] at h
    obtain ⟨d, hd, rfl⟩ := h
    exact .inr ⟨rfl, d, hd, rfl⟩
  · rw [definition?_update_of_ne hf g hid] at h
    exact .inl h

/-- Definitions that are there stay as they are. -/
theorem definition?_register {d' : TypeDefinition} (h : g.definition? id = some d) :
    (g.register d').1.definition? id = some d := by
  cases hd : g.idOf? d'.fullName with
  | some i => rw [register_of_idOf? hd, h]
  | none =>
    rw [definition?] at h
    rw [register_of_none hd]
    simp [definition?, h]

theorem definition?_register_of_ne {d' : TypeDefinition} (h : g.idOf? d'.fullName = none)
    (hid : id ≠ g.nextId) : (g.register d').1.definition? id = g.definition? id := by
  rw [register_of_none h]
  simp [definition?, beq_false_of_ne hid.symm]

namespace WellFormed

variable (hg : g.WellFormed)
include hg

theorem definition?_nextId : g.definition? g.nextId = none := by
  cases h : g.definition? g.nextId with
  | none => rfl
  | some d => exact absurd (hg.fresh h) (Nat.lt_irrefl _)

theorem definition?_register_self (h : g.idOf? d.fullName = none) :
    (g.register d).1.definition? (g.register d).2 = some { d with id := g.nextId } := by
  have hnone := hg.definition?_nextId
  rw [definition?] at hnone
  rw [register_of_none h]
  simp [definition?, hnone]

/-- A definition after a registration was there before, or is the new one. -/
theorem definition?_of_register {d' : TypeDefinition}
    (h : (g.register d).1.definition? id = some d') :
    g.definition? id = some d' ∨
      g.idOf? d.fullName = none ∧ id = g.nextId ∧ d' = { d with id := g.nextId } := by
  cases hn : g.idOf? d.fullName with
  | some i =>
    rw [register_of_idOf? hn] at h
    exact .inl h
  | none =>
    by_cases hid : id = g.nextId
    · have hnext : (g.register d).2 = g.nextId := by rw [register_of_none hn]
      rw [hid, ← hnext, hg.definition?_register_self hn, Option.some_inj] at h
      exact .inr ⟨rfl, hid, h.symm⟩
    · rw [definition?_register_of_ne hn hid] at h
      exact .inl h

theorem register (d : TypeDefinition) : (g.register d).1.WellFormed := by
  cases hd : g.idOf? d.fullName with
  | some id =>
    rw [register_of_idOf? hd]
    exact hg
  | none =>
    have hnext : (g.register d).1.nextId = g.nextId + 1 := by rw [register_of_none hd]
    have hid : (g.register d).2 = g.nextId := by rw [register_of_none hd]
    refine ⟨fun {n id} h => ?_, fun {id d'} h => ?_, fun {id d'} h => ?_, fun {d'} h => ?_⟩
    · by_cases hn : n = d.fullName
      · subst hn
        rw [idOf?_register_self, Option.some_inj] at h
        subst h
        exact ⟨_, hg.definition?_register_self hd, rfl⟩
      · rw [idOf?_register_of_ne hn] at h
        obtain ⟨d', hd', hn'⟩ := hg.indexed h
        exact ⟨d', TypeGraph.definition?_register hd', hn'⟩
    · rcases hg.definition?_of_register h with h | ⟨-, rfl, rfl⟩
      · exact idOf?_register (hg.named h)
      · exact hid ▸ idOf?_register_self g d
    · rw [hnext]
      rcases hg.definition?_of_register h with h | ⟨-, rfl, -⟩
      · exact Nat.lt_succ_of_lt (hg.fresh h)
      · exact Nat.lt_succ_self _
    · rw [register_of_none hd] at h
      rcases List.mem_append.1 h with h | h
      · exact TypeGraph.definition?_register (hg.listed h)
      · rw [List.mem_singleton] at h
        rw [h]
        exact hid ▸ hg.definition?_register_self hd

theorem update {f : TypeDefinition → TypeDefinition} (hf : TypeDefinition.Keeping f)
    (id : TypeId) : (g.update id f).WellFormed := by
  have hchange (d : TypeDefinition) : (if d.id = id then f d else d).id = d.id ∧
      (if d.id = id then f d else d).fullName = d.fullName := by
    split
    · exact ⟨hf.id d, hf.fullName d⟩
    · exact ⟨rfl, rfl⟩
  refine ⟨fun {n id'} h => ?_, fun {id' d'} h => ?_, fun {id' d'} h => ?_, fun {d'} h => ?_⟩
  · obtain ⟨d, hd, hn⟩ := hg.indexed h
    refine ⟨_, by rw [definition?_update hf.id, hd]; rfl, ?_⟩
    rw [(hchange d).2, hn]
  · rw [definition?_update hf.id, Option.map_eq_some_iff] at h
    obtain ⟨d, hd, rfl⟩ := h
    rw [idOf?_update, (hchange d).2]
    exact hg.named hd
  · rw [definition?_update hf.id, Option.map_eq_some_iff] at h
    obtain ⟨d, hd, rfl⟩ := h
    exact hg.fresh hd
  · obtain ⟨d, hd, rfl⟩ := List.mem_map.1 h
    rw [definition?_update hf.id, (hchange d).1, hg.listed hd]
    rfl

/-- A name and a number that belong together, belong to one definition. -/
theorem fullName_of_idOf? {n : String} (hn : g.idOf? n = some id)
    (hd : g.definition? id = some d) : d.fullName = n := by
  obtain ⟨d', hd', hn'⟩ := hg.indexed hn
  rw [hd, Option.some_inj] at hd'
  rw [hd', hn']

end WellFormed

theorem wellFormed_clear (g : TypeGraph) : g.clear.WellFormed :=
  ⟨fun h => by simp [clear, idOf?] at h, fun h => by simp [clear, definition?] at h,
    fun h => by simp [clear, definition?] at h, fun h => by simp [clear] at h⟩

end TypeGraph

end ClientBindings
