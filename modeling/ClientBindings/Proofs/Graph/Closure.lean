import ClientBindings.Proofs.Graph.Seeding
import ClientBindings.Proofs.Outcome

/-! Graphs without dangling numbers: whatever a definition refers to is registered, also while the
definitions that are referred to are still without content. -/
namespace ClientBindings

open BuildContext (placeholderName placeholder)

namespace TypeInstance

theorem idsAll_append (is js : List TypeInstance) : idsAll (is ++ js) = idsAll is ++ idsAll js := by
  induction is with
  | nil => rfl
  | cons i is ih => rw [List.cons_append, idsAll, idsAll, ih, List.append_assoc]

theorem mem_idsAll {is : List TypeInstance} {id : TypeId} :
    id ∈ idsAll is ↔ ∃ i ∈ is, id ∈ i.ids := by
  induction is with
  | nil => simp [idsAll]
  | cons i is ih => simp [idsAll, ih]

end TypeInstance

/-- The numbers that occur in a definition, at any depth. -/
def TypeDefinition.mentioned (d : TypeDefinition) : List TypeId :=
  d.genericParams ++ TypeInstance.idsAll (d.superTypes ++ d.properties.map (·.type))

/-- Those in its supertypes and properties. -/
def TypeDefinition.content (d : TypeDefinition) : List TypeId :=
  TypeInstance.idsAll (d.superTypes ++ d.properties.map (·.type))

/-- Changes of content other than parameters. Of what they put into a definition `Q` holds. -/
structure TypeDefinition.Adding (Q : List TypeInstance → Prop)
    (change : TypeDefinition → TypeDefinition) : Prop extends Keeping change where
  genericParams d : (change d).genericParams = d.genericParams
  superTypes d : (change d).superTypes = d.superTypes ∨ Q (change d).superTypes
  properties d : (change d).properties = d.properties ∨ Q ((change d).properties.map (·.type))

namespace TypeDefinition

variable {Q : List TypeInstance → Prop}

theorem adding_bounded {bounds : List TypeInstance} (h : Q bounds) : Adding Q (.bounded bounds) :=
  ⟨keeping_bounded bounds, fun _ => rfl, fun _ => .inr h, fun _ => .inl rfl⟩

theorem adding_withProperties {ps : List PropertyDefinition} (h : Q (ps.map (·.type))) :
    Adding Q (.withProperties ps) :=
  ⟨(filling_withProperties ps).toKeeping, fun _ => rfl, fun _ => .inl rfl, fun _ => .inr h⟩

theorem adding_withSuperTypes {types : List TypeInstance} (h : Q types) :
    Adding Q (.withSuperTypes types) :=
  ⟨(filling_withSuperTypes types).toKeeping, fun _ => rfl, fun _ => .inr h, fun _ => .inl rfl⟩

theorem adding_withEnumConstants (names : List String) : Adding Q (.withEnumConstants names) :=
  ⟨(filling_withEnumConstants names).toKeeping, fun _ => rfl, fun _ => .inl rfl, fun _ => .inl rfl⟩

theorem adding_finished : Adding Q .finished :=
  ⟨keeping_finished, fun _ => rfl, fun _ => .inl rfl, fun _ => .inl rfl⟩

theorem mem_mentioned {d : TypeDefinition} {id : TypeId} :
    id ∈ d.mentioned ↔ id ∈ d.genericParams ∨ id ∈ d.content := List.mem_append

theorem Adding.mem_content {P : TypeId → Prop} {change : TypeDefinition → TypeDefinition}
    (h : Adding (fun is => ∀ id ∈ TypeInstance.idsAll is, P id) change) {d : TypeDefinition}
    {id : TypeId} (hid : id ∈ (change d).content) : id ∈ d.content ∨ P id := by
  simp only [content, TypeInstance.idsAll_append, List.mem_append] at hid ⊢
  rcases hid with hid | hid
  · rcases h.superTypes d with heq | hadded
    · exact .inl (.inl (heq ▸ hid))
    · exact .inr (hadded id hid)
  · rcases h.properties d with heq | hadded
    · exact .inl (.inr (heq ▸ hid))
    · exact .inr (hadded id hid)

end TypeDefinition

/-- The numbers that occur in the types of an endpoint, at any depth. -/
def Endpoint.mentioned (e : Endpoint) : List TypeId :=
  TypeInstance.idsAll (e.methods.flatMap Endpoint.typesOfMethod)

namespace TypeGraph

variable {g g' g'' : TypeGraph} {strict : Prop} {is js : List TypeInstance} {id : TypeId}

def Registered (g : TypeGraph) (id : TypeId) : Prop := ∃ n, g.idOf? n = some id

/-- Names keep their numbers, and definitions the parameters that they have. -/
structure Grows (g g' : TypeGraph) : Prop where
  names {n : String} {id : TypeId} : g.idOf? n = some id → g'.idOf? n = some id
  params {id : TypeId} {d : TypeDefinition} : g.definition? id = some d →
    ∃ d', g'.definition? id = some d' ∧ d.genericParams ⊆ d'.genericParams

theorem Grows.refl (g : TypeGraph) : g.Grows g := ⟨fun h => h, fun h => ⟨_, h, fun _ hi => hi⟩⟩

theorem Grows.trans (h : g.Grows g') (h' : g'.Grows g'') : g.Grows g'' := by
  refine ⟨fun hn => h'.names (h.names hn), fun hd => ?_⟩
  obtain ⟨d', hd', hsub⟩ := h.params hd
  obtain ⟨d'', hd'', hsub'⟩ := h'.params hd'
  exact ⟨d'', hd'', fun _ hi => hsub' (hsub hi)⟩

theorem grows_register (g : TypeGraph) (d : TypeDefinition) : g.Grows (g.register d).1 :=
  ⟨idOf?_register, fun h => ⟨_, definition?_register h, fun _ hi => hi⟩⟩

theorem grows_update {change : TypeDefinition → TypeDefinition} (hc : TypeDefinition.Keeping change)
    (hp : ∀ d, g.definition? id = some d → d.genericParams ⊆ (change d).genericParams) :
    g.Grows (g.update id change) := by
  refine ⟨fun h => h, fun {i d} hd => ⟨_, by rw [definition?_update hc.id, hd]; rfl, ?_⟩⟩
  dsimp only
  split
  · rename_i hid
    exact hp d (by rwa [← hid, id_of_definition? hd])
  · exact fun _ hi => hi

theorem Registered.grow (h : g.Registered id) (hg : g.Grows g') : g'.Registered id :=
  h.imp fun _ hn => hg.names hn

/-- Of all numbers in these instances `P` holds. -/
def All (P : TypeGraph → TypeId → Prop) (g : TypeGraph) (is : List TypeInstance) : Prop :=
  ∀ id ∈ TypeInstance.idsAll is, P g id

/-- All numbers in these instances are registered. -/
def Covers (g : TypeGraph) (is : List TypeInstance) : Prop :=
  ∀ id ∈ TypeInstance.idsAll is, g.Registered id

/-- What holds of the definitions that are registered where they are needed, and of a number as long
as names keep their numbers. -/
structure Durable (P : TypeGraph → TypeId → Prop) : Prop where
  grow {g g' : TypeGraph} {id : TypeId} : g.Grows g' → P g id → P g' id
  builtin {g : TypeGraph} {d : TypeDefinition} {id : TypeId} : d ∈ Builtin.all →
    g.idOf? d.fullName = some id → P g id

theorem durable_registered : Durable Registered :=
  ⟨fun hg h => h.grow hg, fun _ h => ⟨_, h⟩⟩

section all

variable {P : TypeGraph → TypeId → Prop}

theorem All.grow (hP : Durable P) (h : All P g is) (hg : g.Grows g') : All P g' is :=
  fun id hid => hP.grow hg (h id hid)

theorem all_nil (P : TypeGraph → TypeId → Prop) (g : TypeGraph) : All P g [] := fun _ h => nomatch h

theorem All.append (h : All P g is) (h' : All P g js) : All P g (is ++ js) := by
  intro id hid
  rw [TypeInstance.idsAll_append] at hid
  exact (List.mem_append.1 hid).elim (h id) (h' id)

theorem all_mk {args : List TypeInstance} (h : P g id) (ha : All P g args) :
    All P g [.mk id args] := by
  intro i hi
  rw [TypeInstance.idsAll, TypeInstance.ids, TypeInstance.idsAll, List.append_nil] at hi
  rcases List.mem_cons.1 hi with rfl | hi
  · exact h
  · exact ha i hi

theorem all_plain (h : P g id) : All P g [.plain id] := all_mk h (all_nil P g)

end all

/-- The number belongs to a name without the sign of placeholders. -/
def Clear (g : TypeGraph) (id : TypeId) : Prop := ∃ n, Unreserved n ∧ g.idOf? n = some id

theorem durable_clear : Durable Clear where
  grow hg h := h.imp fun _ hn => ⟨hn.1, hg.names hn.2⟩
  builtin hd h := ⟨_, unreserved_builtin hd, h⟩

/-- A definition whose name has the sign of placeholders is one. -/
def PlaceholderLike (d : TypeDefinition) : Prop :=
  ¬Unreserved d.fullName → d.kind = .genericPlaceholder ∧
    ∃ owner, Unreserved owner ∧ d.fullName = placeholderName owner d.shortName

/-- The number is that of the placeholder of a parameter of this owner. -/
def PlaceholderOf (g : TypeGraph) (owner : String) (id : TypeId) : Prop :=
  ∃ q, g.definition? id = some q ∧ q.kind = .genericPlaceholder ∧
    q.fullName = placeholderName owner q.shortName

/-- Nothing dangles. Where the sign of placeholders is in no other name, which `strict` stands for,
the parameters of definitions are their placeholders. -/
structure Closed (strict : Prop) (g : TypeGraph) : Prop extends g.WellFormed where
  mentioned {id i : TypeId} {d : TypeDefinition} : g.definition? id = some d → i ∈ d.mentioned →
    g.Registered i
  reserved {id : TypeId} {d : TypeDefinition} : strict → g.definition? id = some d →
    PlaceholderLike d
  params {id i : TypeId} {d : TypeDefinition} : strict → g.definition? id = some d →
    i ∈ d.genericParams → g.PlaceholderOf d.fullName i

theorem PlaceholderOf.register {owner : String} (h : g.PlaceholderOf owner id)
    (d : TypeDefinition) : (g.register d).1.PlaceholderOf owner id :=
  h.imp fun _ hq => ⟨definition?_register hq.1, hq.2⟩

theorem PlaceholderOf.update {owner : String} (h : g.PlaceholderOf owner id)
    {change : TypeDefinition → TypeDefinition} (hc : TypeDefinition.Keeping change) (id' : TypeId) :
    (g.update id' change).PlaceholderOf owner id := by
  obtain ⟨q, hq, hkind, hname⟩ := h
  refine ⟨_, by rw [definition?_update hc.id, hq]; rfl, ?_⟩
  dsimp only
  split
  · rw [hc.kind, hc.fullName, hc.shortName]
    exact ⟨hkind, hname⟩
  · exact ⟨hkind, hname⟩

theorem PlaceholderLike.change {d : TypeDefinition} (h : PlaceholderLike d)
    {change : TypeDefinition → TypeDefinition} (hc : TypeDefinition.Keeping change) :
    PlaceholderLike (change d) := by
  rw [PlaceholderLike, hc.fullName, hc.kind, hc.shortName]
  exact h

/-- The number is that of this name or of a placeholder of it. -/
def Home (g : TypeGraph) (owner : String) (id : TypeId) : Prop :=
  g.idOf? owner = some id ∨ ∃ param, g.idOf? (placeholderName owner param) = some id

namespace Closed

/-- What is asked of the parameters may be dropped. -/
theorem lax (hg : g.Closed strict) : g.Closed False :=
  ⟨hg.toWellFormed, hg.mentioned, False.elim, False.elim⟩

theorem register (hg : g.Closed strict) {d : TypeDefinition} (hd : d.mentioned = [])
    (hname : strict → PlaceholderLike d) : (g.register d).1.Closed strict where
  toWellFormed := hg.toWellFormed.register d
  mentioned h hi := by
    rcases hg.toWellFormed.definition?_of_register h with h | ⟨-, rfl, rfl⟩
    · exact (hg.mentioned h hi).grow (grows_register g d)
    · exact absurd (hd ▸ hi : _ ∈ []) List.not_mem_nil
  reserved hs h := by
    rcases hg.toWellFormed.definition?_of_register h with h | ⟨-, rfl, rfl⟩
    · exact hg.reserved hs h
    · exact hname hs
  params hs h hi := by
    rcases hg.toWellFormed.definition?_of_register h with h | ⟨-, rfl, rfl⟩
    · exact (hg.params hs h hi).register d
    · have hnil : d.genericParams = [] := (List.append_eq_nil_iff.1 hd).1
      exact absurd (hnil ▸ hi : _ ∈ []) List.not_mem_nil

theorem register_unreserved (hg : g.Closed strict) {d : TypeDefinition} (hd : d.mentioned = [])
    (hname : strict → Unreserved d.fullName) : (g.register d).1.Closed strict :=
  hg.register hd fun hs h => absurd (hname hs) h

theorem register_builtin (hg : g.Closed strict) {d : TypeDefinition} (hd : d ∈ Builtin.all) :
    (g.register d).1.Closed strict := by
  refine hg.register_unreserved ?_ fun _ => unreserved_builtin hd
  simp only [Builtin.all, List.mem_cons, List.not_mem_nil, or_false] at hd
  rcases hd with rfl | rfl | rfl <;> rfl

/-- A change of the definition of a number leaves the graph closed if what it adds is registered. -/
theorem update (hg : g.Closed strict) {change : TypeDefinition → TypeDefinition}
    (hc : TypeDefinition.Keeping change) (id : TypeId)
    (hmentioned : ∀ d, ∀ i ∈ (change d).mentioned, i ∈ d.mentioned ∨ g.Registered i)
    (hparams : ∀ d, g.definition? id = some d → ∀ i ∈ (change d).genericParams,
      i ∈ d.genericParams ∨ (strict → g.PlaceholderOf d.fullName i)) :
    (g.update id change).Closed strict where
  toWellFormed := hg.toWellFormed.update hc id
  mentioned h hi := by
    rw [definition?_update hc.id, Option.map_eq_some_iff] at h
    obtain ⟨d, hd, rfl⟩ := h
    split at hi
    · exact (hmentioned d _ hi).elim (hg.mentioned hd) fun h => h
    · exact hg.mentioned hd hi
  reserved hs h := by
    rw [definition?_update hc.id, Option.map_eq_some_iff] at h
    obtain ⟨d, hd, rfl⟩ := h
    split
    · exact (hg.reserved hs hd).change hc
    · exact hg.reserved hs hd
  params {i p _} hs h hi := by
    rw [definition?_update hc.id, Option.map_eq_some_iff] at h
    obtain ⟨d, hd, rfl⟩ := h
    split at hi
    · rename_i hid
      rw [if_pos hid, hc.fullName]
      rw [id_of_definition? hd] at hid
      have hp : g.PlaceholderOf d.fullName p :=
        (hparams d (hid ▸ hd) p hi).elim (hg.params hs hd) fun h => h hs
      exact hp.update hc id
    · rename_i hid
      rw [if_neg hid]
      exact (hg.params hs hd hi).update hc id

/-- Content other than parameters may be filled in. -/
theorem fill (hg : g.Closed strict) {change : TypeDefinition → TypeDefinition}
    (hc : TypeDefinition.Adding g.Covers change) (id : TypeId) :
    (g.update id change).Closed strict := by
  refine hg.update hc.toKeeping id (fun d i hi => ?_) fun d _ i hi => .inl (hc.genericParams d ▸ hi)
  rw [TypeDefinition.mem_mentioned] at hi ⊢
  rcases hi with hi | hi
  · exact .inl (.inl (hc.genericParams d ▸ hi))
  · exact (hc.mem_content hi).imp_left .inr

/-- Placeholders are attached to their owner. -/
theorem attach (hg : g.Closed strict) {owner : String} (howner : strict → Unreserved owner)
    (hid : g.idOf? owner = some id) {ids : List TypeId}
    (hids : ∀ i ∈ ids, ∃ param, g.idOf? (placeholderName owner param) = some i) :
    (g.update id (.withGenericParams ids)).Closed strict := by
  refine hg.update (TypeDefinition.keeping_withGenericParams ids) id (fun d i hi => ?_)
    fun d hd i hi => .inr fun hs => ?_
  · rcases List.mem_append.1 hi with hi | hi
    · obtain ⟨param, hi⟩ := hids i hi
      exact .inr ⟨_, hi⟩
    · exact .inl (List.mem_append.2 (.inr hi))
  · obtain ⟨param, hi⟩ := hids i hi
    obtain ⟨q, hq, hname⟩ := hg.indexed hi
    obtain ⟨hkind, owner', howner', hname'⟩ :=
      hg.reserved hs hq (hname ▸ not_unreserved_placeholderName owner param)
    obtain ⟨rfl, -⟩ := placeholderName_inj howner' (howner hs) (hname'.symm.trans hname)
    exact ⟨q, hq, hkind, hg.fullName_of_idOf? hid hd ▸ hname'⟩

theorem flag (hg : g.Closed strict) (b : Bool) : { g with seeded := b }.Closed strict where
  toWellFormed := ⟨hg.indexed, hg.named, hg.fresh, hg.listed⟩
  mentioned h hi := hg.mentioned h hi
  reserved hs h := hg.reserved hs h
  params hs h hi := hg.params hs h hi

theorem seed (hg : g.Closed strict) {s : Settings} (hs : strict → s.Unreserved) :
    (g.seed s).Closed strict := by
  refine seed_induction (fun g b h => h.flag b) (fun d hd g h => ?_) hg
  refine h.register_unreserved ?_ fun h => unreserved_of_mem_predefined (hs h) hd
  obtain ⟨kind, e, rfl⟩ := exists_predefinedType_of_mem hd
  rfl

end Closed

theorem closed_clear (g : TypeGraph) (strict : Prop) : g.clear.Closed strict where
  toWellFormed := wellFormed_clear g
  mentioned h := by simp [clear, definition?] at h
  reserved _ h := by simp [clear, definition?] at h
  params _ h := by simp [clear, definition?] at h

theorem grows_seed (g : TypeGraph) (s : Settings) : g.Grows (g.seed s) :=
  seed_induction (J := g.Grows) (fun _ _ h => ⟨h.names, h.params⟩)
    (fun d _ _ h => h.trans (grows_register _ d)) (.refl g)

end TypeGraph

end ClientBindings
