import ClientBindings.Proofs.Round.Identifiers

/-! What an artifact imports: every type with an artifact of its own that it mentions, at any depth, once
each and in order. The order is one of names that different types may share, so that it is strict rests on
the full names, which they do not share. -/
namespace ClientBindings

/-- A definition occurs in an instance: it is what is used, or occurs in one of the arguments. -/
inductive TypeInstance.Occurs (id : TypeId) : TypeInstance → Prop
  | used {arguments : List TypeInstance} : Occurs id (.mk id arguments)
  | inside {t : TypeId} {arguments : List TypeInstance} {a : TypeInstance} (ha : a ∈ arguments)
      (h : Occurs id a) : Occurs id (.mk t arguments)

namespace TypeInstance

variable {id : TypeId}

mutual

theorem occurs_of_mem_ids {i : TypeInstance} (h : id ∈ i.ids) : i.Occurs id := by
  cases i with
  | mk t arguments =>
    rcases List.mem_cons.1 h with rfl | h
    · exact .used
    · obtain ⟨a, ha, hid⟩ := exists_occurs_of_mem_idsAll h
      exact .inside ha hid

theorem exists_occurs_of_mem_idsAll {is : List TypeInstance} (h : id ∈ idsAll is) :
    ∃ i ∈ is, i.Occurs id := by
  cases is with
  | nil => cases h
  | cons i is =>
    rcases List.mem_append.1 h with h | h
    · exact ⟨i, List.mem_cons_self .., occurs_of_mem_ids h⟩
    · obtain ⟨i', hi', hid⟩ := exists_occurs_of_mem_idsAll h
      exact ⟨i', List.mem_cons_of_mem _ hi', hid⟩

end

theorem mem_ids_iff {i : TypeInstance} : id ∈ i.ids ↔ i.Occurs id := by
  refine ⟨occurs_of_mem_ids, fun h => ?_⟩
  induction h with
  | used => exact List.mem_cons_self ..
  | inside ha _ ih => exact List.mem_cons_of_mem _ (mem_idsAll.2 ⟨_, ha, ih⟩)

end TypeInstance

/-- A type occurs in what a definition has: in the type of a property, in a supertype or in a bound of a
parameter. -/
inductive TypeGraph.Mentions (g : TypeGraph) (d : TypeDefinition) (id : TypeId) : Prop
  | property {p : PropertyDefinition} (hp : p ∈ d.properties) (h : p.type.Occurs id)
  | superType {i : TypeInstance} (hi : i ∈ d.superTypes) (h : i.Occurs id)
  | bound {v : TypeId} {parameter : TypeDefinition} {i : TypeInstance} (hv : v ∈ d.genericParams)
      (hparameter : g.definition? v = some parameter) (hi : i ∈ parameter.superTypes) (h : i.Occurs id)

/-- A type occurs in a signature: in the type of a parameter or in the result. -/
inductive Endpoint.Mentions (e : Endpoint) (id : TypeId) : Prop
  | parameter {m : EndpointMethod} {p : MethodParameter} (hm : m ∈ e.methods) (hp : p ∈ m.params)
      (h : p.type.Occurs id)
  | result {m : EndpointMethod} {i : TypeInstance} (hm : m ∈ e.methods) (hi : m.returnType = some i)
      (h : i.Occurs id)

/-- By generated name, and by full name where that is the same. -/
def ImportedBefore (a b : TypeDefinition) : Prop :=
  a.tsName < b.tsName ∨ a.tsName = b.tsName ∧ a.fullName < b.fullName

theorem importsBefore_iff {a b : TypeDefinition} : importsBefore a b = true ↔
    ImportedBefore a b ∨ a.tsName = b.tsName ∧ a.fullName = b.fullName := by
  rw [importsBefore, ImportedBefore]
  simp only [Bool.or_eq_true, Bool.and_eq_true, decide_eq_true_eq, beq_iff_eq, Std.le_iff_lt_or_eq]
  tauto

theorem importsBefore_trans (a b c : TypeDefinition) (hab : importsBefore a b = true)
    (hbc : importsBefore b c = true) : importsBefore a c = true := by
  simp only [importsBefore, Bool.or_eq_true, Bool.and_eq_true, decide_eq_true_eq, beq_iff_eq] at *
  rcases hab with hab | ⟨hab, hab'⟩
  · rcases hbc with hbc | ⟨hbc, -⟩
    · exact .inl (String.lt_trans hab hbc)
    · exact .inl (hbc ▸ hab)
  · rcases hbc with hbc | ⟨hbc, hbc'⟩
    · exact .inl (hab ▸ hbc)
    · exact .inr ⟨hab.trans hbc, String.le_trans hab' hbc'⟩

theorem importsBefore_total (a b : TypeDefinition) : (importsBefore a b || importsBefore b a) = true := by
  simp only [importsBefore, Bool.or_eq_true, Bool.and_eq_true, decide_eq_true_eq, beq_iff_eq]
  by_cases hab : a.tsName < b.tsName
  · exact .inl (.inl hab)
  · by_cases hba : b.tsName < a.tsName
    · exact .inr (.inl hba)
    · have heq : a.tsName = b.tsName := String.le_antisymm (String.not_lt.1 hba) (String.not_lt.1 hab)
      exact (String.le_total a.fullName b.fullName).imp (fun h => .inr ⟨heq, h⟩) fun h => .inr ⟨heq.symm, h⟩

namespace TypeGraph

variable {g : TypeGraph} {d q : TypeDefinition} {roots : List TypeInstance} {exclude : Option TypeId}

theorem Numbered.pairwise_importable (hg : g.Numbered) :
    (g.importable roots exclude).Pairwise ImportedBefore := by
  have hsorted : (g.importable roots exclude).Pairwise fun a b => importsBefore a b = true :=
    List.pairwise_mergeSort importsBefore_trans importsBefore_total _
  have hnames : (g.importable roots exclude).Pairwise fun a b => a.fullName ≠ b.fullName :=
    List.pairwise_map.1 hg.nodup_importable
  refine hsorted.imp₂ (fun a b hle hne => ?_) hnames
  exact (importsBefore_iff.1 hle).resolve_right fun h => hne h.2

/-- A definition with an artifact: an interface or an enumeration that is not predefined. -/
theorem mem_emittable_iff : q ∈ g.emittable ↔ q ∈ g.definitions ∧ q.predefined = false ∧
    (q.kind = .interfaceType ∨ q.kind = .enumType) := by
  have hkind : q.kind.isImportable = true ↔ q.kind = .interfaceType ∨ q.kind = .enumType := by
    cases q.kind <;> decide
  rw [emittable, List.mem_filter, TypeDefinition.isEmittable, Bool.and_eq_true, hkind, Bool.not_eq_true']

theorem mem_boundsOf_iff {i : TypeInstance} : i ∈ g.boundsOf d ↔ ∃ v ∈ d.genericParams,
    ∃ parameter, g.definition? v = some parameter ∧ i ∈ parameter.superTypes := by
  rw [boundsOf, List.mem_flatMap]
  refine exists_congr fun v => and_congr_right fun _ => ?_
  cases g.definition? v <;> simp

theorem mem_ids_roots_iff {id : TypeId} : id ∈ (g.roots d).flatMap (·.ids) ↔ g.Mentions d id := by
  simp only [roots, List.flatMap_append, List.mem_append, List.mem_flatMap, List.mem_map,
    TypeInstance.mem_ids_iff, mem_boundsOf_iff]
  constructor
  · rintro ((⟨_, ⟨p, hp, rfl⟩, h⟩ | ⟨i, hi, h⟩) | ⟨i, ⟨v, hv, parameter, hparameter, hi⟩, h⟩)
    · exact .property hp h
    · exact .superType hi h
    · exact .bound hv hparameter hi h
  · rintro (⟨hp, h⟩ | ⟨hi, h⟩ | ⟨hv, hparameter, hi, h⟩)
    · exact .inl (.inl ⟨_, ⟨_, hp, rfl⟩, h⟩)
    · exact .inl (.inr ⟨_, hi, h⟩)
    · exact .inr ⟨_, ⟨_, hv, _, hparameter, hi⟩, h⟩

theorem mem_ids_signatureRoots_iff {e : Endpoint} {id : TypeId} :
    id ∈ (signatureRoots e).flatMap (·.ids) ↔ e.Mentions id := by
  simp only [signatureRoots, Endpoint.typesOfMethod, List.mem_flatMap, List.mem_append, List.mem_map,
    Option.mem_toList, TypeInstance.mem_ids_iff]
  constructor
  · rintro ⟨_, ⟨m, hm, ⟨p, hp, rfl⟩ | hi⟩, h⟩
    · exact .parameter hm hp h
    · exact .result hm hi h
  · rintro (⟨hm, hp, h⟩ | ⟨hm, hi, h⟩)
    · exact ⟨_, ⟨_, hm, .inl ⟨_, hp, rfl⟩⟩, h⟩
    · exact ⟨_, ⟨_, hm, .inr hi⟩, h⟩

theorem Numbered.mem_typeImports_iff (hg : g.Numbered) (hd : d ∈ g.definitions) :
    q ∈ g.typeImports d ↔ q ∈ g.emittable ∧ q ≠ d ∧ g.Mentions d q.id := by
  rw [show g.typeImports d = g.importable (g.roots d) (some d.id) from rfl, hg.mem_importable_iff, Cites,
    mem_ids_roots_iff]
  have hne (hq : q ∈ g.emittable) : some q.id ≠ some d.id ↔ q ≠ d := by
    refine not_congr ⟨fun h => Option.some.inj ?_, fun h => by rw [h]⟩
    rw [← hg.listed (mem_emittable_iff.1 hq).1, Option.some.inj h, hg.listed hd]
  constructor
  · rintro ⟨⟨hq, hmentions⟩, h⟩
    exact ⟨hq, (hne hq).1 h, hmentions⟩
  · rintro ⟨hq, h, hmentions⟩
    exact ⟨⟨hq, hmentions⟩, (hne hq).2 h⟩

theorem Numbered.mem_endpointImports_iff (hg : g.Numbered) {e : Endpoint} :
    q ∈ g.endpointImports e ↔ q ∈ g.emittable ∧ e.Mentions q.id := by
  rw [show g.endpointImports e = g.importable (signatureRoots e) none from rfl, hg.mem_importable_iff,
    Cites, mem_ids_signatureRoots_iff]
  exact and_iff_left (fun h => nomatch h)

end TypeGraph

namespace Workspace

open TypeGraph

/-- Whatever has been done to a graph: what a definition imports are the interfaces and enumerations, those
that are predefined and itself excepted, that it mentions at any depth, and what an endpoint imports are
those that its signatures mention; in strictly increasing order, so once each. -/
theorem performAll_imports (actions : List GraphAction) :
    let g := (Workspace.empty.performAll actions).graph
    (∀ d ∈ g.definitions, (g.typeImports d).Pairwise ImportedBefore ∧
      ∀ q, q ∈ g.typeImports d ↔ q ∈ g.definitions ∧ q.predefined = false ∧
        (q.kind = .interfaceType ∨ q.kind = .enumType) ∧ q ≠ d ∧ g.Mentions d q.id) ∧
    ∀ e : Endpoint, (g.endpointImports e).Pairwise ImportedBefore ∧
      ∀ q, q ∈ g.endpointImports e ↔ q ∈ g.definitions ∧ q.predefined = false ∧
        (q.kind = .interfaceType ∨ q.kind = .enumType) ∧ e.Mentions q.id := by
  intro g
  have hg : g.Numbered := performAll_numbered numbered_empty actions
  refine ⟨fun d hd => ⟨hg.pairwise_importable, fun q => ?_⟩, fun e => ⟨hg.pairwise_importable, fun q => ?_⟩⟩
  · rw [hg.mem_typeImports_iff hd, mem_emittable_iff, and_assoc, and_assoc]
  · rw [hg.mem_endpointImports_iff, mem_emittable_iff, and_assoc, and_assoc]

/-- An enumeration that bounds the parameter of a type, and an item that this has in itself. -/
def caseActions : List GraphAction :=
  [.register (.declared "a.Item" "Item" .interfaceType), .register (.declared "a.Color" "Color" .enumType),
    .register ((TypeDefinition.declared "a.Case#T" "T" .genericPlaceholder).bounded [.plain 1]),
    .register (((TypeDefinition.declared "a.Case" "Case" .interfaceType).withGenericParams [2]).withProperties
      [⟨"inner", .mk 3 [.plain 0], false⟩])]

theorem performAll_imports_case :
    let g := (Workspace.empty.performAll caseActions).graph
    ∃ d ∈ g.definitions, d.fullName = "a.Case" ∧ (g.typeImports d).Pairwise ImportedBefore ∧
      ∃ color ∈ g.typeImports d, color.fullName = "a.Color" ∧
      ∃ item ∈ g.typeImports d, item.fullName = "a.Item" ∧ d ∉ g.typeImports d := by
  intro g
  obtain ⟨hall, -⟩ := performAll_imports caseActions
  have hmem (id : TypeId) (d : TypeDefinition) (h : g.definition? id = some d) : d ∈ g.definitions :=
    mem_of_definition? h
  have hcase := hmem 3 _ rfl
  obtain ⟨hsorted, himports⟩ := hall _ hcase
  refine ⟨_, hcase, rfl, hsorted, _, (himports _).2 ⟨hmem 1 _ rfl, rfl, .inr rfl, ?_, ?_⟩, rfl,
    _, (himports _).2 ⟨hmem 0 _ rfl, rfl, .inl rfl, ?_, ?_⟩, rfl, fun h => ((himports _).1 h).2.2.2.1 rfl⟩
  · exact fun h => absurd (congrArg TypeDefinition.id h) (by decide)
  · exact .bound (List.mem_singleton.2 rfl) rfl (List.mem_singleton.2 rfl) .used
  · exact fun h => absurd (congrArg TypeDefinition.id h) (by decide)
  · exact .property (List.mem_singleton.2 rfl) (.inside (List.mem_singleton.2 rfl) .used)

end Workspace

end ClientBindings
