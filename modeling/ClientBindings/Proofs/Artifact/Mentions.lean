import ClientBindings.Proofs.Artifact.Expressions
import ClientBindings.Proofs.Round.Closure
import ClientBindings.Proofs.Round.Origins
import ClientBindings.Proofs.Round.Scope

/-! The names in an interface, and where they come from. Everything that an interface names is there to
be named, but for what has no artifact and is not predefined. -/
namespace ClientBindings

open TypeGraph

namespace TypeGraph

variable {g : TypeGraph} {d q : TypeDefinition} {id : TypeId}

mutual

/-- What is named is in the instance, or stands for everything where an argument is missing. -/
theorem names_expr {i : TypeInstance} (h : id ∈ (g.expr i).names) : id ∈ i.ids ∨ id = g.anyId := by
  cases i with
  | mk t args =>
    rw [TypeInstance.ids, List.mem_cons]
    have hnamed (h : id ∈ (TypeExpr.named t (g.exprAll args)).names) :
        (id = t ∨ id ∈ TypeInstance.idsAll args) ∨ id = g.anyId := by
      rw [TypeExpr.names, List.mem_cons] at h
      rcases h with rfl | h
      · exact .inl (.inl rfl)
      · exact (names_exprAll h).imp_left .inr
    unfold expr at h
    cases hkind : g.kind? t with
    | none => exact hnamed (by rwa [hkind] at h)
    | some kind =>
      rw [hkind] at h
      cases kind with
      | collection => exact (names_exprFirst h).imp_left .inr
      | map =>
        cases args with
        | nil => cases h
        | cons key rest =>
          rw [TypeInstance.idsAll, List.mem_append]
          dsimp only at h
          split at h
          · exact (names_exprFirst h).imp_left fun h => .inr (.inr h)
          · split at h
            · rcases List.mem_append.1 h with h | h
              · exact (names_expr h).imp_left fun h => .inr (.inl h)
              · exact (names_exprFirst h).imp_left fun h => .inr (.inr h)
            · cases h
      | primitive | interfaceType | enumType | genericPlaceholder | unknown => exact hnamed h

theorem names_exprFirst {is : List TypeInstance} (h : id ∈ (g.exprFirst is).names) :
    id ∈ TypeInstance.idsAll is ∨ id = g.anyId := by
  cases is with
  | nil => exact .inr (List.mem_singleton.1 h)
  | cons i is =>
    rw [TypeInstance.idsAll, List.mem_append]
    exact (names_expr h).imp_left .inl

theorem names_exprAll {is : List TypeInstance} (h : id ∈ TypeExpr.namesAll (g.exprAll is)) :
    id ∈ TypeInstance.idsAll is ∨ id = g.anyId := by
  cases is with
  | nil => cases h
  | cons i is =>
    rw [TypeInstance.idsAll, List.mem_append]
    rcases List.mem_append.1 h with h | h
    · exact (names_expr h).imp_left .inl
    · exact (names_exprAll h).imp_left .inr

end

/-- The instances that an interface is written from. -/
def roots (g : TypeGraph) (d : TypeDefinition) : List TypeInstance :=
  d.properties.map (·.type) ++ d.superTypes ++ g.boundsOf d

theorem exists_root_of_mem_exprs {e : TypeExpr} (h : e ∈ (g.interfaceExpr d).exprs) :
    ∃ i ∈ g.roots d, e = g.expr i := by
  have hlisted {is : List TypeInstance} (h : e ∈ g.listed is) : ∃ i ∈ is, e = g.expr i := by
    obtain ⟨i, hi, rfl⟩ := List.mem_map.1 h
    exact ⟨i, (List.mem_filter.1 hi).1, rfl⟩
  rcases List.mem_append.1 h with h | h
  · rcases List.mem_append.1 h with h | h
    · obtain ⟨_, hproperty, rfl⟩ := List.mem_map.1 h
      obtain ⟨p, hp, rfl⟩ := List.mem_map.1 hproperty
      exact ⟨p.type, List.mem_append_left _ (List.mem_append_left _ (List.mem_map_of_mem hp)), rfl⟩
    · obtain ⟨i, hi, rfl⟩ := hlisted h
      exact ⟨i, by simp [roots, hi], rfl⟩
  · obtain ⟨_, hparameter, he⟩ := List.mem_flatMap.1 h
    obtain ⟨p, hp, rfl⟩ := List.mem_map.1 hparameter
    obtain ⟨id, hid, hp⟩ := List.mem_filterMap.1 hp
    obtain ⟨i, hi, rfl⟩ := hlisted he
    refine ⟨i, List.mem_append_right _ (List.mem_flatMap.2 ⟨id, hid, ?_⟩), rfl⟩
    rw [hp]
    exact hi

theorem names_interfaceExpr (h : id ∈ TypeExpr.namesAll (g.interfaceExpr d).exprs) :
    id ∈ (g.roots d).flatMap (·.ids) ∨ id = g.anyId := by
  obtain ⟨e, he, hid⟩ := TypeExpr.mem_namesAll.1 h
  obtain ⟨i, hi, rfl⟩ := exists_root_of_mem_exprs he
  exact (names_expr hid).imp_left fun h => List.mem_flatMap.2 ⟨i, hi, h⟩

theorem mem_importable {roots : List TypeInstance} {exclude : Option TypeId} :
    q ∈ g.importable roots exclude ↔ q.isEmittable = true ∧
      ∃ id ∈ roots.flatMap (·.ids), some id ≠ exclude ∧ g.definition? id = some q := by
  simp only [importable, List.mem_mergeSort, List.mem_filter, List.mem_filterMap, List.mem_eraseDups,
    bne_iff_ne, ne_eq, and_assoc]
  exact and_comm

/-- The definition can be named in the artifact of `d`: it is predefined, `d` itself, one of its
parameters, or imported. -/
def Available (g : TypeGraph) (d q : TypeDefinition) : Prop :=
  q.predefined = true ∨ q.id = d.id ∨ q.id ∈ d.genericParams ∨ q ∈ g.typeImports d

/-- Of what is in an interface, other types and placeholders than those of unknown kind and those of
other declarations are available, and no others are but the interface's parameters. -/
theorem Regular.available_iff (hg : g.Regular) (hd : g.definition? d.id = some d)
    (hkind : d.kind = .interfaceType) (hq : g.definition? id = some q)
    (hid : id ∈ (g.roots d).flatMap (·.ids) ∨ q.predefined = true) :
    g.Available d q ↔
      id ∈ d.genericParams ∨ (q.kind ≠ .unknown ∧ q.kind ≠ .genericPlaceholder) := by
  have hqid : q.id = id := id_of_definition? hq
  rw [Available, hqid]
  constructor
  · rintro (hp | rfl | hp | hp)
    · exact .inr ((hg.regular hq).predefined hp)
    · obtain rfl := Option.some.inj (hd.symm.trans hq)
      exact .inr (by rw [hkind]; decide)
    · exact .inl hp
    · have hemittable : q.isEmittable = true := (mem_importable.1 hp).1
      have himportable : q.kind.isImportable = true := (Bool.and_eq_true_iff.1 hemittable).2
      have hne {kind : TypeKind} (h : kind.isImportable = false) : q.kind ≠ kind := fun heq => by
        rw [← heq, himportable] at h
        cases h
      exact .inr ⟨hne rfl, hne rfl⟩
  · rintro (hp | ⟨hunknown, hplaceholder⟩)
    · exact .inr (.inr (.inl hp))
    · by_cases hself : id = d.id
      · exact .inr (.inl hself)
      cases hp : q.predefined with
      | true => exact .inl rfl
      | false =>
        have himportable : q.kind.isImportable = true :=
          ((hg.regular hq).own hp).resolve_right fun h => h.elim hunknown hplaceholder
        have hin : id ∈ (g.roots d).flatMap (·.ids) :=
          hid.resolve_right fun h => by rw [hp] at h; cases h
        refine .inr (.inr (.inr (mem_importable.2 ⟨?_, id, hin, ?_, hq⟩)))
        · rw [TypeDefinition.isEmittable, hp, himportable]
          rfl
        · exact fun h => hself (Option.some.inj h)

/-- What an interface is written from is in its own definition and in the definitions of its
parameters. -/
theorem exists_source_of_mem_roots (hid : id ∈ (g.roots d).flatMap (·.ids)) :
    id ∈ d.content ∨ ∃ p ∈ d.genericParams, ∃ q, g.definition? p = some q ∧ id ∈ q.content := by
  simp only [TypeDefinition.content, TypeInstance.mem_idsAll, List.mem_append]
  obtain ⟨i, hi, hid⟩ := List.mem_flatMap.1 hid
  simp only [roots, List.mem_append] at hi
  rcases hi with (hi | hi) | hi
  · exact .inl ⟨i, .inr hi, hid⟩
  · exact .inl ⟨i, .inl hi, hid⟩
  · obtain ⟨p, hp, hi⟩ := List.mem_flatMap.1 hi
    cases hq : g.definition? p with
    | none =>
      rw [hq] at hi
      cases hi
    | some q =>
      rw [hq] at hi
      exact .inr ⟨p, hp, q, hq, i, .inl hi, hid⟩

theorem Closed.registered_of_mem_roots {strict : Prop} (hg : g.Closed strict)
    (hd : g.definition? d.id = some d) (hid : id ∈ (g.roots d).flatMap (·.ids)) : g.Registered id := by
  rcases exists_source_of_mem_roots hid with hid | ⟨p, -, q, hq, hid⟩
  · exact hg.mentioned hd (TypeDefinition.mem_mentioned.2 (.inr hid))
  · exact hg.mentioned hq (TypeDefinition.mem_mentioned.2 (.inr hid))

/-- What is named is registered. Where an argument is missing, what stands for everything is named,
although no instance mentions it. -/
theorem Closed.exists_of_named {strict : Prop} (hg : g.Closed strict) (hfurnished : g.Furnished)
    (hd : g.definition? d.id = some d) (hid : id ∈ TypeExpr.namesAll (g.interfaceExpr d).exprs) :
    ∃ q, g.definition? id = some q ∧
      (id ∈ (g.roots d).flatMap (·.ids) ∨ q.predefined = true) := by
  rcases names_interfaceExpr hid with hid | rfl
  · obtain ⟨n, hn⟩ := hg.registered_of_mem_roots hd hid
    obtain ⟨q, hq, -⟩ := hg.indexed hn
    exact ⟨q, hq, .inl hid⟩
  · obtain ⟨i, q, hi, hq, hp⟩ := hfurnished Builtin.any (by simp [Builtin.all])
    refine ⟨q, ?_, .inr hp⟩
    rwa [anyId, register_of_idOf? hi]

theorem Based.furnished_of_emittable (hg : g.Based) (hd : d ∈ g.emittable) : g.Furnished := by
  refine hg.furnished ?_
  cases h : g.seeded with
  | true => rfl
  | false =>
    rw [hg.fresh h] at hd
    cases hd

/-- Where definitions keep to their own placeholders, so does what is written for an interface. -/
theorem Housed.mem_genericParams (hg : g.Housed) (hregular : g.Regular)
    (hd : g.definition? d.id = some d) (hkind : d.kind = .interfaceType)
    (hid : id ∈ (g.roots d).flatMap (·.ids)) (hq : g.definition? id = some q)
    (hplaceholder : q.kind = .genericPlaceholder) : id ∈ d.genericParams := by
  have hname : Unreserved d.fullName := by
    by_contra h
    obtain ⟨hreserved, -⟩ := hg.reserved trivial hd h
    exact absurd (hreserved.symm.trans hkind) (by decide)
  have hlocal : g.Local d.fullName id := by
    rcases exists_source_of_mem_roots hid with hid | ⟨p, hp, r, hr, hid⟩
    · exact hg.housed hname (.inl (hg.named hd)) hd hid
    · obtain ⟨r', hr', -, hown⟩ := hg.params trivial hd hp
      obtain rfl := Option.some.inj (hr.symm.trans hr')
      exact hg.housed hname (.inr ⟨r.shortName, hown ▸ hg.named hr⟩) hr hid
  rcases hlocal with ⟨n, hn, hid⟩ | ⟨o, d', ho, hd', hmem⟩
  · exact absurd hplaceholder (hregular.ne_placeholder hn hid hq)
  · obtain rfl := Option.some.inj (ho.symm.trans (hg.named hd))
    obtain rfl := Option.some.inj (hd.symm.trans hd')
    exact hmem

theorem Housed.available_iff (hg : g.Housed) (hregular : g.Regular)
    (hd : g.definition? d.id = some d) (hkind : d.kind = .interfaceType)
    (hq : g.definition? id = some q)
    (hid : id ∈ (g.roots d).flatMap (·.ids) ∨ q.predefined = true) :
    g.Available d q ↔ q.kind ≠ .unknown := by
  rw [hregular.available_iff hd hkind hq hid]
  constructor
  · rintro (hp | ⟨hunknown, -⟩)
    · obtain ⟨q', hq', hplaceholder, -⟩ := hg.params trivial hd hp
      obtain rfl := Option.some.inj (hq.symm.trans hq')
      rw [hplaceholder]
      decide
    · exact hunknown
  · intro hunknown
    by_cases hplaceholder : q.kind = .genericPlaceholder
    · refine .inl (hid.elim (fun hid => ?_) fun hp => ?_)
      · exact hg.mem_genericParams hregular hd hkind hid hq hplaceholder
      · exact absurd hplaceholder ((hregular.regular hq).predefined hp).2
    · exact .inr ⟨hunknown, hplaceholder⟩

end TypeGraph

namespace Processor

/-- What the artifact of an interface names as a type is registered under the name that is written. It
is available there exactly if it is a parameter of the interface or neither of unknown kind nor a
placeholder; where all declarations keep to their own type variables, exactly if it is not of unknown
kind. What is of unknown kind is an annotation type that one of the rounds declares. -/
theorem run_names_available_iff (pipeline : PropertyPipeline) (events : List Event) (s : Settings)
    (l : Layout) : let g := (run (withPipeline pipeline) events).graph
    ∀ d ∈ g.emittable, d.kind = .interfaceType →
      (∀ w, w.graph = g → (Artifact.interfaceText s l d).Computes w (g.interfaceText s l d)) ∧
      ∀ id ∈ TypeExpr.namesAll (g.interfaceExpr d).exprs,
        ∃ q, g.definition? id = some q ∧ g.nameText id = q.tsName ∧
          (g.Available d q ↔
            id ∈ d.genericParams ∨ (q.kind ≠ .unknown ∧ q.kind ≠ .genericPlaceholder)) ∧
          ((∀ e ∈ events, e.Enclosed) → (g.Available d q ↔ q.kind ≠ .unknown)) ∧
          (q.kind = .unknown → ∃ r, .round r ∈ events ∧ ∃ t ∈ r.symbols.types,
            t.name = q.fullName ∧ t.kind = .annotationType) := by
  intro g d hemittable hkind
  have hclosed : g.Closed False := ((closed_withPipeline False pipeline).run False.elim).model.graph
  have hregular : g.Regular := run_regular pipeline events
  have hbased : g.Based := run_based pipeline events
  have hd : g.definition? d.id = some d := hregular.listed (List.mem_filter.1 hemittable).1
  have hfurnished : g.Furnished := hbased.furnished_of_emittable hemittable
  refine ⟨fun w hw => hw ▸ Artifact.computes_interfaceText (hw ▸ hfurnished.stocked) s l d,
    fun id hid => ?_⟩
  obtain ⟨q, hq, hin⟩ := hclosed.exists_of_named hfurnished hd hid
  refine ⟨q, hq, ?_, hregular.available_iff hd hkind hq hin, fun hevents => ?_,
    run_unknown pipeline events hq⟩
  · rw [nameText, tsName?, hq]
    rfl
  · exact (run_housed pipeline hevents).available_iff hregular hd hkind hq hin

theorem nodeRound_enclosed : nodeRound.Enclosed where
  tidy := by decide +kernel
  settings := nodeRound_unreserved.2
  enclosed := by
    have h : ∀ t ∈ nodeRound.symbols.types, ∀ r ∈ t.references, ∀ v ∈ r.vars, t.Owns v := by
      decide +kernel
    exact fun t ht r hr v hv => .inl (h t ht r hr v hv)

/-- Everything that the record, the class and their interface name is available to them. -/
theorem run_names_available_node : let g := (run initial [.round nodeRound]).graph
    (g.emittable.filter (·.kind == .interfaceType)).map (·.fullName) =
        ["a.Leaf", "a.Node", "a.Branch", "a.Base"] ∧
      ∀ d ∈ g.emittable, d.kind = .interfaceType → TypeExpr.namesAll (g.interfaceExpr d).exprs ≠ [] ∧
        ∀ id ∈ TypeExpr.namesAll (g.interfaceExpr d).exprs,
          ∃ q, g.definition? id = some q ∧ g.Available d q := by
  intro g
  have hmodel : (g.emittable.filter (·.kind == .interfaceType)).map (·.fullName) =
        ["a.Leaf", "a.Node", "a.Branch", "a.Base"] ∧
      (∀ d ∈ g.emittable, TypeExpr.namesAll (g.interfaceExpr d).exprs ≠ []) ∧
      ∀ q ∈ g.definitions, q.kind ≠ .unknown := by decide +kernel
  obtain ⟨hinterfaces, hnames, hknown⟩ := hmodel
  refine ⟨hinterfaces, fun d hd hkind => ⟨hnames d hd, fun id hid => ?_⟩⟩
  obtain ⟨-, h⟩ := run_names_available_iff .standard [.round nodeRound] .standard
    (Layout.ofSettings .standard) d hd hkind
  obtain ⟨q, hq, -, -, hiff, -⟩ := h id hid
  refine ⟨q, hq, (hiff fun e he => ?_).2 (hknown q (mem_of_definition? hq))⟩
  obtain rfl := List.mem_singleton.1 he
  exact nodeRound_enclosed

/-- A record over an annotation and over the variable of the type that it is declared in. -/
def holderExport : SymbolTable where
  types := [
    ⟨"a.Outer", none, none, none, .classType, [], [], [⟨"T", []⟩], none, [], [], [], [], []⟩,
    ⟨"a.Holder", none, none, none, .recordType, [], [], [], none, [], [], [],
      [⟨"mark", .declared "a.Mark" [], []⟩, ⟨"item", .typeVar "T" (.type "a.Outer"), []⟩], []⟩,
    ⟨"a.Mark", none, none, none, .annotationType, [], [], [], none, [], [], [], [], []⟩,
    ⟨"a.Api", none, none, none, .classType, [], [.written Marker.endpoint []], [], none, [], [],
      [⟨"get", [], [.written Marker.requestMapping []], [], [], some (.declared "a.Holder" [])⟩], [], []⟩]
  annotationTypes := []

def holderRound : Round := .process holderExport .standard ["a.Api"]

/-- Neither the annotation nor the variable is available to it. -/
theorem run_names_not_available : let g := (run initial [.round holderRound]).graph
    (initial.attempt holderRound).1.isOk = true ∧
      ∃ d ∈ g.emittable, d.fullName = "a.Holder" ∧ d.kind = .interfaceType ∧
      ∀ kind ∈ [TypeKind.unknown, .genericPlaceholder],
        ∃ id ∈ TypeExpr.namesAll (g.interfaceExpr d).exprs, ∃ q, g.definition? id = some q ∧
          q.kind = kind ∧ ¬g.Available d q := by
  intro g
  have hnamed : ∃ d ∈ g.emittable, d.fullName = "a.Holder" ∧ d.kind = .interfaceType ∧
      d.genericParams = [] ∧ ∀ kind ∈ [TypeKind.unknown, .genericPlaceholder],
        ∃ id ∈ TypeExpr.namesAll (g.interfaceExpr d).exprs, id ∈ (g.roots d).flatMap (·.ids) ∧
          g.kind? id = some kind := by decide +kernel
  obtain ⟨d, hd, hname, hkind, hparams, h⟩ := hnamed
  refine ⟨by decide +kernel, d, hd, hname, hkind, fun kind hmem => ?_⟩
  obtain ⟨id, hid, hroots, hqkind⟩ := h kind hmem
  obtain ⟨q, hq, rfl⟩ := Option.map_eq_some_iff.1 hqkind
  have hregular : g.Regular := run_regular .standard [.round holderRound]
  refine ⟨id, hid, q, hq, rfl, ?_⟩
  rw [hregular.available_iff (hregular.listed (List.mem_filter.1 hd).1) hkind hq (.inl hroots), hparams]
  rintro (hmem | ⟨hunknown, hplaceholder⟩)
  · cases hmem
  · rcases List.mem_pair.1 hmem with heq | heq
    · exact hunknown heq
    · exact hplaceholder heq

end Processor

end ClientBindings
