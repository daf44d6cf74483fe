import ClientBindings.Proofs.Presentation.Round
import ClientBindings.Proofs.Presentation.Stems

/-! With how many arguments the model uses its interfaces: as many as they have parameters, where the export
uses no type without its arguments and every type variable has a slot. -/
namespace ClientBindings

open BuildContext TypeGraph

namespace TypeInstance

mutual

/-- An instance and its arguments, at any depth. -/
def parts : TypeInstance → List TypeInstance
  | .mk d as => .mk d as :: partsAll as

def partsAll : List TypeInstance → List TypeInstance
  | [] => []
  | a :: as => parts a ++ partsAll as

end

end TypeInstance

namespace TypeGraph

variable {g : TypeGraph} {P : NamedInstance → Prop}

theorem length_of_namedAll? {is : List TypeInstance} {ns : List NamedInstance}
    (h : g.namedAll? is = some ns) : is.length = ns.length :=
  (forall₂_of_mapM_eq_some ((namedAll?_eq_mapM g is).symm.trans h)).length_eq

mutual

/-- Every part of an instance reads as a part of what the instance reads as. -/
theorem exists_named?_of_mem_parts {i j : TypeInstance} {n : NamedInstance} (hi : g.named? i = some n)
    (hn : n.All P) (hj : j ∈ i.parts) : ∃ m, g.named? j = some m ∧ P m := by
  cases i with
  | mk id is =>
    obtain ⟨name, ns, -, his, rfl⟩ := named?_eq_some_iff.1 hi
    obtain ⟨h, hns⟩ := hn
    rw [TypeInstance.parts] at hj
    rcases List.mem_cons.1 hj with rfl | hj
    · exact ⟨_, hi, h⟩
    · exact exists_named?_of_mem_partsAll his hns hj

theorem exists_named?_of_mem_partsAll {is : List TypeInstance} {j : TypeInstance}
    {ns : List NamedInstance} (his : g.namedAll? is = some ns) (hns : ∀ n ∈ ns, n.All P)
    (hj : j ∈ TypeInstance.partsAll is) : ∃ m, g.named? j = some m ∧ P m := by
  cases is with
  | nil => cases hj
  | cons i is =>
    rw [namedAll?_cons] at his
    obtain ⟨n, hn, hrest⟩ := Option.bind_eq_some_iff.1 his
    obtain ⟨ns', hns', hcons⟩ := Option.bind_eq_some_iff.1 hrest
    obtain rfl : n :: ns' = ns := Option.some.inj hcons
    rw [TypeInstance.partsAll] at hj
    rcases List.mem_append.1 hj with hj | hj
    · exact exists_named?_of_mem_parts hn (hns n (List.mem_cons_self ..)) hj
    · exact exists_named?_of_mem_partsAll hns' (fun m hm => hns m (List.mem_cons_of_mem _ hm)) hj

end

theorem exists_named?_of_mem {is : List TypeInstance} {ns : List NamedInstance} {i : TypeInstance}
    (his : g.namedAll? is = some ns) (hns : ∀ n ∈ ns, n.All P) (hi : i ∈ is) :
    ∃ n, g.named? i = some n ∧ n.All P := by
  rw [namedAll?_eq_mapM] at his
  obtain ⟨n, hn, hnamed⟩ := exists_mem_of_mapM_eq_some his hi
  exact ⟨n, hnamed, hns n hn⟩

end TypeGraph

namespace BuildContext

variable {cx : BuildContext}

section definitions

variable (hs : cx.symbols.Tidy)
include hs

/-- The supertypes, bounds and properties of whatever is described. -/
theorem Described.stems {S : String → Prop} {m : NamedDefinition × Bool} (h : cx.Described S m) :
    (∀ n ∈ m.1.superTypes, n.All cx.Stems) ∧ ∀ p ∈ m.1.properties, p.type.All cx.Stems := by
  cases h with
  | predefined _ _ => exact ⟨fun n hn => (nomatch hn), fun p hp => (nomatch hp)⟩
  | @declared t n ht _ _ hn =>
    have hwritten {r : TypeRef} (hr : r ∈ t.references) : cx.symbols.Derived r :=
      .written ht.mem_types hr
    unfold translateType? at hn
    split at hn
    · obtain ⟨placeholders, -, hn⟩ := Option.bind_eq_some_iff.1 hn
      obtain ⟨properties, hproperties, hn⟩ := Option.bind_eq_some_iff.1 hn
      obtain ⟨superTypes, hsuper, hn⟩ := Option.bind_eq_some_iff.1 hn
      rw [← Option.some.inj hn]
      refine ⟨all_stems_of_translateAll? hs hsuper fun r hr =>
        hwritten (t.mem_references_of_parent hr), fun p hp => ?_⟩
      obtain ⟨c, hc, hp⟩ := exists_of_forall₂ (forall₂_of_mapM_eq_some hproperties) hp
      obtain ⟨o, ho, hp⟩ := Option.bind_eq_some_iff.1 hp
      rw [← Option.some.inj hp]
      exact all_stems_getD hs ho (hwritten (SymbolTable.type_mem_references_of_winner hc))
    · rw [← Option.some.inj hn]
      exact ⟨fun n hn => (nomatch hn), fun p hp => (nomatch hp)⟩
    · rw [← Option.some.inj hn]
      exact ⟨fun n hn => (nomatch hn), fun p hp => (nomatch hp)⟩
  | @placeholder t p n ht _ _ _ _ hn =>
    refine ⟨?_, fun p hp => nomatch hp⟩
    obtain ⟨bounds, hbounds, hn⟩ := Option.bind_eq_some_iff.1 hn
    rw [← Option.some.inj hn]
    refine all_stems_of_translateAll? hs hbounds fun r hr => .written ht.mem_types ?_
    unfold boundsOf at hr
    cases hq : t.typeParameters.reverse.find? (·.name == p.name) with
    | none => rw [hq] at hr; cases hr
    | some q =>
      rw [hq] at hr
      exact t.mem_references_of_bound (List.mem_reverse.1 (List.mem_of_find?_eq_some hq)) hr

/-- The types in the methods of an endpoint. -/
theorem stems_of_translateEndpoint? {c : String} {n : NamedEndpoint}
    (h : cx.translateEndpoint? c = some n) : ∀ m ∈ n.methods,
      (∀ p ∈ m.params, p.type.All cx.Stems) ∧ ∀ r ∈ m.returnType, r.All cx.Stems := by
  obtain ⟨t, ht, h⟩ := Option.bind_eq_some_iff.1 h
  obtain ⟨marker, -, h⟩ := Option.bind_eq_some_iff.1 h
  obtain ⟨default?, -, h⟩ := Option.bind_eq_some_iff.1 h
  obtain ⟨methods, hmethods, h⟩ := Option.bind_eq_some_iff.1 h
  rw [← Option.some.inj h]
  intro m hm
  obtain ⟨m₀, hm₀, hm⟩ := exists_of_forall₂ (forall₂_of_mapM_eq_some hmethods)
    (List.reduceOption_mem_iff.1 hm)
  have hderived {r : TypeRef} (hr : r ∈ m₀.types) : cx.symbols.Derived r :=
    SymbolTable.derived_of_mem_allMethods (SymbolTable.type?_mem ht) hm₀ hr
  obtain ⟨mapping?, -, hm⟩ := Option.bind_eq_some_iff.1 hm
  cases mapping? with
  | none => cases hm
  | some mapping =>
    obtain ⟨params, hparams, hm⟩ := Option.bind_eq_some_iff.1 hm
    obtain ⟨returned, hreturned, hm⟩ := Option.bind_eq_some_iff.1 hm
    rw [← Option.some.inj (Option.some.inj hm)]
    refine ⟨fun p hp => ?_, fun r hr => ?_⟩
    · obtain ⟨p₀, hp₀, hp⟩ := exists_of_forall₂ (forall₂_of_mapM_eq_some hparams)
        (List.reduceOption_mem_iff.1 hp)
      unfold translateBound? at hp
      split at hp
      · cases hp
      · obtain ⟨o, ho, hp⟩ := Option.bind_eq_some_iff.1 hp
        rw [← Option.some.inj (Option.some.inj hp)]
        exact all_stems_getD hs ho (hderived (List.mem_append_left _ (List.mem_map_of_mem hp₀)))
    · exact all_stems_of_translateAll? hs hreturned (fun r hr => hderived (List.mem_append_right _ hr))
        r (List.mem_of_mem_head? hr)

end definitions

end BuildContext

/-- The instances in a definition: its supertypes, or bounds, and the types of its properties. -/
def TypeDefinition.types (d : TypeDefinition) : List TypeInstance :=
  d.superTypes ++ d.properties.map (·.type)

namespace TypeGraph

variable {g : TypeGraph} {P : NamedInstance → Prop}

theorem exists_named?_of_mem_types {d : TypeDefinition} {n : NamedDefinition} {i : TypeInstance}
    (hd : g.reading? d = some n) (hsuper : ∀ m ∈ n.superTypes, m.All P)
    (hproperties : ∀ p ∈ n.properties, p.type.All P) (hi : i ∈ d.types) :
    ∃ m, g.named? i = some m ∧ m.All P := by
  obtain ⟨-, hps, hss, -⟩ := parts_of_reading? hd
  rcases List.mem_append.1 hi with hi | hi
  · exact exists_named?_of_mem hss hsuper hi
  · obtain ⟨p, hp, rfl⟩ := List.mem_map.1 hi
    obtain ⟨q, hq, hpq⟩ := exists_mem_of_mapM_eq_some hps hp
    obtain ⟨m, hm, hpq⟩ := Option.bind_eq_some_iff.1 hpq
    obtain rfl := Option.some.inj hpq
    exact ⟨m, hm, hproperties _ hq⟩

theorem exists_named?_of_mem_methods {e : Endpoint} {n : NamedEndpoint} {i : TypeInstance}
    (he : g.namedEndpoint? e = some n) (hn : ∀ m ∈ n.methods,
      (∀ p ∈ m.params, p.type.All P) ∧ ∀ r ∈ m.returnType, r.All P)
    (hi : i ∈ e.methods.flatMap Endpoint.typesOfMethod) : ∃ m, g.named? i = some m ∧ m.All P := by
  obtain ⟨methods, hmethods, he⟩ := Option.bind_eq_some_iff.1 he
  obtain rfl := Option.some.inj he
  obtain ⟨m, hm, hi⟩ := List.mem_flatMap.1 hi
  obtain ⟨nm, hnm, hm⟩ := exists_mem_of_mapM_eq_some hmethods hm
  obtain ⟨params, hparams, hm⟩ := Option.bind_eq_some_iff.1 hm
  obtain ⟨returned, hreturned, hm⟩ := Option.bind_eq_some_iff.1 hm
  obtain rfl := Option.some.inj hm
  obtain ⟨hp, hr⟩ := hn _ hnm
  rcases List.mem_append.1 hi with hi | hi
  · obtain ⟨p, hpmem, rfl⟩ := List.mem_map.1 hi
    obtain ⟨q, hq, hpq⟩ := exists_mem_of_mapM_eq_some hparams hpmem
    obtain ⟨type, htype, hpq⟩ := Option.bind_eq_some_iff.1 hpq
    obtain rfl := Option.some.inj hpq
    exact ⟨type, htype, hp _ hq⟩
  · cases hreturn : m.returnType with
    | none =>
      rw [hreturn] at hi
      cases hi
    | some r =>
      rw [hreturn] at hi hreturned
      obtain rfl := List.mem_singleton.1 hi
      obtain ⟨type, htype, hrest⟩ :=
        Option.bind_eq_some_iff.1 ((namedAll?_cons ..).symm.trans hreturned)
      obtain rfl : [type] = returned := Option.some.inj hrest
      exact ⟨type, htype, hr type rfl⟩

end TypeGraph

namespace Processor

/-- The instances of a model, at any depth: in its definitions and in the signatures of its endpoints. -/
def instances (p : Processor) : List TypeInstance :=
  (p.graph.definitions.flatMap TypeDefinition.types ++
    p.endpoints.flatMap fun e => e.2.methods.flatMap Endpoint.typesOfMethod).flatMap (·.parts)

variable {cx : BuildContext} {seen : List String} {p : Processor}

/-- Every instance of a model reads as something that stems from references. -/
theorem exists_stems_of_mem_instances (hs : cx.symbols.Tidy) {ds : List Diagnostic}
    (h : cx.Presented seen ⟨p.graph, p.endpoints, ds⟩) {i : TypeInstance} (hi : i ∈ p.instances) :
    ∃ n, p.graph.named? i = some n ∧ cx.Stems n := by
  obtain ⟨root, hroot, hi⟩ := List.mem_flatMap.1 hi
  obtain ⟨n, hn, hall⟩ : ∃ n, p.graph.named? root = some n ∧ n.All cx.Stems := by
    rcases List.mem_append.1 hroot with hroot | hroot
    · obtain ⟨d, hd, hroot⟩ := List.mem_flatMap.1 hroot
      obtain ⟨m, hm, hdescribed⟩ := h.whole.described (h.whole.listed hd)
      obtain ⟨n, hn, rfl⟩ := Option.map_eq_some_iff.1 hm
      obtain ⟨hsuper, hproperties⟩ := hdescribed.stems hs
      exact exists_named?_of_mem_types hn hsuper hproperties hroot
    · obtain ⟨e, he, hroot⟩ := List.mem_flatMap.1 hroot
      obtain ⟨-, n, hn, hnamed⟩ := h.endpoint he
      exact exists_named?_of_mem_methods hnamed (stems_of_translateEndpoint? hs hn) hroot
  exact exists_named?_of_mem_parts hn hall hi

/-- An instance of an interface that is not predefined has the arguments of a reference to it. -/
theorem exists_reference_of_mem_instances (hs : cx.symbols.Tidy) {ds : List Diagnostic}
    (h : cx.Presented seen ⟨p.graph, p.endpoints, ds⟩) {i : TypeInstance} (hi : i ∈ p.instances)
    {d : TypeDefinition} (hd : p.graph.definition? i.definition = some d)
    (hkind : d.kind = .interfaceType) (hnew : d.predefined = false) :
    ∃ t r ns, cx.symbols.type? d.fullName = some t ∧
      t.typeParameters.length = d.genericParams.length ∧ cx.symbols.Derived r ∧
      r.name? = some d.fullName ∧ cx.translateAll? r.arguments = some ns ∧
      p.graph.namedAll? i.arguments = some ns := by
  obtain ⟨n, hnamed, hstems⟩ := exists_stems_of_mem_instances hs h hi
  obtain ⟨id, is⟩ := i
  obtain ⟨name, ns, hname, his, rfl⟩ := named?_eq_some_iff.1 hnamed
  obtain ⟨d', hd', rfl⟩ := Option.map_eq_some_iff.1 hname
  obtain rfl : d' = d := Option.some.inj (hd'.symm.trans hd)
  obtain ⟨-, t, ht, hfree, hkind', hparams⟩ :=
    (h.whole.sound.entry hd).declared_of hnew (by rw [hkind]; decide)
  have htname : t.name = d'.fullName := ht.name_eq
  have hinterface : kindOf t.kind = .interfaceType := hkind'.symm.trans hkind
  obtain ⟨r, hr, hrname, htranslated⟩ :=
    hstems t ⟨htname.symm ▸ ht, htname.symm ▸ hfree⟩ hinterface htname
  have hparameters := hparams (Option.some_ne_none _)
  rw [Parameters, if_pos hinterface] at hparameters
  exact ⟨t, r, ns, ht.2.2.2, hparameters.length_eq, hr, hrname, htranslated, his⟩

/-- How many arguments of a reference are left. -/
theorem length_arguments {r : TypeRef} {ns : List NamedInstance}
    (htranslated : cx.translateAll? r.arguments = some ns) {g : TypeGraph} {is : List TypeInstance}
    (his : g.namedAll? is = some ns) : is.length ≤ r.arguments.length ∧
      (is.length = r.arguments.length ↔ ∀ a ∈ r.arguments, ¬cx.Vacant a) := by
  rw [length_of_namedAll? his]
  exact length_of_translateAll? htranslated

/-- Rounds that succeed have read the exclusions, if there are any rounds. -/
theorem exists_exclusions_of_present {symbols : SymbolTable} {settings : Settings} {p q : Processor}
    {rounds : List (List String)} (hne : rounds ≠ [])
    (ho : present symbols settings p rounds = .ok q) :
    ∃ exclusions, settings.exclusions = .ok exclusions := by
  cases rounds with
  | nil => exact absurd rfl hne
  | cons cs rounds =>
    rcases hround : p.processControllers symbols settings cs with ⟨f | report, q⟩
    · rw [present, hround] at ho
      cases ho
    · exact exists_exclusions hround

/-- What successful rounds over an export lead to. -/
theorem presented_of_present (hs : cx.symbols.Tidy) (hn : cx.settings.Unreserved)
    (hx : cx.settings.exclusions = .ok cx.exclusions)
    {rounds : List (List String)} (hne : rounds ≠ [])
    (ho : present cx.symbols cx.settings (withPipeline cx.pipeline) rounds = .ok p) :
    cx.Presented rounds.flatten ⟨p.graph, p.endpoints, []⟩ := by
  rcases (presents_withPipeline hn).present hs hx rounds with ⟨q, hq, hpresents, hseeded⟩ | ⟨f, hf, -⟩
  · obtain rfl : p = q := Except.ok.inj (ho.symm.trans hq)
    have hmodel := hpresents.model
    rwa [seed_of_seeded (hseeded (.inr hne))] at hmodel
  · rw [ho] at hf
    cases hf

/-- In a model of an export, each reference to a declared type in it passing as many arguments as the type
has parameters, or none, every instance of an interface that is not predefined has the arguments of a
reference to it, those apart that lead to a variable without a slot. The reference is one of the export
or derived from these. The arguments are as many as the parameters or fewer; where every variable has a
slot, as many or none; and where no type with parameters is used without arguments either, as many. -/
theorem present_arguments {symbols : SymbolTable} {settings : Settings} (pipeline : PropertyPipeline)
    (hs : symbols.Tidy) (hn : settings.Unreserved) (happlied : symbols.Applied)
    {rounds : List (List String)} {p : Processor}
    (ho : present symbols settings (withPipeline pipeline) rounds = .ok p) :
    ∀ i ∈ p.instances, ∀ d, p.graph.definition? i.definition = some d → d.kind = .interfaceType →
      d.predefined = false → ∃ exclusions,
        settings.exclusions = .ok exclusions ∧
        let cx : BuildContext := ⟨symbols, settings, exclusions, pipeline⟩
        (∃ r ns, symbols.Derived r ∧ r.name? = some d.fullName ∧
          (r.arguments.length = d.genericParams.length ∨ r.arguments.length = 0) ∧
          cx.translateAll? r.arguments = some ns ∧ p.graph.namedAll? i.arguments = some ns ∧
          (i.arguments.length = r.arguments.length ↔ ∀ a ∈ r.arguments, ¬cx.Vacant a)) ∧
        i.arguments.length ≤ d.genericParams.length ∧
        (cx.Slotted → i.arguments.length = d.genericParams.length ∨ i.arguments.length = 0) ∧
        (cx.Slotted → symbols.Saturated → i.arguments.length = d.genericParams.length) := by
  intro i hi d hd hkind hnew
  have hne : rounds ≠ [] := by
    rintro rfl
    obtain rfl : withPipeline pipeline = p := Except.ok.inj ho
    exact absurd hi List.not_mem_nil
  obtain ⟨exclusions, hx⟩ := exists_exclusions_of_present hne ho
  refine ⟨exclusions, hx, ?_⟩
  intro cx
  have hmodel : cx.Presented rounds.flatten ⟨p.graph, p.endpoints, []⟩ :=
    presented_of_present hs hn hx hne ho
  obtain ⟨t, r, ns, ht, hlength, hr, hname, htranslated, his⟩ :=
    exists_reference_of_mem_instances hs hmodel hi hd hkind hnew
  have hpassed : r.arguments.length = d.genericParams.length ∨ r.arguments.length = 0 :=
    hlength ▸ happlied.arguments hr hname ht
  obtain ⟨hle, hrest⟩ := length_arguments htranslated his
  have hkept (hslots : cx.Slotted) : i.arguments.length = r.arguments.length :=
    hrest.2 fun a ha => hslots.not_vacant (hr.of_mem_arguments ha)
  refine ⟨⟨r, ns, hr, hname, hpassed, htranslated, his, hrest⟩, ?_, fun hslots => ?_,
    fun hslots hsaturated => ?_⟩
  · exact hle.trans (hpassed.elim Nat.le_of_eq fun hnone => hnone ▸ Nat.zero_le _)
  · rw [hkept hslots]
    exact hpassed
  · rw [hkept hslots]
    refine hpassed.elim id fun hnone => ?_
    rw [← hlength, hsaturated.arguments hr hname ht hnone, hnone]
    rfl

/-- A record over a parameter with a component, and a controller that inherits a method returning the
record from a class with a parameter. -/
def boxExport (held : TypeRef) (others : List DeclaredType) (methods : List Method) : SymbolTable where
  types := [
    ⟨"a.Opt", none, none, none, .recordType, [], [], [⟨"T", []⟩], none, [], [], [], [], []⟩,
    ⟨"a.Box", none, none, none, .recordType, [], [], [⟨"T", []⟩], none, [], [], [],
      [⟨"value", held, []⟩], []⟩,
    ⟨"a.Base", none, none, none, .classType, [], [], [⟨"T", []⟩], none, [], [],
      [⟨"get", [], [.written Marker.requestMapping []], [], [],
        some (.declared "a.Box" [.typeVar "T" (.type "a.Base")])⟩], [], []⟩,
    ⟨"a.Api", none, none, none, .classType, [], [.written Marker.endpoint []], [],
      some (.declared "a.Base" [.declared "java.lang.String" []]), [], [], methods, [], []⟩] ++ others
  annotationTypes := []

/-- Another record over the parameter. -/
def optOfParameter : TypeRef := .declared "a.Opt" [.typeVar "T" (.type "a.Box")]

/-- Where the component is of the other record, that and the record that the method returns have an
argument each. -/
theorem present_arguments_box : ∃ p,
    present (boxExport optOfParameter [] []) .standard initial [["a.Api"]] = .ok p ∧
      ∀ n ∈ ["a.Opt", "a.Box"], ∃ i ∈ p.instances, ∃ d, p.graph.definition? i.definition = some d ∧
        d.fullName = n ∧ i.arguments.length = 1 ∧ d.genericParams.length = 1 := by
  have hs : (boxExport optOfParameter [] []).Tidy := by decide +kernel
  have hn : Settings.standard.Unreserved := by decide +kernel
  have happlied : (boxExport optOfParameter [] []).Applied := by decide +kernel
  have hsaturated : (boxExport optOfParameter [] []).Saturated := by decide +kernel
  have hslots : BuildContext.Slotted ⟨boxExport optOfParameter [] [], .standard, [], .standard⟩ := by
    decide +kernel
  obtain ⟨p, ho, hp⟩ := exists_of_toOption_any
    (x := present (boxExport optOfParameter [] []) .standard initial [["a.Api"]])
    (f := fun p => ["a.Opt", "a.Box"].all fun n => p.instances.any fun i =>
      (p.graph.definition? i.definition).any fun (d : TypeDefinition) => d.fullName == n &&
        decide (d.kind = .interfaceType ∧ d.predefined = false ∧ d.genericParams.length = 1))
    (by decide +kernel)
  refine ⟨p, ho, fun n hmem => ?_⟩
  obtain ⟨i, hi, hany⟩ := List.any_eq_true.1 (List.all_eq_true.1 hp n hmem)
  obtain ⟨d, hd, hdn⟩ := (Option.any_eq_true ..).1 hany
  obtain ⟨hname, hdn⟩ := Bool.and_eq_true_iff.1 hdn
  obtain ⟨hkind, hnew, hlength⟩ := of_decide_eq_true hdn
  obtain ⟨exclusions, hx, -, -, -, hfull⟩ :=
    present_arguments .standard hs hn happlied ho i hi d hd hkind hnew
  obtain rfl : [] = exclusions := Except.ok.inj hx
  exact ⟨i, hi, d, hd, eq_of_beq hname, (hfull hslots hsaturated).trans hlength, hlength⟩

/-- An instance of an interface that is not predefined has more or fewer arguments than the interface has
parameters. -/
def Miscounts (p : Processor) : Prop :=
  ∃ i ∈ p.instances, ∃ d, p.graph.definition? i.definition = some d ∧ d.kind = .interfaceType ∧
    d.predefined = false ∧ i.arguments.length ≠ d.genericParams.length

/-- A round over an export whose references pass as many arguments as there are parameters, or none,
succeeds and leads to such a model. -/
def FallsShort (s : SymbolTable) (settings : Settings) : Prop :=
  s.Applied ∧ ∃ p, present s settings initial [["a.Api"]] = .ok p ∧ p.Miscounts

theorem fallsShort_of_any {s : SymbolTable} {settings : Settings} (happlied : s.Applied)
    (h : (present s settings initial [["a.Api"]]).toOption.any (fun p => p.instances.any fun i =>
      (p.graph.definition? i.definition).any fun d => decide (d.kind = .interfaceType ∧
        d.predefined = false ∧ i.arguments.length ≠ d.genericParams.length)) = true) :
    FallsShort s settings := by
  obtain ⟨p, ho, hp⟩ := exists_of_toOption_any h
  obtain ⟨i, hi, hany⟩ := List.any_eq_true.1 hp
  obtain ⟨d, hd, hcount⟩ := (Option.any_eq_true ..).1 hany
  exact ⟨happlied, p, ho, i, hi, d, hd, of_decide_eq_true hcount⟩

/-- The component is of the other record without an argument. -/
def rawExport : SymbolTable := boxExport (.declared "a.Opt" []) [] []

/-- The argument is a variable of the controller, which has none. -/
def strayExport : SymbolTable := boxExport (.declared "a.Opt" [.typeVar "T" (.type "a.Api")]) [] []

/-- A record of the name that the placeholder of the parameter has is used before. -/
def hashedExport : SymbolTable :=
  boxExport optOfParameter
    [⟨"a.Box#T", none, none, none, .recordType, [], [], [⟨"X", []⟩], none, [], [], [], [], []⟩]
    [⟨"first", [], [.written Marker.requestMapping []], [], [],
      some (.declared "a.Box#T" [.declared "java.lang.String" []])⟩]

/-- What has the name of the placeholder is predefined. -/
def hashedSettings : Settings := { Settings.standard with typeOverrides := [("a.Box#T", "Text")] }

/-- In each case the other record is used without the argument that it takes. -/
theorem present_miscounts : FallsShort rawExport .standard ∧ FallsShort strayExport .standard ∧
    FallsShort hashedExport .standard ∧ FallsShort (boxExport optOfParameter [] []) hashedSettings := by
  refine ⟨fallsShort_of_any ?_ ?_, fallsShort_of_any ?_ ?_, fallsShort_of_any ?_ ?_,
    fallsShort_of_any ?_ ?_⟩ <;> decide +kernel

end Processor

end ClientBindings
