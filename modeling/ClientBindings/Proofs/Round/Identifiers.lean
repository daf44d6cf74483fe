import ClientBindings.Proofs.Artifact.Mentions
import ClientBindings.Proofs.Round.Filing

/-! The names that an artifact binds: its own and those that it imports. A definition is imported once,
under the name that its declaration was given, so two names are the same only where two declarations
were given the same one. -/
namespace ClientBindings

open BuildContext TypeGraph

/-- Once its repetitions are erased, a list has none. The induction is on the length: what is left after an
element is filtered first. -/
theorem nodup_eraseDups {α : Type} [BEq α] [LawfulBEq α] (as : List α) : as.eraseDups.Nodup := by
  induction hn : as.length using Nat.strong_induction_on generalizing as with
  | _ n ih =>
    subst hn
    cases as with
    | nil => exact .nil
    | cons a as =>
      rw [List.eraseDups_cons, List.nodup_cons, List.mem_eraseDups, List.mem_filter]
      have hshorter : (as.filter fun b => !b == a).length < (a :: as).length :=
        Nat.lt_succ_of_le (List.length_filter_le _ as)
      exact ⟨fun h => by simp at h, ih _ hshorter _ rfl⟩

namespace TypeGraph

variable {g : TypeGraph} {d q : TypeDefinition} {roots : List TypeInstance} {exclude : Option TypeId}

/-- A definition with an artifact that these instances mention, at any depth. -/
def Cites (g : TypeGraph) (roots : List TypeInstance) (q : TypeDefinition) : Prop :=
  q ∈ g.emittable ∧ q.id ∈ roots.flatMap (·.ids)

theorem WellFormed.mem_importable_iff (hg : g.WellFormed) :
    q ∈ g.importable roots exclude ↔ g.Cites roots q ∧ some q.id ≠ exclude := by
  rw [mem_importable]
  constructor
  · rintro ⟨hemittable, id, hid, hne, hq⟩
    obtain rfl := id_of_definition? hq
    exact ⟨⟨List.mem_filter.2 ⟨mem_of_definition? hq, hemittable⟩, hid⟩, hne⟩
  · rintro ⟨⟨hmem, hid⟩, hne⟩
    obtain ⟨hlisted, hemittable⟩ := List.mem_filter.1 hmem
    exact ⟨hemittable, q.id, hid, hne, hg.listed hlisted⟩

theorem Numbered.fullName_inj (hg : g.Numbered) (hd : d ∈ g.definitions) (hq : q ∈ g.definitions)
    (h : d.fullName = q.fullName) : d = q := List.inj_on_of_nodup_map hg.nodup_fullNames hd hq h

/-- However often a definition is mentioned, it is imported once. -/
theorem Numbered.nodup_importable (hg : g.Numbered) :
    ((g.importable roots exclude).map (·.fullName)).Nodup := by
  have hids : ((roots.flatMap (·.ids)).eraseDups.filter fun id => some id != exclude).Nodup :=
    (nodup_eraseDups _).filter _
  have hdefinitions := hids.filterMap (f := g.definition?) fun id id' q hq hq' =>
    (id_of_definition? hq).symm.trans (id_of_definition? hq')
  have himportable : (g.importable roots exclude).Nodup :=
    (List.mergeSort_perm ..).nodup_iff.2 (hdefinitions.filter _)
  refine himportable.map_on fun q hq q' hq' h => ?_
  have hlisted {q : TypeDefinition} (hq : q ∈ g.importable roots exclude) : q ∈ g.definitions :=
    (List.mem_filter.1 (hg.mem_importable_iff.1 hq).1.1).1
  exact hg.fullName_inj (hlisted hq) (hlisted hq') h

/-- The names that the artifact of an interface binds. -/
def interfaceNames (g : TypeGraph) (l : Layout) (d : TypeDefinition) : List String :=
  d.tsName :: (g.importsForType l d).map (·.name)

/-- The names that the artifact of an endpoint binds for types, and that of its service. -/
def serviceNames (g : TypeGraph) (l : Layout) (e : Endpoint) : List String :=
  e.name :: (g.importsForEndpoint l e).map (·.name)

/-- The instances in the signatures of an endpoint. -/
def signatureRoots (e : Endpoint) : List TypeInstance := e.methods.flatMap Endpoint.typesOfMethod

/-- No two definitions of different full names have the same generated name. -/
def Distinguishable (P : TypeDefinition → Prop) : Prop :=
  ∀ q q', P q → P q' → q.fullName ≠ q'.fullName → q.tsName ≠ q'.tsName

theorem Distinguishable.imp {P Q : TypeDefinition → Prop} (h : Distinguishable Q)
    (hPQ : ∀ q, P q → Q q) : Distinguishable P :=
  fun q q' hq hq' hne => h q q' (hPQ q hq) (hPQ q' hq') hne

/-- What an interface binds is distinct exactly if the interface and what it mentions can be told apart
by their generated names. -/
theorem Numbered.nodup_interfaceNames_iff (hg : g.Numbered) (hd : d ∈ g.emittable) (l : Layout) :
    (g.interfaceNames l d).Nodup ↔ Distinguishable fun q => q = d ∨ g.Cites (g.roots d) q := by
  have hnames : g.interfaceNames l d = (d :: g.typeImports d).map (·.tsName) := by
    rw [interfaceNames, importsForType, List.map_map]
    rfl
  have hmem (q : TypeDefinition) :
      q ∈ d :: g.typeImports d ↔ q = d ∨ g.Cites (g.roots d) q := by
    rw [List.mem_cons, show g.typeImports d = g.importable (g.roots d) (some d.id) from rfl,
      hg.mem_importable_iff]
    constructor
    · exact Or.imp_right And.left
    · rintro (rfl | hq)
      · exact .inl rfl
      · by_cases hid : q.id = d.id
        · refine .inl (Option.some.inj ?_)
          rw [← hg.listed (List.mem_filter.1 hq.1).1, hid, hg.listed (List.mem_filter.1 hd).1]
        · exact .inr ⟨hq, fun h => hid (Option.some.inj h)⟩
  have hkeys : ((d :: g.typeImports d).map (·.fullName)).Nodup := by
    refine List.nodup_cons.2 ⟨fun h => ?_, hg.nodup_importable⟩
    obtain ⟨q, hq, hname⟩ := List.mem_map.1 h
    obtain ⟨⟨hq, -⟩, hne⟩ := hg.mem_importable_iff.1 hq
    refine hne (congrArg (fun q : TypeDefinition => some q.id) ?_)
    exact hg.fullName_inj (List.mem_filter.1 hq).1 (List.mem_filter.1 hd).1 hname
  rw [hnames, nodup_map_iff_of_keys hkeys]
  simp only [hmem]
  exact ⟨fun h q q' hq hq' hne => h q hq q' hq' hne, fun h q hq q' hq' hne => h q q' hq hq' hne⟩

/-- What a service binds is distinct exactly if the types that it mentions can be told apart by their
generated names, and from the service. -/
theorem Numbered.nodup_serviceNames_iff (hg : g.Numbered) (l : Layout) (e : Endpoint) :
    (g.serviceNames l e).Nodup ↔ Distinguishable (g.Cites (signatureRoots e)) ∧
      ∀ q, g.Cites (signatureRoots e) q → q.tsName ≠ e.name := by
  have hnames : g.serviceNames l e = e.name :: (g.endpointImports e).map (·.tsName) := by
    rw [serviceNames, importsForEndpoint, List.map_map]
    rfl
  have hmem (q : TypeDefinition) : q ∈ g.endpointImports e ↔ g.Cites (signatureRoots e) q := by
    rw [show g.endpointImports e = g.importable (signatureRoots e) none from rfl,
      hg.mem_importable_iff]
    exact and_iff_left (fun h => nomatch h)
  have hkeys : ((g.endpointImports e).map (·.fullName)).Nodup := hg.nodup_importable
  rw [hnames, List.nodup_cons, nodup_map_iff_of_keys hkeys, and_comm, List.mem_map]
  simp only [hmem]
  refine and_congr ⟨fun h q q' hq hq' hne => h q hq q' hq' hne,
    fun h q hq q' hq' hne => h q q' hq hq' hne⟩ ?_
  exact ⟨fun h q hq heq => h ⟨q, hq, heq⟩, fun h ⟨q, hq, heq⟩ => h q hq heq⟩

end TypeGraph

namespace Processor

/-- A type of that full name is declared in the export of a round, and its generated name. -/
def Declares (events : List Event) (fullName name : String) : Prop :=
  ∃ r, .round r ∈ events ∧
    ∃ t ∈ r.symbols.types, t.name = fullName ∧ r.symbols.generatedName t = name

/-- Declarations of different full names have different generated names. -/
def ToldApart (events : List Event) : Prop :=
  ∀ n n' name, Declares events n name → Declares events n' name → n = n'

/-- Whatever has an artifact is called as it was declared in one of the rounds. -/
theorem declares_of_emittable (pipeline : PropertyPipeline) {events : List Event} {d : TypeDefinition}
    (hd : d ∈ (run (withPipeline pipeline) events).graph.emittable) :
    Declares events d.fullName d.tsName := by
  have hsourced := run_sourced pipeline events
  obtain ⟨hmem, hemittable⟩ := List.mem_filter.1 hd
  obtain ⟨hown, himportable⟩ := Bool.and_eq_true_iff.1 hemittable
  have hplaceholder : d.kind ≠ .genericPlaceholder := fun h => by
    rw [h] at himportable
    cases himportable
  obtain ⟨r, hr, t, ht, hname, hgenerated, -⟩ :=
    hsourced.sourced (hsourced.listed hmem) (by simpa using hown) hplaceholder
  exact ⟨r, hr, t, ht, hname, hgenerated⟩

theorem ToldApart.distinguishable {events : List Event} (h : ToldApart events)
    (pipeline : PropertyPipeline) :
    Distinguishable (· ∈ (run (withPipeline pipeline) events).graph.emittable) := by
  intro q q' hq hq' hne heq
  have hdeclared := declares_of_emittable pipeline hq'
  rw [← heq] at hdeclared
  exact hne (h _ _ _ (declares_of_emittable pipeline hq) hdeclared)

/-- In every model, the names that an interface binds, its own and those that it imports, are all
different exactly if the interface and the types that it mentions can be told apart by their generated
names, and likewise for a service. Generated names are those of declarations: if no two of these are
the same in the exports of all rounds, then no interface binds a name twice, nor does a service that is
called like no declared type but its controller, and does not mention that. -/
theorem run_names_nodup_iff (pipeline : PropertyPipeline) (events : List Event) (l : Layout) :
    let p := run (withPipeline pipeline) events
    (∀ d ∈ p.graph.emittable, (p.graph.interfaceNames l d).Nodup ↔
      Distinguishable fun q => q = d ∨ p.graph.Cites (p.graph.roots d) q) ∧
    (∀ e ∈ p.endpoints, (p.graph.serviceNames l e.2).Nodup ↔
      Distinguishable (p.graph.Cites (signatureRoots e.2)) ∧
        ∀ q, p.graph.Cites (signatureRoots e.2) q → q.tsName ≠ e.2.name) ∧
    (∀ d ∈ p.graph.emittable, Declares events d.fullName d.tsName) ∧
    (ToldApart events → (∀ d ∈ p.graph.emittable, (p.graph.interfaceNames l d).Nodup) ∧
      ∀ e ∈ p.endpoints, (∀ n, Declares events n e.2.name → n = e.1) →
        (∀ q, p.graph.Cites (signatureRoots e.2) q → q.fullName ≠ e.1) →
        (p.graph.serviceNames l e.2).Nodup) := by
  intro p
  have hg : p.graph.Numbered := (run_ordered pipeline events).1
  have hinterfaces := fun d (hd : d ∈ p.graph.emittable) => hg.nodup_interfaceNames_iff hd l
  have hservices := fun e : String × Endpoint => hg.nodup_serviceNames_iff l e.2
  have hdeclared : ∀ d ∈ p.graph.emittable, Declares events d.fullName d.tsName :=
    fun d hd => declares_of_emittable pipeline hd
  refine ⟨hinterfaces, fun e _ => hservices e, hdeclared, fun happart => ⟨fun d hd => ?_, ?_⟩⟩
  · refine (hinterfaces d hd).2 ((happart.distinguishable pipeline).imp fun q hq => ?_)
    rcases hq with rfl | hq
    · exact hd
    · exact hq.1
  · intro e _ hown hother
    refine (hservices e).2 ⟨(happart.distinguishable pipeline).imp fun q hq => hq.1, fun q hq heq => ?_⟩
    exact hother q hq (hown q.fullName (heq ▸ hdeclared q hq.1))

/-- In the round over the record, the class and their interface all names are different. -/
theorem run_names_nodup_node : let p := run initial [.round nodeRound]
    let l := Layout.ofSettings .standard
    ToldApart [.round nodeRound] ∧ (∀ d ∈ p.graph.emittable, (p.graph.interfaceNames l d).Nodup) ∧
      ∀ e ∈ p.endpoints, (p.graph.serviceNames l e.2).Nodup := by
  intro p l
  have hnames : ∀ t ∈ nodeRound.symbols.types, ∀ t' ∈ nodeRound.symbols.types,
      nodeRound.symbols.generatedName t = nodeRound.symbols.generatedName t' → t.name = t'.name := by
    decide +kernel
  have happart : ToldApart [.round nodeRound] := by
    rintro n n' name ⟨r, hr, t, ht, rfl, hname⟩ ⟨r', hr', t', ht', rfl, hname'⟩
    obtain rfl := Event.round.inj (List.mem_singleton.1 hr)
    obtain rfl := Event.round.inj (List.mem_singleton.1 hr')
    exact hnames t ht t' ht' (hname.trans hname'.symm)
  obtain ⟨-, -, -, h⟩ := run_names_nodup_iff .standard [.round nodeRound] l
  obtain ⟨hinterfaces, hservices⟩ := h happart
  have hcontroller : ∀ e ∈ p.endpoints, Declares [.round nodeRound] e.1 e.2.name ∧
      ∀ q ∈ p.graph.emittable, q.id ∈ (signatureRoots e.2).flatMap (·.ids) → q.fullName ≠ e.1 := by
    have hdeclared : ∀ e ∈ p.endpoints, (∃ t ∈ nodeRound.symbols.types, t.name = e.1 ∧
        nodeRound.symbols.generatedName t = e.2.name) ∧ ∀ q ∈ p.graph.emittable,
          q.id ∈ (signatureRoots e.2).flatMap (·.ids) → q.fullName ≠ e.1 := by decide +kernel
    exact fun e he => ⟨⟨_, List.mem_singleton_self _, (hdeclared e he).1⟩, (hdeclared e he).2⟩
  refine ⟨happart, hinterfaces, fun e he => ?_⟩
  obtain ⟨hown, hother⟩ := hcontroller e he
  exact hservices e he (fun n hn => happart _ _ _ hn hown) fun q hq => hother q hq.1 hq.2

/-- Records of one simple name in two packages, of which one has the other as a component and a third has
both, and a controller that returns a record with the simple name of its own. -/
def clashExport : SymbolTable where
  types := [
    ⟨"a.Item", none, none, none, .recordType, [], [], [], none, [], [], [],
      [⟨"other", .declared "b.Item" [], []⟩], []⟩,
    ⟨"b.Item", none, none, none, .recordType, [], [], [], none, [], [], [], [], []⟩,
    ⟨"a.Pair", none, none, none, .recordType, [], [], [], none, [], [], [],
      [⟨"left", .declared "a.Item" [], []⟩, ⟨"right", .declared "b.Item" [], []⟩], []⟩,
    ⟨"b.Api", none, none, none, .recordType, [], [], [], none, [], [], [], [], []⟩,
    ⟨"a.Api", none, none, none, .classType, [], [.written Marker.endpoint []], [], none, [], [],
      [⟨"pair", [], [.written Marker.requestMapping []], [], [], some (.declared "a.Pair" [])⟩,
        ⟨"self", [], [.written Marker.requestMapping []], [], [], some (.declared "b.Api" [])⟩], [], []⟩]
  annotationTypes := []

def clashRound : Round := .process clashExport .standard ["a.Api"]

/-- The third record binds a name twice, and so do the first one and the service, their own. -/
theorem run_names_not_nodup :
    let p := run initial [.round clashRound]
    let l := Layout.ofSettings .standard
    (∀ n ∈ ["a.Pair", "a.Item"], ∃ d ∈ p.graph.emittable, d.fullName = n ∧
        d.kind = .interfaceType ∧ ¬(p.graph.interfaceNames l d).Nodup) ∧
      ∃ e ∈ p.endpoints, e.1 = "a.Api" ∧ ¬(p.graph.serviceNames l e.2).Nodup := by
  intro p l
  have hg : p.graph.Numbered := (run_ordered .standard [.round clashRound]).1
  have hclash : (∀ n ∈ ["a.Pair", "a.Item"], ∃ d ∈ p.graph.emittable, d.fullName = n ∧
      d.kind = .interfaceType ∧ ∃ q ∈ p.graph.emittable, ∃ q' ∈ p.graph.emittable,
        (q.id = d.id ∨ q.id ∈ (p.graph.roots d).flatMap (·.ids)) ∧
        q'.id ∈ (p.graph.roots d).flatMap (·.ids) ∧ q.fullName ≠ q'.fullName ∧
        q.tsName = q'.tsName) ∧
      ∃ e ∈ p.endpoints, e.1 = "a.Api" ∧ ∃ q ∈ p.graph.emittable,
        q.id ∈ (signatureRoots e.2).flatMap (·.ids) ∧ q.tsName = e.2.name := by decide +kernel
  obtain ⟨hinterfaces, hservice⟩ := hclash
  refine ⟨fun n hn => ?_, ?_⟩
  · obtain ⟨d, hd, hname, hkind, q, hq, q', hq', hcited, hcited', hne, heq⟩ := hinterfaces n hn
    refine ⟨d, hd, hname, hkind, fun hnodup => ?_⟩
    have happart := (hg.nodup_interfaceNames_iff hd l).1 hnodup
    refine happart q q' (hcited.imp (fun hid => ?_) fun hcited => ⟨hq, hcited⟩)
      (.inr ⟨hq', hcited'⟩) hne heq
    refine Option.some.inj ?_
    rw [← hg.listed (List.mem_filter.1 hq).1, hid, hg.listed (List.mem_filter.1 hd).1]
  · obtain ⟨e, he, hname, q, hq, hcited, heq⟩ := hservice
    exact ⟨e, he, hname, fun hnodup =>
      ((hg.nodup_serviceNames_iff l e.2).1 hnodup).2 q ⟨hq, hcited⟩ heq⟩

end Processor

end ClientBindings
