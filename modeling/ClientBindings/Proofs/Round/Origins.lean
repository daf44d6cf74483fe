import ClientBindings.Proofs.Round.Kinds

/-! Where definitions come from. What is neither predefined nor a placeholder was declared in the export
of one of the rounds, and has its names and its kind from there. -/
namespace ClientBindings

open BuildContext TypeGraph

/-- The name that is generated for a declared type: its display name, or else its simple name. -/
def SymbolTable.generatedName (s : SymbolTable) (t : DeclaredType) : String :=
  (s.displayName? t.annotations).getD t.simpleName

namespace TypeGraph

variable {g : TypeGraph} {d : TypeDefinition} {S : String → String → TypeKind → Prop}

/-- Every definition that is neither predefined nor a placeholder has the names and the kind that `S`
allows. -/
structure Sourced (S : String → String → TypeKind → Prop) (g : TypeGraph) : Prop
    extends g.WellFormed where
  sourced {id : TypeId} {d : TypeDefinition} : g.definition? id = some d → d.predefined = false →
    d.kind ≠ .genericPlaceholder → S d.fullName d.tsName d.kind

theorem sourced_clear (S : String → String → TypeKind → Prop) (g : TypeGraph) : g.clear.Sourced S :=
  ⟨wellFormed_clear g, fun h => by simp [clear, definition?] at h⟩

theorem Sourced.register (hg : g.Sourced S)
    (hd : d.predefined = false → d.kind ≠ .genericPlaceholder → S d.fullName d.tsName d.kind) :
    (g.register d).1.Sourced S where
  toWellFormed := hg.toWellFormed.register d
  sourced h := by
    rcases hg.toWellFormed.definition?_of_register h with h | ⟨-, -, rfl⟩
    · exact hg.sourced h
    · exact hd

theorem Sourced.register_predefined (hg : g.Sourced S) (hd : d.predefined = true) :
    (g.register d).1.Sourced S :=
  hg.register fun h => by
    rw [hd] at h
    cases h

theorem Sourced.update (hg : g.Sourced S) {change : TypeDefinition → TypeDefinition}
    (hc : TypeDefinition.Keeping change) (id : TypeId) : (g.update id change).Sourced S where
  toWellFormed := hg.toWellFormed.update hc id
  sourced h := by
    rw [definition?_update hc.id, Option.map_eq_some_iff] at h
    obtain ⟨d, hd, rfl⟩ := h
    split
    · rw [hc.predefined, hc.kind, hc.fullName, hc.tsName]
      exact hg.sourced hd
    · exact hg.sourced hd

theorem Sourced.seed (hg : g.Sourced S) (s : Settings) : (g.seed s).Sourced S := by
  refine seed_induction (fun _ _ h => ⟨⟨h.indexed, h.named, h.fresh, h.listed⟩, h.sourced⟩)
    (fun d hd _ h => ?_) hg
  obtain ⟨kind, e, rfl⟩ := exists_predefinedType_of_mem hd
  exact h.register_predefined rfl

theorem persistent_sourced {cx : BuildContext}
    (h : ∀ t ∈ cx.symbols.types, S t.name (cx.symbols.generatedName t) (kindOf t.kind)) :
    Persistent cx (Sourced S) where
  builtin hd hg := hg.register_predefined (Builtin.predefined_of_mem_all hd)
  declared ht hg := hg.register fun _ _ => h _ (SymbolTable.type?_mem ht.2.2.2)
  placeholder _ _ hg := hg.register fun _ h => absurd rfl h
  update hc id hg := hg.update hc id

end TypeGraph

namespace Processor

/-- A type is declared under this full name in the export of a round, and has this generated name and
this kind. -/
def Originates (events : List Event) (fullName name : String) (kind : TypeKind) : Prop :=
  ∃ r, .round r ∈ events ∧ ∃ t ∈ r.symbols.types,
    t.name = fullName ∧ r.symbols.generatedName t = name ∧ kindOf t.kind = kind

theorem run_sourced (pipeline : PropertyPipeline) (events : List Event) :
    (run (withPipeline pipeline) events).graph.Sourced (Originates events) :=
  run_upheld (J := fun g _ => g.Sourced (Originates events)) pipeline (sourced_clear _) fun r hr =>
    ⟨fun h => h.seed r.settings, fun hsymbols _ c _ _ h => (persistent_sourced fun t ht =>
      ⟨r, hr, t, hsymbols ▸ ht, rfl, by rw [hsymbols], rfl⟩).buildEndpoint c h⟩

/-- What is of unknown kind is an annotation type that one of the rounds declares. -/
theorem run_unknown (pipeline : PropertyPipeline) (events : List Event) {id : TypeId}
    {d : TypeDefinition} (hd : (run (withPipeline pipeline) events).graph.definition? id = some d)
    (hkind : d.kind = .unknown) : ∃ r, .round r ∈ events ∧ ∃ t ∈ r.symbols.types,
      t.name = d.fullName ∧ t.kind = .annotationType := by
  have hown : d.predefined = false := by
    rw [← Bool.not_eq_true]
    exact fun h => (((run_regular pipeline events).regular hd).predefined h).1 hkind
  have hplaceholder : d.kind ≠ .genericPlaceholder := by
    rw [hkind]
    decide
  obtain ⟨r, hr, t, ht, hname, -, h⟩ := (run_sourced pipeline events).sourced hd hown hplaceholder
  refine ⟨r, hr, t, ht, hname, ?_⟩
  rw [hkind] at h
  cases hdeclared : t.kind with
  | annotationType => rfl
  | classType | interfaceType | recordType | enumType =>
    rw [hdeclared] at h
    cases h

end Processor

end ClientBindings
