import ClientBindings.Proofs.Graph.Scope
import ClientBindings.Proofs.Round.Invariants

/-! The kinds that definitions have: what is predefined, what is declared, and what stands for a type
parameter. No round mixes them up. -/
namespace ClientBindings

open BuildContext

/-- What is predefined is neither unknown nor a placeholder, what is not has an artifact unless it is
one of these, and placeholders have their sign in their names. -/
structure TypeDefinition.Regular (d : TypeDefinition) : Prop where
  predefined : d.predefined = true → d.kind ≠ .unknown ∧ d.kind ≠ .genericPlaceholder
  own : d.predefined = false →
    d.kind.isImportable = true ∨ d.kind = .unknown ∨ d.kind = .genericPlaceholder
  reserved : d.kind = .genericPlaceholder → ¬Unreserved d.fullName

namespace TypeDefinition

variable {d : TypeDefinition}

theorem regular_of_predefined (hd : d.predefined = true)
    (hkind : d.kind ≠ .unknown ∧ d.kind ≠ .genericPlaceholder) : d.Regular where
  predefined _ := hkind
  own h := by rw [hd] at h; cases h
  reserved h := absurd h hkind.2

theorem regular_of_mem_predefined {s : Settings} (h : d ∈ TypeGraph.predefined s) : d.Regular := by
  have hkind (kind : TypeKind) (e : String × String)
      (hk : kind ≠ .unknown ∧ kind ≠ .genericPlaceholder) :
      (TypeGraph.predefinedType kind e).Regular := regular_of_predefined rfl hk
  simp only [TypeGraph.predefined, List.mem_cons, List.mem_append, List.mem_map,
    List.cons_append] at h
  rcases h with rfl | ((⟨e, -, rfl⟩ | (rfl | rfl | h)) | h) | ⟨e, -, rfl⟩
  · exact hkind _ _ (by decide)
  · exact hkind _ _ (by decide)
  · exact hkind _ _ (by decide)
  · exact hkind _ _ (by decide)
  · cases h
  · split at h
    · obtain ⟨e, -, rfl⟩ := List.mem_map.1 h
      exact hkind _ _ (by decide)
    · cases h
  · exact hkind _ _ (by decide)

theorem regular_builtin (h : d ∈ Builtin.all) : d.Regular := by
  simp only [Builtin.all, List.mem_cons, List.not_mem_nil, or_false] at h
  rcases h with rfl | rfl | rfl <;> exact regular_of_predefined rfl (by decide)

theorem kind_of_declared (kind : DeclaredKind) :
    (kindOf kind).isImportable = true ∨ kindOf kind = .unknown := by
  cases kind <;> decide

theorem regular_outline (cx : BuildContext) (t : DeclaredType) : (cx.outline t).Regular where
  predefined h := nomatch h
  own _ := (kind_of_declared t.kind).imp_right .inl
  reserved h := by
    rw [show (cx.outline t).kind = kindOf t.kind from rfl] at h
    rcases kind_of_declared t.kind with hkind | hkind <;> rw [h] at hkind <;> cases hkind

theorem regular_placeholder (name : String) (p : TypeParameter) : (placeholder name p).Regular where
  predefined h := nomatch h
  own _ := .inr (.inr rfl)
  reserved _ := not_unreserved_placeholderName name p.name

theorem Regular.change (h : d.Regular) {change : TypeDefinition → TypeDefinition}
    (hc : Keeping change) : (change d).Regular := by
  obtain ⟨hpredefined, hown, hreserved⟩ := h
  exact ⟨by rwa [hc.predefined, hc.kind], by rwa [hc.predefined, hc.kind],
    by rwa [hc.kind, hc.fullName]⟩

theorem Regular.withId (h : d.Regular) (id : TypeId) : ({ d with id } : TypeDefinition).Regular :=
  ⟨h.predefined, h.own, h.reserved⟩

end TypeDefinition

namespace TypeGraph

variable {g : TypeGraph} {d : TypeDefinition} {id : TypeId}

structure Regular (g : TypeGraph) : Prop extends g.WellFormed where
  regular {id : TypeId} {d : TypeDefinition} : g.definition? id = some d → d.Regular

theorem Regular.register (hg : g.Regular) (hd : d.Regular) : (g.register d).1.Regular where
  toWellFormed := hg.toWellFormed.register d
  regular h := by
    rcases hg.toWellFormed.definition?_of_register h with h | ⟨-, -, rfl⟩
    · exact hg.regular h
    · exact hd.withId _

theorem Regular.update (hg : g.Regular) {change : TypeDefinition → TypeDefinition}
    (hc : TypeDefinition.Keeping change) (id : TypeId) : (g.update id change).Regular where
  toWellFormed := hg.toWellFormed.update hc id
  regular h := by
    rw [definition?_update hc.id, Option.map_eq_some_iff] at h
    obtain ⟨d, hd, rfl⟩ := h
    split
    · exact (hg.regular hd).change hc
    · exact hg.regular hd

theorem persistent_regular (cx : BuildContext) : Persistent cx Regular where
  builtin hd hg := hg.register (TypeDefinition.regular_builtin hd)
  declared _ hg := hg.register (TypeDefinition.regular_outline cx _)
  placeholder name p hg := hg.register (TypeDefinition.regular_placeholder name p)
  update hc id hg := hg.update hc id

theorem Regular.seed (hg : g.Regular) (s : Settings) : (g.seed s).Regular :=
  seed_induction (fun _ _ h => ⟨⟨h.indexed, h.named, h.fresh, h.listed⟩, h.regular⟩)
    (fun _ hd _ h => h.register (TypeDefinition.regular_of_mem_predefined hd)) hg

theorem regular_clear (g : TypeGraph) : g.clear.Regular :=
  ⟨wellFormed_clear g, fun h => by simp [clear, definition?] at h⟩

/-- Names without the sign of placeholders are not those of placeholders. -/
theorem Regular.ne_placeholder (hg : g.Regular) {n : String} (hn : Unreserved n)
    (hid : g.idOf? n = some id) (hd : g.definition? id = some d) : d.kind ≠ .genericPlaceholder := by
  intro hkind
  have hname : d.fullName = n := hg.toWellFormed.fullName_of_idOf? hid hd
  exact (hg.regular hd).reserved hkind (hname ▸ hn)

end TypeGraph

/-- Nothing is registered before a graph is seeded, and what is always there to be used is predefined
afterwards. -/
structure TypeGraph.Based (g : TypeGraph) : Prop where
  fresh : g.seeded = false → g = g.clear
  furnished : g.seeded = true → g.Furnished

namespace TypeGraph

variable {g : TypeGraph}

theorem based_clear (g : TypeGraph) : g.clear.Based := ⟨fun _ => rfl, fun h => nomatch h⟩

theorem Based.seed (hg : g.Based) (s : Settings) : (g.seed s).Based := by
  cases hseeded : g.seeded with
  | true => rwa [seed_of_seeded hseeded]
  | false =>
    refine ⟨fun h => (by rw [seeded_seed] at h; cases h), fun _ b hb => ?_⟩
    rw [hg.fresh hseeded]
    have hstocked : (g.clear.seed s).Stocked := stocked_seed fun h => nomatch h
    obtain ⟨id, hid⟩ := hstocked b hb
    obtain ⟨d, hd, -⟩ := (offered_seed g s).indexed hid
    exact ⟨id, d, hid, hd, predefined_of_seed g hd⟩

theorem enduring_furnished : Enduring Furnished :=
  ⟨fun d h => h.register d, fun hc id h => h.update hc id⟩

end TypeGraph

namespace Processor

theorem run_based (pipeline : PropertyPipeline) (events : List Event) :
    (run (withPipeline pipeline) events).graph.Based := by
  refine run_upheld (J := fun g _ => g.Based) pipeline TypeGraph.based_clear fun r _ =>
    ⟨fun h => h.seed r.settings, fun _ _ c w hseeded h => ?_⟩
  refine ⟨fun hfresh => ?_, fun _ => TypeGraph.enduring_furnished.buildEndpoint c (h.furnished hseeded)⟩
  rw [TypeGraph.enduring_seeded.buildEndpoint c hseeded] at hfresh
  cases hfresh

theorem run_regular (pipeline : PropertyPipeline) (events : List Event) :
    (run (withPipeline pipeline) events).graph.Regular :=
  run_upheld (J := fun g _ => g.Regular) pipeline TypeGraph.regular_clear fun r _ =>
    ⟨fun h => h.seed r.settings, fun _ _ c _ _ h => (TypeGraph.persistent_regular _).buildEndpoint c h⟩

end Processor

end ClientBindings
