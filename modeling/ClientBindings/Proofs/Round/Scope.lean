import ClientBindings.Proofs.Endpoint.Closure
import ClientBindings.Proofs.Round.Kinds
import ClientBindings.Proofs.Symbol.Variables

/-! Rounds over exports whose declarations keep to their own type variables lead to graphs in which
definitions keep to their own placeholders. -/
namespace ClientBindings

open BuildContext TypeGraph

namespace BuildContext

variable {cx : BuildContext} {t : DeclaredType}

/-- References that mention no variables but those of a type and its methods come to what is local to
this type: what its variables stand for are the parameters of its definition. -/
theorem grants_local (hs : cx.symbols.Tidy) (ht : cx.symbols.type? t.name = some t)
    (henclosed : t.Enclosed) : cx.Grants (fun g => g.Housed ∧ g.Furnished)
      (fun r => r.Tidy ∧ ∀ v ∈ r.vars, t.Encloses v) (Local t.name) where
  durable := durable_local t.name
  name h hn hid := .inl ⟨_, h.1.unreserved_of_name? hn, hid⟩
  placeholder {name n g id p} h hg hstands hp := by
    obtain ⟨d, hd, hmem⟩ := mem_genericParams_of_placeholder? hp
    rcases h.2 _ (List.mem_singleton.2 rfl) with ⟨howner, -⟩ | ⟨m, -, overload, howner, -⟩
    · obtain rfl := GenericOwner.type.inj howner
      rcases hstands with hid | ⟨b, hb, hid⟩
      · exact .inr ⟨id, d, hid, hd, hmem⟩
      · -- What stands for an owner without a definition is predefined, and has no parameters.
        obtain ⟨id', d', hid', hd', hpredefined⟩ := hg.2 b hb
        obtain rfl := Option.some.inj (hid.symm.trans hid')
        obtain rfl := Option.some.inj (hd.symm.trans hd')
        rw [hg.1.bare hd hpredefined] at hmem
        cases hmem
    · cases howner
  inner h ha := by
    refine ⟨tidy_of_inner hs h.1 ha, fun v hv => ?_⟩
    rcases mem_vars_of_inner ha hv with hv | ⟨w, hw, hbound⟩
    · exact h.2 v hv
    · exact SymbolTable.encloses_of_soleBound? ht henclosed (h.2 w hw) hbound v hv

/-- Definitions are filled with what is local to them, where every declaration keeps to its own
variables. -/
theorem fillable_housed (hs : cx.symbols.Tidy) (henclosed : ∀ t ∈ cx.symbols.types, t.Enclosed) :
    cx.Fillable Local fun g => g.Housed ∧ g.Furnished where
  closed hg := hg.1.toClosed.lax
  content ht := by
    have hmem := SymbolTable.type?_mem ht
    refine ⟨_, grants_local hs ht (henclosed _ hmem), fun r hr => ?_⟩
    have hreference := content_subset_references _ hr
    exact ⟨(hs _ hmem).2 r hreference, henclosed _ hmem r hreference⟩
  builtin _ _ hd hg := by
    rw [hg.2.stocked.register hd]
    exact hg
  declared ht hg := ⟨hg.1.register rfl fun h => absurd (hs _ (SymbolTable.type?_mem ht)).1 h,
    hg.2.register _⟩
  placeholder _ ht hg := ⟨hg.1.register rfl fun _ =>
    ⟨rfl, _, (hs _ (SymbolTable.type?_mem ht)).1, rfl⟩, hg.2.register _⟩
  attach ht hg hid hd hown hparams hids :=
    ⟨hg.1.attach (hs _ (SymbolTable.type?_mem ht)).1 hid hd hown hparams hids,
      hg.2.update (TypeDefinition.keeping_withGenericParams _) _⟩
  fill ht hg hhome hc := ⟨hg.1.fill (hs _ (SymbolTable.type?_mem ht)).1 hhome hc,
    hg.2.update hc.toKeeping _⟩

end BuildContext

/-- No name of the round has the sign of placeholders, and every declaration keeps to the variables of
its own type and methods. -/
structure Round.Enclosed (r : Round) : Prop where
  tidy : r.symbols.Tidy
  settings : r.settings.Unreserved
  enclosed : ∀ t ∈ r.symbols.types, t.Enclosed

def Event.Enclosed : Event → Prop
  | round r => r.Enclosed
  | reset => True

namespace Processor

theorem upheld_housed {r : Round} (hr : r.Enclosed) :
    Upheld r fun g es => g.Based ∧ Workspace.Closed Housed ⟨g, es, []⟩ where
  seed {g es} h := ⟨h.1.seed r.settings,
    h.2.withGraph (h.2.graph.seed hr.settings) (grows_seed g r.settings)⟩
  build {cx} hsymbols _ c w hseeded h := by
    have hI : cx.Fillable Local fun g => g.Housed ∧ g.Furnished :=
      fillable_housed (hsymbols ▸ hr.tidy) (hsymbols ▸ hr.enclosed)
    have hw : w.Closed fun g => g.Housed ∧ g.Furnished :=
      ⟨⟨h.2.graph, h.1.furnished hseeded⟩, h.2.endpoints⟩
    have hv := hI.tied_buildEndpoint c hw
    refine ⟨⟨fun hfresh => ?_, fun _ => hv.closed.graph.2⟩, hv.closed.graph.1, hv.closed.endpoints⟩
    rw [enduring_seeded.buildEndpoint c hseeded] at hfresh
    cases hfresh

/-- What a definition refers to is local to it, after every sequence of such rounds. -/
theorem run_housed (pipeline : PropertyPipeline) {events : List Event}
    (h : ∀ e ∈ events, e.Enclosed) : (run (withPipeline pipeline) events).graph.Housed :=
  (run_upheld pipeline (fun g => ⟨based_clear g, housed_clear g, fun _ he => nomatch he⟩)
    fun r hr => upheld_housed (h (.round r) hr)).2.graph

end Processor

end ClientBindings
