import ClientBindings.Proofs.Symbol.Names
import ClientBindings.Proofs.Translation.Soundness

/-! Resolvers that give what references are translated to, and lists of references that are resolved
by them. -/
namespace ClientBindings.BuildContext

open TypeGraph

variable {cx : BuildContext} {g g' g'' : TypeGraph} {X : TypeId → Prop} {w v : Workspace}
  {f : Resolver}

/-- The instances, by names, are what the references are translated to. -/
def Reads (cx : BuildContext) (g : TypeGraph) (rs : List TypeRef) (is : List TypeInstance) : Prop :=
  ∃ ns, cx.translateAll? rs = some ns ∧ g.namedAll? is = some ns

theorem translateAll?_cons (r : TypeRef) (rs : List TypeRef) : cx.translateAll? (r :: rs) =
    (cx.translate? r).bind fun o => (cx.translateAll? rs).map (o.toList ++ ·) := by
  rw [translateAll?, translateAll?, List.mapM_cons]
  cases cx.translate? r with
  | none => rfl
  | some o =>
    cases rs.mapM cx.translate? with
    | none => rfl
    | some os => cases o <;> rfl

theorem translateAll?_single (r : TypeRef) :
    cx.translateAll? [r] = (cx.translate? r).map (·.toList) := by
  rw [translateAll?_cons]
  cases cx.translate? r with
  | none => rfl
  | some o => cases o <;> rfl

namespace Reads

theorem nil : cx.Reads g [] [] := ⟨[], rfl, rfl⟩

theorem cons {r : TypeRef} {rs : List TypeRef} {is js : List TypeInstance} (h : cx.Reads g [r] is)
    (h' : cx.Reads g rs js) : cx.Reads g (r :: rs) (is ++ js) := by
  obtain ⟨ns, hr, his⟩ := h
  obtain ⟨ms, hrs, hjs⟩ := h'
  rw [translateAll?_single] at hr
  obtain ⟨o, ho, rfl⟩ := Option.map_eq_some_iff.1 hr
  refine ⟨o.toList ++ ms, ?_, namedAll?_append his hjs⟩
  rw [translateAll?_cons, ho, Option.bind_some, hrs, Option.map_some]

theorem keep {rs : List TypeRef} {is : List TypeInstance} (h : cx.Reads g rs is)
    (hnames : g.KeepsNames g') : cx.Reads g' rs is :=
  h.imp fun _ hns => ⟨hns.1, hnames.namedAll? hns.2⟩

end Reads

/-- From one sound graph to another that extends it. -/
structure Advances (cx : BuildContext) (X : TypeId → Prop) (g g' : TypeGraph) : Prop where
  grown : cx.Extends g g'
  sound : cx.Sound none X g'

/-- Resolving a reference leads to what it is translated to. -/
def Honest (cx : BuildContext) (f : Resolver) : Prop :=
  ∀ ⦃X r w i? v⦄, cx.Sound none X w.graph → (f r).outcome w = (.ok i?, v) →
    cx.Advances X w.graph v.graph ∧ (r.Tidy → cx.Reads v.graph [r] i?.toList)

namespace Advances

theorem refl (hg : cx.Sound none X g) : cx.Advances X g g := ⟨.refl g, hg⟩

theorem trans (h : cx.Advances X g g') (h' : cx.Advances X g' g'') : cx.Advances X g g'' :=
  ⟨h.grown.trans h'.grown, h'.sound⟩

theorem keepsNames (h : cx.Advances X g g') : g.KeepsNames g' :=
  keepsNames_of_definitions fun _ _ => h.grown.definitions

end Advances

variable (hf : cx.Honest f)
include hf

theorem resolveAll_ok {rs : List TypeRef} {is : List TypeInstance} (hw : cx.Sound none X w.graph)
    (h : (resolveAll f rs).outcome w = (.ok is, v)) :
    cx.Advances X w.graph v.graph ∧ ((∀ r ∈ rs, r.Tidy) → cx.Reads v.graph rs is) := by
  induction rs generalizing w is with
  | nil =>
    cases h
    exact ⟨.refl hw, fun _ => .nil⟩
  | cons r rs ih =>
    obtain ⟨i?, u, hr, h⟩ := Build.outcome_bind_ok.1 h
    obtain ⟨js, u', hrs, h⟩ := Build.outcome_bind_ok.1 h
    cases h
    obtain ⟨hu, hread⟩ := hf hw hr
    obtain ⟨hv, hrest⟩ := ih hu.sound hrs
    refine ⟨hu.trans hv, fun htidy => ?_⟩
    exact ((hread (htidy r (List.mem_cons_self ..))).keep hv.keepsNames).cons
      (hrest fun r hr => htidy r (List.mem_cons_of_mem _ hr))

omit hf in
/-- A slot that is needed is filled with any type where there is none. -/
theorem orAny_ok {r : TypeRef} {i? : Option TypeInstance} (hg : w.graph.Ready)
    (h : cx.Reads w.graph [r] i?.toList) : ∃ i u o,
      (liftM (Work.orAny i?) : Build TypeInstance).outcome w = (.ok i, u) ∧ u.graph = w.graph ∧
        cx.translate? r = some o ∧
        w.graph.named? i = some (o.getD (.mk Builtin.any.fullName [])) := by
  obtain ⟨ns, hr, hi⟩ := h
  rw [translateAll?_single] at hr
  obtain ⟨o, ho, rfl⟩ := Option.map_eq_some_iff.1 hr
  cases i? with
  | some i =>
    refine ⟨i, w, o, rfl, rfl, ho, ?_⟩
    cases o with
    | none =>
      rw [Option.toList_some, namedAll?_cons] at hi
      cases hn : w.graph.named? i <;> simp [hn, namedAll?] at hi
    | some n => exact namedAll?_toList_some.1 hi
  | none =>
    obtain ⟨id, hid⟩ := hg.stocked Builtin.any (by simp [Builtin.all])
    obtain ⟨d, hd, hname⟩ := hg.indexed hid
    refine ⟨.plain id, w, o, ?_, rfl, ho, ?_⟩
    · rw [Build.outcome_lift, Work.run_orAny_none, register_of_idOf? hid]
      rfl
    · cases o with
      | none =>
        refine named?_mk ?_ rfl
        rw [nameOf?, hd, Option.map_some, hname]
      | some n => cases hi

theorem resolveProperties_ok {cs : List (String × PropertyCandidate)} {ps : List PropertyDefinition}
    (htidy : ∀ c ∈ cs, c.2.type.Tidy) (hw : cx.Sound none X w.graph)
    (h : (cx.resolveProperties f cs).outcome w = (.ok ps, v)) :
    cx.Advances X w.graph v.graph ∧
      ∃ ns, cs.mapM cx.translateProperty? = some ns ∧ ps.mapM v.graph.namedProperty? = some ns := by
  induction cs generalizing w ps with
  | nil =>
    cases h
    exact ⟨.refl hw, [], rfl, rfl⟩
  | cons c cs ih =>
    obtain ⟨name, c⟩ := c
    obtain ⟨i?, u, hc, h⟩ := Build.outcome_bind_ok.1 h
    obtain ⟨hu, hread⟩ := hf hw hc
    obtain ⟨i, u', o, hany, hgraph, ho, hi⟩ :=
      orAny_ok hu.sound.toReady (hread (htidy _ (List.mem_cons_self ..)))
    rw [Build.outcome_bind, hany] at h
    obtain ⟨qs, v', hcs, h⟩ := Build.outcome_bind_ok.1 h
    cases h
    obtain ⟨hv, ns, hns, hqs⟩ :=
      ih (fun c hc => htidy c (List.mem_cons_of_mem _ hc)) (hgraph ▸ hu.sound) hcs
    rw [hgraph] at hv
    refine ⟨hu.trans hv, ⟨name, o.getD (.mk Builtin.any.fullName []),
      !cx.symbols.isNotNull cx.pipeline c⟩ :: ns, ?_, ?_⟩
    · rw [List.mapM_cons, translateProperty?, ho, hns]
      rfl
    · rw [List.mapM_cons, namedProperty?, hv.keepsNames.named? hi, hqs]
      rfl

end ClientBindings.BuildContext
