import ClientBindings.Proofs.Translation.Filling

/-! Resolving in a graph gives the direct translation, whatever has been defined before and whatever
is still being defined: by induction on the depth, a step at a time. -/
namespace ClientBindings.BuildContext

open TypeGraph

variable {cx : BuildContext} {g g' : TypeGraph} {X : TypeId → Prop} {w v : Workspace} {f : Resolver}
  {name : String} {id : TypeId}

theorem unreserved_denoted (hname : Unreserved name) : Unreserved (cx.denoted name) := by
  have hbuiltin {d : TypeDefinition} (hd : d ∈ Builtin.all) : Unreserved d.fullName :=
    unreserved_builtin hd
  unfold denoted
  split
  · exact hbuiltin (by simp [Builtin.all])
  · split
    · exact hname
    · split
      · exact hbuiltin (by simp [Builtin.all])
      · split
        · exact hbuiltin (by simp [Builtin.all])
        · split
          · exact hname
          · exact hbuiltin (by simp [Builtin.all])

/-- The instance of one of the definitions that are always there. -/
theorem named?_builtin (hg : g.Ready) {b : TypeDefinition} (hb : b ∈ Builtin.all)
    {is : List TypeInstance} {ns : List NamedInstance} (his : g.namedAll? is = some ns) :
    (g.register b).1 = g ∧ g.named? (.mk (g.register b).2 is) = some (.mk b.fullName ns) := by
  obtain ⟨id, hid⟩ := hg.stocked b hb
  obtain ⟨d, hd, hname⟩ := hg.indexed hid
  rw [register_of_idOf? hid]
  refine ⟨rfl, named?_mk ?_ his⟩
  rw [nameOf?, hd, Option.map_some, hname]

theorem reads_some {r : TypeRef} {i : TypeInstance} {n : NamedInstance}
    (hr : cx.translate? r = some (some n)) (hi : g.named? i = some n) :
    cx.Reads g [r] (some i).toList := by
  refine ⟨[n], ?_, namedAll?_toList_some.2 hi⟩
  rw [translateAll?_single, hr]
  rfl

theorem Reads.congr {r r' : TypeRef} {is : List TypeInstance} (h : cx.Reads g [r'] is)
    (hr : cx.translate? r = cx.translate? r') : cx.Reads g [r] is := by
  rwa [Reads, translateAll?_single, hr, ← translateAll?_single]

/-- A reference that is translated to any type. -/
theorem anyInstance_ok {r : TypeRef} {i? : Option TypeInstance} (hw : cx.Sound none X w.graph)
    (hr : cx.translate? r = some (some (.mk Builtin.any.fullName [])))
    (h : Build.outcome (do return some (← Work.anyInstance)) w = (.ok i?, v)) :
    cx.Advances X w.graph v.graph ∧ cx.Reads v.graph [r] i?.toList := by
  have hnil : w.graph.namedAll? [] = some [] := rfl
  obtain ⟨hsame, hnamed⟩ :=
    named?_builtin hw.toReady (b := Builtin.any) (by simp [Builtin.all]) hnil
  rw [Build.outcome_lift_bind, Work.run_anyInstance, hsame] at h
  cases h
  exact ⟨.refl hw, reads_some hr hnamed⟩

/-- A lookup gives the definition of what the name denotes. -/
theorem getOrDefine_denotes (hs : cx.symbols.Unreserved) (hf : ∀ r, cx.Framed (f r))
    (hready : w.graph.Ready) (hw : cx.Classified w.graph) (hname : Unreserved name)
    (h : (cx.getOrDefine (cx.define f) name).outcome w = (.ok id, v)) :
    v.graph.idOf? (cx.denoted name) = some id := by
  cases hn : cx.nameIn? w.graph name with
  | some n =>
    obtain ⟨i, u, hid, hu, -, ho⟩ := getOrDefine_of_named hready.stocked hn
    rw [ho] at h
    cases h
    rw [hu, hw.denoted_of_nameIn? hname hn, hid]
  | none =>
    obtain ⟨t, ht, -, ho⟩ := getOrDefine_of_unnamed hn
    rw [ho] at h
    rw [denoted_of_definable ht, ← ht.name_eq]
    exact define_ok (ht.unreserved hs) hf ht.self hready h

section resolver

variable (hs : cx.symbols.Tidy) (hframe : ∀ r, cx.Framed (f r)) (hf : cx.Honest f)
include hs hframe hf

/-- A name stands for the definition of what it denotes. -/
theorem getOrDefine_ok (hw : cx.Sound none X w.graph)
    (h : (cx.getOrDefine (cx.define f) name).outcome w = (.ok id, v)) :
    cx.Advances X w.graph v.graph ∧
      (Unreserved name → ∃ d, v.graph.definition? id = some d ∧ d.fullName = cx.denoted name) := by
  have hv : cx.Advances X w.graph v.graph := by
    cases hn : cx.nameIn? w.graph name with
    | some n =>
      obtain ⟨i, u, -, hu, -, ho⟩ := getOrDefine_of_named hw.stocked hn
      rw [ho] at h
      cases h
      rw [hu]
      exact .refl hw
    | none =>
      obtain ⟨t, ht, -, ho⟩ := getOrDefine_of_unnamed hn
      rw [ho] at h
      have htidy : t.Tidy := hs t (SymbolTable.type?_mem ht.2.2.2)
      have hext := (define_framed htidy.1 hframe ht.self w hw.toReady).1
      rw [h] at hext
      exact ⟨hext, define_sound hf ht.self htidy hw h⟩
  refine ⟨hv, fun hname => hv.sound.indexed ?_⟩
  exact getOrDefine_denotes hs.unreserved hframe hw.toReady hw.classified hname h

theorem declared_ok {args : List TypeRef} {i? : Option TypeInstance} (hw : cx.Sound none X w.graph)
    (h : (cx.resolveStep (cx.define f) f (.declared name args)).outcome w = (.ok i?, v)) :
    cx.Advances X w.graph v.graph ∧ ((TypeRef.declared name args).Tidy →
      cx.Reads v.graph [.declared name args] i?.toList) := by
  obtain ⟨id, u, hid, h⟩ := Build.outcome_bind_ok.1 h
  obtain ⟨hu, hname⟩ := getOrDefine_ok hs hframe hf hw hid
  rw [Build.outcome_lift_bind, Work.run_graph] at h
  dsimp only at h
  have hnamed (htidy : (TypeRef.declared name args).Tidy) :
      u.graph.nameOf? id = some (cx.denoted name) ∧
        u.graph.kind? id = cx.kindNamed? (cx.denoted name) := by
    have hun : Unreserved name := htidy name (by simp [TypeRef.names])
    obtain ⟨d, hd, hdname⟩ := hname hun
    rw [nameOf?, hd, ← hdname]
    exact ⟨rfl, hu.sound.kind?_eq hd (hdname ▸ unreserved_denoted hun)⟩
  split at h
  · rename_i hargs
    obtain ⟨is, u', hall, h⟩ := Build.outcome_bind_ok.1 h
    cases h
    obtain ⟨hv, hread⟩ := resolveAll_ok hf hu.sound hall
    refine ⟨hu.trans hv, fun htidy => ?_⟩
    obtain ⟨hid', hkind⟩ := hnamed htidy
    obtain ⟨ns, hns, his⟩ := hread fun r hr => htidy.argument hr
    obtain ⟨os, hos, rfl⟩ := Option.map_eq_some_iff.1 hns
    rw [hkind] at hargs
    refine reads_some ?_ (named?_mk (hv.keepsNames hid') his)
    rw [translate?, if_pos (Bool.and_eq_true_iff.1 hargs).1, hos]
    rfl
  · rename_i hargs
    cases h
    refine ⟨hu, fun htidy => ?_⟩
    obtain ⟨hid', hkind⟩ := hnamed htidy
    refine reads_some ?_ (named?_mk hid' rfl)
    rw [hkind] at hargs
    rw [translate?]
    split
    · rename_i hkinds
      obtain rfl : args = [] := by simpa [hkinds] using hargs
      rfl
    · rfl

theorem typeVar_ok {owner : GenericOwner} {i? : Option TypeInstance}
    (hw : cx.Sound none X w.graph)
    (h : (cx.resolveVariable (cx.define f) f name owner).outcome w = (.ok i?, v)) :
    cx.Advances X w.graph v.graph ∧ ((TypeRef.typeVar name owner).Tidy →
      cx.Reads v.graph [.typeVar name owner] i?.toList) := by
  cases owner with
  | type owner =>
    rw [resolveVariable, Build.outcome_lift_bind, Work.run_graph] at h
    dsimp only at h
    split at h
    · cases h
    · rename_i hknown
      obtain ⟨id, u, hid, h⟩ := Build.outcome_bind_ok.1 h
      obtain ⟨hu, hname⟩ := getOrDefine_ok hs hframe hf hw hid
      rw [Build.outcome_lift_bind, Work.run_graph] at h
      cases h
      refine ⟨hu, fun htidy => ?_⟩
      have hun : Unreserved owner := htidy owner (by simp [TypeRef.names])
      obtain ⟨d, hd, hdname⟩ := hname hun
      have hread := hu.sound.namedAll?_placeholder? hd (hdname ▸ unreserved_denoted hun) name
      refine ⟨_, ?_, hread⟩
      have hoffered : ((cx.symbols.type? owner).isNone && (cx.predefined? owner).isNone) = false := by
        cases ht : cx.symbols.type? owner with
        | some t => rfl
        | none =>
          cases hid : w.graph.idOf? owner with
          | none => simp [ht, hid] at hknown
          | some i =>
            rcases hw.classified.known hun hid with hp | ⟨t, hdef⟩
            · simp [Option.isNone_eq_false_iff, hp]
            · rw [hdef.2.2.2] at ht
              cases ht
      rw [translateAll?_single, translate?, hoffered, hdname]
      rfl
  | method declaringType method overload =>
    rw [resolveVariable] at h
    split at h
    · cases h
    · rename_i p hp
      split at h
      · rename_i b hb
        obtain ⟨hv, hread⟩ := hf hw h
        refine ⟨hv, fun _ => (hread ?_).congr (translate?_of_bound hp hb)⟩
        obtain ⟨t, ht, hmem⟩ :=
          SymbolTable.mem_references_of_soleBound? (SymbolTable.soleBound?_method hp hb)
        exact (hs t ht).2 b hmem
      · rename_i hb
        have hr := translate?_of_bounds hp (by rw [hb]; exact fun b => (List.cons_ne_nil b []).symm)
        exact (anyInstance_ok hw hr h).imp_right fun hread _ => hread
      · rename_i hb _
        have hr := translate?_of_bounds hp hb
        rw [Build.outcome_lift_bind, Work.run_warn] at h
        exact (anyInstance_ok (w := w.note _) hw hr h).imp_right fun hread _ => hread

/-- One level of a reference. -/
theorem resolveStep_honest : cx.Honest (cx.resolveStep (cx.define f) f) := by
  intro X r w i? v hw h
  cases r with
  | primitive name =>
    obtain ⟨id, u, hid, h⟩ := Build.outcome_bind_ok.1 h
    cases h
    obtain ⟨hu, hname⟩ := getOrDefine_ok hs hframe hf hw hid
    refine ⟨hu, fun htidy => ?_⟩
    obtain ⟨d, hd, hdname⟩ := hname (htidy name (by simp [TypeRef.names]))
    refine reads_some (n := .mk (cx.denoted name) []) (by rw [translate?]) (named?_mk ?_ rfl)
    rw [nameOf?, hd, Option.map_some, hdname]
  | declared name args => exact declared_ok hs hframe hf hw h
  | typeVar name owner => exact typeVar_ok hs hframe hf hw h
  | wildcard upper lower =>
    cases upper with
    | some b =>
      refine (hf hw h).imp_right fun hread htidy => ?_
      exact (hread htidy.upper).congr (by rw [translate?])
    | none => exact (anyInstance_ok hw (by rw [translate?]) h).imp_right fun hread _ => hread
  | array component =>
    obtain ⟨c?, u, hc, h⟩ := Build.outcome_bind_ok.1 h
    obtain ⟨hu, hread⟩ := hf hw hc
    have hregister (is : List TypeInstance) (ns : List NamedInstance)
        (his : u.graph.namedAll? is = some ns) :=
      named?_builtin hu.sound.toReady (b := Builtin.collection) (by simp [Builtin.all]) his
    rw [Build.outcome_lift_bind, Work.run_collectionId, (hregister [] [] rfl).1] at h
    cases h
    refine ⟨hu, fun htidy => ?_⟩
    obtain ⟨ns, hns, his⟩ := hread htidy.component
    rw [translateAll?_single] at hns
    obtain ⟨o, ho, rfl⟩ := Option.map_eq_some_iff.1 hns
    refine reads_some ?_ (hregister _ _ his).2
    rw [translate?, ho]
    rfl

end resolver

/-- At every depth. -/
theorem resolveAt_honest (hs : cx.symbols.Tidy) (depth : Nat) : cx.Honest (cx.resolveAt depth) := by
  induction depth with
  | zero => exact fun X r w i? v _ h => nomatch h
  | succ depth ih => exact resolveStep_honest hs (resolveAt_framed hs.unreserved depth) ih

theorem resolve_honest (hs : cx.symbols.Tidy) : cx.Honest cx.resolve :=
  fun _ _ _ _ _ hw h => resolveAt_honest hs _ hw h

end ClientBindings.BuildContext
