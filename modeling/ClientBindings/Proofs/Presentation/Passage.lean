import ClientBindings.Proofs.Presentation.Identified
import ClientBindings.Proofs.Resolution.Depth

/-! What the way from one workspace to another adds: the types that are entered for the first time,
whose content is accounted for, and the findings of the way itself and of filling these types. Ways
are put together end to end. -/
namespace ClientBindings.BuildContext

open TypeGraph

variable {cx : BuildContext} {w u v : Workspace} {as bs : List Effect}
  {new new' : List DeclaredType} {t : DeclaredType} {id : TypeId}

/-- From `w` to `v`, with the effects `as` and those of filling the types `new`. -/
structure Passage (cx : BuildContext) (w : Workspace) (as : List Effect) (new : List DeclaredType)
    (v : Workspace) : Prop where
  identified : cx.Identified v.graph
  names {n : String} {id : TypeId} : w.graph.idOf? n = some id → v.graph.idOf? n = some id
  endpoints : v.endpoints = w.endpoints
  own : cx.ownNames v.graph = cx.ownNames w.graph ++ new.map (·.name)
  reached {n : String} : n ∈ entries as → n ∈ cx.ownNames v.graph
  complete {t : DeclaredType} : t ∈ new → cx.Defined t ∧
    Good (· ∈ cx.ownNames v.graph) (cx.accountType? t)
  within {S : String → Prop} : cx.Accountable S → (∀ n ∈ entries as, S n) → ∀ t ∈ new, S t.name
  noted (x : Diagnostic) : v.diagnostics.count x =
    w.diagnostics.count x + (findings as).count x + (new.flatMap cx.remarks).count x

/-- With fewer than so many names to be registered. -/
structure Able (cx : BuildContext) (names : Nat) (g : TypeGraph) : Prop extends cx.Identified g where
  pending : cx.pending g < names

namespace Passage

theorem pending_le (h : cx.Passage w as new v) : cx.pending v.graph ≤ cx.pending w.graph := by
  refine pending_le_of_names fun n hn => ?_
  cases hid : w.graph.idOf? n with
  | none => rfl
  | some id =>
    rw [h.names hid] at hn
    cases hn

theorem able (h : cx.Passage w as new v) {names : Nat} (hw : cx.Able names w.graph) :
    cx.Able names v.graph where
  toIdentified := h.identified
  pending := Nat.lt_of_le_of_lt h.pending_le hw.pending

/-- The definitions of types of their own are among those at the end. -/
theorem own_subset (h : cx.Passage w as new v) : cx.ownNames w.graph ⊆ cx.ownNames v.graph := by
  rw [h.own]
  exact List.subset_append_left _ _

theorem trans (h : cx.Passage w as new u) (h' : cx.Passage u bs new' v) :
    cx.Passage w (as ++ bs) (new ++ new') v where
  identified := h'.identified
  names hn := h'.names (h.names hn)
  endpoints := h'.endpoints.trans h.endpoints
  own := by rw [h'.own, h.own, List.map_append, List.append_assoc]
  reached hn := by
    rw [entries_append] at hn
    rcases List.mem_append.1 hn with hn | hn
    · exact h'.own_subset (h.reached hn)
    · exact h'.reached hn
  complete ht := by
    rcases List.mem_append.1 ht with ht | ht
    · exact (h.complete ht).imp_right fun hgood => hgood.mono fun _ hn => h'.own_subset hn
    · exact h'.complete ht
  within hS has t ht := by
    rw [entries_append] at has
    rcases List.mem_append.1 ht with ht | ht
    · exact h.within hS (fun n hn => has n (List.mem_append_left _ hn)) t ht
    · exact h'.within hS (fun n hn => has n (List.mem_append_right _ hn)) t ht
  noted x := by
    have hfirst := h.noted x
    have hsecond := h'.noted x
    simp only [findings_append, List.flatMap_append, List.count_append]
    omega

/-- A change of the graph that enters nothing. -/
theorem of_graph {g : TypeGraph} (hg : cx.Identified g)
    (hnames : ∀ ⦃n id⦄, w.graph.idOf? n = some id → g.idOf? n = some id)
    (hown : cx.ownNames g = cx.ownNames w.graph) : cx.Passage w [] [] (w.withGraph g) where
  identified := hg
  names hn := hnames hn
  endpoints := rfl
  own := by simp [hown]
  reached hn := nomatch hn
  complete ht := nomatch ht
  within _ _ t ht := nomatch ht
  noted x := by simp [Workspace.withGraph]

theorem refl (hw : cx.Identified w.graph) : cx.Passage w [] [] w := of_graph hw (fun _ _ h => h) rfl

theorem noteAll (hw : cx.Identified w.graph) (ds : List Diagnostic) :
    cx.Passage w (ds.map .notes) [] (w.noteAll ds) where
  identified := hw
  names hn := hn
  endpoints := rfl
  own := by simp
  reached hn := by simp at hn
  complete ht := nomatch ht
  within _ _ t ht := nomatch ht
  noted x := by simp [Workspace.noteAll, List.count_append]

theorem update {f : TypeDefinition → TypeDefinition} (hf : TypeDefinition.Keeping f)
    (hg : cx.Identified (w.graph.update id f)) :
    cx.Passage w [] [] (w.withGraph (w.graph.update id f)) :=
  of_graph hg (fun _ _ h => h) (ownNames_update hf w.graph id)

/-- A type is entered and filled. -/
theorem enter (ht : cx.Defined t) (hname : Unreserved t.name) (hnone : w.graph.idOf? t.name = none)
    (hbs : cx.accountType? t = some bs)
    (h : cx.Passage (w.withGraph (w.graph.register (cx.outline t)).1) bs new v) :
    cx.Passage w [.enters t.name] (t :: new) v where
  identified := h.identified
  names hn := h.names (idOf?_register hn)
  endpoints := h.endpoints
  own := by
    rw [h.own, Workspace.withGraph_graph, ownNames_enter ht hname hnone, List.append_assoc]
    rfl
  reached {n} hn := by
    obtain rfl : n = t.name := by simpa using hn
    refine h.own_subset ?_
    rw [Workspace.withGraph_graph, ownNames_enter ht hname hnone]
    simp
  complete {t'} ht' := by
    rcases List.mem_cons.1 ht' with rfl | ht'
    · exact ⟨ht, bs, hbs, fun n hn => h.reached hn⟩
    · exact h.complete ht'
  within {S} hS has t' ht' := by
    have hst : S t.name := has t.name (by simp)
    rcases List.mem_cons.1 ht' with rfl | ht'
    · exact hst
    · have hgood : Good S (some bs) := hbs ▸ hS t ht hst
      exact h.within hS (good_some.1 hgood) t' ht'
  noted x := by
    have hrest := h.noted x
    have hremarks : cx.remarks t = findings bs := by rw [remarks, hbs, Option.getD_some]
    have hsame : (w.withGraph (w.graph.register (cx.outline t)).1).diagnostics = w.diagnostics := rfl
    rw [hsame] at hrest
    rw [List.flatMap_cons, List.count_append, hremarks, findings_enters, List.count_nil]
    omega

end Passage

/-- What a build comes to from `w`: a result, on a way with the effects of the account, or a failure
that is excused. -/
inductive Came {α : Type} (cx : BuildContext) (excused : Prop) (w : Workspace)
    (o : Option (List Effect)) (Q : α → TypeGraph → Prop) : Outcome α → Prop
  | ok {a v as new} (ho : o = some as) (h : cx.Passage w as new v) (hQ : Q a v.graph) :
    Came cx excused w o Q (.ok a, v)
  | failed {e v} (h : excused) : Came cx excused w o Q (.error e, v)

namespace Came

variable {α β : Type} {excused excused' : Prop} {o o' : Option (List Effect)}
  {Q : α → TypeGraph → Prop} {R : β → TypeGraph → Prop}

theorem imp {Q' : α → TypeGraph → Prop} {out : Outcome α} (h : cx.Came excused w o Q out)
    (hQ : ∀ a g, Q a g → Q' a g) (he : excused → excused') : cx.Came excused' w o Q' out := by
  cases h with
  | ok ho h hq => exact .ok ho h (hQ _ _ hq)
  | failed h => exact .failed (he h)

theorem pure (hw : cx.Identified w.graph) {a : α} (ha : Q a w.graph) :
    cx.Came excused w (some []) Q ((Pure.pure a : Build α).outcome w) := .ok rfl (.refl hw) ha

/-- The rest of a way that has been begun. -/
theorem after {out : Outcome α} (hu : cx.Passage w as new u) (h : cx.Came excused u o Q out) :
    cx.Came excused w (andThen? (some as) o) Q out := by
  cases h with
  | ok ho h hq =>
    subst ho
    exact .ok rfl (hu.trans h) hq
  | failed h => exact .failed h

theorem bind {m : Build α} {k : α → Build β} (hm : cx.Came excused w o Q (m.outcome w))
    (hk : ∀ a v as new, cx.Passage w as new v → Q a v.graph →
      cx.Came excused v o' R ((k a).outcome v)) :
    cx.Came excused w (andThen? o o') R ((m >>= k).outcome w) := by
  rw [Build.outcome_bind]
  generalize m.outcome w = out at hm
  cases hm with
  | ok ho h hq =>
    subst ho
    exact (hk _ _ _ _ h hq).after h
  | failed h => exact .failed h

/-- A step that cannot fail. -/
theorem lift {x : Work α} (h : cx.Passage w as new (x.run w).2) (hQ : Q (x.run w).1 (x.run w).2.graph) :
    cx.Came excused w (some as) Q ((liftM x : Build α).outcome w) := .ok rfl h hQ

theorem lift_bind {x : Work α} {k : α → Build β} (h : cx.Passage w as new (x.run w).2)
    (hk : cx.Came excused (x.run w).2 o R ((k (x.run w).1).outcome (x.run w).2)) :
    cx.Came excused w (andThen? (some as) o) R ((liftM x >>= k : Build β).outcome w) := by
  rw [Build.outcome_lift_bind]
  exact hk.after h

theorem bind_pure {m : Build α} {f : α → β} (hm : cx.Came excused w o Q (m.outcome w))
    (hf : ∀ a g, Q a g → R (f a) g) :
    cx.Came excused w o R ((m >>= fun a => Pure.pure (f a)).outcome w) := by
  have h : cx.Came excused w (andThen? o (some [])) R ((m >>= fun a => Pure.pure (f a)).outcome w) :=
    hm.bind fun a v as new hv hq => Came.pure hv.identified (hf a v.graph hq)
  rwa [andThen?_nil] at h

end Came

end ClientBindings.BuildContext
