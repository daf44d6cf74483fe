import Mathlib.Data.List.Perm.Subperm
import ClientBindings.Proofs.Graph.Registry
import ClientBindings.Proofs.Resolution.Exactness

/-! The depth at which resolving a reference ends, if it ends at all. Between two registrations only
the bounds of variables of methods lead from a reference to one that is not smaller, and a bound that
is met again before its resolution has ended would make it go on forever. -/
namespace ClientBindings.BuildContext

variable {cx : BuildContext}

/-- The names that a build may still register, placeholders aside. -/
def registrable (cx : BuildContext) : List String :=
  Builtin.all.map (·.fullName) ++ cx.symbols.typeNames

/-- How many of them are not registered. -/
def pending (cx : BuildContext) (g : TypeGraph) : Nat :=
  (cx.registrable.filter fun n => (g.idOf? n).isNone).length

theorem pending_le_of_names {g g' : TypeGraph} (h : ∀ n, g'.idOf? n = none → g.idOf? n = none) :
    cx.pending g' ≤ cx.pending g := by
  refine List.Sublist.length_le (List.monotone_filter_right _ fun n hn => ?_)
  simp only [Option.isNone_iff_eq_none] at hn ⊢
  exact h n hn

theorem pending_register_le (g : TypeGraph) (d : TypeDefinition) :
    cx.pending (g.register d).1 ≤ cx.pending g :=
  pending_le_of_names fun _ => TypeGraph.idOf?_of_register_eq_none

theorem pending_register_lt {g : TypeGraph} {d : TypeDefinition}
    (hn : d.fullName ∈ cx.registrable) (hd : g.idOf? d.fullName = none) :
    cx.pending (g.register d).1 < cx.pending g := by
  have hfilter : (cx.registrable.filter fun n => ((g.register d).1.idOf? n).isNone) =
      (cx.registrable.filter fun n => (g.idOf? n).isNone).filter
        fun n => ((g.register d).1.idOf? n).isNone := by
    rw [List.filter_filter]
    refine List.filter_congr fun n _ => ?_
    cases h : ((g.register d).1.idOf? n) with
    | none => simp [TypeGraph.idOf?_of_register_eq_none h]
    | some id => simp
  rw [pending, hfilter]
  refine List.length_filter_lt_length_iff_exists.2 ⟨d.fullName, ?_, ?_⟩
  · rw [List.mem_filter, hd]
    exact ⟨hn, rfl⟩
  · simp [TypeGraph.idOf?_register_self]

theorem pending_le (g : TypeGraph) : cx.pending g ≤ cx.symbols.types.length + 3 := by
  refine Nat.le_trans (List.length_filter_le _ _) ?_
  simp [registrable, Builtin.all, SymbolTable.typeNames]

theorem outline_mem_registrable {n : String} {t : DeclaredType} (h : cx.Definable n t) :
    (cx.outline t).fullName ∈ cx.registrable := by
  refine List.mem_append_right _ ?_
  exact List.mem_map.2 ⟨t, SymbolTable.type?_mem h.2.2.2, rfl⟩

/-- The graph is the same, or else fewer names are left to be registered. -/
def Shrinks (cx : BuildContext) (g g' : TypeGraph) : Prop :=
  g' = g ∨ cx.pending g' < cx.pending g

theorem Shrinks.trans {g₁ g₂ g₃ : TypeGraph} (h : cx.Shrinks g₁ g₂) (h' : cx.Shrinks g₂ g₃) :
    cx.Shrinks g₁ g₃ := by
  rcases h with rfl | h
  · exact h'
  · rcases h' with rfl | h'
    · exact .inr h
    · exact .inr (Nat.lt_trans h' h)

theorem Shrinks.lt_of_lt {g g' : TypeGraph} {n : Nat} (h : cx.Shrinks g g')
    (hn : cx.pending g < n) : cx.pending g' < n := by
  rcases h with rfl | h
  · exact hn
  · exact Nat.lt_trans h hn

theorem observant_shrinks (g : TypeGraph) : Observant (Same (cx.Shrinks g)) := by
  refine observant_same fun g' d hd hg => hg.trans ?_
  cases h : g'.idOf? d.fullName with
  | some id => exact .inl (by rw [TypeGraph.register_of_idOf? h])
  | none => exact .inr (pending_register_lt (List.mem_append_left _ (List.mem_map_of_mem hd)) h)

theorem lasting_pending_lt (n : Nat) : Lasting (Same fun g => cx.pending g < n) :=
  lasting_same (fun g d hg => Nat.lt_of_le_of_lt (pending_register_le g d) hg) fun _ _ _ hg => hg

/-- What a definition does after its registration happens with fewer names left. -/
theorem matches_define_pending {law : FailureLaw} {f f' : Resolver} {g : TypeGraph} {n : String}
    {t : DeclaredType} (ht : cx.Definable n t)
    (h : ∀ r ∈ t.references,
      law.Keeps (Same fun g' => cx.pending g' < cx.pending g) (f r) (f' r)) :
    law.Matches (fun w w' => Same (cx.Shrinks g) w w' ∧ w.graph.idOf? t.name = none)
      (cx.define f t) (cx.define f' t) fun _ => Same (cx.Shrinks g) := by
  refine (Lasting.matches_define (lasting_pending_lt (cx.pending g)) (fun _ _ hw => congrArg _ hw.1)
    ?_ h).imp (fun _ _ hw => hw) fun _ _ _ hw => ⟨hw.1, .inr hw.2⟩
  rintro w _ ⟨rfl, hw⟩ hnone
  refine ⟨rfl, ?_⟩
  have hlt : cx.pending (w.graph.register (cx.outline t)).1 < cx.pending w.graph :=
    pending_register_lt (outline_mem_registrable ht) hnone
  rcases hw with hw | hw
  · exact hw ▸ hlt
  · exact Nat.lt_trans hlt hw

theorem keeps_shrinks (depth : Nat) (g : TypeGraph) (r : TypeRef) :
    FailureLaw.lenient.Keeps (Same (cx.Shrinks g)) (cx.resolveAt depth r)
      (cx.resolveAt depth r) := by
  induction depth generalizing g r with
  | zero => exact fun _ _ _ => .dropped trivial
  | succ depth ih =>
    refine keeps_resolveStep (observant_shrinks g) FailureLaw.lenient_admits (fun n t ht => ?_)
      fun a _ => ih g a
    refine matches_define_pending ht fun r _ => ?_
    rintro w _ ⟨rfl, hw⟩
    exact (ih w.graph r ⟨rfl, .inl rfl⟩).imp fun _ _ _ hv => ⟨hv.1, hv.2.lt_of_lt hw⟩

/-- Resolving leaves the graph as it was or has registered one of the names. -/
theorem shrinks_of_resolveAt {depth : Nat} {r : TypeRef} {w v : Workspace}
    {i? : Option TypeInstance} (h : (cx.resolveAt depth r).outcome w = (.ok i?, v)) :
    cx.Shrinks w.graph v.graph :=
  FailureLaw.lenient_keeps_iff.1 (keeps_shrinks depth w.graph r) (.inl rfl) h

/-- Resolvers of two depths match where the second suffices whenever the first does. -/
theorem keeps_of_within {J : TypeGraph → Prop} {depth depth' : Nat} {r : TypeRef}
    (hJ : ∀ g g', J g → cx.Shrinks g g' → J g')
    (h : ∀ w, J w.graph → cx.Within depth w r → cx.Within depth' w r) :
    FailureLaw.exact.Keeps (Same J) (cx.resolveAt depth r) (cx.resolveAt depth' r) := by
  rintro w _ ⟨rfl, hw⟩
  by_cases hd : cx.Within depth w r
  · rw [resolveAt_eq hd (h w hw hd)]
    rcases ho : (cx.resolveAt depth r).outcome w with ⟨i? | i?, v⟩
    · exact .failed ⟨rfl, rfl⟩
    · exact .ok ⟨rfl, hJ _ _ hw (shrinks_of_resolveAt ho)⟩
  · rw [Within, not_not] at hd
    rcases ho : (cx.resolveAt depth r).outcome w with ⟨i? | i?, v⟩
    · rw [ho] at hd
      cases hd
      exact .dropped rfl
    · rw [ho] at hd
      cases hd

/-- A depth that suffices with so many names to be registered, so many bounds that have not been
met since the last registration, and a reference of that size. -/
def depthFor (openable largest names bounds size : Nat) : Nat :=
  (names * (openable + 1) + bounds) * (largest + 1) + size

section depthFor

variable {openable largest names names' bounds bounds' size size' : Nat}

theorem depthFor_lt_of_bounds (hb : bounds < bounds') (hs : size ≤ largest) :
    depthFor openable largest names bounds size < depthFor openable largest names bounds' size' := by
  have h := Nat.mul_le_mul_right (largest + 1)
    (show names * (openable + 1) + bounds + 1 ≤ names * (openable + 1) + bounds' by omega)
  rw [Nat.add_mul, Nat.one_mul] at h
  unfold depthFor
  omega

theorem depthFor_lt_of_names (hn : names < names') (hb : bounds ≤ openable) (hs : size ≤ largest) :
    depthFor openable largest names bounds size < depthFor openable largest names' bounds' size' := by
  have hm := Nat.mul_le_mul_right (openable + 1) (show names + 1 ≤ names' by omega)
  rw [Nat.add_mul, Nat.one_mul] at hm
  have h := Nat.mul_le_mul_right (largest + 1)
    (show names * (openable + 1) + bounds + 1 ≤ names' * (openable + 1) + bounds' by omega)
  rw [Nat.add_mul, Nat.one_mul] at h
  unfold depthFor
  omega

end depthFor

theorem size_pos (r : TypeRef) : 0 < r.size := by
  cases r <;> simp only [TypeRef.size] <;> omega

theorem size_le_sizeAll {a : TypeRef} {args : List TypeRef} (h : a ∈ args) :
    a.size ≤ TypeRef.sizeAll args := by
  induction args with
  | nil => cases h
  | cons b args ih =>
    rw [TypeRef.sizeAll]
    rcases List.mem_cons.1 h with rfl | h
    · omega
    · have := ih h
      omega

/-- What a step leaves to the resolver is smaller, or the only bound of a variable. -/
theorem size_of_inner {r a : TypeRef} (h : a ∈ cx.inner r) :
    a.size < r.size ∨ ∃ name owner, r = .typeVar name owner ∧
      cx.symbols.soleBound? name owner = some a := by
  cases r with
  | primitive name => cases h
  | declared name args =>
    have : a.size ≤ TypeRef.sizeAll args := size_le_sizeAll h
    simp only [TypeRef.size]
    omega
  | typeVar name owner => exact .inr ⟨name, owner, rfl, by simpa [inner] using h⟩
  | wildcard upper lower =>
    have hu : upper = some a := by simpa [inner] using h
    subst hu
    simp only [TypeRef.size, TypeRef.sizeOption]
    omega
  | array component =>
    have hc : a = component := by simpa [inner] using h
    subst hc
    simp only [TypeRef.size]
    omega

theorem exists_least_within {depth : Nat} {w : Workspace} {r : TypeRef}
    (h : cx.Within depth w r) : ∃ d < depth, cx.Within (d + 1) w r ∧ ¬cx.Within d w r := by
  induction depth with
  | zero => exact absurd h (not_within_zero w r)
  | succ depth ih =>
    by_cases hd : cx.Within depth w r
    · obtain ⟨d, hlt, hd⟩ := ih hd
      exact ⟨d, Nat.lt_succ_of_lt hlt, hd⟩
    · exact ⟨depth, Nat.lt_succ_self _, h, hd⟩

section bound

variable {largest : Nat} (hlargest : ∀ t ∈ cx.symbols.types, ∀ r ∈ t.references, r.size ≤ largest)

include hlargest in
theorem size_le_of_inner {r a : TypeRef} (hr : r.size ≤ largest) (ha : a ∈ cx.inner r) :
    a.size ≤ largest := by
  rcases size_of_inner ha with hlt | ⟨name, owner, -, hb⟩
  · exact Nat.le_trans (Nat.le_of_lt hlt) hr
  · obtain ⟨t, ht, hat⟩ := SymbolTable.mem_references_of_soleBound? hb
    exact hlargest t ht a hat

include hlargest in
/-- `seen` are bounds that lead to the reference without a registration in between; at the depths
below they are still open. -/
theorem within_depthFor (depth : Nat) (w : Workspace) (r : TypeRef) (seen : List TypeRef)
    (hr : r.size ≤ largest) (hnodup : seen.Nodup) (hseen : seen ⊆ cx.symbols.soleBounds)
    (hopen : ∀ b ∈ seen, ¬cx.Within depth w b) (h : cx.Within (depth + 1) w r) :
    cx.Within (depthFor cx.symbols.soleBounds.length largest (cx.pending w.graph)
      (cx.symbols.soleBounds.length - seen.length) r.size) w r := by
  induction depth using Nat.strongRecOn generalizing w r seen with
  | _ depth ih =>
  obtain ⟨k, hk⟩ : ∃ k, depthFor cx.symbols.soleBounds.length largest (cx.pending w.graph)
      (cx.symbols.soleBounds.length - seen.length) r.size = k + 1 := by
    refine ⟨_, (Nat.succ_pred_eq_of_pos ?_).symm⟩
    have := size_pos r
    unfold depthFor
    omega
  rw [hk]
  -- a reference that is met with fewer names left starts afresh
  have hfresh : ∀ u a, a.size ≤ largest → cx.pending u.graph < cx.pending w.graph →
      cx.Within depth u a → cx.Within k u a := by
    intro u a ha hlt hu
    cases depth with
    | zero => exact absurd hu (not_within_zero u a)
    | succ depth =>
      refine (ih depth (Nat.lt_succ_self _) u a [] ha List.nodup_nil (List.nil_subset _)
        (fun _ hb => nomatch hb) hu).le (Nat.le_of_lt_succ (Nat.lt_of_lt_of_eq ?_ hk))
      exact depthFor_lt_of_names hlt (Nat.sub_le _ _) ha
  suffices hstep : FailureLaw.exact.Keeps (Same (cx.Shrinks w.graph))
      (cx.resolveAt (depth + 1) r) (cx.resolveAt (k + 1) r) by
    rw [Within, (hstep ⟨rfl, .inl rfl⟩).eq_of_ends h]
    exact h
  refine keeps_resolveStep (observant_shrinks w.graph) FailureLaw.exact_admits ?_ ?_
  · intro n t ht
    refine matches_define_pending ht fun a ha => keeps_of_within (fun g g' hg hs => hs.lt_of_lt hg) ?_
    exact fun u hu => hfresh u a (hlargest t (SymbolTable.type?_mem ht.2.2.2) a ha) hu
  · intro a ha
    refine keeps_of_within (fun g g' => Shrinks.trans) fun u hu hud => ?_
    have hale : a.size ≤ largest := size_le_of_inner hlargest hr ha
    rcases hu with hu | hlt
    · rcases size_of_inner ha with hlt | ⟨name, owner, rfl, hb⟩
      · cases depth with
        | zero => exact absurd hud (not_within_zero u a)
        | succ depth =>
          refine (ih depth (Nat.lt_succ_self _) u a seen hale hnodup hseen (fun b hb hbu => ?_)
            hud).le ?_
          · exact hopen b hb (((within_congr hu).1 hbu).le (Nat.le_succ _))
          · rw [hu]
            unfold depthFor at hk ⊢
            omega
      · obtain ⟨m, hm, hmu, hmin⟩ := exists_least_within hud
        have hnot : a ∉ seen := fun hmem => hopen a hmem ((within_congr hu).1 hud)
        have hnodup' : (a :: seen).Nodup := List.nodup_cons.2 ⟨hnot, hnodup⟩
        have hseen' : a :: seen ⊆ cx.symbols.soleBounds :=
          List.cons_subset.2 ⟨SymbolTable.soleBound?_mem_soleBounds hb, hseen⟩
        have hlength : (a :: seen).length ≤ cx.symbols.soleBounds.length :=
          (hnodup'.subperm hseen').length_le
        refine (ih m hm u a (a :: seen) hale hnodup' hseen' (fun b hb hbu => ?_) hmu).le
          (Nat.le_of_lt_succ (Nat.lt_of_lt_of_eq ?_ hk))
        · rcases List.mem_cons.1 hb with rfl | hb
          · exact hmin hbu
          · exact hopen b hb (((within_congr hu).1 hbu).le (Nat.le_of_lt hm))
        · rw [hu]
          refine depthFor_lt_of_bounds ?_ hale
          rw [List.length_cons] at hlength ⊢
          omega
    · exact hfresh u a hale hlt hud

end bound

end ClientBindings.BuildContext
