import ClientBindings.Proofs.Presentation.Resolving
import ClientBindings.Proofs.Resolution.Termination

/-! Resolving comes to what its account says, and it succeeds if there is an account, of the reference
and of the content of every type that is entered. A depth that is enough is put together from those of
the references that are followed and of the types that are entered with one name less to be
registered. -/
namespace ClientBindings.BuildContext

open TypeGraph

variable {cx : BuildContext} {S : String → Prop} {names : Nat} {w : Workspace} {t : DeclaredType}
  {r a c : TypeRef}

theorem tidy_of_followed (hs : cx.symbols.Tidy) (hr : r.Tidy) (ha : a ∈ cx.followed r) : a.Tidy :=
  tidy_of_inner hs hr (followed_subset_inner r ha)

theorem Defined.mem_types (ht : cx.Defined t) : t ∈ cx.symbols.types :=
  SymbolTable.type?_mem ht.1.2.2.2

theorem tidy_of_content (hs : cx.symbols.Tidy) (ht : cx.Defined t) (hc : c ∈ cx.content t) : c.Tidy :=
  (hs t ht.mem_types).2 c (content_subset_references t hc)

/-- Whatever the depth, what succeeds has an account. -/
theorem obeys_resolveAt (hs : cx.symbols.Tidy) (depth names : Nat) (htidy : r.Tidy) :
    cx.Obeys True names (cx.resolveAt depth) r := by
  induction depth generalizing names r with
  | zero => exact fun _ _ => .failed trivial
  | succ depth ih =>
    intro w hw
    cases names with
    | zero => exact absurd hw.pending (Nat.not_lt_zero _)
    | succ names =>
      refine came_resolveStep ⟨fun _ => trivial, fun a ha => ?_, fun _ _ ht hc => ?_⟩ hw htidy
      · exact ih (names + 1) (tidy_of_followed hs htidy ha)
      · exact ih names (tidy_of_content hs ht hc)

/-- Of finitely many things that hold from some number on, all hold from some number on. -/
theorem exists_from_on {α : Type} {P : α → Nat → Prop} (xs : List α)
    (h : ∀ x ∈ xs, ∃ n, ∀ m, n ≤ m → P x m) : ∃ n, ∀ m, n ≤ m → ∀ x ∈ xs, P x m := by
  induction xs with
  | nil => exact ⟨0, fun _ _ _ hx => nomatch hx⟩
  | cons x xs ih =>
    obtain ⟨n, hn⟩ := h x (List.mem_cons_self ..)
    obtain ⟨n', hn'⟩ := ih fun y hy => h y (List.mem_cons_of_mem _ hy)
    refine ⟨max n n', fun m hm y hy => ?_⟩
    rcases List.mem_cons.1 hy with rfl | hy
    · exact hn m (by omega)
    · exact hn' m (by omega) y hy

/-- One depth is enough for the content of all types of `S`. -/
theorem exists_depth_content (hs : cx.symbols.Tidy) (hS : cx.Accountable S)
    (h : ∀ c : TypeRef, c.Tidy → Good S (cx.account? c) →
      ∃ n, ∀ d, n ≤ d → cx.Obeys False names (cx.resolveAt d) c) :
    ∃ n, ∀ d, n ≤ d → ∀ t c, cx.Defined t → S t.name → c ∈ cx.content t →
      cx.Obeys False names (cx.resolveAt d) c := by
  obtain ⟨n, hn⟩ := exists_from_on (cx.symbols.types.flatMap cx.content)
    (P := fun c d => c.Tidy → Good S (cx.account? c) → cx.Obeys False names (cx.resolveAt d) c)
    fun c _ => by
      by_cases hc : c.Tidy ∧ Good S (cx.account? c)
      · exact (h c hc.1 hc.2).imp fun n hn d hd _ _ => hn d hd
      · exact ⟨0, fun d _ htidy hgood => absurd ⟨htidy, hgood⟩ hc⟩
  refine ⟨n, fun d hd t c ht hst hc => ?_⟩
  have hgood : Good S (cx.account? c) := good_gather?.1 (hS t ht hst) c hc
  exact hn d hd c (List.mem_flatMap.2 ⟨t, ht.mem_types, hc⟩) (tidy_of_content hs ht hc) hgood

theorem exists_mem_of_mapM_eq_some {α β : Type} {k : α → Option β} {xs : List α} {ys : List β}
    (h : xs.mapM k = some ys) {x : α} (hx : x ∈ xs) : ∃ y ∈ ys, k x = some y :=
  exists_of_forall₂ (R := fun y x => k x = some y) (forall₂_of_mapM_eq_some h).flip hx

/-- From some depth on, a reference that is accounted for within `S` is resolved without failure. The
outer induction is on the names that are left, the inner one follows the account. -/
theorem exists_depth (hs : cx.symbols.Tidy) (hS : cx.Accountable S) (names : Nat) (htidy : r.Tidy)
    (hr : Good S (cx.account? r)) :
    ∃ n, ∀ d, n ≤ d → cx.Obeys False names (cx.resolveAt d) r := by
  induction names generalizing r with
  | zero => exact ⟨0, fun _ _ _ hw => absurd hw.pending (Nat.not_lt_zero _)⟩
  | succ names ih =>
    obtain ⟨n, hn⟩ := exists_depth_content hs hS fun c => ih
    obtain ⟨as, has, hin⟩ := hr
    refine account?.partial_correctness cx (motive := fun r as => r.Tidy → (∀ n ∈ entries as, S n) →
      ∃ n, ∀ d, n ≤ d → cx.Obeys False (names + 1) (cx.resolveAt d) r) ?_ r as has htidy hin
    intro account? hrec r as hbody htidy hin
    obtain ⟨own, hown, hrest⟩ := Option.bind_eq_some_iff.1 hbody
    obtain ⟨rest, hmap, hsum⟩ := Option.bind_eq_some_iff.1 hrest
    obtain rfl : own ++ rest.flatten = as := Option.some.inj hsum
    rw [entries_append] at hin
    obtain ⟨n', hn'⟩ := exists_from_on (cx.followed r)
      (P := fun a d => cx.Obeys False (names + 1) (cx.resolveAt d) a) fun a ha => by
        obtain ⟨bs, hbs, hk⟩ := exists_mem_of_mapM_eq_some hmap ha
        refine hrec a bs hk (tidy_of_followed hs htidy ha) fun m hm => hin m ?_
        obtain ⟨b, hb, hbm⟩ := List.mem_filterMap.1 hm
        exact List.mem_append_right _
          (List.mem_filterMap.2 ⟨b, List.mem_flatten.2 ⟨bs, hbs, hb⟩, hbm⟩)
    refine ⟨max n n' + 1, fun d hd w hw => ?_⟩
    obtain ⟨d, rfl⟩ : ∃ e, d = e + 1 := ⟨d - 1, by omega⟩
    refine came_resolveStep ⟨fun hnone => ?_, hn' d (by omega), fun {as t c} has ht hdef hc => ?_⟩ hw htidy
    · rw [hown] at hnone
      cases hnone
    · obtain rfl : own = as := Option.some.inj (hown.symm.trans has)
      exact hn d (by omega) t c hdef (hin t.name (List.mem_append_left _ ht)) hc

/-- Resolving comes to what its account says, and fails only if there is none within `S`. -/
theorem came_resolve (hs : cx.symbols.Tidy) (hS : cx.Accountable S) (htidy : r.Tidy)
    (hw : cx.Identified w.graph) :
    cx.Came (¬Good S (cx.account? r)) w (cx.account? r) Anything ((cx.resolve r).outcome w) := by
  have hable : cx.Able (cx.pending w.graph + 1) w.graph := ⟨hw, Nat.lt_succ_self _⟩
  by_cases hgood : Good S (cx.account? r)
  · obtain ⟨n, hn⟩ := exists_depth hs hS (cx.pending w.graph + 1) htidy hgood
    have hcame := hn n (Nat.le_refl n) hable
    have hwithin : cx.Within n w r := by
      unfold Within
      generalize (cx.resolveAt n r).outcome w = out at hcame
      cases hcame with
      | ok _ _ _ => exact fun h => nomatch h
      | failed h => exact h.elim
    have hresolve : cx.Within (cx.symbols.resolutionDepth r) w r := ends_iff_resolve.1 ⟨n, hwithin⟩
    rw [resolve, resolveAt_eq hwithin hresolve]
    exact hcame.imp (fun _ _ h => h) False.elim
  · exact (obeys_resolveAt hs _ _ htidy hable).imp (fun _ _ h => h) fun _ => hgood

end ClientBindings.BuildContext
