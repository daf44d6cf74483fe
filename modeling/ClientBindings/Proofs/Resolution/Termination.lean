import Mathlib.Logic.Relation
import Mathlib.Data.Fintype.Card
import Mathlib.Data.Set.Finite.Basic
import ClientBindings.Proofs.Resolution.Depth

/-! When resolving ends. Declarations may be as cyclic as they like: a definition is registered
before it is filled, so it is entered once. A variable of a method has no definition, it is replaced
by its only bound wherever it is met, and resolving goes on forever exactly where that leads back to
the same bound. -/
namespace ClientBindings.BuildContext

variable {cx : BuildContext}

/-- Resolving the reference from the workspace ends at some depth. -/
def Ends (cx : BuildContext) (w : Workspace) (r : TypeRef) : Prop := ∃ depth, cx.Within depth w r

theorem le_foldl_max {α : Type} (f : α → Nat) (xs : List α) (n : Nat) :
    n ≤ xs.foldl (fun n x => max n (f x)) n ∧
      ∀ x ∈ xs, f x ≤ xs.foldl (fun n x => max n (f x)) n := by
  induction xs generalizing n with
  | nil => exact ⟨Nat.le_refl _, fun _ hx => nomatch hx⟩
  | cons x xs ih =>
    obtain ⟨hn, hxs⟩ := ih (max n (f x))
    rw [List.foldl_cons]
    refine ⟨by omega, fun y hy => ?_⟩
    rcases List.mem_cons.1 hy with rfl | hy
    · omega
    · exact hxs y hy

theorem length_soleBounds_le (s : SymbolTable) : s.soleBounds.length ≤
    (s.types.flatMap fun t => t.methods.flatMap (·.typeParameters)).length :=
  List.length_filterMap_le _ _

/-- One depth is enough for every reference up to a size whose resolution ends. -/
theorem Ends.within {largest openable : Nat}
    (hlargest : ∀ t ∈ cx.symbols.types, ∀ r ∈ t.references, r.size ≤ largest)
    (hopenable : cx.symbols.soleBounds.length ≤ openable) {w : Workspace} {r : TypeRef}
    (hr : r.size ≤ largest) (h : cx.Ends w r) :
    cx.Within ((cx.symbols.types.length + 4) * (openable + 1) * (largest + 1)) w r := by
  obtain ⟨depth, hd⟩ := h
  refine (within_depthFor hlargest depth w r [] hr List.nodup_nil (List.nil_subset _)
    (fun _ hb => nomatch hb) (hd.le (Nat.le_succ _))).le ?_
  have hnames : cx.pending w.graph ≤ cx.symbols.types.length + 3 := pending_le w.graph
  refine Nat.le_of_lt (Nat.lt_of_lt_of_le (m := depthFor cx.symbols.soleBounds.length largest
    (cx.symbols.types.length + 4) 0 0) ?_ ?_)
  · exact depthFor_lt_of_names (Nat.lt_succ_of_le hnames) (Nat.sub_le _ _) hr
  rw [depthFor, Nat.add_zero, Nat.add_zero]
  exact Nat.mul_le_mul_right _ (Nat.mul_le_mul_left _ (Nat.succ_le_succ hopenable))

/-- The depth of the resolver is enough wherever resolving ends. -/
theorem ends_iff_resolve {w : Workspace} {r : TypeRef} :
    cx.Ends w r ↔ ((cx.resolve r).outcome w).1 ≠ .error .endlessBound := by
  refine ⟨fun h => ?_, fun h => ⟨_, h⟩⟩
  obtain ⟨hr, hlargest⟩ :=
    le_foldl_max TypeRef.size (cx.symbols.types.flatMap (·.references)) r.size
  exact Ends.within (fun t ht a ha => hlargest a (List.mem_flatMap.2 ⟨t, ht, ha⟩))
    (length_soleBounds_le _) hr h

/-- What resolving a reference goes on to resolve, other than the content of a definition that is
entered: an argument, once those before it are resolved, the bound of a wildcard, the component of
an array, or the only bound of a variable. -/
inductive Opens (cx : BuildContext) : Workspace × TypeRef → Workspace × TypeRef → Prop
  | argument {w u v name before a after depth id is}
      (hname : (cx.getOrDefine (cx.define (cx.resolveAt depth)) name).outcome w = (.ok id, u))
      (htakes : (u.graph.kind? id).any (·.hasTypeParams) = true)
      (hbefore : (resolveAll (cx.resolveAt depth) before).outcome u = (.ok is, v)) :
      Opens cx (w, .declared name (before ++ a :: after)) (v, a)
  | bound {w b lower} : Opens cx (w, .wildcard (some b) lower) (w, b)
  | component {w c} : Opens cx (w, .array c) (w, c)
  | opened {w name owner b} (hb : cx.symbols.soleBound? name owner = some b) :
      Opens cx (w, .typeVar name owner) (w, b)

theorem Opens.mem_inner {w w' : Workspace} {r r' : TypeRef} (h : cx.Opens (w, r) (w', r')) :
    r' ∈ cx.inner r := by
  cases h with
  | argument _ _ _ => simp [inner]
  | bound => simp [inner]
  | component => simp [inner]
  | opened hb => simp [inner, hb]

/-- The result does not depend on the depth, as long as it suffices. -/
theorem keeps_resolveAt_le {depth depth' : Nat} (hle : depth ≤ depth') (r : TypeRef) :
    FailureLaw.exact.Keeps (Same fun _ => True) (cx.resolveAt depth r) (cx.resolveAt depth' r) :=
  keeps_of_within (fun _ _ _ _ => trivial) fun _ _ h => h.le hle

theorem getOrDefine_eq {depth depth' : Nat} {name : String} {w u : Workspace} {id : TypeId}
    (h' : (cx.getOrDefine (cx.define (cx.resolveAt depth')) name).outcome w = (.ok id, u))
    (h : ((cx.getOrDefine (cx.define (cx.resolveAt depth)) name).outcome w).1 ≠
      .error .endlessBound) :
    (cx.getOrDefine (cx.define (cx.resolveAt depth)) name).outcome w = (.ok id, u) := by
  have hk {d d' : Nat} (hle : d ≤ d') : FailureLaw.exact.Keeps (Same fun _ => True)
      (cx.getOrDefine (cx.define (cx.resolveAt d)) name)
      (cx.getOrDefine (cx.define (cx.resolveAt d')) name) :=
    keeps_getOrDefine lasting_anywhere.observant fun t _ =>
      (keeps_define_exact (keeps_resolveAt_le hle) t).imp (fun _ _ hw => hw.1) fun _ _ _ hw => hw
  rcases Nat.le_total depth depth' with hle | hle
  · rw [← (hk hle ⟨rfl, trivial⟩).eq_of_ends h, h']
  · rw [(hk hle ⟨rfl, trivial⟩).eq_of_ends (by rw [h']; exact nofun), h']

theorem resolveAll_eq {depth depth' : Nat} {rs : List TypeRef} {w u : Workspace}
    {is : List TypeInstance}
    (h' : (resolveAll (cx.resolveAt depth') rs).outcome w = (.ok is, u))
    (h : ((resolveAll (cx.resolveAt depth) rs).outcome w).1 ≠ .error .endlessBound) :
    (resolveAll (cx.resolveAt depth) rs).outcome w = (.ok is, u) := by
  have hk {d d' : Nat} (hle : d ≤ d') : FailureLaw.exact.Keeps (Same fun _ => True)
      (resolveAll (cx.resolveAt d) rs) (resolveAll (cx.resolveAt d') rs) :=
    keeps_resolveAll fun r _ => keeps_resolveAt_le hle r
  rcases Nat.le_total depth depth' with hle | hle
  · rw [← (hk hle ⟨rfl, trivial⟩).eq_of_ends h, h']
  · rw [(hk hle ⟨rfl, trivial⟩).eq_of_ends (by rw [h']; exact nofun), h']

/-- Resolving a list fails where it meets the first reference that fails. -/
theorem resolveAll_error_iff {f : Resolver} {rs : List TypeRef} {w v : Workspace}
    {e : BuildError} :
    (resolveAll f rs).outcome w = (.error e, v) ↔ ∃ before a after is u,
      rs = before ++ a :: after ∧ (resolveAll f before).outcome w = (.ok is, u) ∧
        (f a).outcome u = (.error e, v) := by
  induction rs generalizing w with
  | nil => simp [resolveAll]
  | cons r rs ih =>
    rw [resolveAll, Build.outcome_bind_error]
    constructor
    · rintro (h | ⟨i?, u, hr, h⟩)
      · exact ⟨[], r, rs, [], w, rfl, rfl, h⟩
      · rcases Build.outcome_bind_error.1 h with h | ⟨is, u', _, h⟩
        · obtain ⟨before, a, after, is, u', rfl, hbefore, ha⟩ := ih.1 h
          refine ⟨r :: before, a, after, i?.toList ++ is, u', rfl, ?_, ha⟩
          rw [resolveAll, Build.outcome_bind, hr]
          change (resolveAll f before >>= fun rest => pure (i?.toList ++ rest)).outcome u = _
          rw [Build.outcome_bind, hbefore]
          rfl
        · cases h
    · rintro ⟨before, a, after, is, u, hrs, hbefore, ha⟩
      cases before with
      | nil =>
        obtain ⟨rfl, rfl⟩ := List.cons.inj hrs
        cases hbefore
        exact .inl ha
      | cons b before =>
        obtain ⟨rfl, rfl⟩ := List.cons.inj hrs
        rw [resolveAll, Build.outcome_bind_ok] at hbefore
        obtain ⟨i?, u', hb, h⟩ := hbefore
        obtain ⟨is', u'', hbefore, h⟩ := Build.outcome_bind_ok.1 h
        cases h
        refine .inr ⟨i?, u', hb, ?_⟩
        rw [Build.outcome_bind_error]
        exact .inl (ih.2 ⟨before, a, after, is', u, rfl, hbefore, ha⟩)

theorem resolveStep_declared_outcome {d : Definer} {f : Resolver} {name : String}
    {args : List TypeRef} {w u : Workspace} {id : TypeId}
    (hname : (cx.getOrDefine d name).outcome w = (.ok id, u))
    (htakes : (u.graph.kind? id).any (·.hasTypeParams) = true) (hargs : args ≠ []) :
    (cx.resolveStep d f (.declared name args)).outcome w =
      (resolveAll f args >>= fun is => pure (some (.mk id is))).outcome u := by
  rw [resolveStep, Build.outcome_bind, hname]
  dsimp only
  rw [Build.outcome_lift_bind, Work.run_graph]
  have hempty : args.isEmpty = false := by simpa using hargs
  simp [htakes, hempty]

/-- A depth for a reference leaves one less for what it opens. -/
theorem Opens.within {depth : Nat} {w w' : Workspace} {r r' : TypeRef}
    (h : cx.Opens (w, r) (w', r')) (hr : cx.Within (depth + 1) w r) : cx.Within depth w' r' := by
  cases h with
  | bound => exact hr
  | component =>
    intro hc
    refine hr ?_
    rw [resolveAt, resolveStep, Build.outcome_bind]
    rcases ho : (cx.resolveAt depth r').outcome w with ⟨e | i?, v⟩
    · rw [ho] at hc
      exact hc
    · rw [ho] at hc
      cases hc
  | opened hb =>
    obtain ⟨declaringType, method, overload, p, rfl, hp, hpb⟩ := SymbolTable.soleBound?_eq_some hb
    intro hc
    refine hr ?_
    simp only [resolveAt, resolveStep, resolveVariable, hp, hpb]
    exact hc
  | @argument _ u _ name before _ after depth' id is hname htakes hbefore =>
    intro hc
    refine hr ?_
    by_cases hn : ((cx.getOrDefine (cx.define (cx.resolveAt depth)) name).outcome w).1 =
        .error .endlessBound
    · exact Build.outcome_bind_of_error hn
    · rw [resolveAt, resolveStep_declared_outcome (getOrDefine_eq hname hn) htakes (by simp)]
      refine Build.outcome_bind_of_error ?_
      by_cases hb : ((resolveAll (cx.resolveAt depth) before).outcome u).1 = .error .endlessBound
      · obtain ⟨b, a, rest, is', u', rfl, hb', ha⟩ := resolveAll_error_iff.1 (Prod.ext hb rfl)
        rw [List.append_assoc, List.cons_append,
          resolveAll_error_iff.2 ⟨b, a, _, is', u', rfl, hb', ha⟩]
      · rw [resolveAll_error_iff.2 ⟨before, _, after, is, _, rfl, resolveAll_eq hbefore hb,
          Prod.ext hc rfl⟩]

theorem shrinks_of_getOrDefine {depth : Nat} {name : String} {w u : Workspace} {id : TypeId}
    (h : (cx.getOrDefine (cx.define (cx.resolveAt depth)) name).outcome w = (.ok id, u)) :
    cx.Shrinks w.graph u.graph := by
  have hk : FailureLaw.lenient.Keeps (Same (cx.Shrinks w.graph))
      (cx.getOrDefine (cx.define (cx.resolveAt depth)) name)
      (cx.getOrDefine (cx.define (cx.resolveAt depth)) name) := by
    refine keeps_getOrDefine (observant_shrinks _) fun t ht =>
      matches_define_pending ht fun r _ => ?_
    rintro v _ ⟨rfl, hv⟩
    exact (keeps_shrinks depth v.graph r ⟨rfl, .inl rfl⟩).imp
      fun _ _ _ hv' => ⟨hv'.1, hv'.2.lt_of_lt hv⟩
  exact FailureLaw.lenient_keeps_iff.1 hk (.inl rfl) h

theorem shrinks_of_resolveAll {depth : Nat} {rs : List TypeRef} {w u : Workspace}
    {is : List TypeInstance} (h : (resolveAll (cx.resolveAt depth) rs).outcome w = (.ok is, u)) :
    cx.Shrinks w.graph u.graph :=
  FailureLaw.lenient_keeps_iff.1 (keeps_resolveAll fun r _ => keeps_shrinks depth w.graph r)
    (.inl rfl) h

theorem Opens.shrinks {w w' : Workspace} {r r' : TypeRef} (h : cx.Opens (w, r) (w', r')) :
    cx.Shrinks w.graph w'.graph := by
  cases h with
  | argument hname _ hbefore =>
    exact (shrinks_of_getOrDefine hname).trans (shrinks_of_resolveAll hbefore)
  | bound => exact .inl rfl
  | component => exact .inl rfl
  | opened _ => exact .inl rfl

/-- Where no definition lacks depth, a reference that does opens one that does. -/
theorem exists_opens {depth : Nat} {w : Workspace} {r : TypeRef}
    (hnames : ∀ name, ((cx.getOrDefine (cx.define (cx.resolveAt depth)) name).outcome w).1 ≠
      .error .endlessBound)
    (h : ¬cx.Within (depth + 1) w r) :
    ∃ w' r', cx.Opens (w, r) (w', r') ∧ ¬cx.Within depth w' r' := by
  obtain ⟨v, hv⟩ : ∃ v, (cx.resolveAt (depth + 1) r).outcome w = (.error .endlessBound, v) :=
    ⟨_, Prod.ext (not_not.1 h) rfl⟩
  rw [resolveAt] at hv
  have hname {name : String} {v : Workspace} : (cx.getOrDefine (cx.define (cx.resolveAt depth))
      name).outcome w ≠ (.error .endlessBound, v) :=
    fun hn => hnames name (congrArg Prod.fst hn)
  cases r with
  | primitive name =>
    rw [resolveStep, Build.outcome_bind_error] at hv
    obtain hn | ⟨id, u, -, hu⟩ := hv
    · exact absurd hn hname
    · cases hu
  | declared name args =>
    rw [resolveStep, Build.outcome_bind_error] at hv
    obtain hn | ⟨id, u, hid, hu⟩ := hv
    · exact absurd hn hname
    · rw [Build.outcome_lift_bind, Work.run_graph] at hu
      dsimp only at hu
      split at hu
      · rename_i htakes
        rw [Bool.and_eq_true] at htakes
        rcases Build.outcome_bind_error.1 hu with hargs | ⟨is, u', -, hu'⟩
        · obtain ⟨before, a, after, is, u', rfl, hbefore, ha⟩ := resolveAll_error_iff.1 hargs
          refine ⟨u', a, .argument hid htakes.1 hbefore, fun hw => hw ?_⟩
          rw [ha]
        · cases hu'
      · cases hu
  | typeVar name owner =>
    rw [resolveStep] at hv
    cases owner with
    | type owner =>
      rw [resolveVariable, Build.outcome_lift_bind] at hv
      split at hv
      · cases hv
      · rcases Build.outcome_bind_error.1 hv with hn | ⟨id, u, -, hu⟩
        · exact absurd hn hname
        · cases hu
    | method declaringType method overload =>
      unfold resolveVariable at hv
      dsimp only at hv
      split at hv
      · cases hv
      · rename_i p hp
        split at hv
        · rename_i b hb
          refine ⟨w, b, .opened (SymbolTable.soleBound?_method hp hb), fun hw => hw ?_⟩
          rw [hv]
        · cases hv
        · cases hv
  | wildcard upper lower =>
    cases upper with
    | some b =>
      refine ⟨w, b, .bound, fun hw => hw ?_⟩
      rw [show (cx.resolveAt depth b).outcome w = _ from hv]
    | none => cases hv
  | array component =>
    rw [resolveStep, Build.outcome_bind_error] at hv
    obtain hc | ⟨i?, u, -, hu⟩ := hv
    · refine ⟨w, component, .component, fun hw => hw ?_⟩
      rw [hc]
    · cases hu

/-- What is opened depends on the workspace only through its graph. -/
theorem Opens.congr {w w' u : Workspace} {r r' : TypeRef} (h : cx.Opens (w, r) (w', r'))
    (hu : w.graph = u.graph) : ∃ u', cx.Opens (u, r) (u', r') ∧ w'.graph = u'.graph := by
  cases h with
  | bound => exact ⟨u, .bound, hu⟩
  | component => exact ⟨u, .component, hu⟩
  | opened hb => exact ⟨u, .opened hb, hu⟩
  | @argument _ v _ name before _ after depth id is hname htakes hbefore =>
    have hn : FailureLaw.alike.Keeps SameGraph
        (cx.getOrDefine (cx.define (cx.resolveAt depth)) name)
        (cx.getOrDefine (cx.define (cx.resolveAt depth)) name) :=
      keeps_getOrDefine lasting_sameGraph.observant fun t _ =>
        (keeps_define_sameGraph (keeps_resolveAt_sameGraph depth) t).imp (fun _ _ hw => hw.1)
          fun _ _ _ hw => hw
    obtain ⟨hid, hv⟩ := eq_of_agree_alike (hn hu)
    rcases ho : (cx.getOrDefine (cx.define (cx.resolveAt depth)) name).outcome u with ⟨id', v'⟩
    rw [hname, ho] at hid hv
    dsimp only at hid hv
    subst hid
    obtain ⟨his, hw'⟩ := eq_of_agree_alike
      (keeps_resolveAll (fun r (_ : r ∈ before) => keeps_resolveAt_sameGraph depth r) hv)
    rcases hb : (resolveAll (cx.resolveAt depth) before).outcome v' with ⟨is', u'⟩
    rw [hbefore, hb] at his hw'
    dsimp only at his hw'
    subst his
    exact ⟨u', .argument ho (hv ▸ htakes) hb, hw'⟩

open Relation in
theorem transGen_opens_congr {w w' u : Workspace} {r r' : TypeRef}
    (h : TransGen cx.Opens (w, r) (w', r')) (hu : w.graph = u.graph) :
    ∃ u', TransGen cx.Opens (u, r) (u', r') ∧ w'.graph = u'.graph := by
  generalize hp : (w', r') = p at h
  induction h generalizing w' r' with
  | single h =>
    subst hp
    obtain ⟨u', hopens, hu'⟩ := h.congr hu
    exact ⟨u', .single hopens, hu'⟩
  | @tail q p _ h ih =>
    subst hp
    obtain ⟨u₁, hopens, hu₁⟩ := ih rfl
    obtain ⟨u₂, hopens', hu₂⟩ := h.congr hu₁
    exact ⟨u₂, hopens.tail hopens', hu₂⟩

/-- A chain of openings spends the depth step by step. -/
theorem within_of_transGen {depth : Nat} {w w' : Workspace} {r r' : TypeRef}
    (h : Relation.TransGen cx.Opens (w, r) (w', r')) (hr : cx.Within (depth + 1) w r) :
    cx.Within depth w' r' := by
  generalize hp : (w', r') = p at h
  induction h generalizing w' r' with
  | single h =>
    subst hp
    exact h.within hr
  | @tail q p _ h ih =>
    subst hp
    exact h.within ((ih rfl).le (Nat.le_succ _))

theorem ends_congr {w u : Workspace} {r : TypeRef} (h : w.graph = u.graph) :
    cx.Ends w r ↔ cx.Ends u r := exists_congr fun _ => within_congr h

/-- No failure is for want of depth. -/
def ending : FailureLaw := ⟨fun _ => False, fun e _ _ _ => e ≠ .endlessBound⟩

/-- Names lack no depth where it is enough for the references that are met with fewer names left. -/
theorem getOrDefine_ends {depth : Nat} {w : Workspace}
    (h : ∀ t ∈ cx.symbols.types, ∀ r ∈ t.references, ∀ u,
      cx.pending u.graph < cx.pending w.graph → cx.Within depth u r) (name : String) :
    ((cx.getOrDefine (cx.define (cx.resolveAt depth)) name).outcome w).1 ≠
      .error .endlessBound := by
  have hk : ending.Keeps (Same (cx.Shrinks w.graph))
      (cx.getOrDefine (cx.define (cx.resolveAt depth)) name)
      (cx.getOrDefine (cx.define (cx.resolveAt depth)) name) := by
    refine keeps_getOrDefine (observant_shrinks _) fun t ht =>
      matches_define_pending ht fun r hr => ?_
    rintro u _ ⟨rfl, hu⟩
    have hw : cx.Within depth u r := h t (SymbolTable.type?_mem ht.2.2.2) r hr u hu
    rcases ho : (cx.resolveAt depth r).outcome u with ⟨e | i?, v⟩
    · exact .failed fun he => hw (by rw [ho, he])
    · exact .ok ⟨rfl, (shrinks_of_resolveAt ho).lt_of_lt hu⟩
  have ha : ending.Agree _ ((cx.getOrDefine (cx.define (cx.resolveAt depth)) name).outcome w) _ :=
    hk ⟨rfl, .inl rfl⟩
  generalize (cx.getOrDefine (cx.define (cx.resolveAt depth)) name).outcome w = o at ha
  cases ha with
  | ok _ => exact nofun
  | dropped h => exact h.elim
  | failed h => exact fun he => h (Except.error.inj he)

/-- Where references end that are met with fewer names left, one that does not end opens another,
with the graph as it was. -/
theorem exists_opens_of_not_ends {w : Workspace} {r : TypeRef}
    (hends : ∀ u a, cx.pending u.graph < cx.pending w.graph → cx.Ends u a) (h : ¬cx.Ends w r) :
    ∃ w' r', cx.Opens (w, r) (w', r') ∧ w'.graph = w.graph ∧ ¬cx.Ends w' r' := by
  obtain ⟨hr, hlargest⟩ :=
    le_foldl_max TypeRef.size (cx.symbols.types.flatMap (·.references)) r.size
  replace hlargest : ∀ t ∈ cx.symbols.types, ∀ a ∈ t.references, a.size ≤ _ :=
    fun t ht a ha => hlargest a (List.mem_flatMap.2 ⟨t, ht, ha⟩)
  obtain ⟨w', r', hopens, hr'⟩ := exists_opens (getOrDefine_ends fun t ht a ha u hu =>
    Ends.within hlargest (Nat.le_refl _) (hlargest t ht a ha) (hends u a hu)) fun hd => h ⟨_, hd⟩
  have hnot : ¬cx.Ends w' r' := by
    have hsize := size_le_of_inner hlargest hr hopens.mem_inner
    exact fun he => hr' (he.within hlargest (Nat.le_refl _) hsize)
  rcases hopens.shrinks with hg | hlt
  · exact ⟨w', r', hopens, hg, hnot⟩
  · exact absurd (hends w' r' hlt) hnot

open Relation in
/-- A reference that does not end leads to a bound of a variable that does not. -/
theorem exists_bound_of_not_ends {w : Workspace} {r : TypeRef}
    (hends : ∀ u a, cx.pending u.graph < cx.pending w.graph → cx.Ends u a) (h : ¬cx.Ends w r) :
    ∃ w' b, TransGen cx.Opens (w, r) (w', b) ∧ w'.graph = w.graph ∧
      b ∈ cx.symbols.soleBounds ∧ ¬cx.Ends w' b := by
  induction hn : r.size using Nat.strongRecOn generalizing w r with
  | _ n ih =>
  subst hn
  obtain ⟨u, a, hopens, hu, ha⟩ := exists_opens_of_not_ends hends h
  rcases size_of_inner hopens.mem_inner with hlt | ⟨name, owner, -, hb⟩
  · obtain ⟨w', b, hchain, hw', hb⟩ := ih a.size hlt (hu ▸ hends) ha rfl
    exact ⟨w', b, .head hopens hchain, hw'.trans hu, hb⟩
  · exact ⟨u, a, .single hopens, hu, SymbolTable.soleBound?_mem_soleBounds hb, ha⟩

/-- Openings that come back to a reference with the graph as it was. -/
def Loops (cx : BuildContext) : Prop :=
  ∃ w w' r, Relation.TransGen cx.Opens (w, r) (w', r) ∧ w'.graph = w.graph

open Relation in
theorem ends_of_not_loops (hloops : ¬cx.Loops) (w : Workspace) (r : TypeRef) : cx.Ends w r := by
  induction hn : cx.pending w.graph using Nat.strongRecOn generalizing w r with
  | _ n ih =>
  subst hn
  by_contra hr
  have hends (u a) (hu : cx.pending u.graph < cx.pending w.graph) : cx.Ends u a :=
    ih _ hu u a rfl
  -- the bounds that do not end here are finitely many, and each leads to another
  let Stuck := { b // b ∈ cx.symbols.soleBounds ∧ ¬cx.Ends w b }
  let leads (b' b : Stuck) : Prop := ∃ w', TransGen cx.Opens (w, b.1) (w', b'.1) ∧ w'.graph = w.graph
  have hfinite : Finite Stuck :=
    ((List.finite_toSet cx.symbols.soleBounds).subset fun b (hb : b ∈ _ ∧ _) => hb.1).to_subtype
  have htrans : IsTrans Stuck leads := by
    refine ⟨fun b₃ b₂ b₁ h₃ h₂ => ?_⟩
    obtain ⟨w₂, h₁₂, hw₂⟩ := h₂
    obtain ⟨w₃, h₂₃, hw₃⟩ := h₃
    obtain ⟨u₃, hu, hg⟩ := transGen_opens_congr h₂₃ hw₂.symm
    exact ⟨u₃, h₁₂.trans hu, hg.symm.trans hw₃⟩
  have hirrefl : Std.Irrefl leads :=
    ⟨fun b ⟨w', hb, hw'⟩ => hloops ⟨w, w', b.1, hb, hw'⟩⟩
  have hnext (b : Stuck) : ∃ b', leads b' b := by
    obtain ⟨w', b', hchain, hw', hb', hnot⟩ := exists_bound_of_not_ends hends b.2.2
    exact ⟨⟨b', hb', fun he => hnot ((ends_congr hw').2 he)⟩, w', hchain, hw'⟩
  obtain ⟨w', b, -, hw', hb, hnot⟩ := exists_bound_of_not_ends hends hr
  refine (Finite.wellFounded_of_trans_of_irrefl leads).induction (C := fun _ => False)
    ⟨b, hb, fun he => hnot ((ends_congr hw').2 he)⟩ fun b ih => ?_
  obtain ⟨b', hb'⟩ := hnext b
  exact ih b' hb'

/-- Where resolving ends, it does so within a depth that the export and the reference fix. It ends for
every reference in every graph exactly when no bound of a variable of a method leads back to itself. -/
theorem resolve_ends_iff (cx : BuildContext) :
    (∀ w r, cx.Ends w r → cx.Within (cx.symbols.resolutionDepth r) w r) ∧
      ((∀ w r, cx.Ends w r) ↔ ¬cx.Loops) := by
  refine ⟨fun w r => ends_iff_resolve.1, ?_, ends_of_not_loops⟩
  rintro h ⟨w, w', r, hchain, hw'⟩
  obtain ⟨depth, hr⟩ := h w r
  obtain ⟨d, -, hd, hmin⟩ := exists_least_within hr
  exact hmin ((within_congr hw').1 (within_of_transGen hchain hd))

/-- A class without members but a method whose variable is bounded by the class with that variable as
its argument. -/
def nodeType : DeclaredType where
  name := "a.Node"
  explicitSimpleName := none
  package := none
  enclosingType := none
  kind := .classType
  modifiers := []
  annotations := []
  typeParameters := [⟨"T", []⟩]
  superclass := none
  interfaces := []
  fields := []
  methods := [⟨"pick", [], [],
    [⟨"T", [.declared "a.Node" [.typeVar "T" (.method "a.Node" "pick" 0)]]⟩], [], none⟩]
  recordComponents := []
  enumConstants := []

/-- The variable of that method does not end. -/
theorem not_ends_pick : ¬(⟨⟨[nodeType], []⟩, .standard, [], .standard⟩ : BuildContext).Ends
    (Workspace.empty.withGraph (TypeGraph.empty.seed .standard))
    (.typeVar "T" (.method "a.Node" "pick" 0)) := by
  rw [ends_iff_resolve, not_not]
  exact Outcome.fst_of_error? (by decide +kernel)

open Relation in
/-- Without bounds that variables of methods are replaced by, nothing loops, whatever cycles the
declared types form. -/
theorem not_loops_of_soleBounds_eq_nil (h : cx.symbols.soleBounds = []) : ¬cx.Loops := by
  have hsize {p q : Workspace × TypeRef} (hpq : TransGen cx.Opens p q) : q.2.size < p.2.size := by
    have hstep {p q : Workspace × TypeRef} (hpq : cx.Opens p q) : q.2.size < p.2.size := by
      rcases size_of_inner hpq.mem_inner with hlt | ⟨name, owner, -, hb⟩
      · exact hlt
      · exact absurd (SymbolTable.soleBound?_mem_soleBounds hb) (by simp [h])
    induction hpq with
    | single hpq => exact hstep hpq
    | tail _ hqs ih => exact Nat.lt_trans (hstep hqs) ih
  rintro ⟨w, w', r, hchain, -⟩
  exact absurd (hsize hchain) (Nat.lt_irrefl _)

end ClientBindings.BuildContext
