import Mathlib.Logic.Relation
import Mathlib.Data.List.Nodup
import ClientBindings.Proofs.Resolution.References

/-! The methods that a type has and inherits. Its supertypes are visited breadth first, each once: what
is visited next is the first supertype, of those of the types visited so far, that has not been. Of
the methods of a visited type those are kept that no type before it declares with the same name and
number of parameters; this is settled by what the types declare, although the walk compares only with
the methods that it has kept. -/
namespace ClientBindings

namespace Method

variable {m m' m'' : Method}

/-- Two methods of the same name and number of parameters, of which one hides the other. -/
def SameShape (m m' : Method) : Prop :=
  m.name = m'.name ∧ m.parameters.length = m'.parameters.length

instance (m m' : Method) : Decidable (m.SameShape m') :=
  inferInstanceAs (Decidable (_ ∧ _))

theorem overrides_iff : m.overrides m' = true ↔ m.SameShape m' := by
  simp [overrides, SameShape]

theorem SameShape.symm (h : m.SameShape m') : m'.SameShape m := ⟨h.1.symm, h.2.symm⟩

theorem SameShape.trans (h : m.SameShape m') (h' : m'.SameShape m'') : m.SameShape m'' :=
  ⟨h.1.trans h'.1, h.2.trans h'.2⟩

theorem substitute_sameShape (m : Method) (owner : String) (bindings : Bindings) :
    (m.substitute owner bindings).SameShape m := by
  unfold substitute
  split
  · exact ⟨rfl, rfl⟩
  · exact ⟨rfl, by simp⟩

end Method

namespace SymbolTable

/-- A declared type as it is seen from below, with what its parameters stand for there. -/
abbrev View := DeclaredType × Bindings

/-- The declared type that a reference in a visited type leads to. A type variable leads to what it
stands for. -/
def viewOf? (s : SymbolTable) (v : View) (r : TypeRef) : Option View :=
  match r.substitute v.1.name v.2 with
  | .declared name args => (s.type? name).map fun u => (u, parameterBindings u.typeParameters args)
  | _ => none

/-- The declared supertypes of a visited type, the superclass before the interfaces. -/
def viewsAbove (s : SymbolTable) (v : View) : List View := v.1.supertypes.filterMap (s.viewOf? v)

/-- What is visited next: the first declared supertype, of those of the types visited so far in the
order of their visits, whose name has not been visited. -/
def nextView? (s : SymbolTable) (visited : List View) : Option View :=
  (visited.flatMap s.viewsAbove).find? fun v => visited.all (·.1.name != v.1.name)

/-- The visits begin with the type itself, and after every beginning of them stands what is visited
next; they end when there is nothing left to visit. -/
structure BreadthFirst (s : SymbolTable) (t : DeclaredType) (visits : List View) : Prop where
  first : visits[0]? = some (t, [])
  next : ∀ n, visits[n + 1]? = s.nextView? (visits.take (n + 1))

variable {s : SymbolTable} {t u : DeclaredType} {m : Method} {v : View}
  {visits visits' visited before : List View}

/-- A beginning of the visits determines what stands after it, so there is one such list only. -/
theorem BreadthFirst.unique (h : s.BreadthFirst t visits) (h' : s.BreadthFirst t visits') :
    visits = visits' := by
  have htake (n : Nat) : visits.take n = visits'.take n := by
    induction n with
    | zero => rfl
    | succ n ih =>
      rw [List.take_add_one, List.take_add_one, ih]
      cases n with
      | zero => rw [h.first, h'.first]
      | succ n => rw [h.next, h'.next, ih]
  apply List.ext_getElem?
  intro n
  have hsame := congrArg (·[n]?) (htake (n + 1))
  simpa [List.getElem?_take] using hsame

/-! ### The walk -/

/-- The type among these that a supertype leads to. -/
def seek (types : List DeclaredType) (p : String × List TypeRef) : Option View :=
  (types.find? (·.name == p.1)).map fun u => (u, parameterBindings u.typeParameters p.2)

theorem viewsAbove_eq (v : View) : s.viewsAbove v = (parents v.1 v.2).filterMap (seek s.types) := by
  rw [viewsAbove, parents, List.filterMap_filterMap]
  congr 1
  funext r
  rw [viewOf?]
  cases r.substitute v.1.name v.2 <;> rfl

theorem seek_eq_none_iff {types : List DeclaredType} {p : String × List TypeRef} :
    seek types p = none ↔ types.find? (·.name == p.1) = none := by
  rw [seek, Option.map_eq_none_iff]

theorem find?_filter_name_ne (types : List DeclaredType) (gone n : String) :
    (types.filter (·.name != gone)).find? (·.name == n) =
      if n = gone then none else types.find? (·.name == n) := by
  rw [List.find?_filter]
  split
  · rename_i hn
    subst hn
    simp
  · rename_i hn
    congr 1
    funext u
    by_cases hu : u.name = n
    · simp [hu, hn]
    · simp [hu]

/-- Where the walk stands: the types that are left are those that have not been visited, and of the
supertypes of the visited types those before the pending ones lead to none that is left. -/
structure Walk (s : SymbolTable) (visited : List View) (types : List DeclaredType)
    (pending : List (String × List TypeRef)) : Prop where
  left : ∀ n, types.find? (·.name == n) =
    if n ∈ visited.map (·.1.name) then none else s.type? n
  passed : ∃ gone, visited.flatMap (fun v => parents v.1 v.2) = gone ++ pending ∧
    ∀ p ∈ gone, seek types p = none

namespace Walk

variable {types : List DeclaredType} {pending : List (String × List TypeRef)}
  {p : String × List TypeRef}

theorem start (s : SymbolTable) (t : DeclaredType) :
    s.Walk [(t, [])] (s.types.filter (·.name != t.name)) (parents t []) where
  left n := by
    rw [find?_filter_name_ne, type?]
    simp
  passed := ⟨[], by simp, fun p hp => nomatch hp⟩

theorem skip (h : s.Walk visited types (p :: pending)) (hp : seek types p = none) :
    s.Walk visited types pending where
  left := h.left
  passed := by
    obtain ⟨gone, heq, hgone⟩ := h.passed
    refine ⟨gone ++ [p], by simp [heq], fun q hq => ?_⟩
    rcases List.mem_append.1 hq with hq | hq
    · exact hgone q hq
    · rwa [List.mem_singleton.1 hq]

theorem visit (h : s.Walk visited types (p :: pending)) (hv : seek types p = some v) :
    s.Walk (visited ++ [v]) (types.filter (·.name != v.1.name)) (pending ++ parents v.1 v.2) where
  left n := by
    rw [find?_filter_name_ne, h.left]
    rw [List.map_append, List.map_singleton]
    by_cases hn : n = v.1.name
    · rw [if_pos hn, if_pos (List.mem_append_right _ (List.mem_singleton.2 hn))]
    · simp only [hn, List.mem_append, List.mem_singleton, or_false, if_false]
  passed := by
    obtain ⟨gone, heq, hgone⟩ := h.passed
    refine ⟨gone ++ [p], by simp [heq], fun q hq => ?_⟩
    rw [seek_eq_none_iff, find?_filter_name_ne]
    rcases List.mem_append.1 hq with hq | hq
    · have hnone := seek_eq_none_iff.1 (hgone q hq)
      simp [hnone]
    · obtain rfl := List.mem_singleton.1 hq
      obtain ⟨u, hu, rfl⟩ := Option.map_eq_some_iff.1 hv
      have hname : u.name = q.1 := by simpa using List.find?_some hu
      simp [hname]

theorem all_ne_iff {n : String} :
    visited.all (·.1.name != n) = true ↔ n ∉ visited.map (·.1.name) := by
  rw [List.all_eq_true, List.mem_map, not_exists]
  exact forall_congr' fun v => by simp

/-- Of the types that a supertype leads to those are left that have not been visited. -/
theorem filter_seek (h : s.Walk visited types pending) (p : String × List TypeRef) :
    (seek s.types p).filter (fun v => visited.all (·.1.name != v.1.name)) = seek types p := by
  rw [seek, seek, h.left, type?]
  cases hu : s.types.find? (·.name == p.1) with
  | none => simp
  | some u =>
    have hname : u.name = p.1 := by simpa using List.find?_some hu
    by_cases hp : p.1 ∈ visited.map (·.1.name)
    · rw [if_pos hp, Option.map_some, Option.filter_some, if_neg, Option.map_none]
      rw [all_ne_iff, hname]
      exact not_not_intro hp
    · rw [if_neg hp, Option.map_some, Option.filter_some, if_pos]
      rwa [all_ne_iff, hname]

theorem find?_filterMap_eq {α β : Type} (f : α → Option β) (q : β → Bool) (l : List α) :
    (l.filterMap f).find? q = l.findSome? fun a => (f a).filter q := by
  induction l with
  | nil => rfl
  | cons a l ih =>
    cases hf : f a with
    | none => simp [hf, ih]
    | some b => cases hq : q b <;> simp [hf, hq, ih, Option.filter_some]

/-- What is visited next is the first pending supertype that leads to a type that is left. -/
theorem nextView?_eq (h : s.Walk visited types pending) :
    s.nextView? visited = pending.findSome? (seek types) := by
  obtain ⟨gone, heq, hgone⟩ := h.passed
  have hflat : visited.flatMap s.viewsAbove = (gone ++ pending).filterMap (seek s.types) := by
    rw [← heq, List.filterMap_flatMap, funext viewsAbove_eq]
  have hnone : gone.findSome? (seek types) = none := List.findSome?_eq_none_iff.2 hgone
  rw [nextView?, hflat, find?_filterMap_eq]
  simp only [h.filter_seek]
  rw [List.findSome?_append, hnone, Option.none_or]

/-- The induction follows the walk. -/
theorem next {n : Nat} : ∀ {visited : List View}, s.Walk visited types pending →
    visited.length ≤ n → (visited ++ ancestors types pending)[n]? =
      s.nextView? ((visited ++ ancestors types pending).take n) := by
  induction types, pending using ancestors.induct with
  | case1 types =>
    intro visited h hn
    rw [ancestors, List.append_nil, List.take_of_length_le hn, List.getElem?_eq_none hn,
      h.nextView?_eq]
    rfl
  | case2 types name args pending hnone ih =>
    intro visited h hn
    rw [ancestors, hnone]
    exact ih (h.skip (seek_eq_none_iff.2 hnone)) hn
  | case3 types name args pending t hsome bindings =>
    rename_i ih
    simp only [List.unattach_filter, List.unattach_attach] at ih
    intro visited h hn
    have hseek : seek types (name, args) = some (t, bindings) := by
      rw [seek, hsome]
      rfl
    rw [ancestors, hsome]
    rcases Nat.eq_or_lt_of_le hn with rfl | hlt
    · rw [List.take_left' rfl, h.nextView?_eq, List.findSome?_cons, hseek]
      simp [bindings]
    · have hrest := ih (h.visit hseek) (by simpa using Nat.succ_le_of_lt hlt)
      simpa using hrest

end Walk

theorem breadthFirst_lineage (s : SymbolTable) (t : DeclaredType) :
    s.BreadthFirst t (s.lineage t) where
  first := rfl
  next n := (Walk.start s t).next (Nat.le_add_left 1 n)

/-! ### What is visited -/

theorem nextView?_eq_some (h : s.nextView? visited = some v) :
    (∃ w ∈ visited, v ∈ s.viewsAbove w) ∧ ∀ w ∈ visited, w.1.name ≠ v.1.name := by
  rw [nextView?] at h
  have hnew := List.find?_some h
  rw [List.all_eq_true] at hnew
  exact ⟨List.mem_flatMap.1 (List.mem_of_find?_eq_some h), fun w hw => by simpa using hnew w hw⟩

theorem mem_viewsAbove_iff {w : View} : w ∈ s.viewsAbove v ↔
    ∃ r ∈ v.1.supertypes, ∃ args, r.substitute v.1.name v.2 = .declared w.1.name args ∧
      s.type? w.1.name = some w.1 ∧ w.2 = parameterBindings w.1.typeParameters args := by
  rw [viewsAbove, List.mem_filterMap]
  refine exists_congr fun r => and_congr_right fun _ => ?_
  constructor
  · intro h
    rw [viewOf?] at h
    split at h
    · rename_i name args heq
      obtain ⟨u, hu, rfl⟩ := Option.map_eq_some_iff.1 h
      obtain rfl := type?_name hu
      exact ⟨args, heq, hu, rfl⟩
    · cases h
  · rintro ⟨args, heq, hu, hb⟩
    rw [viewOf?, heq]
    change (s.type? w.1.name).map _ = some w
    rw [hu, Option.map_some, ← hb]

namespace BreadthFirst

/-- What holds of the first visit and goes on to hold with the next one holds of all of them. The next
one is a supertype of a type visited before it, and its name was not visited before. -/
@[elab_as_elim]
theorem induction {P : List View → Prop} (h : s.BreadthFirst t visits) (start : P [(t, [])])
    (step : ∀ visited v, visited ⊆ visits → P visited → (∃ w ∈ visited, v ∈ s.viewsAbove w) →
      (∀ w ∈ visited, w.1.name ≠ v.1.name) → P (visited ++ [v])) : P visits := by
  have htake (n : Nat) : P (visits.take (n + 1)) := by
    induction n with
    | zero =>
      rw [List.take_add_one, h.first]
      exact start
    | succ n ih =>
      rw [List.take_add_one]
      cases hv : visits[n + 1]? with
      | none => simpa using ih
      | some v =>
        obtain ⟨habove, hnew⟩ := nextView?_eq_some ((h.next n).symm.trans hv)
        exact step _ v (List.take_subset ..) ih habove hnew
  have hall := htake visits.length
  rwa [List.take_of_length_le (Nat.le_succ _)] at hall

theorem nodup (h : s.BreadthFirst t visits) : (visits.map (·.1.name)).Nodup := by
  refine h.induction (List.nodup_singleton _) fun visited v _ hnodup _ hnew => ?_
  rw [List.map_append, List.map_singleton, ← List.concat_eq_append]
  refine hnodup.concat fun hmem => ?_
  obtain ⟨w, hw, hname⟩ := List.mem_map.1 hmem
  exact hnew w hw hname

theorem forall_mem {P : View → Prop} (h : s.BreadthFirst t visits) (start : P (t, []))
    (step : ∀ w v, P w → v ∈ s.viewsAbove w → P v) : ∀ v ∈ visits, P v := by
  refine h.induction (List.forall_mem_singleton.2 start) fun visited v _ ih habove _ => ?_
  obtain ⟨w, hw, hv⟩ := habove
  exact List.forall_mem_append.2 ⟨ih, List.forall_mem_singleton.2 (step w v (ih w hw) hv)⟩

theorem declared (h : s.BreadthFirst t visits) (ht : s.type? t.name = some t) :
    ∀ v ∈ visits, s.type? v.1.name = some v.1 := by
  refine h.forall_mem ht fun w v _ hv => ?_
  obtain ⟨_, _, _, _, hdeclared, _⟩ := mem_viewsAbove_iff.1 hv
  exact hdeclared

/-- The visits do not end before every declared supertype has been visited. -/
theorem closed (h : s.BreadthFirst t visits) {w : View} (hv : v ∈ visits) (hw : w ∈ s.viewsAbove v) :
    w.1.name ∈ visits.map (·.1.name) := by
  obtain ⟨n, hn⟩ := Nat.exists_eq_add_one_of_ne_zero (Nat.ne_of_gt (List.length_pos_of_mem hv))
  have hend := h.next n
  rw [← hn, List.take_length, List.getElem?_eq_none (Nat.le_refl _), nextView?, eq_comm,
    List.find?_eq_none] at hend
  have hold := hend w (List.mem_flatMap.2 ⟨v, hv, hw⟩)
  rw [Walk.all_ne_iff] at hold
  exact not_not.1 hold

end BreadthFirst

/-- No supertype of the type is a type variable. -/
def NamesSupertypes (t : DeclaredType) : Prop :=
  ∀ r ∈ t.supertypes, ∀ name owner, r ≠ .typeVar name owner

instance (t : DeclaredType) : Decidable (NamesSupertypes t) :=
  decidable_of_iff (∀ r ∈ t.supertypes, r matches .typeVar .. → False)
    (forall₂_congr fun r _ => by cases r <;> simp)

/-- A supertype of the type is a reference to the other, which is declared. -/
def Extends (s : SymbolTable) (t u : DeclaredType) : Prop :=
  (∃ args, .declared u.name args ∈ t.supertypes) ∧ s.type? u.name = some u

theorem exists_declared_of_substitute {t : DeclaredType} (hn : NamesSupertypes t) {r : TypeRef}
    (hr : r ∈ t.supertypes) {owner : String} {bindings : Bindings} {name : String}
    {args : List TypeRef} (h : r.substitute owner bindings = .declared name args) :
    ∃ written, r = .declared name written ∧
      args = TypeRef.substituteAll owner bindings written := by
  cases r with
  | declared name' written =>
    rw [TypeRef.substitute, TypeRef.declared.injEq] at h
    exact ⟨written, by rw [h.1], h.2.symm⟩
  | typeVar name' owner' => exact absurd rfl (hn _ hr name' owner')
  | primitive name' => rw [TypeRef.substitute] at h; cases h
  | wildcard upper lower => rw [TypeRef.substitute] at h; cases h
  | array component => rw [TypeRef.substitute] at h; cases h

/-- Where no supertype is a type variable, the types that are visited are those that are reached over
supertypes as they are written. -/
theorem BreadthFirst.mem_iff_reaches (h : s.BreadthFirst t visits) (ht : s.type? t.name = some t)
    (hn : ∀ u ∈ s.types, NamesSupertypes u) :
    u ∈ visits.map (·.1) ↔ Relation.ReflTransGen s.Extends t u := by
  constructor
  · intro hu
    obtain ⟨v, hv, rfl⟩ := List.mem_map.1 hu
    have hall : ∀ v ∈ visits,
        s.type? v.1.name = some v.1 ∧ Relation.ReflTransGen s.Extends t v.1 := by
      refine h.forall_mem ⟨ht, .refl⟩ fun w v hw hv => ?_
      obtain ⟨r, hr, args, heq, hdeclared, -⟩ := mem_viewsAbove_iff.1 hv
      obtain ⟨written, rfl, -⟩ := exists_declared_of_substitute (hn _ (type?_mem hw.1)) hr heq
      exact ⟨hdeclared, hw.2.tail ⟨⟨written, hr⟩, hdeclared⟩⟩
    exact (hall v hv).2
  · intro hreach
    induction hreach with
    | refl => exact List.mem_map.2 ⟨_, List.mem_of_getElem? h.first, rfl⟩
    | @tail a b _ hb ih =>
      obtain ⟨v, hv, rfl⟩ := List.mem_map.1 ih
      obtain ⟨⟨args, hr⟩, hdeclared⟩ := hb
      have habove : (b, parameterBindings b.typeParameters
          (TypeRef.substituteAll v.1.name v.2 args)) ∈ s.viewsAbove v :=
        mem_viewsAbove_iff.2 ⟨_, hr, _, rfl, hdeclared, rfl⟩
      obtain ⟨w, hw, hname⟩ := List.mem_map.1 (h.closed hv habove)
      have hsame := h.declared ht w hw
      rw [hname, hdeclared] at hsame
      exact List.mem_map.2 ⟨w, hw, (Option.some.inj hsame).symm⟩

/-! ### What is inherited -/

/-- The methods of a type of whose shape none of the types before declares one. -/
def unhidden (before : List View) (u : DeclaredType) : List Method :=
  u.methods.filter fun m => ∀ v ∈ before, ∀ m' ∈ v.1.methods, ¬m'.SameShape m

/-- The unhidden methods of the visited types, one type after the other, as they are seen from
below. -/
def exposed (before : List View) : List View → List Method
  | [] => []
  | v :: visits =>
    (unhidden before v.1).map (·.substitute v.1.name v.2) ++ exposed (before ++ [v]) visits

/-- Methods of one type do not hide each other: of one shape, all are hidden or none. -/
theorem mem_unhidden_of_sameShape {m m' : Method} (h : m.SameShape m') (hm' : m' ∈ u.methods)
    (hm : m ∈ unhidden before u) : m' ∈ unhidden before u := by
  rw [unhidden, List.mem_filter, decide_eq_true_iff] at hm ⊢
  exact ⟨hm', fun v hv m₀ hm₀ hshape => hm.2 v hv m₀ hm₀ (hshape.trans h.symm)⟩

/-- The methods found so far hide what the types gone through do. -/
def Covers (before : List View) (found : List Method) : Prop :=
  ∀ m, found.any (·.overrides m) = true ↔ ∃ v ∈ before, ∃ m' ∈ v.1.methods, m'.SameShape m

theorem addMethods_eq {found : List Method} (h : Covers before found) (v : View) :
    addMethods found v = found ++ (unhidden before v.1).map (·.substitute v.1.name v.2) := by
  have hsame : (v.1.methods.filter fun m => !found.any (·.overrides m)) = unhidden before v.1 := by
    apply List.filter_congr
    intro m _
    rw [Bool.eq_iff_iff, Bool.not_eq_true', ← Bool.not_eq_true, h m, decide_eq_true_iff]
    simp
  rw [addMethods, hsame]

/-- A method that is hidden is hidden by one of its shape, which goes on to hide what it would have
hidden itself. -/
theorem Covers.addMethods {found : List Method} (h : Covers before found) (v : View) :
    Covers (before ++ [v]) (addMethods found v) := by
  intro m
  rw [addMethods_eq h, List.any_append, Bool.or_eq_true, h m, List.any_map, List.any_eq_true]
  constructor
  · rintro (⟨w, hw, hhides⟩ | ⟨m', hm', hshape⟩)
    · exact ⟨w, List.mem_append_left _ hw, hhides⟩
    · have hshape' : m'.SameShape m :=
        (m'.substitute_sameShape v.1.name v.2).symm.trans (Method.overrides_iff.1 hshape)
      exact ⟨v, by simp, m', (List.mem_filter.1 hm').1, hshape'⟩
  · rintro ⟨w, hw, m', hm', hshape⟩
    rcases List.mem_append.1 hw with hw | hw
    · exact .inl ⟨w, hw, m', hm', hshape⟩
    obtain rfl := List.mem_singleton.1 hw
    by_cases hhidden : ∃ u ∈ before, ∃ m₀ ∈ u.1.methods, m₀.SameShape m'
    · obtain ⟨u, hu, m₀, hm₀, hshape₀⟩ := hhidden
      exact .inl ⟨u, hu, m₀, hm₀, hshape₀.trans hshape⟩
    · refine .inr ⟨m', List.mem_filter.2 ⟨hm', ?_⟩, ?_⟩
      · simpa using hhidden
      · exact Method.overrides_iff.2 ((m'.substitute_sameShape w.1.name w.2).trans hshape)

theorem foldl_addMethods {found : List Method} (h : Covers before found) (visits : List View) :
    visits.foldl addMethods found = found ++ exposed before visits := by
  induction visits generalizing before found with
  | nil => rw [List.foldl_nil, exposed, List.append_nil]
  | cons v visits ih =>
    rw [List.foldl_cons, ih (h.addMethods v), addMethods_eq h, exposed, List.append_assoc]

theorem allMethods_eq (s : SymbolTable) (t : DeclaredType) :
    s.allMethods t = exposed [] (s.lineage t) := by
  have hnothing : Covers [] [] := fun m => by simp
  rw [allMethods, foldl_addMethods hnothing, List.nil_append]

theorem mem_exposed_iff : m ∈ exposed before visits ↔
    ∃ pre v post, visits = pre ++ v :: post ∧
      ∃ m₀ ∈ unhidden (before ++ pre) v.1, m = m₀.substitute v.1.name v.2 := by
  induction visits generalizing before with
  | nil => simp [exposed]
  | cons v visits ih =>
    rw [exposed, List.mem_append, ih]
    constructor
    · rintro (hm | ⟨pre, v', post, rfl, hm⟩)
      · obtain ⟨m₀, hm₀, rfl⟩ := List.mem_map.1 hm
        exact ⟨[], v, visits, rfl, m₀, by rwa [List.append_nil], rfl⟩
      · refine ⟨v :: pre, v', post, rfl, ?_⟩
        rwa [List.append_cons]
    · rintro ⟨pre, v', post, heq, m₀, hm₀, rfl⟩
      cases pre with
      | nil =>
        rw [List.nil_append, List.cons.injEq] at heq
        obtain ⟨rfl, rfl⟩ := heq
        rw [List.append_nil] at hm₀
        exact .inl (List.mem_map_of_mem hm₀)
      | cons v₀ pre =>
        rw [List.cons_append, List.cons.injEq] at heq
        obtain ⟨rfl, rfl⟩ := heq
        exact .inr ⟨pre, v', post, rfl, m₀, by rwa [List.append_cons] at hm₀, rfl⟩

theorem forall_mem_allMethods {P : Method → Prop} : (∀ m ∈ s.allMethods t, P m) ↔
    ∀ before v after, s.lineage t = before ++ v :: after →
      ∀ m ∈ unhidden before v.1, P (m.substitute v.1.name v.2) := by
  rw [allMethods_eq]
  constructor
  · intro h before v after heq m hm
    exact h _ (mem_exposed_iff.2 ⟨before, v, after, heq, m, by rwa [List.nil_append], rfl⟩)
  · intro h m hm
    obtain ⟨before, v, after, heq, m₀, hm₀, rfl⟩ := mem_exposed_iff.1 hm
    exact h before v after heq m₀ (by rwa [List.nil_append] at hm₀)

theorem exists_of_mem_allMethods (hm : m ∈ s.allMethods t) :
    ∃ v ∈ s.lineage t, ∃ m₀ ∈ v.1.methods, m = m₀.substitute v.1.name v.2 := by
  rw [allMethods_eq] at hm
  obtain ⟨pre, v, post, heq, m₀, hm₀, rfl⟩ := mem_exposed_iff.1 hm
  exact ⟨v, by simp [heq], m₀, (List.mem_filter.1 hm₀).1, rfl⟩

/-- The methods of a declared type, its own and inherited, are those of the types that are visited from
it breadth first, the superclass before the interfaces and each type once; of each type those in order
of whose name and number of parameters no type visited before declares one, whether or not others of
the type itself are. -/
theorem allMethods_breadthFirst (ht : s.type? t.name = some t) :
    ∃ visits, (∀ vs, s.BreadthFirst t vs ↔ vs = visits) ∧ (visits.map (·.1.name)).Nodup ∧
      ((∀ u ∈ s.types, NamesSupertypes u) →
        ∀ u, u ∈ visits.map (·.1) ↔ Relation.ReflTransGen s.Extends t u) ∧
      s.allMethods t = exposed [] visits ∧
      ∀ before u, ∀ m ∈ unhidden before u, ∀ m' ∈ u.methods, m.SameShape m' →
        m' ∈ unhidden before u := by
  have hvisits := s.breadthFirst_lineage t
  refine ⟨s.lineage t, fun vs => ⟨fun h => h.unique hvisits, fun h => h ▸ hvisits⟩, hvisits.nodup,
    fun hn u => hvisits.mem_iff_reaches ht hn, s.allMethods_eq t, ?_⟩
  intro before u m hm m' hm' hshape
  exact mem_unhidden_of_sameShape hshape hm' hm

/-- A class with nothing but type parameters, supertypes and methods. -/
def plainType (name : String) (parameters : List TypeParameter) (superclass : Option TypeRef)
    (interfaces : List TypeRef) (methods : List Method) : DeclaredType :=
  ⟨name, none, none, none, .classType, [], [], parameters, superclass, interfaces, [], methods, [], []⟩

/-- A method with nothing but its signature. -/
def plainMethod (name : String) (parameters : List TypeRef) (result : TypeRef) : Method :=
  ⟨name, [], [], [], parameters.map (⟨"x", ·, []⟩), some result⟩

def text : TypeRef := .declared "java.lang.String" []

def bottomType : DeclaredType :=
  plainType "a.Bottom" [] (some (.declared "a.Left" [text])) [.declared "a.Right" []] []

/-- Both sides of the diamond extend the type at its top, which extends the one at its bottom in turn.
One side has overloads of one shape, the other hides what is inherited from the top. -/
def diamond : SymbolTable :=
  let left : TypeRef := .typeVar "T" (.type "a.Left")
  let top : TypeRef := .typeVar "T" (.type "a.Top")
  ⟨[bottomType,
    plainType "a.Top" [⟨"T", []⟩] (some (.declared "a.Bottom" [])) []
      [plainMethod "get" [] top, plainMethod "find" [] (.array top)],
    plainType "a.Left" [⟨"T", []⟩] (some (.declared "a.Top" [.array left])) []
      [plainMethod "put" [left] left, plainMethod "put" [.array left] left],
    plainType "a.Right" [] (some (.declared "a.Top" [])) [] [plainMethod "get" [] text]], []⟩

theorem allMethods_breadthFirst_diamond : ∃ visits, diamond.BreadthFirst bottomType visits ∧
    visits.map (·.1.name) = ["a.Bottom", "a.Left", "a.Right", "a.Top"] ∧
    diamond.allMethods bottomType = exposed [] visits ∧
    (exposed [] visits).map (fun m => (m.name, m.parameters.map (·.type), m.returnType)) =
      [("put", [text], some text), ("put", [.array text], some text), ("get", [], some text),
        ("find", [], some (.array (.array text)))] := by
  obtain ⟨visits, hunique, -, -, hmethods, -⟩ :=
    allMethods_breadthFirst (s := diamond) (t := bottomType) rfl
  obtain rfl := (hunique _).1 (diamond.breadthFirst_lineage bottomType)
  exact ⟨_, (hunique _).2 rfl, by decide +kernel, hmethods, by with_unfolding_all rfl⟩

end SymbolTable

end ClientBindings
