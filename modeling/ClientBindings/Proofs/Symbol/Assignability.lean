import Mathlib.Logic.Relation
import ClientBindings.Symbol.Hierarchy
import ClientBindings.Proofs.Symbol.Annotations

/-! Assignability by name is reachability along the declared supertypes and those of the library. It
is searched for with a stack of names: the search only looks at names above the first one, forgets
none of them, and never looks at the supertypes of a name twice, so it ends with the right answer
whatever cycles and diamonds the hierarchy has. -/
namespace ClientBindings.SymbolTable

/-- One step up the hierarchy: a declared superclass or interface, by the name of the reference, or
a supertype that the library is known to have. -/
inductive HasSupertype (s : SymbolTable) : String → String → Prop
  | declared {name above : String} {t : DeclaredType} {r : TypeRef} (ht : s.type? name = some t)
      (hr : t.superclass = some r ∨ r ∈ t.interfaces) (hname : r.name? = some above) :
      HasSupertype s name above
  | library {name above : String} (h : above ∈ Catalog.supertypes name) : HasSupertype s name above

variable {s : SymbolTable} {name above target : String}

theorem mem_supertypeNames_iff : above ∈ s.supertypeNames name ↔ s.HasSupertype name above := by
  rw [supertypeNames, List.mem_append, List.mem_filterMap]
  constructor
  · rintro (⟨r, hr, hname⟩ | h)
    · cases ht : s.type? name with
      | none => simp [ht] at hr
      | some t =>
        rw [ht, Option.map_some, Option.getD_some, DeclaredType.supertypes, List.mem_append,
          Option.mem_toList] at hr
        exact .declared ht hr hname
    · exact .library h
  · intro h
    cases h with
    | @declared t r ht hr hname =>
      refine .inl ⟨r, ?_, hname⟩
      rw [ht, Option.map_some, Option.getD_some, DeclaredType.supertypes, List.mem_append,
        Option.mem_toList]
      exact hr
    | library h => exact .inr h

/-- Whatever has a supertype is declared, or is one of the library types in the table. -/
theorem HasSupertype.mem_hierarchyNames (h : s.HasSupertype name above) :
    name ∈ s.hierarchyNames := by
  rw [hierarchyNames, List.mem_append]
  cases h with
  | @declared t _ ht _ _ =>
    refine .inl (List.mem_map.2 ⟨t, List.mem_of_find?_eq_some ht, ?_⟩)
    simpa using List.find?_some ht
  | library h =>
    rw [Catalog.supertypes] at h
    cases hrow : Catalog.supertypeRows.lookup name with
    | none => simp [hrow] at h
    | some row =>
      obtain ⟨before, after, heq, _⟩ := List.lookup_eq_some_iff.1 hrow
      rw [heq]
      exact .inr (by simp)

theorem supertypeNames_eq_nil (h : name ∉ s.hierarchyNames) : s.supertypeNames name = [] := by
  apply List.eq_nil_iff_forall_not_mem.2
  intro above habove
  exact h (mem_supertypeNames_iff.1 habove).mem_hierarchyNames

/-- What lies below a name in the expansion of the hierarchy lies above it in the hierarchy. -/
theorem below_iff_transGen :
    Traversal.Below id s.supertypeNames s.hierarchyNames [name] target ↔
      Relation.TransGen s.HasSupertype name target := by
  constructor
  · intro h
    induction h with
    | child ha _ hb =>
      obtain rfl := List.mem_singleton.1 ha
      exact .single (mem_supertypeNames_iff.1 hb)
    | deeper _ _ hb ih => exact ih.tail (mem_supertypeNames_iff.1 hb)
  · intro h
    induction h with
    | single h =>
      exact .child (List.mem_singleton_self _) h.mem_hierarchyNames (mem_supertypeNames_iff.2 h)
    | tail _ h ih => exact .deeper ih h.mem_hierarchyNames (mem_supertypeNames_iff.2 h)

theorem isAssignable_iff :
    s.isAssignable name target = true ↔ Relation.ReflTransGen s.HasSupertype name target := by
  rw [isAssignable, List.contains_iff_mem, List.mem_cons, Traversal.mem_expand_iff,
    below_iff_transGen, Relation.reflTransGen_iff_eq_or_transGen]

/-- A search up the hierarchy: the names that are still to be looked at, the last one put there
first, and those that have been. -/
structure Search where
  stack : List String
  seen : List String

namespace Search

variable {g g' : Search}

/-- The search for what lies above a name. -/
def start (name : String) : Search := ⟨[name], []⟩

/-- One turn: the answer, or the search that is left. -/
def step (s : SymbolTable) (target : String) : Search → Bool ⊕ Search
  | ⟨[], _⟩ => .inl false
  | ⟨name :: stack, seen⟩ =>
    if name = target then .inl true
    else if name ∈ seen then .inr ⟨stack, seen⟩
    else .inr ⟨(s.supertypeNames name).reverse ++ stack, name :: seen⟩

/-- The answer that is found within so many turns. -/
def run (s : SymbolTable) (target : String) : Nat → Search → Option Bool
  | 0, _ => none
  | turns + 1, g => match g.step s target with
    | .inl answer => some answer
    | .inr g' => run s target turns g'

/-- What a turn can be. -/
theorem step_cases (s : SymbolTable) (target : String) (g : Search) :
    (g.stack = [] ∧ g.step s target = .inl false) ∨
    ∃ name stack, g.stack = name :: stack ∧
      ((name = target ∧ g.step s target = .inl true) ∨
       (name ≠ target ∧ name ∈ g.seen ∧ g.step s target = .inr ⟨stack, g.seen⟩) ∨
       (name ≠ target ∧ name ∉ g.seen ∧ g.step s target =
          .inr ⟨(s.supertypeNames name).reverse ++ stack, name :: g.seen⟩)) := by
  obtain ⟨stack, seen⟩ := g
  cases stack with
  | nil => exact .inl ⟨rfl, rfl⟩
  | cons name stack =>
    refine .inr ⟨name, stack, rfl, ?_⟩
    by_cases htarget : name = target
    · exact .inl ⟨htarget, by simp [step, htarget]⟩
    · by_cases hseen : name ∈ seen
      · exact .inr (.inl ⟨htarget, hseen, by simp [step, htarget, hseen]⟩)
      · exact .inr (.inr ⟨htarget, hseen, by simp [step, htarget, hseen]⟩)

/-- The turns that a search can still take: one for each name on the stack, and for each name that
has not been looked at, one for each of its supertypes and one more. -/
def work (s : SymbolTable) (g : Search) : Nat :=
  g.stack.length +
    Traversal.pendingWork s.supertypeNames (s.hierarchyNames.filter fun n => n ∉ g.seen)

/-- Looking at a name that was not looked at before pays for its supertypes. -/
theorem pendingWork_seen_lt {seen : List String} (hseen : name ∉ seen) :
    (s.supertypeNames name).length +
        Traversal.pendingWork s.supertypeNames (s.hierarchyNames.filter fun n => n ∉ name :: seen) ≤
      Traversal.pendingWork s.supertypeNames (s.hierarchyNames.filter fun n => n ∉ seen) := by
  have hsplit : (s.hierarchyNames.filter fun n => n ∉ name :: seen) =
      (s.hierarchyNames.filter fun n => n ∉ seen).filter (· != name) := by
    rw [List.filter_filter]
    apply List.filter_congr
    intro n _
    by_cases hn : n = name <;> simp [hn]
  rw [hsplit]
  by_cases hname : name ∈ s.hierarchyNames
  · have hleft : name ∈ s.hierarchyNames.filter fun n => n ∉ seen := by
      simp [hname, hseen]
    have hpays := Traversal.pendingWork_filter_ne s.supertypeNames hleft
    omega
  · have hkeeps := Traversal.pendingWork_filter_le s.supertypeNames (· != name)
      (s.hierarchyNames.filter fun n => n ∉ seen)
    rw [supertypeNames_eq_nil hname]
    simpa using hkeeps

theorem work_step_lt (h : g.step s target = .inr g') : g'.work s < g.work s := by
  rcases step_cases s target g with ⟨_, hstep⟩ | ⟨name, stack, hstack, hcase⟩
  · simp [hstep] at h
  rcases hcase with ⟨_, hstep⟩ | ⟨_, _, hstep⟩ | ⟨_, hseen, hstep⟩
  · simp [hstep] at h
  · obtain rfl := Sum.inr.inj (hstep.symm.trans h)
    simp [work, hstack]
  · obtain rfl := Sum.inr.inj (hstep.symm.trans h)
    have hpays := pendingWork_seen_lt (s := s) hseen
    simp only [work, hstack, List.length_append, List.length_reverse, List.length_cons]
    omega

/-- What a search for the target keeps: the names on the stack lie above the first one; that one, and
each supertype of a name that was looked at, is on the stack or was looked at; the target was not. -/
structure Sound (s : SymbolTable) (first target : String) (g : Search) : Prop where
  above : ∀ n ∈ g.stack, Relation.ReflTransGen s.HasSupertype first n
  held : first ∈ g.seen ∨ first ∈ g.stack
  closed : ∀ n ∈ g.seen, ∀ m, s.HasSupertype n m → m ∈ g.seen ∨ m ∈ g.stack
  missed : target ∉ g.seen

variable {first : String}

theorem sound_start (s : SymbolTable) (first target : String) :
    (start first).Sound s first target where
  above n hn := by
    obtain rfl := List.mem_singleton.1 hn
    exact .refl
  held := .inr (List.mem_singleton_self _)
  closed n hn := absurd hn List.not_mem_nil
  missed := List.not_mem_nil

theorem Sound.step (hg : g.Sound s first target) (h : g.step s target = .inr g') :
    g'.Sound s first target := by
  rcases step_cases s target g with ⟨_, hstep⟩ | ⟨name, stack, hstack, hcase⟩
  · simp [hstep] at h
  have hname : Relation.ReflTransGen s.HasSupertype first name := hg.above name (by simp [hstack])
  have hrest : ∀ n ∈ stack, Relation.ReflTransGen s.HasSupertype first n := by
    intro n hn
    exact hg.above n (by simp [hstack, hn])
  rcases hcase with ⟨_, hstep⟩ | ⟨_, hseen, hstep⟩ | ⟨hne, hseen, hstep⟩
  · simp [hstep] at h
  · obtain rfl := Sum.inr.inj (hstep.symm.trans h)
    have hmoved : ∀ n, n ∈ g.seen ∨ n ∈ g.stack → n ∈ g.seen ∨ n ∈ stack := by
      rintro n (hn | hn)
      · exact .inl hn
      · rw [hstack, List.mem_cons] at hn
        exact hn.imp_left fun (heq : n = name) => heq ▸ hseen
    exact ⟨hrest, hmoved _ hg.held, fun n hn m hm => hmoved m (hg.closed n hn m hm), hg.missed⟩
  · obtain rfl := Sum.inr.inj (hstep.symm.trans h)
    have hmoved : ∀ n, n ∈ g.seen ∨ n ∈ g.stack →
        n ∈ name :: g.seen ∨ n ∈ (s.supertypeNames name).reverse ++ stack := by
      rintro n (hn | hn)
      · exact .inl (List.mem_cons_of_mem _ hn)
      · rw [hstack, List.mem_cons] at hn
        rcases hn with rfl | hn
        · exact .inl (List.mem_cons_self ..)
        · exact .inr (List.mem_append_right _ hn)
    refine ⟨?_, hmoved _ hg.held, ?_, ?_⟩
    · intro n hn
      rcases List.mem_append.1 hn with hn | hn
      · exact hname.tail (mem_supertypeNames_iff.1 (List.mem_reverse.1 hn))
      · exact hrest n hn
    · intro n hn m hm
      rcases List.mem_cons.1 hn with rfl | hn
      · exact .inr (List.mem_append_left _ (List.mem_reverse.2 (mem_supertypeNames_iff.2 hm)))
      · exact hmoved m (hg.closed n hn m hm)
    · simp [Ne.symm hne, hg.missed]

/-- A name above the first is in hand as long as what was looked at is closed: with nothing left on
the stack it has been looked at. -/
theorem Sound.mem_seen (hg : g.Sound s first target) (hstack : g.stack = [])
    (h : Relation.ReflTransGen s.HasSupertype first above) : above ∈ g.seen := by
  have hseen : ∀ n, n ∈ g.seen ∨ n ∈ g.stack → n ∈ g.seen := by
    simp [hstack]
  induction h with
  | refl => exact hseen _ hg.held
  | tail _ hm ih => exact hseen _ (hg.closed _ ih _ hm)

theorem Sound.answer {answer : Bool} (hg : g.Sound s first target)
    (h : g.step s target = .inl answer) :
    answer = true ↔ Relation.ReflTransGen s.HasSupertype first target := by
  rcases step_cases s target g with ⟨hstack, hstep⟩ | ⟨name, stack, hstack, hcase⟩
  · obtain rfl := Sum.inl.inj (hstep.symm.trans h)
    simpa using fun hreach => hg.missed (hg.mem_seen hstack hreach)
  rcases hcase with ⟨rfl, hstep⟩ | ⟨_, _, hstep⟩ | ⟨_, _, hstep⟩
  · obtain rfl := Sum.inl.inj (hstep.symm.trans h)
    simpa using hg.above name (by simp [hstack])
  · simp [hstep] at h
  · simp [hstep] at h

/-- A search with turns to spare ends, and its answer is right. -/
theorem Sound.run (hg : g.Sound s first target) {turns : Nat} (h : g.work s < turns) :
    ∃ answer, g.run s target turns = some answer ∧
      (answer = true ↔ Relation.ReflTransGen s.HasSupertype first target) := by
  induction turns generalizing g with
  | zero => omega
  | succ turns ih =>
    rw [Search.run]
    cases hstep : g.step s target with
    | inl answer => exact ⟨answer, rfl, hg.answer hstep⟩
    | inr g' =>
      have hless := work_step_lt hstep
      exact ih (hg.step hstep) (by omega)

end Search

/-- A type is assignable to those that are reached from it by going up the hierarchy, and the search
for one of them ends, after no more turns than there are names and supertypes in it. -/
theorem isAssignable_iff_reaches (s : SymbolTable) (name target : String) :
    (s.isAssignable name target = true ↔ Relation.ReflTransGen s.HasSupertype name target) ∧
    ∀ more, (Search.start name).run s target ((Search.start name).work s + 1 + more) =
      some (s.isAssignable name target) := by
  refine ⟨isAssignable_iff, fun more => ?_⟩
  have hturns : (Search.start name).work s < (Search.start name).work s + 1 + more := by omega
  obtain ⟨answer, hrun, hanswer⟩ := (Search.sound_start s name target).run hturns
  rw [hrun, Option.some.injEq, Bool.eq_iff_iff, hanswer, isAssignable_iff]

end ClientBindings.SymbolTable
