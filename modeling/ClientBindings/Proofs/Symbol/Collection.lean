import Mathlib.Order.Bounds.Defs
import Mathlib.Data.Set.Defs
import ClientBindings.Proofs.Symbol.Annotations

/-! Collecting annotations opens each name once. Expansion is a sequence of blocks, one for each
name that is opened; the recursion into one declaration after the other, with the names that it has
visited, finds the same blocks in the same order and is never nested deeper than there are names. -/
namespace ClientBindings

namespace Traversal

/-- Expansion puts the successors of different names one after the other, those of every name that
occurs among the roots or further on and can be expanded. -/
theorem exists_opened {α : Type} (key : α → String) (next : String → List α) (names : List String)
    (pending : List α) :
    ∃ opened : List String, opened.Nodup ∧
      expand key next names pending = opened.flatMap next ∧
      ∀ n, n ∈ opened ↔ n ∈ names ∧ ∃ a ∈ pending ++ expand key next names pending, key a = n := by
  induction names, pending using expand.induct key next with
  | case1 names => exact ⟨[], List.nodup_nil, by simp [expand], by simp [expand]⟩
  | case2 names a pending ha ih =>
    simp only [List.unattach_filter, List.unattach_attach] at ih
    obtain ⟨opened, hnodup, heq, hopened⟩ := ih
    refine ⟨key a :: opened, ?_, ?_, ?_⟩
    · refine List.nodup_cons.2 ⟨fun hmem => ?_, hnodup⟩
      simpa using ((hopened _).1 hmem).1
    · rw [expand, if_pos ha, heq, List.flatMap_cons]
    · intro n
      rw [expand, if_pos ha, List.mem_cons, hopened]
      constructor
      · rintro (rfl | ⟨hn, b, hb, rfl⟩)
        · exact ⟨ha, a, by simp, rfl⟩
        · refine ⟨(List.mem_filter.1 hn).1, b, ?_, rfl⟩
          rw [List.mem_append, List.mem_append] at hb
          rcases hb with (hb | hb) | hb <;> simp [hb]
      · rintro ⟨hn, b, hb, rfl⟩
        by_cases hba : key b = key a
        · exact .inl hba
        · refine .inr ⟨List.mem_filter.2 ⟨hn, by simpa using hba⟩, b, ?_, rfl⟩
          rw [List.cons_append, List.mem_cons, List.mem_append, List.mem_append] at hb
          rcases hb with rfl | hb | hb | hb
          · exact absurd rfl hba
          all_goals simp [hb]
  | case3 names a pending ha ih =>
    obtain ⟨opened, hnodup, heq, hopened⟩ := ih
    refine ⟨opened, hnodup, by rw [expand, if_neg ha, heq], ?_⟩
    intro n
    rw [expand, if_neg ha, hopened]
    constructor
    · rintro ⟨hn, b, hb, hkey⟩
      exact ⟨hn, b, by simpa using .inr (by simpa using hb), hkey⟩
    · rintro ⟨hn, b, hb, rfl⟩
      rw [List.cons_append, List.mem_cons] at hb
      rcases hb with rfl | hb
      · exact absurd hn ha
      · exact ⟨hn, b, hb, rfl⟩

end Traversal

namespace SymbolTable

variable {s : SymbolTable} {annotations direct new : List Annotation} {a : Annotation}

/-- What collecting has in hand: the names that were visited and the annotations so far. -/
structure Collecting where
  visited : List String
  found : List Annotation

/-- Visits one annotation, with `collect` for those on its declaration. -/
def visit (s : SymbolTable) (collect : List Annotation → Collecting → Option Collecting)
    (g : Collecting) (a : Annotation) : Option Collecting :=
  if Text.startsWith Marker.metaNamespace a.name then some g
  else if a.name ∈ g.visited then some g
  else match s.declaredAnnotation? a.name with
    | none => some { g with visited := a.name :: g.visited }
    | some t => collect t.annotations { g with visited := a.name :: g.visited }

/-- Adds annotations to those found and visits them in order, nested at most so deep. -/
def collectWithin (s : SymbolTable) : Nat → List Annotation → Collecting → Option Collecting
  | 0, _, _ => none
  | depth + 1, direct, g =>
    direct.foldlM (s.visit (s.collectWithin depth)) { g with found := g.found ++ direct }

/-- The names that can still be opened. -/
def unvisited (s : SymbolTable) (visited : List String) : List String :=
  s.openAnnotationNames.filter fun n => n ∉ visited

theorem mem_unvisited {n : String} {visited : List String} :
    n ∈ s.unvisited visited ↔ n ∈ s.openAnnotationNames ∧ n ∉ visited := by
  simp [unvisited]

theorem unvisited_cons {n : String} {visited : List String} :
    s.unvisited (n :: visited) = (s.unvisited visited).filter (· != n) := by
  rw [unvisited, unvisited, List.filter_filter]
  apply List.filter_congr
  intro m _
  by_cases hm : m = n <;> simp [hm]

theorem length_unvisited_le {visited visited' : List String} (h : ∀ n ∈ visited, n ∈ visited') :
    (s.unvisited visited').length ≤ (s.unvisited visited).length := by
  rw [unvisited, unvisited, ← List.countP_eq_length_filter, ← List.countP_eq_length_filter]
  apply List.countP_mono_left
  intro n _ hn
  simp only [decide_eq_true_eq] at hn ⊢
  exact fun hmem => hn (h n hmem)

theorem length_unvisited_cons_lt {n : String} {visited : List String}
    (h : n ∈ s.unvisited visited) :
    (s.unvisited (n :: visited)).length < (s.unvisited visited).length := by
  rw [unvisited_cons]
  exact List.length_filter_lt_length_iff_exists.2 ⟨n, h, by simp⟩

/-- Visiting these annotations goes from one state to the other and finds what expanding them finds,
so that the expansion of whatever else is pending goes on with the names that are left. -/
structure Visits (s : SymbolTable) (direct : List Annotation) (g : Collecting)
    (new : List Annotation) (g' : Collecting) : Prop where
  found : g'.found = g.found ++ new
  visited : ∀ n ∈ g.visited, n ∈ g'.visited
  expand : ∀ pending, Traversal.expand Annotation.name s.metaAnnotations (s.unvisited g.visited)
      (direct ++ pending) =
    new ++ Traversal.expand Annotation.name s.metaAnnotations (s.unvisited g'.visited) pending

namespace Visits

variable {g g' g'' : Collecting}

theorem nil (g : Collecting) : s.Visits [] g [] g :=
  ⟨(List.append_nil _).symm, fun _ hn => hn, fun _ => rfl⟩

theorem cons {new' : List Annotation} (h : s.Visits [a] g new g')
    (hrest : s.Visits direct g' new' g'') : s.Visits (a :: direct) g (new ++ new') g'' := by
  refine ⟨?_, fun n hn => hrest.visited n (h.visited n hn), fun pending => ?_⟩
  · rw [hrest.found, h.found, List.append_assoc]
  · rw [List.append_assoc, ← hrest.expand, ← h.expand]
    rfl

/-- An annotation that is not opened adds nothing. -/
theorem closed (h : a.name ∉ s.unvisited g.visited) : s.Visits [a] g [] g := by
  refine ⟨(List.append_nil _).symm, fun _ hn => hn, fun pending => ?_⟩
  rw [List.singleton_append, Traversal.expand, if_neg h]
  rfl

/-- Nor does one that is declared nowhere, though it counts as visited. -/
theorem undeclared (h : a.name ∉ s.openAnnotationNames) :
    s.Visits [a] g [] { g with visited := a.name :: g.visited } := by
  refine ⟨(List.append_nil _).symm, fun _ hn => List.mem_cons_of_mem _ hn, fun pending => ?_⟩
  have hkeep : s.unvisited (a.name :: g.visited) = s.unvisited g.visited := by
    rw [unvisited_cons, List.filter_eq_self]
    intro n hn
    have hne : n ≠ a.name := fun heq => h (heq ▸ (mem_unvisited.1 hn).1)
    simpa using hne
  rw [List.singleton_append, Traversal.expand, if_neg fun hmem => h (mem_unvisited.1 hmem).1, hkeep]
  rfl

/-- One that is opened adds the annotations on its declaration and what these lead to. -/
theorem opened (h : a.name ∈ s.unvisited g.visited)
    (hin : s.Visits (s.metaAnnotations a.name)
      ⟨a.name :: g.visited, g.found ++ s.metaAnnotations a.name⟩ new g') :
    s.Visits [a] g (s.metaAnnotations a.name ++ new) g' := by
  refine ⟨?_, fun n hn => hin.visited n (List.mem_cons_of_mem _ hn), fun pending => ?_⟩
  · rw [hin.found, List.append_assoc]
  · rw [List.singleton_append, Traversal.expand, if_pos h, ← unvisited_cons, hin.expand,
      List.append_assoc]

end Visits

/-- A name that can be opened is one that is declared, in no reserved namespace. -/
theorem mem_openAnnotationNames_iff {name : String} : name ∈ s.openAnnotationNames ↔
    (s.declaredAnnotation? name).isSome = true ∧
      Text.startsWith Marker.metaNamespace name = false := by
  rw [openAnnotationNames, List.mem_filter, List.mem_append, declaredAnnotation?, annotationType?,
    Catalog.annotationType?, Option.isSome_or, Bool.or_eq_true, List.find?_isSome,
    List.find?_isSome]
  simp [List.mem_map]

theorem collectWithin_succ (depth : Nat) (g : Collecting) : s.collectWithin (depth + 1) direct g =
    direct.foldlM (s.visit (s.collectWithin depth)) { g with found := g.found ++ direct } := rfl

variable {g : Collecting}

/-- Visiting annotations in order visits them all, if what is on their declarations is collected. -/
theorem foldlM_visits {collect : List Annotation → Collecting → Option Collecting}
    (hvisit : ∀ (a : Annotation) (h : Collecting), (∀ n ∈ g.visited, n ∈ h.visited) →
      ∃ h' new, s.visit collect h a = some h' ∧ s.Visits [a] h new h') :
    ∃ g' new, direct.foldlM (s.visit collect) g = some g' ∧ s.Visits direct g new g' := by
  induction direct generalizing g with
  | nil => exact ⟨g, [], rfl, .nil g⟩
  | cons a direct ih =>
    obtain ⟨h, new, hstep, hone⟩ := hvisit a g fun _ hn => hn
    obtain ⟨g', new', hfold, hrest⟩ := ih (g := h) fun b h' hle =>
      hvisit b h' fun n hn => hle n (hone.visited n hn)
    refine ⟨g', new ++ new', ?_, hone.cons hrest⟩
    rw [List.foldlM_cons, hstep]
    exact hfold

/-- Collecting ends at any depth that exceeds the number of names left to be opened. -/
theorem collectWithin_visits (depth : Nat) (direct : List Annotation) (g : Collecting)
    (h : (s.unvisited g.visited).length < depth) :
    ∃ g' new, s.collectWithin depth direct g = some g' ∧
      s.Visits direct ⟨g.visited, g.found ++ direct⟩ new g' := by
  induction depth generalizing direct g with
  | zero => omega
  | succ depth ih =>
    rw [collectWithin_succ]
    apply foldlM_visits
    intro a h' hle
    rw [visit]
    cases ho : Text.startsWith Marker.metaNamespace a.name with
    | true =>
      refine ⟨h', [], rfl, .closed fun hmem => ?_⟩
      simpa [ho] using (mem_openAnnotationNames_iff.1 (mem_unvisited.1 hmem).1).2
    | false =>
      rw [if_neg (by simp)]
      by_cases hseen : a.name ∈ h'.visited
      · rw [if_pos hseen]
        exact ⟨h', [], rfl, .closed fun hmem => (mem_unvisited.1 hmem).2 hseen⟩
      · rw [if_neg hseen]
        cases hd : s.declaredAnnotation? a.name with
        | none =>
          refine ⟨_, [], rfl, .undeclared fun hmem => ?_⟩
          simpa [hd] using (mem_openAnnotationNames_iff.1 hmem).1
        | some t =>
          have hopen : a.name ∈ s.unvisited h'.visited :=
            mem_unvisited.2 ⟨mem_openAnnotationNames_iff.2 ⟨by simp [hd], ho⟩, hseen⟩
          have hless : (s.unvisited (a.name :: h'.visited)).length < depth := by
            have hfewer := length_unvisited_cons_lt hopen
            have hle := length_unvisited_le (s := s) hle
            simp only at hle
            omega
          obtain ⟨g', new, hcollect, hin⟩ :=
            ih t.annotations ⟨a.name :: h'.visited, h'.found⟩ hless
          have hmeta : s.metaAnnotations a.name = t.annotations := by
            rw [metaAnnotations, hd]
            rfl
          exact ⟨g', _, hcollect, .opened hopen (hmeta ▸ hin)⟩

theorem collectWithin_eq (s : SymbolTable) (annotations : List Annotation) (more : Nat) :
    ∃ visited, s.collectWithin (s.openAnnotationNames.length + 1 + more) annotations ⟨[], []⟩ =
      some ⟨visited, s.collectAnnotations annotations⟩ := by
  have hall : s.unvisited [] = s.openAnnotationNames := by
    simp [unvisited]
  obtain ⟨⟨visited, found⟩, new, hcollect, hvisits⟩ :=
    collectWithin_visits (s := s) (s.openAnnotationNames.length + 1 + more) annotations ⟨[], []⟩
      (by simp only [hall]; omega)
  have hexpand := hvisits.expand []
  rw [hall, List.append_nil, Traversal.expand, List.append_nil] at hexpand
  have hfound : found = annotations ++ new := hvisits.found
  exact ⟨visited, by rw [hcollect, collectAnnotations, hexpand, hfound]⟩

/-- A set of names that holds those of the annotations on an element and, with each that is looked
into, those of the annotations on its declaration. -/
structure Closed (s : SymbolTable) (annotations : List Annotation) (names : Set String) : Prop where
  written : ∀ a ∈ annotations, a.name ∈ names
  above : ∀ n ∈ names, Text.startsWith Marker.metaNamespace n = false →
    ∀ b ∈ s.metaAnnotations n, b.name ∈ names

theorem closed_found : s.Closed annotations {n | ∃ a, s.Finds annotations a ∧ a.name = n} where
  written a ha := ⟨a, .written ha, rfl⟩
  above := by
    rintro _ ⟨a, ha, rfl⟩ ho b hb
    exact ⟨b, .above ha ho hb, rfl⟩

theorem Closed.mem_of_finds {names : Set String} (hn : s.Closed annotations names)
    (h : s.Finds annotations a) : a.name ∈ names := by
  induction h with
  | written ha => exact hn.written _ ha
  | above _ ho hb ih => exact hn.above _ ih ho _ hb

/-- Collecting ends whatever declarations the export has. It gives the annotations on the element
and then those on the declarations of some names, each name once: of the names that occur among the
collected annotations, are declared, and are not reserved. The names of what is collected are the
least set that holds those on the element and is closed under looking into declarations. -/
theorem collectAnnotations_least (s : SymbolTable) (annotations : List Annotation) :
    (∀ more, ∃ visited,
      s.collectWithin (s.openAnnotationNames.length + 1 + more) annotations ⟨[], []⟩ =
        some ⟨visited, s.collectAnnotations annotations⟩) ∧
    IsLeast {names | s.Closed annotations names}
      {n | ∃ a ∈ s.collectAnnotations annotations, a.name = n} ∧
    ∃ opened : List String, opened.Nodup ∧
      s.collectAnnotations annotations = annotations ++ opened.flatMap s.metaAnnotations ∧
      ∀ n, n ∈ opened ↔ (s.declaredAnnotation? n).isSome = true ∧
        Text.startsWith Marker.metaNamespace n = false ∧
        ∃ a ∈ s.collectAnnotations annotations, a.name = n := by
  refine ⟨collectWithin_eq s annotations, ⟨?_, ?_⟩, ?_⟩
  · simp only [mem_collectAnnotations_iff]
    exact closed_found
  · rintro names hnames _ ⟨a, ha, rfl⟩
    exact hnames.mem_of_finds (mem_collectAnnotations_iff.1 ha)
  · obtain ⟨opened, hnodup, heq, hopened⟩ := Traversal.exists_opened Annotation.name
      s.metaAnnotations s.openAnnotationNames annotations
    refine ⟨opened, hnodup, by rw [collectAnnotations, heq], fun n => ?_⟩
    rw [hopened, mem_openAnnotationNames_iff, and_assoc]
    rfl

end SymbolTable

end ClientBindings
