import ClientBindings.Symbol.Aliasing

/-! Which annotations are found on an element: expansion reaches all that lies below its roots, and
nothing else, although each name is expanded only once. -/
namespace ClientBindings

namespace Traversal

variable {α : Type} {key : α → String} {next : String → List α} {names : List String}
  {roots pending : List α} {a b : α}

/-- What comes after the roots, by names that are all among `names`. -/
inductive Below (key : α → String) (next : String → List α) (names : List String)
    (roots : List α) : α → Prop
  | child {a b : α} (ha : a ∈ roots) (hkey : key a ∈ names) (hb : b ∈ next (key a)) :
      Below key next names roots b
  | deeper {a b : α} (ha : Below key next names roots a) (hkey : key a ∈ names)
      (hb : b ∈ next (key a)) : Below key next names roots b

namespace Below

theorem mono {names' : List String} {roots' : List α} (h : Below key next names roots b)
    (hnames : ∀ n ∈ names, n ∈ names') (hroots : ∀ a ∈ roots, a ∈ roots') :
    Below key next names' roots' b := by
  induction h with
  | child ha hkey hb => exact .child (hroots _ ha) (hnames _ hkey) hb
  | deeper _ hkey hb ih => exact .deeper ih (hnames _ hkey) hb

/-- A root that cannot be expanded adds nothing. -/
theorem of_closed_root (h : Below key next names (a :: pending) b) (ha : key a ∉ names) :
    Below key next names pending b := by
  induction h with
  | child hc hkey hb =>
    rcases List.mem_cons.1 hc with rfl | hc
    · exact absurd hkey ha
    · exact .child hc hkey hb
  | deeper _ hkey hb ih => exact .deeper ih hkey hb

/-- Once a root has been expanded its name is not needed any more: what is reached by way of it, is
reached from its successors, which are roots then. -/
theorem of_expanded (h : Below key next names (a :: pending) b) :
    b ∈ next (key a) ∨
      Below key next (names.filter (· != key a)) (next (key a) ++ pending) b := by
  have hkeep {c : α} (hc : key c ∈ names) (hne : key c ≠ key a) :
      key c ∈ names.filter (· != key a) := List.mem_filter.2 ⟨hc, by simpa using hne⟩
  induction h with
  | @child c b hc hkey hb =>
    by_cases hca : key c = key a
    · exact .inl (hca ▸ hb)
    · rcases List.mem_cons.1 hc with rfl | hc
      · exact absurd rfl hca
      · exact .inr (.child (List.mem_append_right _ hc) (hkeep hkey hca) hb)
  | @deeper c b _ hkey hb ih =>
    by_cases hca : key c = key a
    · exact .inl (hca ▸ hb)
    · refine .inr ?_
      rcases ih with hc | hc
      · exact .child (List.mem_append_left _ hc) (hkeep hkey hca) hb
      · exact .deeper hc (hkeep hkey hca) hb

/-- The successors of a root lie below, and so does all that lies below them. -/
theorem of_root (ha : key a ∈ names) (h : Below key next names (next (key a) ++ pending) b) :
    Below key next names (a :: pending) b := by
  induction h with
  | child hc hkey hb =>
    rcases List.mem_append.1 hc with hc | hc
    · exact .deeper (.child (List.mem_cons_self ..) ha hc) hkey hb
    · exact .child (List.mem_cons_of_mem _ hc) hkey hb
  | deeper _ hkey hb ih => exact .deeper ih hkey hb

end Below

/-- Expansion finds exactly what lies below the pending nodes. -/
theorem mem_expand_iff :
    b ∈ expand key next names pending ↔ Below key next names pending b := by
  induction names, pending using expand.induct key next with
  | case1 names =>
    rw [expand]
    refine ⟨fun h => (List.not_mem_nil h).elim, fun h => ?_⟩
    induction h with
    | child ha => exact absurd ha List.not_mem_nil
    | deeper _ _ _ ih => exact (List.not_mem_nil ih).elim
  | case2 names a pending ha ih =>
    simp only [List.unattach_filter, List.unattach_attach] at ih
    rw [expand, if_pos ha, List.mem_append, ih]
    constructor
    · rintro (hb | hb)
      · exact .child (List.mem_cons_self ..) ha hb
      · exact .of_root ha (hb.mono (fun n hn => (List.mem_filter.1 hn).1) fun _ h => h)
    · exact Below.of_expanded
  | case3 names a pending ha ih =>
    rw [expand, if_neg ha, ih]
    exact ⟨fun h => h.mono (fun _ hn => hn) fun _ h => List.mem_cons_of_mem _ h,
      fun h => h.of_closed_root ha⟩

end Traversal

namespace SymbolTable

variable {s : SymbolTable} {direct : List Annotation} {target : String} {a b : Annotation}

/-- The annotations on an element: those that are written on it and, with each annotation, those on
its declaration, unless it is one that is not looked into. -/
inductive Finds (s : SymbolTable) (direct : List Annotation) : Annotation → Prop
  | written {a : Annotation} (h : a ∈ direct) : Finds s direct a
  | above {a b : Annotation} (h : Finds s direct a)
      (ho : Text.startsWith Marker.metaNamespace a.name = false)
      (hb : b ∈ s.metaAnnotations a.name) : Finds s direct b

/-- Whether an annotation is the target, or gives a value to an attribute that stands for one of the
target. -/
def Bears (s : SymbolTable) (target : String) (a : Annotation) : Prop :=
  a.name = target ∨ ∃ t key value declared meaning,
    s.declaredAnnotation? a.name = some t ∧ (key, value) ∈ a.values ∧
      t.attribute? key = some declared ∧ declared.aliasFor = some meaning ∧ meaning.owner = some target

/-- An annotation with annotations on its declaration is declared somewhere. -/
theorem mem_openAnnotationNames {name : String} (hb : b ∈ s.metaAnnotations name) :
    name ∈ s.openAnnotationNames ↔ Text.startsWith Marker.metaNamespace name = false := by
  have hdeclared : name ∈ s.annotationTypes.map (·.name) ++ Catalog.annotationTypes.map (·.name) := by
    cases hd : s.declaredAnnotation? name with
    | none =>
      rw [metaAnnotations, hd] at hb
      cases hb
    | some t =>
      rw [declaredAnnotation?, Option.or_eq_some_iff] at hd
      rw [List.mem_append]
      have hname {ts : List AnnotationType} (h : ts.find? (·.name == name) = some t) :
          name ∈ ts.map (·.name) :=
        List.mem_map.2 ⟨t, List.mem_of_find?_eq_some h, by simpa using List.find?_some h⟩
      rcases hd with hd | ⟨-, hd⟩
      · exact .inl (hname hd)
      · exact .inr (hname hd)
  rw [openAnnotationNames, List.mem_filter]
  simp [hdeclared]

theorem mem_collectAnnotations_iff : a ∈ s.collectAnnotations direct ↔ s.Finds direct a := by
  rw [collectAnnotations, List.mem_append, Traversal.mem_expand_iff]
  constructor
  · rintro (h | h)
    · exact .written h
    · induction h with
      | child ha hkey hb => exact .above (.written ha) ((mem_openAnnotationNames hb).1 hkey) hb
      | deeper _ hkey hb ih => exact .above ih ((mem_openAnnotationNames hb).1 hkey) hb
  · intro h
    induction h with
    | written h => exact .inl h
    | above _ ho hb ih =>
      have hkey := (mem_openAnnotationNames hb).2 ho
      rcases ih with ih | ih
      · exact .inr (.child ih hkey hb)
      · exact .inr (.deeper ih hkey hb)

/-- An annotation bears the target exactly if it is the target or contributes a value to it. -/
theorem bears_iff : s.Bears target a ↔ a.name = target ∨ ∃ e, e ∈ s.contributions target a := by
  by_cases hname : a.name = target
  · simp [Bears, hname]
  simp only [Bears, hname, false_or, contributions, if_false]
  cases hd : s.declaredAnnotation? a.name with
  | none => simp
  | some t =>
    dsimp only
    constructor
    · rintro ⟨_, key, value, declared, meaning, heq, hvalue, halias, hmeaning, howner⟩
      obtain rfl := Option.some.inj heq
      refine ⟨(meaning.target.getD key, value), List.mem_filterMap.2 ⟨(key, value), hvalue, ?_⟩⟩
      simp [halias, hmeaning, howner]
    · rintro ⟨e, he⟩
      obtain ⟨⟨key, value⟩, hvalue, hgiven⟩ := List.mem_filterMap.1 he
      dsimp only at hgiven
      cases hm : (t.attribute? key).bind (·.aliasFor) with
      | none =>
        rw [hm] at hgiven
        cases hgiven
      | some meaning =>
        obtain ⟨declared, halias, hmeaning⟩ := Option.bind_eq_some_iff.1 hm
        refine ⟨t, key, value, declared, meaning, rfl, hvalue, halias, hmeaning, ?_⟩
        by_cases howner : meaning.owner = some target
        · exact howner
        · simp [hm, howner] at hgiven

theorem isMarked_eq : s.isMarked direct target =
    ((s.collectAnnotations direct).any (·.name == target) ||
      !((s.collectAnnotations direct).flatMap (s.contributions target)).isEmpty) := by
  rw [isMarked, resolveAnnotation]
  dsimp only
  split
  · rename_i h
    exact h.symm
  · rename_i h
    exact (Bool.eq_false_iff.2 h).symm

/-- The target is resolved on an element exactly if one of the annotations on it bears it. -/
theorem isMarked_iff :
    s.isMarked direct target = true ↔ ∃ a, s.Finds direct a ∧ s.Bears target a := by
  have hgiven : (!((s.collectAnnotations direct).flatMap (s.contributions target)).isEmpty) = true ↔
      ∃ a ∈ s.collectAnnotations direct, ∃ e, e ∈ s.contributions target a := by
    rw [Bool.not_eq_true', List.isEmpty_eq_false_iff_exists_mem]
    simp only [List.mem_flatMap]
    exact ⟨fun ⟨e, a, ha, he⟩ => ⟨a, ha, e, he⟩, fun ⟨a, ha, e, he⟩ => ⟨e, a, ha, he⟩⟩
  rw [isMarked_eq, Bool.or_eq_true, hgiven, List.any_eq_true]
  simp only [beq_iff_eq, ← mem_collectAnnotations_iff, bears_iff]
  constructor
  · rintro (⟨a, ha, hname⟩ | ⟨a, ha, he⟩)
    · exact ⟨a, ha, .inl hname⟩
    · exact ⟨a, ha, .inr he⟩
  · rintro ⟨a, ha, hname | he⟩
    · exact .inl ⟨a, ha, hname⟩
    · exact .inr ⟨a, ha, he⟩

end SymbolTable

end ClientBindings
