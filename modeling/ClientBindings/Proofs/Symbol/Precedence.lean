import ClientBindings.Proofs.Symbol.Values

/-! Which of several values of an attribute is taken. What is written on an element comes before what
is found above it, and among what is written the order of writing decides: an annotation of the target
does not come before one that is written ahead of it and hands values on to the target. -/
namespace ClientBindings.SymbolTable

variable {s : SymbolTable} {target key wanted : String} {a : Annotation}

theorem firstGiven_append (before after : List Annotation) :
    s.firstGiven target wanted (before ++ after) =
      (s.firstGiven target wanted before).or (s.firstGiven target wanted after) := by
  rw [firstGiven, firstGiven, firstGiven, entriesOf, List.flatMap_append, List.find?_append,
    Option.map_or]
  rfl

/-- An annotation of the target gives its own value to an attribute that it sets and that no other
attribute that it sets leads to. -/
theorem firstGiven_own {value : AnnotationValue} (hname : a.name = target)
    (hvalue : a.values.get? key = some value) (halone : ∀ e ∈ a.values, e.1 ≠ key →
      ¬Relation.ReflTransGen (s.LocalAlias target) e.1 key) :
    s.firstGiven target key [a] = some value := by
  have hgives (e : String × AnnotationValue) (he : e ∈ a.values) :
      s.Gives target key (a, e) ↔ e.1 = key := by
    constructor
    · rintro ⟨k, hfor, hleads⟩
      cases hfor with
      | own _ => exact Decidable.byContradiction fun hne => halone e he hne hleads
      | aliased hne => exact absurd hname hne
    · rintro rfl
      exact ⟨e.1, .own hname, .refl⟩
  obtain ⟨before, after, heq, hbefore⟩ := List.lookup_eq_some_iff.1 hvalue
  have hentries : entriesOf [a] = before.map (fun e => (a, e)) ++
      (a, key, value) :: after.map fun e => (a, e) := by
    simp [entriesOf, heq]
  rw [firstGiven, Option.map_eq_some_iff]
  refine ⟨(a, key, value), List.find?_eq_some_iff_append.2 ⟨?_, _, _, hentries, ?_⟩, rfl⟩
  · simpa using (hgives (key, value) (by simp [heq])).2 rfl
  · rintro _ hmem
    obtain ⟨e, he, rfl⟩ := List.mem_map.1 hmem
    have hne : e.1 ≠ key := fun h => by simpa [h] using hbefore e he
    simpa using fun hgiven => hne ((hgives e (by simp [heq, he])).1 hgiven)

/-- An annotation of the target that is written on an element precedes those written after it and
all that is above. An attribute that it sets, and that no other attribute it sets leads to, has its
value exactly if the first entry that is written before it and gives that attribute a value, if any,
gives the same one. -/
theorem resolveAnnotation_written_iff (s : SymbolTable) (before after : List Annotation)
    (a : Annotation) (key : String) (value : AnnotationValue)
    (hvalue : a.values.get? key = some value) (halone : ∀ e ∈ a.values, e.1 ≠ key →
      ¬Relation.ReflTransGen (s.LocalAlias a.name) e.1 key) :
    (s.resolveAnnotation (before ++ a :: after) a.name).bind (·.values.get? key) =
        (s.firstGiven a.name key before).or (some value) ∧
    ((s.resolveAnnotation (before ++ a :: after) a.name).bind (·.values.get? key) = some value ↔
      ∀ other ∈ s.firstGiven a.name key before, other = value) := by
  have hresolved : (s.resolveAnnotation (before ++ a :: after) a.name).bind (·.values.get? key) =
      (s.firstGiven a.name key before).or (some value) := by
    rw [resolveAnnotation_bind_get?, collectAnnotations, List.append_assoc, firstGiven_append,
      List.cons_append, ← List.singleton_append, firstGiven_append,
      firstGiven_own rfl hvalue halone]
    rfl
  refine ⟨hresolved, ?_⟩
  rw [hresolved]
  cases s.firstGiven a.name key before <;> simp

/-- A mapping is written before another annotation that hands its path on to it. -/
theorem resolveAnnotation_written_requestMapping :
    let mapping : Annotation :=
      .written Marker.requestMapping [("method", .text "PUT"), ("path", .text "b")]
    let before : List Annotation := [.written Marker.displayName [("value", .text "x")]]
    let after : List Annotation := [.written Marker.getMapping [("path", .text "a")]]
    mapping.values.get? "path" = some (.text "b") ∧
    (∀ e ∈ mapping.values, e.1 ≠ "path" →
      ¬Relation.ReflTransGen (empty.LocalAlias mapping.name) e.1 "path") ∧
    (empty.resolveAnnotation (before ++ mapping :: after) mapping.name).bind
      (·.values.get? "path") = some (.text "b") := by
  intro mapping before after
  have hvalue : mapping.values.get? "path" = some (.text "b") := rfl
  have halone : ∀ e ∈ mapping.values, e.1 ≠ "path" →
      ¬Relation.ReflTransGen (empty.LocalAlias mapping.name) e.1 "path" := by
    intro e he hne
    have hvalues : mapping.values = [("method", .text "PUT"), ("path", .text "b")] := rfl
    have hmethod : e.1 = "method" := by
      simp only [hvalues, List.mem_cons, List.not_mem_nil, or_false] at he
      rcases he with rfl | rfl
      · rfl
      · exact absurd rfl hne
    have hend : empty.localAlias? mapping.name "method" = none := by decide +kernel
    rw [hmethod, ← leadsTo_localAlias?, leadsTo_iff_of_none hend]
    decide
  refine ⟨hvalue, halone, (resolveAnnotation_written_iff empty before after mapping "path" _ hvalue
    halone).2.2 fun other hother => ?_⟩
  have hnone : ∀ e ∈ entriesOf before, empty.contribution? mapping.name e = none := by
    decide +kernel
  obtain ⟨e, he, hgiven⟩ := exists_firstGiven_iff.1 ⟨other, hother⟩
  obtain ⟨c, hc, _⟩ := gives_iff.1 hgiven
  simp [hnone e he] at hc

/-- The other way round, the path that is handed on stays, and not the one on the mapping itself. -/
theorem not_resolves_written_after_getMapping :
    let mapping : Annotation := .written Marker.requestMapping [("path", .text "b")]
    let before : List Annotation := [.written Marker.getMapping [("path", .text "a")]]
    (∀ b ∈ before, b.name ≠ mapping.name) ∧
    mapping.values.get? "path" = some (.text "b") ∧
    (∀ e ∈ mapping.values, e.1 ≠ "path" →
      ¬Relation.ReflTransGen (empty.LocalAlias mapping.name) e.1 "path") ∧
    (empty.resolveAnnotation (before ++ [mapping]) mapping.name).bind (·.text? "path") =
      some "a" ∧
    (empty.resolveAnnotation (before ++ [mapping]) mapping.name).bind (·.values.get? "path") ≠
      some (.text "b") := by
  intro mapping before
  have htext : (empty.resolveAnnotation (before ++ [mapping]) mapping.name).bind (·.text? "path") =
      some "a" := by decide +kernel
  refine ⟨by decide, rfl, fun e he hne => ?_, htext, fun h => ?_⟩
  · rw [List.mem_singleton.1 he] at hne
    exact absurd rfl hne
  · obtain ⟨r, hr, hvalue⟩ := Option.bind_eq_some_iff.1 h
    rw [hr, Option.bind_some, ResolvedAnnotation.text?, hvalue] at htext
    simp [AnnotationValue.text?] at htext

end ClientBindings.SymbolTable
