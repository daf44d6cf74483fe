import ClientBindings.Symbol.Aliasing

/-! The two readings of an annotation value: the text that it gives, and all of its texts. The first of
its texts is the one that it gives, unless it is a list that has a text but does not begin with one. -/
namespace ClientBindings

namespace AnnotationValue

variable {v : AnnotationValue} {text : String}

/-- A value begins with a text: it is one, or a list whose first item begins with it. -/
inductive Begins : AnnotationValue → String → Prop
  | text (s : String) : Begins (.text s) s
  | list {first : AnnotationValue} {rest : List AnnotationValue} {s : String} (h : Begins first s) :
      Begins (.list (first :: rest)) s

/-- A list in which an item begins with a text, but the first one does not. -/
def Headless (v : AnnotationValue) : Prop :=
  ∃ first rest, v = .list (first :: rest) ∧ (∀ s, ¬first.Begins s) ∧ ∃ item ∈ rest, ∃ s, item.Begins s

theorem text?_eq_some_iff : v.text? = some text ↔ v.Begins text := by
  fun_induction text? with
  | case1 =>
    constructor
    · rintro ⟨⟩
      exact .text _
    · rintro ⟨⟩
      rfl
  | case2 first rest ih =>
    rw [ih]
    constructor
    · exact .list
    · rintro (_ | h)
      exact h
  | case3 v htext hlist =>
    constructor
    · nofun
    · rintro (_ | _)
      · exact (htext _ rfl).elim
      · exact (hlist _ _ rfl).elim

theorem text?_eq_none_iff : v.text? = none ↔ ∀ s, ¬v.Begins s := by
  simp only [← text?_eq_some_iff]
  exact Option.eq_none_iff_forall_ne_some

theorem texts_list_eq_nil_iff {items : List AnnotationValue} :
    (list items).texts = [] ↔ ∀ item ∈ items, ∀ s, ¬item.Begins s := by
  simp only [texts, List.filterMap_eq_nil_iff, text?_eq_none_iff]

/-- The text that a value begins with is the first of its texts. -/
theorem Begins.head?_texts (h : v.Begins text) : v.texts.head? = some text := by
  cases h with
  | text => rfl
  | list h => simp [texts, text?_eq_some_iff.2 h]

/-- A value that begins with no text has none, unless it is headless. -/
theorem texts_eq_nil_iff (h : ∀ s, ¬v.Begins s) : v.texts = [] ↔ ¬v.Headless := by
  cases v with
  | text s => exact absurd (.text s) (h s)
  | list items =>
    cases items with
    | nil => simp [texts, Headless]
    | cons first rest =>
      have hfirst (s : String) : ¬first.Begins s := fun hs => h s (.list hs)
      rw [texts_list_eq_nil_iff]
      constructor
      · rintro hall ⟨_, _, ⟨⟩, -, item, hitem, s, hs⟩
        exact hall item (.tail _ hitem) s hs
      · intro hheadless item hitem s hs
        rcases List.mem_cons.1 hitem with rfl | hitem
        · exact hfirst s hs
        · exact hheadless ⟨first, rest, rfl, hfirst, item, hitem, s, hs⟩
  | bool | int | float => simp [texts, Headless]

theorem Headless.text?_eq_none (h : v.Headless) : v.text? = none := by
  obtain ⟨first, rest, rfl, hfirst, -⟩ := h
  rw [text?, text?_eq_none_iff]
  exact hfirst

/-- The text of a value is the first of its texts, exactly if it is not headless. -/
theorem text?_eq_head?_iff (v : AnnotationValue) : v.text? = v.texts.head? ↔ ¬v.Headless := by
  cases htext : v.text? with
  | some s =>
    have hhead := (text?_eq_some_iff.1 htext).head?_texts
    refine iff_of_true hhead.symm fun h => ?_
    rw [h.text?_eq_none] at htext
    cases htext
  | none => rw [eq_comm, List.head?_eq_none_iff, texts_eq_nil_iff (text?_eq_none_iff.1 htext)]

/-- Of a value that is not headless, nested and mixed as it may be, the one reading gives the first text of
the other, and nothing if that has none; so it is for two annotations that have it under any names. Of a headless
value they differ. -/
theorem readings_agree_iff (v : AnnotationValue) :
    ((v.text? = v.texts.head? ∧ (v.text? = none ↔ v.texts = [])) ↔ ¬v.Headless) ∧
    ∀ (r r' : ResolvedAnnotation) (key key' : String),
      r.values.get? key = some v → r'.values.get? key' = some v →
        (r.text? key = (r'.texts key').head? ↔ ¬v.Headless) := by
  refine ⟨⟨fun h => (text?_eq_head?_iff v).1 h.1, fun h => ?_⟩, fun r r' key key' hr hr' => ?_⟩
  · have hhead := (text?_eq_head?_iff v).2 h
    exact ⟨hhead, by rw [hhead, List.head?_eq_none_iff]⟩
  · unfold ResolvedAnnotation.text? ResolvedAnnotation.texts
    rw [hr, hr']
    exact text?_eq_head?_iff v

/-- The name of a parameter and the path of a mapping that have the same nested value. -/
theorem readings_agree_nested :
    let v : AnnotationValue := .list [.list [.text "item", .int 1], .bool true, .text "other"]
    let named : ResolvedAnnotation := ⟨Marker.pathVariable, [("name", v)]⟩
    let mapped : ResolvedAnnotation := ⟨Marker.requestMapping, [("path", v)]⟩
    named.values.get? "name" = some v ∧ mapped.values.get? "path" = some v ∧
      named.text? "name" = (mapped.texts "path").head? := by
  have hheadless : ¬(list [list [text "item", int 1], bool true, text "other"]).Headless := by
    rintro ⟨first, rest, ⟨⟩, hfirst, -⟩
    exact hfirst "item" (.list (.text "item"))
  intro v named mapped
  exact ⟨rfl, rfl, ((readings_agree_iff v).2 named mapped "name" "path" rfl rfl).2 hheadless⟩

/-- A number before the text hides it from the one reading. -/
theorem not_readings_agree_mixed :
    let v : AnnotationValue := .list [.int 1, .text "a"]
    v.text? = none ∧ v.texts = ["a"] ∧
      ¬(v.text? = v.texts.head? ∧ (v.text? = none ↔ v.texts = [])) := by
  decide

end AnnotationValue

end ClientBindings
