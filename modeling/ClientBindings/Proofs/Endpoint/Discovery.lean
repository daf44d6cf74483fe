import ClientBindings.Proofs.Round.Retry
import ClientBindings.Proofs.Symbol.Annotations

/-! Which names a round takes up by itself, and which ones are accepted as controllers. Only the
annotations that are written on a type count for the first, all that are found on it for the second. -/
namespace ClientBindings

section replaceOrAppend

variable {α : Type} {key : α → String} {item : α} {items : List α}

theorem mem_replaceOrAppend {a : α} (h : a ∈ replaceOrAppend key items item) :
    a = item ∨ a ∈ items := by
  induction items with
  | nil => exact .inl (List.mem_singleton.1 h)
  | cons b rest ih =>
    rw [replaceOrAppend] at h
    split at h
    · rcases List.mem_cons.1 h with rfl | h
      · exact .inl rfl
      · exact .inr (List.mem_cons_of_mem _ h)
    · rcases List.mem_cons.1 h with rfl | h
      · exact .inr (List.mem_cons_self ..)
      · exact (ih h).imp_right (List.mem_cons_of_mem _)

theorem pairwise_replaceOrAppend (h : items.Pairwise fun a b => key a ≠ key b) :
    (replaceOrAppend key items item).Pairwise fun a b => key a ≠ key b := by
  induction items with
  | nil => exact List.pairwise_singleton ..
  | cons b rest ih =>
    obtain ⟨hb, hrest⟩ := List.pairwise_cons.1 h
    rw [replaceOrAppend]
    split
    · rename_i heq
      exact List.pairwise_cons.2 ⟨fun a ha => heq ▸ hb a ha, hrest⟩
    · rename_i hne
      refine List.pairwise_cons.2 ⟨fun a ha => ?_, ih hrest⟩
      rcases mem_replaceOrAppend ha with rfl | ha
      · exact hne
      · exact hb a ha

theorem pairwise_foldl_replaceOrAppend (new : List α)
    (h : items.Pairwise fun a b => key a ≠ key b) :
    (new.foldl (replaceOrAppend key) items).Pairwise fun a b => key a ≠ key b := by
  induction new generalizing items with
  | nil => exact h
  | cons a new ih => exact ih (pairwise_replaceOrAppend h)

theorem find?_of_pairwise {a : α} (h : items.Pairwise fun a b => key a ≠ key b) (ha : a ∈ items) :
    items.find? (key · == key a) = some a := by
  induction items with
  | nil => cases ha
  | cons b rest ih =>
    obtain ⟨hb, hrest⟩ := List.pairwise_cons.1 h
    rcases List.mem_cons.1 ha with rfl | ha
    · exact List.find?_cons_of_pos (by simp)
    · rw [List.find?_cons_of_neg (by simpa using hb a ha)]
      exact ih hrest ha

end replaceOrAppend

/-- The declarations of an export have different names, so each is found by its own. -/
theorem SymbolTable.type?_ofExport {e : Export} {t : DeclaredType} (ht : t ∈ (ofExport e).types) :
    (ofExport e).type? t.name = some t :=
  find?_of_pairwise (pairwise_foldl_replaceOrAppend e.types .nil) ht

namespace BuildContext

variable {cx : BuildContext} {c : String}

/-- The context over another export. -/
def withExport (cx : BuildContext) (e : Export) : BuildContext := { cx with symbols := .ofExport e }

/-- A declared name that is nowhere refused as one of no controller. -/
def Accepts (cx : BuildContext) (c : String) : Prop :=
  (cx.symbols.type? c).isSome = true ∧
    ∀ w, ((cx.buildEndpoint c).outcome w).1 ≠ .error (.notAController c)

theorem marked_iff_isMarked : cx.Marked c ↔
    ∃ t, cx.symbols.type? c = some t ∧ cx.symbols.isMarked t.annotations Marker.endpoint = true := by
  simp only [SymbolTable.isMarked, Option.isSome_iff_exists]
  constructor
  · rintro ⟨t, marker, ht, hm⟩
    exact ⟨t, ht, marker, hm⟩
  · rintro ⟨t, ht, marker, hm⟩
    exact ⟨t, marker, ht, hm⟩

/-- A declared name without the marker is refused wherever it has no endpoint. -/
theorem buildEndpoint_refuses {t : DeclaredType} (ht : cx.symbols.type? c = some t)
    (hm : cx.symbols.isMarked t.annotations Marker.endpoint = false) {w : Workspace}
    (hget : w.endpoints.get? c = none) :
    (cx.buildEndpoint c).outcome w = (.error (.notAController c), w) := by
  have hnone : cx.symbols.resolveAnnotation t.annotations Marker.endpoint = none := by
    simpa [SymbolTable.isMarked] using hm
  rw [buildEndpoint, assembleEndpoint_of_none hget, assembleNew, ht]
  dsimp only
  rw [hnone]
  rfl

theorem accepts_iff_marked : cx.Accepts c ↔ cx.Marked c := by
  constructor
  · rintro ⟨hdeclared, haccepted⟩
    obtain ⟨t, ht⟩ := Option.isSome_iff_exists.1 hdeclared
    rw [marked_iff_isMarked]
    refine ⟨t, ht, ?_⟩
    cases hm : cx.symbols.isMarked t.annotations Marker.endpoint with
    | true => rfl
    | false =>
      have hrefused := buildEndpoint_refuses ht hm (w := .empty) rfl
      exact absurd (congrArg Prod.fst hrefused) (haccepted _)
  · intro hm
    have ⟨t, _, ht, _⟩ := hm
    refine ⟨by rw [ht]; rfl, fun w herror => ?_⟩
    rcases ho : (cx.buildEndpoint c).outcome w with ⟨e | e, v⟩
    · rw [ho] at herror
      obtain rfl := Except.error.inj herror
      exact (buildEndpoint_error ho).2.2 rfl hm
    · rw [ho] at herror
      cases herror

/-- The names that are taken up are those of declarations with the marker written on them. -/
theorem mem_controllerNames_iff {s : SymbolTable} : c ∈ Processor.controllerNames s ↔
    ∃ t ∈ s.types, t.name = c ∧ ∃ b ∈ t.annotations, b.name = Marker.endpoint := by
  simp only [Processor.controllerNames, SymbolTable.controllers, carriesMarker, List.mem_map,
    List.mem_filter, List.any_eq_true, beq_iff_eq]
  constructor
  · rintro ⟨t, ⟨ht, hb⟩, hname⟩
    exact ⟨t, ht, hname, hb⟩
  · rintro ⟨t, ht, hname, hb⟩
    exact ⟨t, ⟨ht, hb⟩, hname⟩

/-- The names that are accepted are those of declarations on which the marker is found. -/
theorem accepts_withExport_iff {e : Export} : (cx.withExport e).Accepts c ↔
    ∃ t ∈ (SymbolTable.ofExport e).types, t.name = c ∧
      ∃ a, (SymbolTable.ofExport e).Finds t.annotations a ∧
        (SymbolTable.ofExport e).Bears Marker.endpoint a := by
  rw [accepts_iff_marked, marked_iff_isMarked]
  simp only [SymbolTable.isMarked_iff]
  constructor
  · rintro ⟨t, ht, hfound⟩
    exact ⟨t, SymbolTable.type?_mem ht, SymbolTable.type?_name ht, hfound⟩
  · rintro ⟨t, ht, rfl, hfound⟩
    exact ⟨t, SymbolTable.type?_ofExport ht, hfound⟩

/-- Rounds take up controllers only. They take up every type that is accepted as a controller,
exactly if each type on which the marker is found in some way has it written on it. -/
theorem discovers_exactly_iff (cx : BuildContext) (e : Export) :
    (∀ c ∈ Processor.controllerNames (.ofExport e), (cx.withExport e).Accepts c) ∧
    (∀ c, (cx.withExport e).Accepts c ↔ ∃ t ∈ (SymbolTable.ofExport e).types, t.name = c ∧
      ∃ a, (SymbolTable.ofExport e).Finds t.annotations a ∧
        (SymbolTable.ofExport e).Bears Marker.endpoint a) ∧
    ((∀ c, c ∈ Processor.controllerNames (.ofExport e) ↔ (cx.withExport e).Accepts c) ↔
      ∀ t ∈ (SymbolTable.ofExport e).types, ∀ a, (SymbolTable.ofExport e).Finds t.annotations a →
        (SymbolTable.ofExport e).Bears Marker.endpoint a →
          ∃ b ∈ t.annotations, b.name = Marker.endpoint) := by
  have hsound : ∀ c ∈ Processor.controllerNames (.ofExport e), (cx.withExport e).Accepts c := by
    intro c hc
    obtain ⟨t, ht, hname, b, hb, hmarker⟩ := mem_controllerNames_iff.1 hc
    exact accepts_withExport_iff.2 ⟨t, ht, hname, b, .written hb, .inl hmarker⟩
  refine ⟨hsound, fun _ => accepts_withExport_iff, fun hall t ht a ha hbears => ?_,
    fun hall c => ⟨hsound c, fun hc => ?_⟩⟩
  · have hc := (hall t.name).2 (accepts_withExport_iff.2 ⟨t, ht, rfl, a, ha, hbears⟩)
    obtain ⟨u, hu, hname, hwritten⟩ := mem_controllerNames_iff.1 hc
    have htype := SymbolTable.type?_ofExport hu
    rw [hname, SymbolTable.type?_ofExport ht] at htype
    obtain rfl := Option.some.inj htype
    exact hwritten
  · obtain ⟨t, ht, hname, a, ha, hbears⟩ := accepts_withExport_iff.1 hc
    exact mem_controllerNames_iff.2 ⟨t, ht, hname, hall t ht a ha hbears⟩

/-- A controller with an annotation that has the marker on its declaration. -/
def composedExport : Export where
  types := [⟨"a.Api", none, none, none, .classType, [], [.written "a.Composed" []], [], none, [], [],
    [⟨"get", [], [.written Marker.requestMapping []], [], [], none⟩], [], []⟩]
  annotationTypes := [⟨"a.Composed", [.written Marker.endpoint []], []⟩]

/-- It is accepted, but a round passes over it and says nothing. -/
theorem not_discovers_composed :
    Processor.controllerNames (.ofExport composedExport) = [] ∧
    (Processor.initial.processRound (.ofExport composedExport) .standard).1 = .ok ⟨[], [], []⟩ ∧
    ¬∀ c, c ∈ Processor.controllerNames (.ofExport composedExport) ↔
      (withExport ⟨.empty, .standard, [], .standard⟩ composedExport).Accepts c := by
  have hnames : Processor.controllerNames (.ofExport composedExport) = [] := by decide +kernel
  refine ⟨hnames, by decide +kernel, fun hall => ?_⟩
  have haccepted : (withExport ⟨.empty, .standard, [], .standard⟩ composedExport).Accepts "a.Api" := by
    rw [accepts_iff_marked, marked_iff_isMarked, ← Option.any_eq_true]
    decide +kernel
  rw [← hall, hnames] at haccepted
  cases haccepted

end BuildContext

end ClientBindings
