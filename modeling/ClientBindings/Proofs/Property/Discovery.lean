import ClientBindings.Proofs.Outcome
import ClientBindings.Proofs.Resolution.References

/-! What the properties of a type are. Of the members that have one effective name the first gives the
property, in the order of the locators and of the declaration, and the properties stand in the order of
these members. Their types are resolved afterwards, one after the other. -/
namespace ClientBindings

/-- What several members come to that have names: of each name the first, in order. -/
def mergeBy {α : Type} (name : α → String) (merged : List (String × α)) : List α → List (String × α)
  | [] => merged
  | c :: cs =>
    if merged.any (·.1 == name c) then mergeBy name merged cs
    else mergeBy name (merged ++ [(name c, c)]) cs

/-- After these members each name that occurs is there once, with the first member of that name, and the
names are in the order of these. -/
structure Merged {α : Type} (name : α → String) (cs : List α) (merged : List (String × α)) : Prop where
  mem_iff : ∀ n c, (n, c) ∈ merged ↔ cs.find? (name · == n) = some c
  ordered : (merged.map (·.1)).Pairwise fun n n' =>
    cs.findIdx (name · == n) < cs.findIdx (name · == n')

namespace Merged

variable {α : Type} {name : α → String} {pre cs : List α} {merged : List (String × α)} {c : α}

theorem name_mem_iff (h : Merged name cs merged) {n : String} :
    n ∈ merged.map (·.1) ↔ ∃ c ∈ cs, name c = n := by
  rw [List.mem_map]
  constructor
  · rintro ⟨⟨n, c⟩, hc, rfl⟩
    have hfind := (h.mem_iff n c).1 hc
    exact ⟨c, List.mem_of_find?_eq_some hfind, by simpa using List.find?_some hfind⟩
  · rintro ⟨c, hc, rfl⟩
    have hsome : (cs.find? (name · == name c)).isSome = true :=
      List.find?_isSome.2 ⟨c, hc, by simp⟩
    obtain ⟨c', hfind⟩ := Option.isSome_iff_exists.1 hsome
    exact ⟨(name c, c'), (h.mem_iff _ _).2 hfind, rfl⟩

theorem nodup (h : Merged name cs merged) : (merged.map (·.1)).Nodup :=
  h.ordered.imp fun hlt heq => absurd (heq ▸ hlt) (Nat.lt_irrefl _)

theorem findIdx_lt (h : Merged name cs merged) {n : String} (hn : n ∈ merged.map (·.1)) :
    cs.findIdx (name · == n) < cs.length := by
  obtain ⟨c, hc, hname⟩ := h.name_mem_iff.1 hn
  exact List.findIdx_lt_length.2 ⟨c, hc, by simpa using hname⟩

theorem nil : Merged name [] [] where
  mem_iff n c := by simp
  ordered := .nil

/-- More members do not move those that are there. -/
theorem ordered_append (h : Merged name pre merged) (cs : List α) :
    (merged.map (·.1)).Pairwise fun n n' =>
      (pre ++ cs).findIdx (name · == n) < (pre ++ cs).findIdx (name · == n') := by
  refine h.ordered.imp_of_mem fun {n n'} hn hn' hlt => ?_
  rwa [List.findIdx_append, if_pos (h.findIdx_lt hn), List.findIdx_append, if_pos (h.findIdx_lt hn')]

theorem skip (h : Merged name pre merged) (hc : name c ∈ merged.map (·.1)) :
    Merged name (pre ++ [c]) merged where
  mem_iff n c' := by
    rw [h.mem_iff, List.find?_append]
    cases hfind : pre.find? (name · == n) with
    | some c₀ => simp
    | none =>
      obtain ⟨c₀, hc₀, hname⟩ := h.name_mem_iff.1 hc
      have hne : name c ≠ n := by
        rintro rfl
        simpa [hname] using List.find?_eq_none.1 hfind c₀ hc₀
      simp [hne]
  ordered := h.ordered_append [c]

theorem add (h : Merged name pre merged) (hc : name c ∉ merged.map (·.1)) :
    Merged name (pre ++ [c]) (merged ++ [(name c, c)]) := by
  have hnew : ∀ c' ∈ pre, ¬(name c' == name c) = true := fun c' hc' hname =>
    hc (h.name_mem_iff.2 ⟨c', hc', by simpa using hname⟩)
  refine ⟨fun n c' => ?_, ?_⟩
  · rw [List.mem_append, h.mem_iff, List.find?_append, List.mem_singleton, Prod.mk.injEq]
    by_cases hn : name c = n
    · subst hn
      simp [List.find?_eq_none.2 hnew, eq_comm]
    · simp [hn, Ne.symm hn]
  · rw [List.map_append, List.pairwise_append]
    refine ⟨h.ordered_append [c], List.pairwise_singleton .., fun n hn n' hn' => ?_⟩
    obtain rfl : n' = name c := by simpa using hn'
    have hlast : ¬pre.findIdx (name · == name c) < pre.length := by
      rw [List.findIdx_lt_length]
      rintro ⟨c', hc', hname⟩
      exact hnew c' hc' hname
    rw [List.findIdx_append, if_pos (h.findIdx_lt hn), List.findIdx_append, if_neg hlast]
    exact Nat.lt_add_left _ (h.findIdx_lt hn)

end Merged

theorem merged_mergeBy {α : Type} {name : α → String} {pre : List α} {merged : List (String × α)}
    (h : Merged name pre merged) (cs : List α) :
    Merged name (pre ++ cs) (mergeBy name merged cs) := by
  induction cs generalizing pre merged with
  | nil => rwa [List.append_nil]
  | cons c cs ih =>
    have hany : merged.any (·.1 == name c) = true ↔ name c ∈ merged.map (·.1) := by simp
    rw [List.append_cons, mergeBy]
    split
    · rename_i hc
      exact ih (h.skip (hany.1 hc))
    · rename_i hc
      exact ih (h.add fun hmem => hc (hany.2 hmem))

/-- What decides whether a member is never null; it may look at what has been built. -/
abbrev Classifier := Workspace → PropertyCandidate → Bool

/-- The merged members as properties, by any classifiers. -/
def resolveLocated (classifiers : List Classifier) (resolve : Resolver) :
    List (String × PropertyCandidate) → Build (List PropertyDefinition)
  | [] => pure []
  | (name, c) :: rest => do
    let type ← Work.orAny (← resolve c.type)
    let w ← (get : Work Workspace)
    let properties ← resolveLocated classifiers resolve rest
    pure (⟨name, type, !(c.type.isPrimitive || classifiers.any fun f => f w c)⟩ :: properties)

/-- The property of a member: its type is what the member's resolves to, or else the one that stands for
anything, and it is nullable unless the member's is primitive or a classifier says otherwise. -/
structure Resolved (classifiers : List Classifier) (resolve : Resolver) (c : PropertyCandidate)
    (p : PropertyDefinition) (w w' : Workspace) : Prop where
  type : ∃ instance? v, (resolve c.type).outcome w = (.ok instance?, v) ∧
    (Work.orAny instance?).run v = (p.type, w')
  nullable : p.nullable = true ↔ c.type.isPrimitive = false ∧ ∀ f ∈ classifiers, f w' c = false

variable {classifiers : List Classifier} {resolve : Resolver}

theorem resolved_first {name : String} {c : PropertyCandidate} {es : List (String × PropertyCandidate)}
    {w w' : Workspace} {properties : List PropertyDefinition}
    (h : (resolveLocated classifiers resolve ((name, c) :: es)).outcome w = (.ok properties, w')) :
    ∃ p rest v, properties = p :: rest ∧ p.name = name ∧ Resolved classifiers resolve c p w v ∧
      (resolveLocated classifiers resolve es).outcome v = (.ok rest, w') := by
  rw [resolveLocated, Build.outcome_bind_ok] at h
  obtain ⟨instance?, u, hresolve, h⟩ := h
  rcases htype : (Work.orAny instance?).run u with ⟨type, v⟩
  have hget : (get : Work Workspace).run v = (v, v) := rfl
  simp only [Build.outcome_lift_bind, htype, hget, Build.outcome_bind_ok] at h
  obtain ⟨rest, w₁, hrest, h⟩ := h
  obtain ⟨hproperties, rfl⟩ := Prod.mk.inj h
  obtain rfl := Except.ok.inj hproperties
  exact ⟨_, rest, v, rfl, rfl, ⟨⟨instance?, u, hresolve, htype⟩, by simp⟩, hrest⟩

/-- The members are gone through in order, each in the state that those before leave. -/
theorem resolved_of_outcome {es : List (String × PropertyCandidate)} {w w' : Workspace}
    {properties : List PropertyDefinition}
    (h : (resolveLocated classifiers resolve es).outcome w = (.ok properties, w')) :
    properties.map (·.name) = es.map (·.1) ∧ ∃ states : Nat → Workspace, states 0 = w ∧
      states properties.length = w' ∧ ∀ (i : Nat) (p : PropertyDefinition), properties[i]? = some p →
        ∃ c, (p.name, c) ∈ es ∧ Resolved classifiers resolve c p (states i) (states (i + 1)) := by
  induction es generalizing w properties with
  | nil =>
    obtain ⟨rfl, rfl⟩ : [] = properties ∧ w = w' := by simpa [resolveLocated] using h
    exact ⟨rfl, fun _ => w, rfl, rfl, fun i p hp => by simp at hp⟩
  | cons e es ih =>
    obtain ⟨p, rest, v, rfl, hname, hresolved, hrest⟩ := resolved_first h
    obtain ⟨hnames, states, rfl, hend, hstates⟩ := ih hrest
    refine ⟨by rw [List.map_cons, List.map_cons, hname, hnames], fun i => Nat.casesOn i w states,
      rfl, hend, fun i q hq => ?_⟩
    cases i with
    | zero =>
      obtain rfl := Option.some.inj hq
      exact ⟨e.2, by simp [hname], hresolved⟩
    | succ i =>
      obtain ⟨c, hc, hresolved'⟩ := hstates i q hq
      exact ⟨c, List.mem_cons_of_mem _ hc, hresolved'⟩

/-- The locators for accessors, record components and fields, each with the members that it goes through
as they are declared: the type and the annotations of each. -/
def DeclaredType.members (t : DeclaredType) :
    List (PropertyLocator × List (Option TypeRef × List Annotation)) := [
  (.accessor, t.methods.map fun m => (m.returnType, m.annotations)),
  (.record, t.recordComponents.map fun c => (some c.type, c.annotations)),
  (.field, t.fields.map fun f => (some f.type, f.annotations))]

namespace SymbolTable

variable {s : SymbolTable} {t : DeclaredType}

/-- The members that the locators produce, one locator after the other. -/
def located (s : SymbolTable) (locators : List PropertyLocator) (t : DeclaredType) :
    List PropertyCandidate := locators.flatMap (·.locate s t)

/-- What a classifier of a pipeline says is the same whatever has been built. -/
def classifier (s : SymbolTable) (f : PropertyClassifier) : Classifier := fun _ c => f.isNotNull s c

/-- The properties of a type by any locators and classifiers. -/
def discoverBy (s : SymbolTable) (locators : List PropertyLocator) (classifiers : List Classifier)
    (resolve : Resolver) (t : DeclaredType) : Build (List PropertyDefinition) :=
  resolveLocated classifiers resolve (mergeBy s.effectiveName [] (s.located locators t))

theorem mergeBy_effectiveName (s : SymbolTable) (merged : List (String × PropertyCandidate))
    (cs : List PropertyCandidate) :
    mergeBy s.effectiveName merged cs = s.mergeCandidates merged cs := by
  induction cs generalizing merged with
  | nil => rfl
  | cons c cs ih =>
    rw [mergeBy, mergeCandidates]
    split
    · exact ih merged
    · exact ih _

theorem filterMap_sublist_map {α β : Type} {f : α → Option β} {g : α → β}
    (h : ∀ a b, f a = some b → b = g a) (l : List α) : (l.filterMap f).Sublist (l.map g) := by
  induction l with
  | nil => exact .slnil
  | cons a l ih =>
    cases hf : f a with
    | none =>
      rw [List.filterMap_cons_none hf]
      exact ih.cons _
    | some b =>
      rw [List.filterMap_cons_some hf, h a b hf]
      exact ih.cons_cons _

theorem accessorCandidates_sublist (s : SymbolTable) (t : DeclaredType) :
    ((s.accessorCandidates t).map fun c => (some c.type, c.annotations)).Sublist
      (t.methods.map fun m => (m.returnType, m.annotations)) := by
  rw [accessorCandidates, List.map_filterMap]
  refine (filterMap_sublist_map (fun m member hm => ?_) _).trans (List.filter_sublist.map _)
  obtain ⟨c, hc, rfl⟩ := Option.map_eq_some_iff.1 hm
  split at hc
  · split at hc
    · cases hc
    · rename_i htype _
      obtain rfl := Option.some.inj hc
      rw [htype]
  · cases hc

/-- What a locator produces is in the order of the declaration. -/
theorem locate_sublist (s : SymbolTable) (t : DeclaredType) : ∀ e ∈ t.members,
    ((e.1.locate s t).map fun c => (some c.type, c.annotations)).Sublist e.2 := by
  simp only [DeclaredType.members, List.forall_mem_cons]
  refine ⟨accessorCandidates_sublist s t, ?_, ?_, fun _ h => nomatch h⟩
  · change ((s.recordCandidates t).map _).Sublist _
    rw [recordCandidates, List.map_map]
    exact List.filter_sublist.map _
  · change ((s.fieldCandidates t).map _).Sublist _
    rw [fieldCandidates, List.map_map]
    exact List.filter_sublist.map _

/-- The members of a pipeline as properties: in the order of the first members of their names, each with
what that one's type resolves to in the state that those before it leave. -/
structure Discovered (s : SymbolTable) (members : List PropertyCandidate) (classifiers : List Classifier)
    (resolve : Resolver) (w w' : Workspace) (properties : List PropertyDefinition) : Prop where
  nodup : (properties.map (·.name)).Nodup
  represented : ∀ n, n ∈ properties.map (·.name) ↔ ∃ c ∈ members, s.effectiveName c = n
  ordered : (properties.map (·.name)).Pairwise fun n n' =>
    members.findIdx (s.effectiveName · == n) < members.findIdx (s.effectiveName · == n')
  resolved : ∃ states : Nat → Workspace, states 0 = w ∧ states properties.length = w' ∧
    ∀ (i : Nat) (p : PropertyDefinition), properties[i]? = some p →
      ∃ c, members.find? (s.effectiveName · == p.name) = some c ∧
        Resolved classifiers resolve c p (states i) (states (i + 1))

theorem discovered_of_outcome {locators : List PropertyLocator} {classifiers : List Classifier}
    {resolve : Resolver} {w w' : Workspace} {properties : List PropertyDefinition}
    (h : (s.discoverBy locators classifiers resolve t).outcome w = (.ok properties, w')) :
    s.Discovered (s.located locators t) classifiers resolve w w' properties := by
  have hmerged : Merged s.effectiveName (s.located locators t)
      (mergeBy s.effectiveName [] (s.located locators t)) := merged_mergeBy .nil _
  obtain ⟨hnames, states, hstart, hend, hstates⟩ := resolved_of_outcome h
  refine ⟨?_, fun n => ?_, ?_, states, hstart, hend, fun i p hp => ?_⟩
  · rw [hnames]
    exact hmerged.nodup
  · rw [hnames]
    exact hmerged.name_mem_iff
  · rw [hnames]
    exact hmerged.ordered
  · obtain ⟨c, hc, hresolved⟩ := hstates i p hp
    exact ⟨c, (hmerged.mem_iff _ _).1 hc, hresolved⟩

end SymbolTable

namespace BuildContext

/-- A pipeline discovers what its locators and classifiers do. -/
theorem discover_eq (cx : BuildContext) (resolve : Resolver) (t : DeclaredType) :
    cx.discover resolve t = cx.symbols.discoverBy cx.pipeline.locators
      (cx.pipeline.classifiers.map cx.symbols.classifier) resolve t := by
  have hresolve (es : List (String × PropertyCandidate)) : cx.resolveProperties resolve es =
      resolveLocated (cx.pipeline.classifiers.map cx.symbols.classifier) resolve es := by
    induction es with
    | nil => rfl
    | cons e es ih =>
      have hnot (w : Workspace) : cx.symbols.isNotNull cx.pipeline e.2 = (e.2.type.isPrimitive ||
          (cx.pipeline.classifiers.map cx.symbols.classifier).any fun f => f w e.2) := by
        rw [SymbolTable.isNotNull, List.any_map]
        rfl
      refine Build.ext fun w => ?_
      rw [resolveLocated, resolveProperties, ih, Build.outcome_bind, Build.outcome_bind]
      rcases (resolve e.2.type).outcome w with ⟨_ | instance?, v⟩
      · rfl
      · simp only [Build.outcome_lift_bind]
        rw [hnot]
        rfl
  rw [discover, SymbolTable.discoverBy, ← hresolve, SymbolTable.winners,
    ← SymbolTable.mergeBy_effectiveName]
  rfl

/-- The properties of a type by any locators and classifiers are given by the first members of their
names, in the order of the locators and of the declaration; a pipeline discovers what its locators and
classifiers do. -/
theorem discover_first_wins (t : DeclaredType) (resolve : Resolver) :
    (∀ cx : BuildContext, cx.discover resolve t = cx.symbols.discoverBy cx.pipeline.locators
      (cx.pipeline.classifiers.map cx.symbols.classifier) resolve t) ∧
    (∀ s : SymbolTable, ∀ e ∈ t.members,
      ((e.1.locate s t).map fun c => (some c.type, c.annotations)).Sublist e.2) ∧
    ∀ (s : SymbolTable) (locators : List PropertyLocator) (classifiers : List Classifier)
      (w w' : Workspace) (properties : List PropertyDefinition),
      (s.discoverBy locators classifiers resolve t).outcome w = (.ok properties, w') →
        s.Discovered (s.located locators t) classifiers resolve w w' properties := by
  refine ⟨fun cx => cx.discover_eq resolve t, fun s => s.locate_sublist t, ?_⟩
  intro s locators classifiers w w' properties h
  exact SymbolTable.discovered_of_outcome h

/-- Two accessors and a field of one effective name, a field that stays, and a constant. -/
def itemType : DeclaredType :=
  let text : TypeRef := .declared "java.lang.String" []
  ⟨"a.Item", none, none, none, .classType, [], [.written Marker.lombokData []], [], none, [],
    [⟨"label", text, [], [.written Marker.displayName [("value", .text "name")]]⟩, ⟨"note", text, [], []⟩,
      ⟨"COUNTER", .primitive "int", ["static"], []⟩],
    [⟨"getName", ["public"], [], [], [], some text⟩,
      ⟨"isName", ["public"], [], [], [], some (.primitive "boolean")⟩], [], []⟩

def itemContext : BuildContext := ⟨⟨[itemType], []⟩, .standard, [], .standard⟩

/-- The fields are taken for not null. -/
theorem discover_first_wins_item : ∃ properties w',
    itemContext.symbols.Discovered (itemContext.symbols.located [.accessor, .field] itemType)
      [fun _ c => c.source == "field"] itemContext.resolve .empty w' properties ∧
    properties.map (fun p => (p.name, p.nullable)) = [("name", true), ("note", false)] := by
  have hrun : ((itemContext.symbols.discoverBy [.accessor, .field] [fun _ c => c.source == "field"]
      itemContext.resolve itemType).outcome .empty).1.toOption.map
        (·.map fun p => (p.name, p.nullable)) = some [("name", true), ("note", false)] := by
    decide +kernel
  rcases ho : (itemContext.symbols.discoverBy [.accessor, .field] [fun _ c => c.source == "field"]
      itemContext.resolve itemType).outcome .empty with ⟨e | properties, w'⟩
  · rw [ho] at hrun
    cases hrun
  · rw [ho] at hrun
    exact ⟨properties, w', (discover_first_wins itemType itemContext.resolve).2.2 _ _ _ _ _ _ ho,
      Option.some.inj hrun⟩

/-- Constants as properties, by their names in lower case. -/
def constantLocator : PropertyLocator where
  label := "constant"
  locate _ t := (t.fields.filter (·.modifiers.contains "static")).map fun f =>
    ⟨Text.lowerText f.name, f.type, f.annotations, "constant"⟩
  declared {s t c} h := by
    obtain ⟨f, hf, rfl⟩ := List.mem_map.1 h
    have hmem : f ∈ t.fields := (List.mem_filter.1 hf).1
    simp only [DeclaredType.references, List.mem_append, List.mem_map]
    exact .inl (.inl (.inr ⟨f, hmem, rfl⟩))

/-- A pipeline may bring a locator and a classifier of its own. -/
example : ((({ itemContext with pipeline := ⟨[constantLocator, .field], [⟨fun _ _ => true⟩]⟩ :
    BuildContext }).properties itemType).outcome .empty).1.toOption.map
      (·.map fun p => (p.name, p.nullable)) =
    some [("counter", false), ("name", false), ("note", false)] := by
  decide +kernel

end BuildContext

end ClientBindings
