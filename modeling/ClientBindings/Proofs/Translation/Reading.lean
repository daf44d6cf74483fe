import ClientBindings.Proofs.Graph.Extension
import ClientBindings.Proofs.Translation.Direct

/-! Definitions of a graph with full names in the place of numbers. While names are kept a reading
stays, whatever becomes of the content of the definitions that are named. -/
namespace ClientBindings

/-- Results for all elements of a list stay where those for each do. -/
theorem mapM_eq_some_of_imp {α β : Type} {f f' : α → Option β} {xs : List α}
    (h : ∀ a ∈ xs, ∀ b, f a = some b → f' a = some b) {ys : List β}
    (hxs : xs.mapM f = some ys) : xs.mapM f' = some ys := by
  induction xs generalizing ys with
  | nil => exact hxs
  | cons x xs ih =>
    rw [List.mapM_cons] at hxs ⊢
    obtain ⟨y, hy, hrest⟩ := Option.bind_eq_some_iff.1 hxs
    obtain ⟨zs, hzs, hys⟩ := Option.bind_eq_some_iff.1 hrest
    have hx : f' x = some y := h x (List.mem_cons_self ..) y hy
    have htail : xs.mapM f' = some zs := ih (fun a ha => h a (List.mem_cons_of_mem _ ha)) hzs
    rw [hx, htail]
    exact hys

namespace TypeGraph

def nameOf? (g : TypeGraph) (id : TypeId) : Option String := (g.definition? id).map (·.fullName)

mutual

/-- An instance with the names of its definitions. -/
def named? (g : TypeGraph) : TypeInstance → Option NamedInstance
  | .mk d as => do
    let name ← g.nameOf? d
    let arguments ← namedAll? g as
    return .mk name arguments

def namedAll? (g : TypeGraph) : List TypeInstance → Option (List NamedInstance)
  | [] => some []
  | i :: is => do
    let n ← named? g i
    let ns ← namedAll? g is
    return n :: ns

end

def namedProperty? (g : TypeGraph) (p : PropertyDefinition) : Option NamedProperty := do
  let type ← g.named? p.type
  return ⟨p.name, type, p.nullable⟩

def namedPlaceholder? (g : TypeGraph) (id : TypeId) : Option NamedPlaceholder := do
  let d ← g.definition? id
  let bounds ← g.namedAll? d.superTypes
  return ⟨d.fullName, d.shortName, d.kind, bounds, d.initialized⟩

/-- A definition with names for numbers, its parameters written out. -/
def reading? (g : TypeGraph) (d : TypeDefinition) : Option NamedDefinition := do
  let placeholders ← d.genericParams.mapM g.namedPlaceholder?
  let properties ← d.properties.mapM g.namedProperty?
  let superTypes ← g.namedAll? d.superTypes
  return {
    fullName := d.fullName
    shortName := d.shortName
    tsName := d.tsName
    kind := d.kind
    superTypes
    properties
    enumConstants := d.enumConstants
    placeholders
    container := d.container
    initialized := d.initialized }

variable {g g' g'' : TypeGraph}

/-- What has a number keeps its name. -/
def KeepsNames (g g' : TypeGraph) : Prop :=
  ∀ ⦃id n⦄, g.nameOf? id = some n → g'.nameOf? id = some n

theorem KeepsNames.trans (h : g.KeepsNames g') (h' : g'.KeepsNames g'') : g.KeepsNames g'' :=
  fun _ _ hn => h' (h hn)

theorem keepsNames_of_definitions
    (h : ∀ ⦃id d⦄, g.definition? id = some d → g'.definition? id = some d) : g.KeepsNames g' := by
  intro id n hn
  obtain ⟨d, hd, hname⟩ := Option.map_eq_some_iff.1 hn
  rw [nameOf?, h hd, Option.map_some, hname]

theorem keepsNames_update {f : TypeDefinition → TypeDefinition} (hf : TypeDefinition.Keeping f)
    (g : TypeGraph) (id : TypeId) : g.KeepsNames (g.update id f) := by
  intro i n hn
  obtain ⟨d, hd, hname⟩ := Option.map_eq_some_iff.1 hn
  rw [nameOf?, definition?_update hf.id, hd, Option.map_some, Option.map_some]
  split
  · rw [hf.fullName, hname]
  · rw [hname]

theorem keepsNames_of_idOf? (hg : g.WellFormed) (hg' : g'.WellFormed)
    (h : ∀ ⦃n i⦄, g.idOf? n = some i → g'.idOf? n = some i) : g.KeepsNames g' := by
  intro id n hn
  obtain ⟨d, hd, rfl⟩ := Option.map_eq_some_iff.1 hn
  obtain ⟨d', hd', hname⟩ := hg'.indexed (h (hg.named hd))
  rw [nameOf?, hd', Option.map_some, hname]

theorem namedAll?_cons (i : TypeInstance) (is : List TypeInstance) : g.namedAll? (i :: is) =
    (g.named? i).bind fun n => (g.namedAll? is).bind fun ns => some (n :: ns) := by
  rw [namedAll?]
  rfl

theorem namedAll?_eq_mapM (g : TypeGraph) (is : List TypeInstance) :
    g.namedAll? is = is.mapM g.named? := by
  induction is with
  | nil => rfl
  | cons i is ih =>
    rw [namedAll?_cons, List.mapM_cons, ih]
    rfl

theorem named?_eq_some_iff {id : TypeId} {is : List TypeInstance} {n : NamedInstance} :
    g.named? (.mk id is) = some n ↔
      ∃ name ns, g.nameOf? id = some name ∧ g.namedAll? is = some ns ∧ n = .mk name ns := by
  rw [named?]
  cases g.nameOf? id with
  | none => simp
  | some name =>
    cases g.namedAll? is with
    | none => simp
    | some ns => simp [eq_comm]

theorem named?_mk {id : TypeId} {is : List TypeInstance} {name : String} {ns : List NamedInstance}
    (hname : g.nameOf? id = some name) (his : g.namedAll? is = some ns) :
    g.named? (.mk id is) = some (.mk name ns) := named?_eq_some_iff.2 ⟨name, ns, hname, his, rfl⟩

theorem namedAll?_append {is js : List TypeInstance} {ns ms : List NamedInstance}
    (his : g.namedAll? is = some ns) (hjs : g.namedAll? js = some ms) :
    g.namedAll? (is ++ js) = some (ns ++ ms) := by
  induction is generalizing ns with
  | nil =>
    obtain rfl : [] = ns := Option.some.inj his
    exact hjs
  | cons i is ih =>
    rw [namedAll?_cons] at his
    obtain ⟨n, hn, hrest⟩ := Option.bind_eq_some_iff.1 his
    obtain ⟨ns', hns', hcons⟩ := Option.bind_eq_some_iff.1 hrest
    obtain rfl : n :: ns' = ns := Option.some.inj hcons
    rw [List.cons_append, namedAll?_cons, hn, ih hns']
    rfl

/-- What an optional instance reads as. -/
theorem namedAll?_toList_some {i : TypeInstance} {n : NamedInstance} :
    g.namedAll? [i] = some [n] ↔ g.named? i = some n := by
  rw [namedAll?_cons]
  cases g.named? i with
  | none => simp
  | some m => simp [namedAll?]

theorem reading?_of_parts {d : TypeDefinition} {placeholders : List NamedPlaceholder}
    {properties : List NamedProperty} {superTypes : List NamedInstance}
    (hplaceholders : d.genericParams.mapM g.namedPlaceholder? = some placeholders)
    (hproperties : d.properties.mapM g.namedProperty? = some properties)
    (hsuper : g.namedAll? d.superTypes = some superTypes) :
    g.reading? d = some ⟨d.fullName, d.shortName, d.tsName, d.kind, superTypes, properties,
      d.enumConstants, placeholders, d.container, d.initialized⟩ := by
  unfold reading?
  rw [hplaceholders, hproperties, hsuper]
  rfl

/-- A reading has been put together from those of the parts. -/
theorem parts_of_reading? {d : TypeDefinition} {n : NamedDefinition} (h : g.reading? d = some n) :
    d.genericParams.mapM g.namedPlaceholder? = some n.placeholders ∧
      d.properties.mapM g.namedProperty? = some n.properties ∧
      g.namedAll? d.superTypes = some n.superTypes ∧ n = ⟨d.fullName, d.shortName, d.tsName, d.kind,
        n.superTypes, n.properties, d.enumConstants, n.placeholders, d.container, d.initialized⟩ := by
  obtain ⟨placeholders, hplaceholders, h⟩ := Option.bind_eq_some_iff.1 h
  obtain ⟨properties, hproperties, h⟩ := Option.bind_eq_some_iff.1 h
  obtain ⟨superTypes, hsuper, h⟩ := Option.bind_eq_some_iff.1 h
  rw [← Option.some.inj h]
  exact ⟨hplaceholders, hproperties, hsuper, rfl⟩

mutual

theorem KeepsNames.named? (h : g.KeepsNames g') {i : TypeInstance} {n : NamedInstance}
    (hi : g.named? i = some n) : g'.named? i = some n := by
  cases i with
  | mk d as =>
    obtain ⟨name, ns, hname, hns, rfl⟩ := named?_eq_some_iff.1 hi
    exact named?_mk (h hname) (h.namedAll? hns)

theorem KeepsNames.namedAll? (h : g.KeepsNames g') {is : List TypeInstance}
    {ns : List NamedInstance} (his : g.namedAll? is = some ns) : g'.namedAll? is = some ns := by
  cases is with
  | nil => exact his
  | cons i is =>
    rw [namedAll?_cons] at his ⊢
    obtain ⟨n, hn, hrest⟩ := Option.bind_eq_some_iff.1 his
    obtain ⟨ns', hns', hcons⟩ := Option.bind_eq_some_iff.1 hrest
    rw [h.named? hn, h.namedAll? hns']
    exact hcons

end

theorem KeepsNames.namedProperties? (h : g.KeepsNames g') {ps : List PropertyDefinition}
    {ns : List NamedProperty} (hps : ps.mapM g.namedProperty? = some ns) :
    ps.mapM g'.namedProperty? = some ns := by
  refine mapM_eq_some_of_imp (fun p _ n hn => ?_) hps
  obtain ⟨type, htype, hn⟩ := Option.bind_eq_some_iff.1 hn
  rw [namedProperty?, h.named? htype]
  exact hn

/-- A placeholder that stays as it is reads the same. -/
theorem KeepsNames.namedPlaceholder? (h : g.KeepsNames g') {id : TypeId}
    (hid : ∀ d, g.definition? id = some d → g'.definition? id = some d) {n : NamedPlaceholder}
    (hn : g.namedPlaceholder? id = some n) : g'.namedPlaceholder? id = some n := by
  obtain ⟨d, hd, hrest⟩ := Option.bind_eq_some_iff.1 hn
  obtain ⟨bounds, hbounds, hn⟩ := Option.bind_eq_some_iff.1 hrest
  rw [TypeGraph.namedPlaceholder?, hid d hd]
  change ((g'.namedAll? d.superTypes).bind _) = _
  rw [h.namedAll? hbounds]
  exact hn

/-- A definition whose placeholders stay as they are reads the same. -/
theorem KeepsNames.reading? (h : g.KeepsNames g') {d : TypeDefinition}
    (hparams : ∀ p ∈ d.genericParams, ∀ q, g.definition? p = some q → g'.definition? p = some q)
    {n : NamedDefinition} (hn : g.reading? d = some n) : g'.reading? d = some n := by
  obtain ⟨hplaceholders, hproperties, hsuper, heq⟩ := parts_of_reading? hn
  have hplaceholders' : d.genericParams.mapM g'.namedPlaceholder? = some n.placeholders :=
    mapM_eq_some_of_imp (fun p hp _ hn => h.namedPlaceholder? (hparams p hp) hn) hplaceholders
  rw [reading?_of_parts hplaceholders' (h.namedProperties? hproperties) (h.namedAll? hsuper), ← heq]

end TypeGraph

end ClientBindings
