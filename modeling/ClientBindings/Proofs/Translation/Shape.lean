import ClientBindings.Proofs.Graph.Seeding
import ClientBindings.Proofs.Resolution.Frame
import ClientBindings.Proofs.Resolution.Naming
import ClientBindings.Proofs.Translation.Reading

/-! What every definition of a graph is, as far as the resolution of references looks at it: one that
was predefined, the placeholder of a parameter, or the definition of a declared type with its
placeholders attached. Content does not matter, so this holds while types are still being filled;
only the type that was just entered is without its placeholders. -/
namespace ClientBindings.BuildContext

open TypeGraph

variable {cx : BuildContext} {g g' : TypeGraph} {bare : Option TypeId} {d : TypeDefinition}
  {id : TypeId} {t : DeclaredType} {name n : String}

/-- The parameters of the definition of a type: the placeholders of an interface. -/
def Parameters (g : TypeGraph) (t : DeclaredType) (ids : List TypeId) : Prop :=
  if kindOf t.kind = .interfaceType then
    List.Forall₂ (fun p i => g.idOf? (placeholderName t.name p.name) = some i) t.typeParameters ids
  else ids = []

/-- The three kinds of definitions. Nothing is said of the parameters of the bare one. -/
inductive Entry (cx : BuildContext) (g : TypeGraph) (bare : Option TypeId) (d : TypeDefinition) : Prop
  | predefined {p : TypeDefinition} (hname : Unreserved d.fullName)
      (hp : cx.predefined? d.fullName = some p) (hd : d = { p with id := d.id })
  | placeholder {owner param : String} (howner : Unreserved owner)
      (hname : d.fullName = placeholderName owner param) (hshort : d.shortName = param)
      (hkind : d.kind = .genericPlaceholder) (hnew : d.predefined = false)
  | declared {t : DeclaredType} (hname : Unreserved d.fullName) (ht : cx.Definable d.fullName t)
      (hfree : cx.predefined? d.fullName = none) (hkind : d.kind = kindOf t.kind) (hnew : d.predefined = false)
      (hparams : some d.id ≠ bare → Parameters g t d.genericParams)

structure Shaped (cx : BuildContext) (bare : Option TypeId) (g : TypeGraph) : Prop extends g.Ready where
  offered {name : String} {p : TypeDefinition} : cx.predefined? name = some p →
    ∃ id, g.idOf? name = some id
  entry {id : TypeId} {d : TypeDefinition} : g.definition? id = some d → cx.Entry g bare d

theorem kindOf_ne_placeholder (k : DeclaredKind) : kindOf k ≠ .genericPlaceholder := by
  cases k <;> simp [kindOf]

theorem Parameters.names {ids : List TypeId} (h : Parameters g t ids)
    (hnames : ∀ ⦃n i⦄, g.idOf? n = some i → g'.idOf? n = some i) : Parameters g' t ids := by
  unfold Parameters at h ⊢
  split at h
  · rename_i hkind
    rw [if_pos hkind]
    exact h.imp fun _ _ hi => hnames hi
  · rename_i hkind
    rwa [if_neg hkind]

theorem predefined?_mem {p : TypeDefinition} (h : cx.predefined? name = some p) :
    p ∈ predefined cx.settings ∧ p.fullName = name :=
  ⟨List.mem_of_find?_eq_some h, by simpa using List.find?_some h⟩

theorem predefined_of_predefined? {p : TypeDefinition} (h : cx.predefined? name = some p) :
    p.predefined = true ∧ p.genericParams = [] := by
  obtain ⟨kind, e, rfl⟩ := exists_predefinedType_of_mem (predefined?_mem h).1
  exact ⟨rfl, rfl⟩

namespace Entry

theorem names (h : cx.Entry g bare d) (hnames : ∀ ⦃n i⦄, g.idOf? n = some i → g'.idOf? n = some i) :
    cx.Entry g' bare d := by
  cases h with
  | predefined hname hp hd => exact .predefined hname hp hd
  | placeholder howner hname hshort hkind hnew => exact .placeholder howner hname hshort hkind hnew
  | declared hname ht hfree hkind hnew hparams =>
    exact .declared hname ht hfree hkind hnew fun hbare => (hparams hbare).names hnames

/-- Less is said of a bare definition. -/
theorem weaken (h : cx.Entry g none d) (bare : Option TypeId) : cx.Entry g bare d := by
  cases h with
  | predefined hname hp hd => exact .predefined hname hp hd
  | placeholder howner hname hshort hkind hnew => exact .placeholder howner hname hshort hkind hnew
  | declared hname ht hfree hkind hnew hparams =>
    exact .declared hname ht hfree hkind hnew fun _ => hparams (Option.some_ne_none _)

/-- What is not predefined may be changed. -/
theorem change (h : cx.Entry g bare d) (hnew : d.predefined = false)
    {f : TypeDefinition → TypeDefinition} (hf : TypeDefinition.Keeping f)
    (hp : (f d).genericParams = d.genericParams) : cx.Entry g bare (f d) := by
  cases h with
  | @predefined p hname hp' hd =>
    rw [hd] at hnew
    rw [(predefined_of_predefined? hp').1] at hnew
    cases hnew
  | placeholder howner hname hshort hkind hnew =>
    exact .placeholder howner ((hf.fullName d).trans hname) ((hf.shortName d).trans hshort)
      ((hf.kind d).trans hkind) ((hf.predefined d).trans hnew)
  | declared hname ht hfree hkind hnew hparams =>
    refine .declared (by rwa [hf.fullName]) (by rwa [hf.fullName]) (by rwa [hf.fullName]) ((hf.kind d).trans hkind)
      ((hf.predefined d).trans hnew) fun hbare => ?_
    rw [hf.id] at hbare
    rw [hp]
    exact hparams hbare

/-- The definition of an ordinary name is no placeholder. -/
theorem declared_of (h : cx.Entry g bare d) (hnew : d.predefined = false)
    (hkind : d.kind ≠ .genericPlaceholder) : Unreserved d.fullName ∧ ∃ t,
      cx.Definable d.fullName t ∧ cx.predefined? d.fullName = none ∧ d.kind = kindOf t.kind ∧
      (some d.id ≠ bare → Parameters g t d.genericParams) := by
  cases h with
  | predefined _ hp hd =>
    rw [hd] at hnew
    rw [(predefined_of_predefined? hp).1] at hnew
    cases hnew
  | placeholder _ _ _ hplaceholder _ => exact absurd hplaceholder hkind
  | declared hname ht hfree hkind hnew hparams => exact ⟨hname, _, ht, hfree, hkind, hparams⟩

/-- A name with the sign of placeholders is that of a placeholder. -/
theorem placeholder_of {owner param : String} (h : cx.Entry g bare d) (howner : Unreserved owner)
    (hname : d.fullName = placeholderName owner param) :
    d.shortName = param ∧ d.kind = .genericPlaceholder ∧ d.predefined = false := by
  cases h with
  | predefined hn _ _ => exact absurd (hname ▸ hn) (not_unreserved_placeholderName _ _)
  | placeholder howner' hname' hshort hkind hnew =>
    obtain ⟨-, rfl⟩ := placeholderName_inj howner' howner (hname'.symm.trans hname)
    exact ⟨hshort, hkind, hnew⟩
  | declared hn _ _ _ _ _ => exact absurd (hname ▸ hn) (not_unreserved_placeholderName _ _)

end Entry

namespace Shaped

theorem weaken (hg : cx.Shaped none g) (bare : Option TypeId) : cx.Shaped bare g where
  toReady := hg.toReady
  offered := hg.offered
  entry hd := (hg.entry hd).weaken bare

theorem register (hg : cx.Shaped bare g) (hready : (g.register d).1.Ready)
    (hnew : g.idOf? d.fullName = none →
      cx.Entry (g.register d).1 bare { d with id := g.nextId }) :
    cx.Shaped bare (g.register d).1 where
  toReady := hready
  offered h := exists_idOf?_register (hg.offered h) d
  entry {i d'} hd' := by
    rcases hg.toWellFormed.definition?_of_register hd' with hd' | ⟨hn, -, rfl⟩
    · exact (hg.entry hd').names fun _ _ => idOf?_register
    · exact hnew hn

/-- A type is entered without placeholders. -/
theorem enter (hg : cx.Shaped none g) (ht : cx.Definable t.name t) (hname : Unreserved t.name)
    (hnone : g.idOf? t.name = none)
    (hbare : bare = some g.nextId ∨ kindOf t.kind ≠ .interfaceType) :
    cx.Shaped bare (g.register (cx.outline t)).1 := by
  have hfree : cx.predefined? t.name = none := by
    cases hp : cx.predefined? t.name with
    | none => rfl
    | some p =>
      obtain ⟨id, hid⟩ := hg.offered hp
      rw [hnone] at hid
      cases hid
  refine (hg.weaken _).register (hg.toReady.register_unreserved rfl hname) fun _ => ?_
  refine .declared hname ht hfree rfl rfl fun h => ?_
  rcases hbare with hbare | hkind
  · exact absurd hbare.symm h
  · exact (if_neg hkind).mpr rfl

theorem registerPlaceholder (hg : cx.Shaped bare g) (hname : Unreserved t.name)
    (ht : g.idOf? t.name = some id) (p : TypeParameter) :
    cx.Shaped bare (g.register (placeholder t.name p)).1 := by
  refine hg.register (hg.toReady.register rfl fun o q ho hn => ?_) fun _ => ?_
  · obtain ⟨rfl, -⟩ := placeholderName_inj hname ho hn
    exact ⟨id, ht⟩
  · exact .placeholder hname rfl rfl rfl rfl

theorem update (hg : cx.Shaped bare g) {f : TypeDefinition → TypeDefinition}
    (hf : TypeDefinition.Keeping f) (hp : ∀ d, (f d).genericParams = d.genericParams)
    (hnew : ∀ d, g.definition? id = some d → d.predefined = false) :
    cx.Shaped bare (g.update id f) where
  toReady := hg.toReady.update hf hp id
  offered := hg.offered
  entry hd := by
    rw [definition?_update hf.id, Option.map_eq_some_iff] at hd
    obtain ⟨d, hd, rfl⟩ := hd
    have hentry : cx.Entry (g.update id f) bare d := (hg.entry hd).names fun _ _ h => h
    split
    · rename_i hid
      rw [← id_of_definition? hd, hid] at hd
      exact hentry.change (hnew d hd) hf (hp d)
    · exact hentry

/-- The placeholders are attached. -/
theorem attach (hg : cx.Shaped (some id) g) (hd : g.definition? id = some d)
    (ht : cx.Definable d.fullName t) (hnew : d.predefined = false)
    (hkind : d.kind ≠ .genericPlaceholder) {ids : List TypeId} (hids : Parameters g t ids) :
    cx.Shaped none (g.update id (.withGenericParams ids)) where
  toReady := by
    refine hg.toReady.withGenericParams (fun p hp => ?_) id
    unfold Parameters at hids
    split at hids
    · obtain ⟨q, -, hq⟩ := exists_of_forall₂ hids hp
      exact (hg.indexed hq).imp fun _ h => h.1
    · rw [hids] at hp
      cases hp
  offered := hg.offered
  entry hd' := by
    rw [definition?_update (TypeDefinition.keeping_withGenericParams ids).id,
      Option.map_eq_some_iff] at hd'
    obtain ⟨d', hd', rfl⟩ := hd'
    split
    · rename_i hid
      obtain rfl : d' = d := by
        rw [← id_of_definition? hd', hid, hd] at hd'
        exact (Option.some.inj hd').symm
      obtain ⟨hname, t', ht', hfree, hkind', -⟩ := (hg.entry hd').declared_of hnew hkind
      obtain rfl : t' = t := Option.some.inj (ht'.2.2.2.symm.trans ht.2.2.2)
      exact .declared hname ht' hfree hkind' hnew fun _ => hids
    · rename_i hid
      cases hg.entry hd' with
      | predefined hname hp hd => exact .predefined hname hp hd
      | placeholder howner hname hshort hkind hnew =>
        exact .placeholder howner hname hshort hkind hnew
      | declared hname ht hfree hkind hnew hparams =>
        exact .declared hname ht hfree hkind hnew fun _ => hparams fun h => hid (Option.some.inj h)

end Shaped

end ClientBindings.BuildContext
