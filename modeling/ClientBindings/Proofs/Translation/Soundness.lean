import ClientBindings.Proofs.Translation.Lookup

/-! The definitions that read as their declarations are translated: all of a graph but those that are
still being filled. Filling one of these changes it and its placeholders, and no other definition is
read through them. -/
namespace ClientBindings.BuildContext

open TypeGraph

variable {cx : BuildContext} {g g' : TypeGraph} {bare : Option TypeId} {X : TypeId → Prop}
  {d : TypeDefinition} {id : TypeId} {t : DeclaredType}

/-- The definition of a declared type, with names for numbers, is the direct translation. -/
def Faithful (cx : BuildContext) (g : TypeGraph) (d : TypeDefinition) : Prop :=
  ∃ t n, cx.symbols.type? d.fullName = some t ∧ cx.translateType? t = some n ∧
    g.reading? d = some n

/-- The definitions of declared types, placeholders apart. -/
def Own (d : TypeDefinition) : Prop := d.predefined = false ∧ d.kind ≠ .genericPlaceholder

/-- All definitions of declared types are faithful but those of the numbers `X`. -/
structure Sound (cx : BuildContext) (bare : Option TypeId) (X : TypeId → Prop) (g : TypeGraph) : Prop
    extends cx.Shaped bare g where
  faithful {id : TypeId} {d : TypeDefinition} : g.definition? id = some d → Own d → ¬X id →
    cx.Faithful g d

theorem Faithful.keep (h : cx.Faithful g d) (hnames : g.KeepsNames g')
    (hparams : ∀ p ∈ d.genericParams, ∀ q, g.definition? p = some q → g'.definition? p = some q) :
    cx.Faithful g' d := by
  obtain ⟨t, n, ht, hn, hd⟩ := h
  exact ⟨t, n, ht, hn, hnames.reading? hparams hd⟩

theorem Own.declared (hd : Own d) (h : cx.Entry g bare d) : Unreserved d.fullName ∧ ∃ t,
    cx.Definable d.fullName t ∧ cx.predefined? d.fullName = none ∧ d.kind = kindOf t.kind ∧
      (some d.id ≠ bare → Parameters g t d.genericParams) := h.declared_of hd.1 hd.2

/-- What is attached to a definition of its own are its placeholders. -/
theorem Shaped.idOf?_of_parameter (hg : cx.Shaped bare g) (hd : g.definition? id = some d)
    (hown : Own d) (hbare : some id ≠ bare) {i : TypeId} (hi : i ∈ d.genericParams) :
    ∃ p, g.idOf? (placeholderName d.fullName p) = some i := by
  obtain ⟨-, t, ht, -, -, hparams⟩ := hown.declared (hg.entry hd)
  have hids : Parameters g t d.genericParams := hparams (by rwa [id_of_definition? hd])
  unfold Parameters at hids
  split at hids
  · obtain ⟨p, -, hp⟩ := exists_of_forall₂ hids hi
    rw [ht.name_eq] at hp
    exact ⟨p.name, hp⟩
  · rw [hids] at hi
    cases hi

namespace Sound

/-- With a placeholder, or a definition that is left to be filled. -/
theorem register {bare' : Option TypeId} {X' : TypeId → Prop} (hg : cx.Sound bare X g)
    (hshaped : cx.Shaped bare' (g.register d).1) (hX : ∀ i, X i → X' i)
    (hnew : g.idOf? d.fullName = none → Own d → X' g.nextId) :
    cx.Sound bare' X' (g.register d).1 where
  toShaped := hshaped
  faithful {i d'} hd' hown hi := by
    rcases hg.toWellFormed.definition?_of_register hd' with hd' | ⟨hn, rfl, rfl⟩
    · have hold : cx.Faithful g d' := hg.faithful hd' hown fun h => hi (hX i h)
      exact hold.keep (keepsNames_of_definitions fun _ _ => definition?_register)
        fun _ _ _ => definition?_register
    · exact absurd (hnew hn hown) hi

theorem registerPlaceholder (hg : cx.Sound bare X g) (hname : Unreserved t.name)
    (ht : g.idOf? t.name = some id) (p : TypeParameter) :
    cx.Sound bare X (g.register (placeholder t.name p)).1 :=
  hg.register (hg.toShaped.registerPlaceholder hname ht p) (fun _ h => h)
    fun _ hown => absurd rfl hown.2

theorem enter (hg : cx.Sound none X g) (ht : cx.Definable t.name t) (hname : Unreserved t.name)
    (hnone : g.idOf? t.name = none)
    (hbare : bare = some g.nextId ∨ kindOf t.kind ≠ .interfaceType) :
    cx.Sound bare (fun i => X i ∨ i = g.nextId) (g.register (cx.outline t)).1 :=
  hg.register (hg.toShaped.enter ht hname hnone hbare) (fun _ => .inl) fun _ _ => .inr rfl

/-- A change is seen in the definition that it is made to and in those that have it as a
parameter. -/
theorem update {bare' : Option TypeId} (hg : cx.Sound bare X g) {f : TypeDefinition → TypeDefinition}
    (hf : TypeDefinition.Keeping f) (hshaped : cx.Shaped bare' (g.update id f))
    (hX : ∀ i d, g.definition? i = some d → Own d → i = id ∨ id ∈ d.genericParams → X i) :
    cx.Sound bare' X (g.update id f) where
  toShaped := hshaped
  faithful {i d'} hd' hown hi := by
    rw [definition?_update hf.id, Option.map_eq_some_iff] at hd'
    obtain ⟨d, hd, rfl⟩ := hd'
    have hown' : Own d := by
      split at hown
      · rwa [Own, hf.predefined, hf.kind] at hown
      · exact hown
    have hne : d.id ≠ id := fun h => hi (hX i d hd hown' (.inl ((id_of_definition? hd).symm.trans h)))
    rw [if_neg hne]
    refine (hg.faithful hd hown' hi).keep (keepsNames_update hf g id) fun p hp q hq => ?_
    have hp' : p ≠ id := fun h => hi (hX i d hd hown' (.inr (h ▸ hp)))
    rw [definition?_update_of_ne hf.id g hp', hq]

/-- A definition of its own is no parameter. -/
theorem open_of_own (hg : cx.Shaped bare g) (hd : g.definition? id = some d) (hown : Own d)
    (hbare : bare = none ∨ bare = some id) (hX : X id) :
    ∀ i d, g.definition? i = some d → Own d → i = id ∨ id ∈ d.genericParams → X i := by
  intro i d' hd' hown' h
  by_cases hi : i = id
  · exact hi ▸ hX
  · have hmem : id ∈ d'.genericParams := h.resolve_left hi
    have hbare' : some i ≠ bare := by
      rcases hbare with rfl | rfl
      · exact Option.some_ne_none i
      · exact fun h => hi (Option.some.inj h)
    obtain ⟨p, hp⟩ := hg.idOf?_of_parameter hd' hown' hbare' hmem
    have hname : d.fullName = placeholderName d'.fullName p := hg.fullName_of_idOf? hp hd
    exact absurd (hname ▸ (hown.declared (hg.entry hd)).1) (not_unreserved_placeholderName _ _)

/-- A type that is left to be filled is filled. -/
theorem fill (hg : cx.Sound none X g) (hd : g.definition? id = some d) (hown : Own d) (hX : X id)
    {f : TypeDefinition → TypeDefinition} (hf : TypeDefinition.Keeping f)
    (hp : ∀ d, (f d).genericParams = d.genericParams) : cx.Sound none X (g.update id f) := by
  refine hg.update hf (hg.toShaped.update hf hp fun d' hd' => ?_)
    (open_of_own hg.toShaped hd hown (.inl rfl) hX)
  rw [hd, Option.some_inj] at hd'
  exact hd' ▸ hown.1

theorem attach (hg : cx.Sound (some id) X g) (hd : g.definition? id = some d) (hown : Own d)
    (ht : cx.Definable d.fullName t) (hX : X id) {ids : List TypeId} (hids : Parameters g t ids) :
    cx.Sound none X (g.update id (.withGenericParams ids)) :=
  hg.update (TypeDefinition.keeping_withGenericParams ids)
    (hg.toShaped.attach hd ht hown.1 hown.2 hids) (open_of_own hg.toShaped hd hown (.inr rfl) hX)

/-- A placeholder of a type that is left to be filled gets its bounds. -/
theorem bound (hg : cx.Sound none X g) (hname : Unreserved t.name) (ht : g.idOf? t.name = some id)
    (hX : X id) {param : String} {i : TypeId}
    (hi : g.idOf? (placeholderName t.name param) = some i) (bounds : List TypeInstance) :
    cx.Sound none X (g.update i (.bounded bounds)) := by
  obtain ⟨q, hq, hqname⟩ := hg.indexed hi
  obtain ⟨-, hkind, hnew⟩ := (hg.entry hq).placeholder_of hname hqname
  have hf : TypeDefinition.Keeping (.bounded bounds) := TypeDefinition.keeping_bounded bounds
  refine hg.update hf (hg.toShaped.update hf (fun _ => rfl) fun d hd => ?_) fun j d hd hown h => ?_
  · rw [hq, Option.some_inj] at hd
    exact hd ▸ hnew
  · rcases h with rfl | hmem
    · rw [hq, Option.some_inj] at hd
      exact absurd (hd ▸ hkind) hown.2
    · obtain ⟨p, hp⟩ := hg.idOf?_of_parameter hd hown (Option.some_ne_none j) hmem
      have hqname' : q.fullName = placeholderName d.fullName p := hg.fullName_of_idOf? hp hq
      obtain ⟨heq, -⟩ := placeholderName_inj (hown.declared (hg.entry hd)).1 hname
        (hqname'.symm.trans hqname)
      have hj : g.idOf? d.fullName = some j := hg.named hd
      rw [heq, ht] at hj
      exact Option.some.inj hj ▸ hX

/-- A definition that has become faithful is no longer left to be filled. -/
theorem leave (hg : cx.Sound none (fun i => X i ∨ i = id) g) (hd : g.definition? id = some d)
    (h : cx.Faithful g d) : cx.Sound none X g where
  toShaped := hg.toShaped
  faithful {i d'} hd' hown hi := by
    by_cases hid : i = id
    · rw [hid, hd, Option.some_inj] at hd'
      exact hd' ▸ h
    · exact hg.faithful hd' hown fun hX => hX.elim hi hid

end Sound

/-- A graph that has just been seeded has nothing but predefined definitions. -/
theorem sound_seed (hs : cx.settings.Unreserved) (g : TypeGraph) :
    cx.Sound none X (g.clear.seed cx.settings) where
  toShaped := shaped_seed hs g
  faithful hd hown _ := by
    obtain ⟨kind, e, rfl⟩ := (g.primal_clear.seed hs).definition hd
    cases hown.1

theorem observant_sound : Observant (Same (cx.Sound none X)) := by
  refine observant_same fun g d hd hg => ?_
  rw [hg.stocked.register hd]
  exact hg

end ClientBindings.BuildContext
