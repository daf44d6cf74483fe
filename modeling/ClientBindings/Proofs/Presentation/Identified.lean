import ClientBindings.Proofs.Presentation.Account
import ClientBindings.Proofs.Translation.Lookup

/-! Definitions that their names identify: a name without the sign of placeholders fixes the kind of its
definition, and one with it fixes everything but the bounds. It is so from the registration of a
definition on, while it is still being filled. -/
namespace ClientBindings.BuildContext

open TypeGraph

variable {cx : BuildContext} {g : TypeGraph} {d : TypeDefinition} {id : TypeId} {t : DeclaredType}
  {name n : String}

/-- The kind that the name of a definition goes with. -/
def Known (cx : BuildContext) (d : TypeDefinition) : Prop :=
  (∃ p, cx.predefined? d.fullName = some p ∧ d.kind = p.kind) ∨
    ∃ t, cx.Defined t ∧ t.name = d.fullName ∧ d.kind = kindOf t.kind

/-- The placeholder of a parameter of an interface, with bounds or still without. -/
def Slot (cx : BuildContext) (d : TypeDefinition) : Prop :=
  ∃ t p id bounds initialized, cx.Defined t ∧ Unreserved t.name ∧ kindOf t.kind = .interfaceType ∧
    p ∈ t.typeParameters ∧ d = { placeholder t.name p with
      id := id, superTypes := bounds, initialized := initialized }

structure Identified (cx : BuildContext) (g : TypeGraph) : Prop extends g.WellFormed where
  stocked : g.Stocked
  offered {name : String} {p : TypeDefinition} : cx.predefined? name = some p →
    ∃ id, g.idOf? name = some id
  known {id : TypeId} {d : TypeDefinition} : g.definition? id = some d → Unreserved d.fullName →
    cx.Known d
  slot {id : TypeId} {d : TypeDefinition} : g.definition? id = some d → ¬Unreserved d.fullName →
    cx.Slot d

theorem Known.change (h : cx.Known d) {f : TypeDefinition → TypeDefinition}
    (hf : TypeDefinition.Keeping f) : cx.Known (f d) := by
  rwa [Known, hf.fullName, hf.kind]

theorem Slot.bounded (h : cx.Slot d) (bounds : List TypeInstance) : cx.Slot (d.bounded bounds) := by
  obtain ⟨t, p, id, _, _, ht, hname, hkind, hp, rfl⟩ := h
  exact ⟨t, p, id, bounds, true, ht, hname, hkind, hp, rfl⟩

namespace Identified

/-- Changes spare the placeholders, or else give them bounds. -/
theorem update (hg : cx.Identified g) {f : TypeDefinition → TypeDefinition}
    (hf : TypeDefinition.Keeping f)
    (hslot : ∀ d, g.definition? id = some d → ¬Unreserved d.fullName → cx.Slot (f d)) :
    cx.Identified (g.update id f) where
  toWellFormed := hg.toWellFormed.update hf id
  stocked := hg.stocked
  offered := hg.offered
  known {i d'} hd' hname := by
    rw [definition?_update hf.id, Option.map_eq_some_iff] at hd'
    obtain ⟨d, hd, rfl⟩ := hd'
    split
    · rename_i hid
      rw [if_pos hid, hf.fullName] at hname
      exact (hg.known hd hname).change hf
    · rename_i hid
      rw [if_neg hid] at hname
      exact hg.known hd hname
  slot {i d'} hd' hname := by
    rw [definition?_update hf.id, Option.map_eq_some_iff] at hd'
    obtain ⟨d, hd, rfl⟩ := hd'
    split
    · rename_i hid
      rw [if_pos hid, hf.fullName] at hname
      rw [← id_of_definition? hd, hid] at hd
      exact hslot d hd hname
    · rename_i hid
      rw [if_neg hid] at hname
      exact hg.slot hd hname

theorem update_of_unreserved (hg : cx.Identified g) {f : TypeDefinition → TypeDefinition}
    (hf : TypeDefinition.Keeping f) (hid : g.idOf? name = some id) (hname : Unreserved name) :
    cx.Identified (g.update id f) :=
  hg.update hf fun _ hd hreserved => absurd (hg.fullName_of_idOf? hid hd ▸ hname) hreserved

theorem bounded (hg : cx.Identified g) (id : TypeId) (bounds : List TypeInstance) :
    cx.Identified (g.update id (.bounded bounds)) :=
  hg.update (TypeDefinition.keeping_bounded bounds) fun _ hd hname => (hg.slot hd hname).bounded bounds

theorem register (hg : cx.Identified g)
    (hknown : Unreserved d.fullName → cx.Known { d with id := g.nextId })
    (hslot : ¬Unreserved d.fullName → cx.Slot { d with id := g.nextId }) :
    cx.Identified (g.register d).1 where
  toWellFormed := hg.toWellFormed.register d
  stocked b hb := exists_idOf?_register (hg.stocked b hb) d
  offered h := exists_idOf?_register (hg.offered h) d
  known hd' hname := by
    rcases hg.toWellFormed.definition?_of_register hd' with hd' | ⟨-, -, rfl⟩
    · exact hg.known hd' hname
    · exact hknown hname
  slot hd' hname := by
    rcases hg.toWellFormed.definition?_of_register hd' with hd' | ⟨-, -, rfl⟩
    · exact hg.slot hd' hname
    · exact hslot hname

theorem enter (hg : cx.Identified g) (ht : cx.Defined t) (hname : Unreserved t.name) :
    cx.Identified (g.register (cx.outline t)).1 :=
  hg.register (fun _ => .inr ⟨t, ht, rfl, rfl⟩) fun hreserved => absurd hname hreserved

theorem registerPlaceholder (hg : cx.Identified g) (ht : cx.Defined t) (hname : Unreserved t.name)
    (hkind : kindOf t.kind = .interfaceType) {p : TypeParameter} (hp : p ∈ t.typeParameters) :
    cx.Identified (g.register (placeholder t.name p)).1 := by
  refine hg.register (fun hn => absurd hn (not_unreserved_placeholderName _ _)) fun _ => ?_
  exact ⟨t, p, g.nextId, [], false, ht, hname, hkind, hp, rfl⟩

theorem register_builtin (hg : cx.Identified g) (hd : d ∈ Builtin.all) : (g.register d).1 = g :=
  hg.stocked.register hd

/-- The registered names are those of predefined types and of types of their own. -/
theorem predefined_or_defined (hg : cx.Identified g) (hname : Unreserved name)
    (hid : g.idOf? name = some id) :
    (cx.predefined? name).isSome = true ∨ ∃ t, cx.Defined t ∧ t.name = name := by
  obtain ⟨d, hd, rfl⟩ := hg.indexed hid
  rcases hg.known hd hname with ⟨p, hp, -⟩ | ⟨t, ht, hn, -⟩
  · exact .inl (by rw [hp]; rfl)
  · exact .inr ⟨t, ht, hn⟩

theorem classified (hg : cx.Identified g) : cx.Classified g where
  offered := hg.offered
  known hname hid :=
    (hg.predefined_or_defined hname hid).imp_right fun ⟨t, ht, hn⟩ => ⟨t, hn ▸ ht.1⟩

/-- A name that is not registered is not predefined. -/
theorem predefined?_eq_none (hg : cx.Identified g) (h : g.idOf? name = none) :
    cx.predefined? name = none := hg.classified.predefined?_of_unregistered h

/-- Whether the owner of a variable is unknown does not depend on the graph. -/
theorem unknown_eq (hg : cx.Identified g) (hname : Unreserved name) :
    ((cx.symbols.type? name).isNone && (g.idOf? name).isNone) =
      ((cx.symbols.type? name).isNone && (cx.predefined? name).isNone) := by
  cases htype : cx.symbols.type? name with
  | some t => rfl
  | none =>
    cases hid : g.idOf? name with
    | none =>
      rw [hg.predefined?_eq_none hid]
      rfl
    | some id =>
      rcases hg.predefined_or_defined hname hid with hp | ⟨t, ht, rfl⟩
      · obtain ⟨p, hp⟩ := Option.isSome_iff_exists.1 hp
        rw [hp]
        rfl
      · rw [ht.1.2.2.2] at htype
        cases htype

theorem kind?_eq (hg : cx.Identified g) (hname : Unreserved name) (hid : g.idOf? name = some id) :
    g.kind? id = cx.kindNamed? name := by
  obtain ⟨d, hd, rfl⟩ := hg.indexed hid
  rw [kind?, hd, Option.map_some, kindNamed?]
  rcases hg.known hd hname with ⟨p, hp, hkind⟩ | ⟨t, ht, hn, hkind⟩
  · rw [hp, hkind]
    rfl
  · rw [← hn, ht.2, ht.1.2.2.2, hkind]
    rfl

end Identified

/-- The names of types of their own, in the order of registration. -/
def ownNames (cx : BuildContext) (g : TypeGraph) : List String :=
  (g.definitions.map (·.fullName)).filter fun n =>
    decide (Unreserved n) && (cx.predefined? n).isNone

theorem mem_ownNames (hg : g.WellFormed) : n ∈ cx.ownNames g ↔
    Unreserved n ∧ cx.predefined? n = none ∧ ∃ id, g.idOf? n = some id := by
  have hregistered : n ∈ g.definitions.map (·.fullName) ↔ ∃ id, g.idOf? n = some id := by
    rw [List.mem_map]
    constructor
    · rintro ⟨d, hd, rfl⟩
      exact ⟨d.id, hg.named (hg.listed hd)⟩
    · rintro ⟨id, hid⟩
      obtain ⟨d, hd, hn⟩ := hg.indexed hid
      exact ⟨d, List.mem_of_find?_eq_some hd, hn⟩
  simp only [ownNames, List.mem_filter, hregistered, Bool.and_eq_true, decide_eq_true_eq,
    Option.isNone_iff_eq_none]
  exact ⟨fun ⟨hid, hn, hp⟩ => ⟨hn, hp, hid⟩, fun ⟨hn, hp, hid⟩ => ⟨hid, hn, hp⟩⟩

theorem ownNames_update {f : TypeDefinition → TypeDefinition} (hf : TypeDefinition.Keeping f)
    (g : TypeGraph) (id : TypeId) : cx.ownNames (g.update id f) = cx.ownNames g := by
  have hname : ((·.fullName) ∘ fun d : TypeDefinition => if d.id = id then f d else d) =
      (·.fullName) := by
    funext d
    rw [Function.comp_apply]
    split
    · exact hf.fullName d
    · rfl
  rw [ownNames, TypeGraph.update, List.map_map, hname]
  rfl

theorem ownNames_register_reserved (hd : ¬Unreserved d.fullName) (g : TypeGraph) :
    cx.ownNames (g.register d).1 = cx.ownNames g := by
  cases hid : g.idOf? d.fullName with
  | some id => rw [register_of_idOf? hid]
  | none =>
    rw [register_of_none hid, ownNames, List.map_append, List.filter_append]
    simp [ownNames, hd]

theorem ownNames_enter (ht : cx.Defined t) (hname : Unreserved t.name)
    (hid : g.idOf? t.name = none) :
    cx.ownNames (g.register (cx.outline t)).1 = cx.ownNames g ++ [t.name] := by
  have hnone : g.idOf? (cx.outline t).fullName = none := hid
  rw [register_of_none hnone, ownNames, List.map_append, List.filter_append]
  have hnew : (cx.outline t).fullName = t.name := rfl
  simp [ownNames, hnew, hname, ht.2]

/-- Each name once. -/
theorem nodup_ownNames (hg : (g.definitions.map (·.fullName)).Nodup) : (cx.ownNames g).Nodup :=
  hg.filter _

theorem ownNames_seed (g : TypeGraph) :
    cx.ownNames (g.clear.seed cx.settings) = [] := by
  refine List.eq_nil_iff_forall_not_mem.2 fun n hn => ?_
  have hg : (g.clear.seed cx.settings).Offered (predefined cx.settings) := offered_seed g cx.settings
  obtain ⟨-, hfree, id, hid⟩ := (mem_ownNames hg.toWellFormed).1 hn
  obtain ⟨d, hd, rfl⟩ := hg.indexed hid
  obtain ⟨p, hp, -⟩ := hg.first hd
  rw [predefined?, hp] at hfree
  cases hfree

/-- A graph that has just been seeded. -/
theorem identified_seed (hs : cx.settings.Unreserved) (g : TypeGraph) :
    cx.Identified (g.clear.seed cx.settings) where
  toWellFormed := (shaped_seed hs g).toWellFormed
  stocked := (shaped_seed hs g).stocked
  offered := (shaped_seed hs g).offered
  known hd _ := by
    obtain ⟨p, hp, rfl⟩ := (offered_seed g cx.settings).first hd
    exact .inl ⟨p, hp, rfl⟩
  slot hd hname := by
    obtain ⟨p, hp, rfl⟩ := (offered_seed g cx.settings).first hd
    exact absurd (unreserved_of_mem_predefined hs (List.mem_of_find?_eq_some hp)) hname

end ClientBindings.BuildContext
