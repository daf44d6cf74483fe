import ClientBindings.Proofs.Resolution.References
import ClientBindings.Proofs.Graph.Registry
import ClientBindings.Proofs.Matching

/-! Graphs that grow. While the sign of placeholders is kept out of other names, a placeholder is
registered after its owner only, and what a build finds registered it leaves as it is. -/
namespace ClientBindings

open BuildContext (placeholderName)

/-- A name without the sign that placeholders are named with. -/
def Unreserved (name : String) : Prop := '#' ∉ name.toList

instance : DecidablePred Unreserved := fun name => inferInstanceAs (Decidable ('#' ∉ name.toList))

theorem toList_placeholderName (o p : String) :
    (placeholderName o p).toList = o.toList ++ '#' :: p.toList := by
  simp [placeholderName, String.toList_append]

theorem not_unreserved_placeholderName (o p : String) : ¬Unreserved (placeholderName o p) := by
  rw [Unreserved, toList_placeholderName]
  simp

theorem append_cons_inj {α : Type} {a : α} {xs xs' ys ys' : List α} (hx : a ∉ xs) (hx' : a ∉ xs')
    (h : xs ++ a :: ys = xs' ++ a :: ys') : xs = xs' ∧ ys = ys' := by
  induction xs generalizing xs' with
  | nil =>
    cases xs' with
    | nil => exact ⟨rfl, (List.cons.inj h).2⟩
    | cons b xs' => exact absurd (List.mem_cons.2 (.inl (List.cons.inj h).1)) hx'
  | cons b xs ih =>
    cases xs' with
    | nil => exact absurd (List.mem_cons.2 (.inl (List.cons.inj h).1.symm)) hx
    | cons b' xs' =>
      obtain ⟨rfl, ht⟩ := List.cons.inj h
      obtain ⟨rfl, hy⟩ := ih (fun ha => hx (List.mem_cons_of_mem _ ha))
        (fun ha => hx' (List.mem_cons_of_mem _ ha)) ht
      exact ⟨rfl, hy⟩

theorem placeholderName_inj {o o' p p' : String} (ho : Unreserved o) (ho' : Unreserved o')
    (h : placeholderName o p = placeholderName o' p') : o = o' ∧ p = p' := by
  have hl : o.toList ++ '#' :: p.toList = o'.toList ++ '#' :: p'.toList := by
    rw [← toList_placeholderName, ← toList_placeholderName, h]
  obtain ⟨hs, ht⟩ := append_cons_inj ho ho' hl
  exact ⟨String.toList_inj.1 hs, String.toList_inj.1 ht⟩

theorem placeholderName_ne (o p : String) : placeholderName o p ≠ o := by
  intro h
  have hl : (o.toList ++ '#' :: p.toList).length = o.toList.length := by
    rw [← toList_placeholderName, h]
  simp at hl

theorem placeholderName_ne_of_unreserved {n : String} (hn : Unreserved n) (o p : String) :
    placeholderName o p ≠ n := fun h => not_unreserved_placeholderName o p (h ▸ hn)

theorem unreserved_builtin {d : TypeDefinition} (hd : d ∈ Builtin.all) : Unreserved d.fullName := by
  simp only [Builtin.all, List.mem_cons, List.not_mem_nil, or_false] at hd
  rcases hd with rfl | rfl | rfl <;> decide

/-- No declared type has the sign of placeholders in its name. -/
def SymbolTable.Unreserved (s : SymbolTable) : Prop :=
  ∀ t ∈ s.types, ClientBindings.Unreserved t.name

namespace TypeGraph

variable {g g' : TypeGraph} {d : TypeDefinition} {id : TypeId}

/-- A graph that builds can work on: the definitions that are registered where they are needed are
there, and so are the owners of placeholders and the parameters of definitions. -/
structure Ready (g : TypeGraph) : Prop extends g.WellFormed where
  stocked : g.Stocked
  owner {o p : String} {id : TypeId} : Unreserved o → g.idOf? (placeholderName o p) = some id →
    ∃ id', g.idOf? o = some id'
  closed {id p : TypeId} {d : TypeDefinition} : g.definition? id = some d → p ∈ d.genericParams →
    ∃ q, g.definition? p = some q

theorem exists_definition?_update {f : TypeDefinition → TypeDefinition}
    (hf : ∀ d, (f d).id = d.id) {p : TypeId} (h : ∃ q, g.definition? p = some q) (id : TypeId) :
    ∃ q, (g.update id f).definition? p = some q := by
  obtain ⟨q, hq⟩ := h
  rw [definition?_update hf, hq]
  exact ⟨_, rfl⟩

theorem Ready.update (hg : g.Ready) {f : TypeDefinition → TypeDefinition}
    (hf : TypeDefinition.Keeping f) (hp : ∀ d, (f d).genericParams = d.genericParams)
    (id : TypeId) : (g.update id f).Ready where
  toWellFormed := hg.toWellFormed.update hf id
  stocked := hg.stocked
  owner := hg.owner
  closed hd hpd := by
    rw [definition?_update hf.id, Option.map_eq_some_iff] at hd
    obtain ⟨d, hd, rfl⟩ := hd
    refine exists_definition?_update hf.id (hg.closed hd ?_) id
    split at hpd
    · rwa [hp] at hpd
    · exact hpd

theorem Ready.withGenericParams (hg : g.Ready) {ids : List TypeId}
    (hids : ∀ p ∈ ids, ∃ q, g.definition? p = some q) (id : TypeId) :
    (g.update id (.withGenericParams ids)).Ready where
  toWellFormed := hg.toWellFormed.update (TypeDefinition.keeping_withGenericParams ids) id
  stocked := hg.stocked
  owner := hg.owner
  closed hd hpd := by
    have hk : TypeDefinition.Keeping (.withGenericParams ids) :=
      TypeDefinition.keeping_withGenericParams ids
    rw [definition?_update hk.id, Option.map_eq_some_iff] at hd
    obtain ⟨d, hd, rfl⟩ := hd
    refine exists_definition?_update hk.id ?_ id
    split at hpd
    · exact hids _ hpd
    · exact hg.closed hd hpd

theorem exists_idOf?_register {n : String} (h : ∃ id, g.idOf? n = some id) (d : TypeDefinition) :
    ∃ id, (g.register d).1.idOf? n = some id := h.imp fun _ => idOf?_register

/-- A definition without parameters may be registered, unless it is a placeholder without an
owner. -/
theorem Ready.register (hg : g.Ready) (hp : d.genericParams = [])
    (hd : ∀ o p, Unreserved o → d.fullName = placeholderName o p → ∃ id, g.idOf? o = some id) :
    (g.register d).1.Ready where
  toWellFormed := hg.toWellFormed.register d
  stocked b hb := exists_idOf?_register (hg.stocked b hb) d
  owner {o p _} ho h := by
    by_cases hn : placeholderName o p = d.fullName
    · exact exists_idOf?_register (hd o p ho hn.symm) d
    · rw [idOf?_register_of_ne hn] at h
      exact exists_idOf?_register (hg.owner ho h) d
  closed {i p d'} hd' hpd := by
    rcases hg.toWellFormed.definition?_of_register hd' with hd' | ⟨-, -, rfl⟩
    · exact (hg.closed hd' hpd).imp fun _ => definition?_register
    · rw [hp] at hpd
      cases hpd

theorem Ready.register_unreserved (hg : g.Ready) (hp : d.genericParams = [])
    (hd : Unreserved d.fullName) : (g.register d).1.Ready :=
  hg.register hp fun o p _ h => absurd h.symm (placeholderName_ne_of_unreserved hd o p)

end TypeGraph

namespace BuildContext

open TypeGraph

variable {cx : BuildContext} {g g' g'' : TypeGraph} {id : TypeId}

/-- What is registered stays as it is, and what is new are declared types and placeholders. -/
structure Extends (cx : BuildContext) (g g' : TypeGraph) : Prop where
  names {n : String} {id : TypeId} : g.idOf? n = some id → g'.idOf? n = some id
  definitions {id : TypeId} {d : TypeDefinition} : g.definition? id = some d →
    g'.definition? id = some d
  seeded : g'.seeded = g.seeded
  new {n : String} {id : TypeId} : g.idOf? n = none → g'.idOf? n = some id →
    (∃ t, cx.Definable n t) ∨ ¬Unreserved n

theorem Extends.refl (g : TypeGraph) : cx.Extends g g :=
  ⟨fun h => h, fun h => h, rfl, fun h h' => by rw [h] at h'; cases h'⟩

theorem Extends.trans (h : cx.Extends g g') (h' : cx.Extends g' g'') : cx.Extends g g'' where
  names hn := h'.names (h.names hn)
  definitions hd := h'.definitions (h.definitions hd)
  seeded := h'.seeded.trans h.seeded
  new {n _} hn hn'' := by
    cases hg : g'.idOf? n with
    | none => exact h'.new hg hn''
    | some id => exact h.new hn hg

theorem Extends.register {d : TypeDefinition} (h : cx.Extends g g')
    (hd : (∃ t, cx.Definable d.fullName t) ∨ ¬Unreserved d.fullName) :
    cx.Extends g (g'.register d).1 where
  names hn := idOf?_register (h.names hn)
  definitions hid := definition?_register (h.definitions hid)
  seeded := (seeded_register g' d).trans h.seeded
  new {n _} hn hn' := by
    by_cases hnd : n = d.fullName
    · exact hnd ▸ hd
    · rw [idOf?_register_of_ne hnd] at hn'
      exact h.new hn hn'

/-- Definitions that are new may be changed. -/
theorem Extends.update (h : cx.Extends g g') (hid : g.definition? id = none)
    {f : TypeDefinition → TypeDefinition} (hf : TypeDefinition.Keeping f) :
    cx.Extends g (g'.update id f) where
  names hn := h.names hn
  definitions {i _} hd := by
    have hne : i ≠ id := fun hi => by rw [hi, hid] at hd; cases hd
    rw [definition?_update_of_ne hf.id g' hne]
    exact h.definitions hd
  seeded := h.seeded
  new hn hn' := h.new hn hn'

/-- The number of a new name is new. -/
theorem Extends.definition?_of_new (h : cx.Extends g g') (hg : g.WellFormed) (hg' : g'.WellFormed)
    {n : String} (hn : g.idOf? n = none) (hn' : g'.idOf? n = some id) :
    g.definition? id = none := by
  cases hd : g.definition? id with
  | none => rfl
  | some d =>
    have hname : d.fullName = n := hg'.fullName_of_idOf? hn' (h.definitions hd)
    have hid : g.idOf? d.fullName = some id := hg.named hd
    rw [hname, hn] at hid
    cases hid

/-- A graph that builds can work on and that extends `g`. -/
def Grown (cx : BuildContext) (g g' : TypeGraph) : Prop := cx.Extends g g' ∧ g'.Ready

theorem observant_grown (g : TypeGraph) : Observant (Same (cx.Grown g)) := by
  refine observant_same fun g' d hd hg => ?_
  rw [hg.2.stocked.register hd]
  exact hg

end BuildContext

end ClientBindings
