import ClientBindings.Proofs.Translation.Shape

/-! What names, kinds and variables stand for in a graph is what they stand for by the declarations
and the settings alone. It is so in a graph that has just been seeded and stays so. -/
namespace ClientBindings.BuildContext

open TypeGraph

variable {cx : BuildContext} {g g' : TypeGraph} {d : TypeDefinition}
  {id : TypeId} {t : DeclaredType} {name n : String}

theorem denoted_of_definable (ht : cx.Definable name t) : cx.denoted name = name := by
  obtain ⟨hex, hc, hm, htype⟩ := ht
  unfold denoted
  simp only [hex, hc, hm, htype, Bool.false_eq_true, if_false, Option.isSome_some, if_true, ite_self]

/-- Every predefined name is registered, and a registered name that is not reserved is a predefined
one or that of a declared type. -/
structure Classified (cx : BuildContext) (g : TypeGraph) : Prop where
  offered {name : String} {p : TypeDefinition} : cx.predefined? name = some p →
    ∃ id, g.idOf? name = some id
  known {name : String} {id : TypeId} : Unreserved name → g.idOf? name = some id →
    (cx.predefined? name).isSome = true ∨ ∃ t, cx.Definable name t

namespace Classified

theorem predefined?_of_unregistered (hg : cx.Classified g) (h : g.idOf? name = none) :
    cx.predefined? name = none := by
  cases hp : cx.predefined? name with
  | none => rfl
  | some p =>
    obtain ⟨id, hid⟩ := hg.offered hp
    rw [h] at hid
    cases hid

theorem denoted_of_nameIn? (hg : cx.Classified g) (hname : Unreserved name)
    (h : cx.nameIn? g name = some n) : cx.denoted name = n := by
  unfold nameIn? at h
  cases hex : cx.exclusions.excludes name with
  | true =>
    rw [hex, if_pos rfl] at h
    rw [denoted, hex, if_pos rfl]
    exact Option.some.inj h
  | false =>
    cases hid : g.idOf? name with
    | some id =>
      rw [hex, hid] at h
      obtain rfl : name = n := Option.some.inj h
      rcases hg.known hname hid with hp | ⟨t, ht⟩
      · simp [denoted, hex, hp]
      · exact denoted_of_definable ht
    | none =>
      have hfree : cx.predefined? name = none := hg.predefined?_of_unregistered hid
      rw [hex, hid] at h
      unfold denoted
      rw [hex, hfree]
      simp only [Bool.false_eq_true, if_false, Option.isSome_none] at h ⊢
      split
      · rename_i hc
        rw [if_pos hc] at h
        exact Option.some.inj h
      · rename_i hc
        rw [if_neg hc] at h
        split
        · rename_i hm
          rw [if_pos hm] at h
          exact Option.some.inj h
        · rename_i hm
          rw [if_neg hm] at h
          cases ht : cx.symbols.type? name with
          | some t => simp [ht] at h
          | none => simpa [ht] using h

/-- What a graph grows by are names of declared types and reserved names. -/
theorem extend (hg : cx.Classified g) (h : cx.Extends g g') : cx.Classified g' where
  offered hp := (hg.offered hp).imp fun _ => h.names
  known {name _} hname hid := by
    cases hid' : g.idOf? name with
    | some id' => exact hg.known hname hid'
    | none => exact .inr ((h.new hid' hid).resolve_right fun hn => hn hname)

end Classified

namespace Shaped

variable (hg : cx.Shaped none g)
include hg

theorem classified : cx.Classified g where
  offered := hg.offered
  known hname hid := by
    obtain ⟨d, hd, rfl⟩ := hg.indexed hid
    cases hg.entry hd with
    | predefined _ hp _ => exact .inl (by rw [hp]; rfl)
    | placeholder _ hd' _ _ _ => exact absurd (hd' ▸ hname) (not_unreserved_placeholderName _ _)
    | declared _ ht _ _ _ _ => exact .inr ⟨_, ht⟩

theorem kind?_eq (hd : g.definition? id = some d) (hname : Unreserved d.fullName) :
    g.kind? id = cx.kindNamed? d.fullName := by
  rw [kind?, hd, Option.map_some, kindNamed?]
  cases hg.entry hd with
  | predefined _ hp hd' =>
    rw [hp, hd']
    rfl
  | placeholder _ hd' _ _ _ => exact absurd (hd' ▸ hname) (not_unreserved_placeholderName _ _)
  | declared _ ht hfree hkind _ _ =>
    rw [hfree, ht.2.2.2, hkind]
    rfl

/-- Looking for a placeholder by its short name finds that of the parameter. -/
theorem find?_placeholder {owner : String} (howner : Unreserved owner) {ps : List TypeParameter}
    {ids : List TypeId}
    (hids : List.Forall₂ (fun p i => g.idOf? (placeholderName owner p.name) = some i) ps ids)
    (param : String) :
    (∃ i, ids.find? (fun i => (g.definition? i).any (·.shortName == param)) = some i ∧
      g.idOf? (placeholderName owner param) = some i ∧ ps.any (·.name == param) = true) ∨
    ids.find? (fun i => (g.definition? i).any (·.shortName == param)) = none ∧
      ps.any (·.name == param) = false := by
  induction hids with
  | nil => exact .inr ⟨rfl, rfl⟩
  | @cons p i ps ids hi _ ih =>
    obtain ⟨q, hq, hname⟩ := hg.indexed hi
    have hshort : q.shortName = p.name := ((hg.entry hq).placeholder_of howner hname).1
    rw [List.find?_cons, hq, Option.any_some, hshort, List.any_cons]
    by_cases hp : p.name = param
    · subst hp
      exact .inl ⟨i, by simp, hi, by simp⟩
    · simpa only [beq_false_of_ne hp, Bool.false_or] using ih

/-- The placeholder of a variable of a type, by its name. -/
theorem namedAll?_placeholder? (hd : g.definition? id = some d) (hname : Unreserved d.fullName)
    (param : String) :
    g.namedAll? ((placeholder? g id param).map .plain).toList =
      some ((cx.slot? d.fullName param).map (.mk · [])).toList := by
  rw [placeholder?, hd, Option.bind_some, slot?]
  cases hg.entry hd with
  | predefined _ hp hd' =>
    rw [hp, hd', (predefined_of_predefined? hp).2]
    rfl
  | placeholder _ hd' _ _ _ => exact absurd (hd' ▸ hname) (not_unreserved_placeholderName _ _)
  | @declared t _ ht hfree _ _ hparams =>
    have hids : Parameters g t d.genericParams := hparams (Option.some_ne_none _)
    rw [hfree, ht.2.2.2]
    unfold Parameters at hids
    split at hids
    · rename_i hkind
      rw [ht.name_eq] at hids
      simp only [hkind, decide_true, Bool.true_and]
      rcases hg.find?_placeholder hname hids param with ⟨i, hfind, hi, hany⟩ | ⟨hfind, hany⟩
      · obtain ⟨q, hq, hqname⟩ := hg.indexed hi
        rw [hfind, hany, if_pos rfl]
        refine namedAll?_toList_some.2 (named?_mk ?_ rfl)
        rw [nameOf?, hq, Option.map_some, hqname]
      · rw [hfind, hany]
        rfl
    · rename_i hkind
      rw [hids]
      simp [hkind, namedAll?]

end Shaped

/-- A graph that has just been seeded. -/
theorem shaped_seed (hs : cx.settings.Unreserved) (g : TypeGraph) :
    cx.Shaped none (g.clear.seed cx.settings) where
  toReady := (g.primal_clear.seed hs).ready (stocked_seed fun h => by simp [clear] at h)
  offered h := by
    obtain ⟨hmem, hname⟩ := predefined?_mem h
    exact hname ▸ (offered_seed g cx.settings).registered hmem
  entry hd := by
    obtain ⟨p, hp, rfl⟩ := (offered_seed g cx.settings).first hd
    have hname : Unreserved p.fullName :=
      unreserved_of_mem_predefined hs (List.mem_of_find?_eq_some hp)
    exact .predefined hname hp rfl

end ClientBindings.BuildContext
