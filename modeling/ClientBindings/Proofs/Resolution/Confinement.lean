import ClientBindings.Proofs.Resolution.Frame

/-! Where resolving succeeds, it leaves no type half built that was not so before. This needs nothing
of the names in an export. -/
namespace ClientBindings

/-- The failures that can come up while a type is filled. -/
def BuildError.ofTypes : BuildError → Bool
  | .unknownGenericOwner .. | .endlessBound => true
  | _ => false

namespace BuildContext

open TypeGraph

variable {cx : BuildContext} {g₀ g : TypeGraph} {id : TypeId}

/-- The graph is in order, and the names of `g₀` are registered. -/
structure Kept (g₀ g : TypeGraph) : Prop where
  wellFormed : g.WellFormed
  names {n : String} : g.idOf? n = none → g₀.idOf? n = none

theorem Kept.stocked (h : Kept g₀ g) (hg : g₀.Stocked) : g.Stocked := by
  intro d hd
  obtain ⟨id, hid⟩ := hg d hd
  cases hn : g.idOf? d.fullName with
  | some id => exact ⟨id, rfl⟩
  | none => rw [h.names hn] at hid; cases hid

/-- Half-built are at most the definitions of `X`. -/
structure Confined (g₀ : TypeGraph) (X : TypeId → Prop) (g : TypeGraph) : Prop extends
    Kept g₀ g where
  halfBuilt {id : TypeId} : HalfBuilt g id → X id

theorem halfBuilt_of_update {change : TypeDefinition → TypeDefinition}
    (hc : TypeDefinition.Keeping change) (hn : ∀ d, (change d).initialized = d.initialized)
    {i : TypeId} (h : HalfBuilt (g.update id change) i) :
    HalfBuilt g i := by
  obtain ⟨d', hd', hp, hi⟩ := h
  rw [definition?_update hc.id, Option.map_eq_some_iff] at hd'
  obtain ⟨d, hd, rfl⟩ := hd'
  refine ⟨d, hd, ?_, ?_⟩
  · split at hp
    · rw [← hp, hc.predefined]
    · exact hp
  · split at hi
    · rw [← hi, hn]
    · exact hi

theorem halfBuilt_of_finishing {change : TypeDefinition → TypeDefinition}
    (hc : TypeDefinition.Keeping change) (hf : ∀ d, (change d).initialized = true) {i : TypeId}
    (h : HalfBuilt (g.update id change) i) : i ≠ id ∧ HalfBuilt g i := by
  obtain ⟨d', hd', hp, hi⟩ := h
  have hne : i ≠ id := by
    rintro rfl
    rw [definition?_update_self hc.id, Option.map_eq_some_iff] at hd'
    obtain ⟨d, -, rfl⟩ := hd'
    rw [hf] at hi
    cases hi
  rw [definition?_update_of_ne hc.id g hne] at hd'
  exact ⟨hne, d', hd', hp, hi⟩

theorem halfBuilt_of_register {d : TypeDefinition} {i : TypeId} (hg : g.WellFormed)
    (h : HalfBuilt (g.register d).1 i) :
    HalfBuilt g i ∨ i = (g.register d).2 ∧ d.predefined = false := by
  obtain ⟨d', hd', hp, hi⟩ := h
  rcases hg.definition?_of_register hd' with hd' | ⟨hn, rfl, rfl⟩
  · exact .inl ⟨d', hd', hp, hi⟩
  · exact .inr ⟨by rw [register_of_none hn], hp⟩

/-- Failures come from the filling of types. -/
def fillingLaw (g₀ : TypeGraph) : FailureLaw :=
  ⟨fun _ => False, fun e v _ _ => e.ofTypes = true ∧ Kept g₀ v.graph⟩

theorem fillingLaw_admits (g₀ : TypeGraph) (X : TypeId → Prop) :
    (fillingLaw g₀).Admits (Same (Confined g₀ X)) :=
  fun _ _ _ _ hw => .inr ⟨rfl, hw.2.toKept⟩

namespace Confined

variable {X Y : TypeId → Prop}

theorem imp (h : Confined g₀ X g) (hXY : ∀ i, X i → Y i) : Confined g₀ Y g :=
  ⟨h.toKept, fun hi => hXY _ (h.halfBuilt hi)⟩

theorem register (h : Confined g₀ X g) (d : TypeDefinition) :
    Confined g₀ (fun i => X i ∨ i = (g.register d).2) (g.register d).1 where
  wellFormed := h.wellFormed.register d
  names hn := h.names (idOf?_of_register_eq_none hn)
  halfBuilt hi := (halfBuilt_of_register h.wellFormed hi).imp h.halfBuilt And.left

theorem register_builtin (h : Confined g₀ X g) {d : TypeDefinition} (hd : d ∈ Builtin.all) :
    Confined g₀ X (g.register d).1 where
  wellFormed := h.wellFormed.register d
  names hn := h.names (idOf?_of_register_eq_none hn)
  halfBuilt hi := by
    rcases halfBuilt_of_register h.wellFormed hi with hi | ⟨-, hp⟩
    · exact h.halfBuilt hi
    · rw [Builtin.predefined_of_mem_all hd] at hp
      cases hp

theorem update (h : Confined g₀ X g) {change : TypeDefinition → TypeDefinition}
    (hc : TypeDefinition.Keeping change) (hn : ∀ d, (change d).initialized = d.initialized)
    (id : TypeId) : Confined g₀ X (g.update id change) where
  wellFormed := h.wellFormed.update hc id
  names := h.names
  halfBuilt hi := h.halfBuilt (halfBuilt_of_update hc hn hi)

theorem update_finishing (h : Confined g₀ (fun i => X i ∨ i = id) g)
    {change : TypeDefinition → TypeDefinition} (hc : TypeDefinition.Keeping change)
    (hf : ∀ d, (change d).initialized = true) : Confined g₀ X (g.update id change) where
  wellFormed := h.wellFormed.update hc id
  names := h.names
  halfBuilt hi := by
    obtain ⟨hne, hi⟩ := halfBuilt_of_finishing hc hf hi
    exact (h.halfBuilt hi).resolve_right hne

end Confined

theorem observant_confined (g₀ : TypeGraph) (X : TypeId → Prop) :
    Observant (Same (Confined g₀ X)) := observant_same fun _ _ hd h => h.register_builtin hd

theorem yields_confined (g₀ : TypeGraph) (X : TypeId → Prop) (id : TypeId) :
    Yields (Same (Confined g₀ X)) id := by
  rintro w _ change hc ⟨rfl, h⟩
  exact ⟨rfl, h.update hc.toKeeping hc.initialized id⟩

section steps

variable {f : Resolver} {t : DeclaredType}

theorem registerPlaceholders_confined (X : TypeId → Prop) (name : String)
    (ps : List TypeParameter) : (fillingLaw g₀).Matches (Same (Confined g₀ X))
      (registerPlaceholders name ps) (registerPlaceholders name ps) fun ids =>
        Same (Confined g₀ fun i => X i ∨ ∃ p ∈ ps.zip ids, p.2 = i) := by
  induction ps generalizing X with
  | nil => exact FailureLaw.matches_pure fun _ _ hw => ⟨hw.1, hw.2.imp fun _ => .inl⟩
  | cons p ps ih =>
    refine FailureLaw.Matches.bind (R := fun id => Same (Confined g₀ fun i => X i ∨ i = id))
      (FailureLaw.matches_lift ?_) fun id => (ih _).bind fun ids => FailureLaw.matches_pure ?_
    · rintro w _ ⟨rfl, hw⟩
      exact ⟨rfl, rfl, hw.register _⟩
    · rintro w _ ⟨rfl, hw⟩
      refine ⟨rfl, hw.imp fun i hi => ?_⟩
      rcases hi with (hi | rfl) | ⟨q, hq, rfl⟩
      · exact .inl hi
      · exact .inr ⟨(p, i), List.mem_cons_self .., rfl⟩
      · exact .inr ⟨q, List.mem_cons_of_mem _ hq, rfl⟩

variable (hf : ∀ X r, (fillingLaw g₀).Keeps (Same (Confined g₀ X)) (f r) (f r))
include hf

theorem resolveBounds_confined (X : TypeId → Prop) (ps : List (TypeParameter × TypeId)) :
    (fillingLaw g₀).Matches (Same (Confined g₀ fun i => X i ∨ ∃ p ∈ ps, p.2 = i))
      (resolveBounds f ps) (resolveBounds f ps) fun _ => Same (Confined g₀ X) := by
  induction ps with
  | nil =>
    refine FailureLaw.matches_pure fun w w' hw => ⟨hw.1, hw.2.imp fun i hi => ?_⟩
    exact hi.resolve_right fun ⟨_, hp, _⟩ => nomatch hp
  | cons p ps ih =>
    refine (keeps_resolveAll fun r _ => hf _ r).bind fun bounds => ?_
    refine FailureLaw.Matches.bind
      (R := fun _ => Same (Confined g₀ fun i => X i ∨ ∃ q ∈ ps, q.2 = i))
      (FailureLaw.matches_lift ?_) fun _ => ih
    rintro w _ ⟨rfl, hw⟩
    refine ⟨rfl, rfl, (hw.imp fun i hi => ?_).update_finishing
      (TypeDefinition.keeping_bounded bounds) fun _ => rfl⟩
    rcases hi with hi | ⟨q, hq, rfl⟩
    · exact .inl (.inl hi)
    · rcases List.mem_cons.1 hq with rfl | hq
      · exact .inr rfl
      · exact .inl (.inr ⟨q, hq, rfl⟩)

theorem populate_confined (X : TypeId → Prop) (id : TypeId) (t : DeclaredType) :
    (fillingLaw g₀).Keeps (Same (Confined g₀ X)) (cx.populate f id t) (cx.populate f id t) := by
  refine matches_populate (yields_confined g₀ X id) (fun _ _ hw => hw) ?_
  refine (matches_populateInterface (registerPlaceholders_confined X t.name t.typeParameters)
    (fun ids => resolveBounds_confined hf X (t.typeParameters.zip ids))
    (fun ids w w' hw => ?_) (fun _ => yields_confined g₀ X id) (fun _ => observant_confined g₀ X)
    fun _ r _ => hf X r).imp (fun _ _ hw => hw) fun _ _ _ ⟨_, hw⟩ => hw
  obtain ⟨rfl, hw⟩ := hw
  exact ⟨rfl, hw.update (TypeDefinition.keeping_withGenericParams ids) (fun _ => rfl) id⟩

theorem define_confined (X : TypeId → Prop) (t : DeclaredType) :
    (fillingLaw g₀).Keeps (Same (Confined g₀ X)) (cx.define f t) (cx.define f t) := by
  refine matches_define (J := fun id => Same (Confined g₀ fun i => X i ∨ i = id))
    (K := fun id => Same (Confined g₀ fun i => X i ∨ i = id)) (fun _ _ hw => congrArg _ hw.1)
    (fun _ _ _ hw _ => hw) ?_ (fun id => populate_confined hf _ id t) ?_
  · rintro w _ ⟨rfl, hw⟩ -
    exact ⟨rfl, hw.register _⟩
  · rintro id w _ ⟨rfl, hw⟩
    exact ⟨rfl, hw.update_finishing TypeDefinition.keeping_finished fun _ => rfl⟩

end steps

theorem resolveAt_confined (depth : Nat) (X : TypeId → Prop) (r : TypeRef) :
    (fillingLaw g₀).Keeps (Same (Confined g₀ X)) (cx.resolveAt depth r)
      (cx.resolveAt depth r) := by
  induction depth generalizing X r with
  | zero =>
    rintro w _ ⟨rfl, hw⟩
    exact .failed ⟨rfl, hw.toKept⟩
  | succ depth ih =>
    exact keeps_resolveStep (observant_confined g₀ X) (fillingLaw_admits g₀ X)
      (fun n t _ => (define_confined ih X t).imp (fun _ _ hw => hw.1) fun _ _ _ hw => hw)
      fun a _ => ih X a

end BuildContext
end ClientBindings
