import ClientBindings.Proofs.Graph.Closure

/-! Graphs in which definitions refer to no placeholders but their own, and the bounds of placeholders
to none but those of their owner. -/
namespace ClientBindings

open BuildContext (placeholderName)

namespace TypeGraph

variable {g g' : TypeGraph} {owner owner' : String} {id i : TypeId} {d : TypeDefinition}

/-- The number is that of a name without the sign of placeholders, or of a parameter of the owner's
definition. -/
def Local (owner : String) (g : TypeGraph) (id : TypeId) : Prop :=
  g.Clear id ∨ ∃ o d, g.idOf? owner = some o ∧ g.definition? o = some d ∧ id ∈ d.genericParams

theorem durable_local (owner : String) : Durable (Local owner) where
  grow hg h := by
    refine h.imp (durable_clear.grow hg) fun ⟨o, d, ho, hd, hid⟩ => ?_
    obtain ⟨d', hd', hsub⟩ := hg.params hd
    exact ⟨o, d', hg.names ho, hd', hsub hid⟩
  builtin hd h := .inl (durable_clear.builtin hd h)

theorem Local.registered {strict : Prop} (hg : g.Closed strict) (h : g.Local owner id) :
    g.Registered id := by
  rcases h with ⟨n, -, hn⟩ | ⟨o, d, -, hd, hid⟩
  · exact ⟨n, hn⟩
  · exact hg.mentioned hd (TypeDefinition.mem_mentioned.2 (.inl hid))

theorem WellFormed.eq_of_idOf? (hg : g.WellFormed) {n n' : String} (hn : g.idOf? n = some id)
    (hn' : g.idOf? n' = some id) : n = n' := by
  obtain ⟨d, hd, rfl⟩ := hg.indexed hn
  exact hg.fullName_of_idOf? hn' hd

/-- Where the sign of placeholders is in no other name, a number has one home. -/
theorem Home.eq (hg : g.WellFormed) (ho : Unreserved owner) (ho' : Unreserved owner')
    (h : g.Home owner id) (h' : g.Home owner' id) : owner = owner' := by
  rcases h with h | ⟨param, h⟩
  · rcases h' with h' | ⟨param', h'⟩
    · exact hg.eq_of_idOf? h h'
    · exact absurd (hg.eq_of_idOf? h h' ▸ ho) (not_unreserved_placeholderName owner' param')
  · rcases h' with h' | ⟨param', h'⟩
    · exact absurd (hg.eq_of_idOf? h' h ▸ ho') (not_unreserved_placeholderName owner param)
    · exact (placeholderName_inj ho ho' (hg.eq_of_idOf? h h')).1

/-- What is always there to be used is registered, by predefined definitions. -/
def Furnished (g : TypeGraph) : Prop :=
  ∀ b ∈ Builtin.all, ∃ id d, g.idOf? b.fullName = some id ∧ g.definition? id = some d ∧
    d.predefined = true

theorem Furnished.stocked (hg : g.Furnished) : g.Stocked := fun b hb => by
  obtain ⟨id, d, hid, -⟩ := hg b hb
  exact ⟨id, hid⟩

theorem Furnished.register (hg : g.Furnished) (d : TypeDefinition) : (g.register d).1.Furnished :=
  fun b hb => by
    obtain ⟨id, d', hid, hd, hp⟩ := hg b hb
    exact ⟨id, d', idOf?_register hid, definition?_register hd, hp⟩

theorem Furnished.update (hg : g.Furnished) {change : TypeDefinition → TypeDefinition}
    (hc : TypeDefinition.Keeping change) (id : TypeId) : (g.update id change).Furnished :=
  fun b hb => by
    obtain ⟨id', d, hid, hd, hp⟩ := hg b hb
    refine ⟨id', _, hid, by rw [definition?_update hc.id, hd]; rfl, ?_⟩
    dsimp only
    split
    · rw [hc.predefined, hp]
    · exact hp

/-- Nothing dangles, what is predefined has no parameters, and what a definition or one of its
placeholders refers to is local. -/
structure Housed (g : TypeGraph) : Prop extends g.Closed True where
  bare {id : TypeId} {d : TypeDefinition} : g.definition? id = some d → d.predefined = true →
    d.genericParams = []
  housed {owner : String} {id i : TypeId} {d : TypeDefinition} : Unreserved owner → g.Home owner id →
    g.definition? id = some d → i ∈ d.content → g.Local owner i

theorem housed_clear (g : TypeGraph) : g.clear.Housed where
  toClosed := closed_clear g True
  bare h := by simp [clear, definition?] at h
  housed _ _ h := by simp [clear, definition?] at h

namespace Housed

/-- Numbers that were there before have the homes that they had. -/
theorem home_of_register (hg : g.WellFormed) (hd : g.definition? id = some d) {d' : TypeDefinition}
    (h : (g.register d').1.Home owner id) : g.Home owner id := by
  have hname {n : String} (hn : (g.register d').1.idOf? n = some id) : g.idOf? n = some id :=
    (hg.register d').fullName_of_idOf? hn (definition?_register hd) ▸ hg.named hd
  exact h.imp hname fun ⟨param, hn⟩ => ⟨param, hname hn⟩

theorem register (hg : g.Housed) (hd : d.mentioned = []) (hname : PlaceholderLike d) :
    (g.register d).1.Housed where
  toClosed := hg.toClosed.register hd fun _ => hname
  bare h hp := by
    rcases hg.definition?_of_register h with h | ⟨-, -, rfl⟩
    · exact hg.bare h hp
    · exact (List.append_eq_nil_iff.1 hd).1
  housed ho hhome h hi := by
    rcases hg.definition?_of_register h with h | ⟨-, -, rfl⟩
    · exact (durable_local _).grow (grows_register g d)
        (hg.housed ho (home_of_register hg.toWellFormed h hhome) h hi)
    · have hnil : d.content = [] := (List.append_eq_nil_iff.1 hd).2
      exact absurd (hnil ▸ hi : _ ∈ []) List.not_mem_nil

/-- A change that leaves the graph closed and its parameters alone is as local as what it adds. -/
theorem update (hg : g.Housed) {change : TypeDefinition → TypeDefinition}
    (hc : TypeDefinition.Keeping change) (hclosed : (g.update id change).Closed True)
    (hparams : ∀ d, g.definition? id = some d → d.genericParams ⊆ (change d).genericParams)
    (hbare : ∀ d, g.definition? id = some d → d.predefined = true → (change d).genericParams = [])
    (hcontent : ∀ d, ∀ i ∈ (change d).content, i ∈ d.content ∨
      ∀ owner, Unreserved owner → g.Home owner id → g.Local owner i) :
    (g.update id change).Housed where
  toClosed := hclosed
  bare h hp := by
    rcases definition?_of_update hc.id h with h | ⟨rfl, d, hd, rfl⟩
    · exact hg.bare h hp
    · exact hbare d hd (by rwa [hc.predefined] at hp)
  housed {owner i j d'} ho hhome h hj := by
    refine (durable_local owner).grow (grows_update hc hparams) ?_
    rcases definition?_of_update hc.id h with h | ⟨rfl, d, hd, rfl⟩
    · exact hg.housed ho hhome h hj
    · exact (hcontent d j hj).elim (hg.housed ho hhome hd) fun h => h owner ho hhome

/-- Content may be filled in that is local to the one home of the number. -/
theorem fill (hg : g.Housed) (ho : Unreserved owner) (hhome : g.Home owner id)
    {change : TypeDefinition → TypeDefinition}
    (hc : TypeDefinition.Adding (All (Local owner) g) change) : (g.update id change).Housed := by
  have hcovers {is : List TypeInstance} (h : All (Local owner) g is) : g.Covers is :=
    fun i hi => (h i hi).registered hg.toClosed
  refine hg.update hc.toKeeping (hg.toClosed.fill ⟨hc.toKeeping, hc.genericParams,
    fun d => (hc.superTypes d).imp_right hcovers, fun d => (hc.properties d).imp_right hcovers⟩ id)
    (fun d _ => hc.genericParams d ▸ List.Subset.refl _)
    (fun d hd hp => hc.genericParams d ▸ hg.bare hd hp) fun d i hi => ?_
  refine (hc.mem_content hi).imp_right fun h owner' ho' hhome' => ?_
  obtain rfl := hhome.eq hg.toWellFormed ho ho' hhome'
  exact h

/-- A definition without parameters may get some. -/
theorem attach (hg : g.Housed) (ho : Unreserved owner) (hid : g.idOf? owner = some id)
    (hd : g.definition? id = some d) (hown : d.predefined = false) (hparams : d.genericParams = [])
    {ids : List TypeId} (hids : ∀ i ∈ ids, ∃ param, g.idOf? (placeholderName owner param) = some i) :
    (g.update id (.withGenericParams ids)).Housed := by
  refine hg.update (TypeDefinition.keeping_withGenericParams ids)
    (hg.toClosed.attach (fun _ => ho) hid hids) (fun q hq => ?_) (fun q hq hp => ?_)
    fun q i hi => .inl hi
  · obtain rfl := Option.some.inj (hd.symm.trans hq)
    exact hparams ▸ List.nil_subset _
  · obtain rfl := Option.some.inj (hd.symm.trans hq)
    exact absurd (hp.symm.trans hown) (by decide)

theorem seed (hg : g.Housed) {s : Settings} (hs : s.Unreserved) : (g.seed s).Housed := by
  refine seed_induction (fun g b h => ⟨h.toClosed.flag b, h.bare, h.housed⟩) (fun d hd g h => ?_) hg
  refine h.register ?_ fun h => absurd (unreserved_of_mem_predefined hs hd) h
  obtain ⟨kind, e, rfl⟩ := exists_predefinedType_of_mem hd
  rfl

end Housed

end TypeGraph

end ClientBindings
