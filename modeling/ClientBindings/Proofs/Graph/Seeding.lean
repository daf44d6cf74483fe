import ClientBindings.Graph.Predefined
import ClientBindings.Proofs.Graph.Extension

/-! Seeding makes a fresh graph one that builds can work on. -/
namespace ClientBindings

/-- No overridden type has the sign of placeholders in its name. -/
def Settings.Unreserved (s : Settings) : Prop :=
  ∀ e ∈ s.typeOverrides, ClientBindings.Unreserved e.1

instance : DecidablePred Settings.Unreserved := fun s =>
  inferInstanceAs (Decidable (∀ e ∈ s.typeOverrides, ClientBindings.Unreserved e.1))

namespace TypeGraph

variable {g : TypeGraph} {s : Settings} {d : TypeDefinition}

theorem exists_predefinedType_of_mem (h : d ∈ predefined s) :
    ∃ kind e, d = predefinedType kind e := by
  simp only [predefined, List.mem_cons, List.mem_append, List.mem_map, List.cons_append] at h
  rcases h with rfl | ((⟨e, -, rfl⟩ | (rfl | rfl | h)) | h) | ⟨e, -, rfl⟩
  · exact ⟨_, _, rfl⟩
  · exact ⟨_, e, rfl⟩
  · exact ⟨_, _, rfl⟩
  · exact ⟨_, _, rfl⟩
  · cases h
  · split at h
    · obtain ⟨e, -, rfl⟩ := List.mem_map.1 h
      exact ⟨_, e, rfl⟩
    · cases h
  · exact ⟨_, e, rfl⟩

/-- The names of the predefined types are those of tables and those that the settings override. -/
theorem unreserved_of_mem_predefined (hs : s.Unreserved) (h : d ∈ predefined s) :
    Unreserved d.fullName := by
  have htable : ∀ e ∈ primitives ++ boxed, Unreserved e.1 := by decide +kernel
  have htime : ∀ e ∈ timeTypes s.time, Unreserved e.1 := by
    simp only [timeTypes, List.mem_cons, List.not_mem_nil, or_false]
    rintro e (rfl | rfl | rfl | rfl)
    · exact (by decide : Unreserved "java.time.ZonedDateTime")
    · exact (by decide : Unreserved "java.time.LocalDateTime")
    · exact (by decide : Unreserved "java.time.LocalTime")
    · exact (by decide : Unreserved "java.time.LocalDate")
  simp only [predefined, List.mem_cons, List.mem_append, List.mem_map, List.cons_append] at h
  rcases h with rfl | ((⟨e, he, rfl⟩ | (rfl | rfl | h)) | h) | ⟨e, he, rfl⟩
  · exact (by decide : Unreserved Marker.object)
  · exact htable e (List.mem_append.2 he)
  · exact (by decide : Unreserved Marker.map)
  · exact (by decide : Unreserved Builtin.collectionName)
  · cases h
  · split at h
    · obtain ⟨e, he, rfl⟩ := List.mem_map.1 h
      exact htime e he
    · cases h
  · exact hs e he

/-- A property that registrations of predefined types keep, and that does not look at whether the
graph is seeded, is kept by seeding. -/
theorem seed_induction {J : TypeGraph → Prop} (hflag : ∀ g b, J g → J { g with seeded := b })
    (hregister : ∀ d ∈ predefined s, ∀ g, J g → J (g.register d).1) (hg : J g) :
    J (g.seed s) := by
  unfold seed
  split
  · exact hg
  · refine hflag _ _ ?_
    suffices h : ∀ ds ⊆ predefined s, ∀ g, J g → J (ds.foldl (fun g d => (g.register d).1) g) from
      h _ (List.Subset.refl _) g hg
    intro ds
    induction ds with
    | nil => exact fun _ _ hg => hg
    | cons d ds ih =>
      intro hds g hg
      rw [List.cons_subset] at hds
      exact ih hds.2 _ (hregister d hds.1 g hg)

theorem seeded_seed (g : TypeGraph) (s : Settings) : (g.seed s).seeded = true := by
  unfold seed
  split
  · assumption
  · rfl

theorem seed_of_seeded (h : g.seeded = true) : g.seed s = g := by
  rw [seed, if_pos h]

theorem WellFormed.seed (hg : g.WellFormed) (s : Settings) : (g.seed s).WellFormed :=
  seed_induction (fun _ _ h => ⟨h.indexed, h.named, h.fresh, h.listed⟩) (fun d _ _ h => h.register d)
    hg

/-- Names keep their numbers. -/
theorem idOf?_seed {n : String} {id : TypeId} (h : g.idOf? n = some id) :
    (g.seed s).idOf? n = some id :=
  seed_induction (J := fun g => g.idOf? n = some id) (fun _ _ h => h)
    (fun _ _ _ h => idOf?_register h) h

theorem exists_idOf?_seed (hg : g.seeded = false) (hd : d ∈ predefined s) :
    ∃ id, (g.seed s).idOf? d.fullName = some id := by
  suffices h : ∀ ds : List TypeDefinition, d ∈ ds → ∀ g : TypeGraph,
      ∃ id, (ds.foldl (fun g d => (g.register d).1) g).idOf? d.fullName = some id by
    simp only [seed, hg, Bool.false_eq_true, if_false]
    generalize predefined s = ds at hd
    exact h ds hd g
  have hkeep (ds : List TypeDefinition) : ∀ (g : TypeGraph) (n : String),
      (∃ id, g.idOf? n = some id) →
        ∃ id, (ds.foldl (fun g d => (g.register d).1) g).idOf? n = some id := by
    induction ds with
    | nil => exact fun _ _ h => h
    | cons d ds ih => exact fun g n h => ih _ n (exists_idOf?_register h d)
  intro ds
  induction ds with
  | nil => exact fun h => nomatch h
  | cons d' ds ih =>
    intro hd g
    rcases List.mem_cons.1 hd with rfl | hd
    · exact hkeep ds _ _ ⟨_, idOf?_register_self g d⟩
    · exact ih hd _

theorem exists_mem_predefined_of_builtin (s : Settings) (hd : d ∈ Builtin.all) :
    ∃ d' ∈ predefined s, d'.fullName = d.fullName := by
  simp only [Builtin.all, List.mem_cons, List.not_mem_nil, or_false] at hd
  rcases hd with rfl | rfl | rfl
  · exact ⟨predefinedType .primitive (Marker.object, Builtin.anyName), by simp [predefined], rfl⟩
  · exact ⟨predefinedType .collection (Builtin.collectionName, Builtin.collectionName),
      by simp [predefined], rfl⟩
  · exact ⟨predefinedType .map (Marker.map, "Map"), by simp [predefined], rfl⟩

/-- A graph whose definitions are all predefined. -/
structure Primal (g : TypeGraph) : Prop extends g.WellFormed where
  unreserved {n : String} {id : TypeId} : g.idOf? n = some id → Unreserved n
  definition {id : TypeId} {d : TypeDefinition} : g.definition? id = some d →
    ∃ kind e, d = { predefinedType kind e with id := id }

theorem primal_clear (g : TypeGraph) : g.clear.Primal where
  toWellFormed := wellFormed_clear g
  unreserved h := by simp [clear, idOf?] at h
  definition h := by simp [clear, definition?] at h

theorem Primal.register (hg : g.Primal) (hs : s.Unreserved) (hd : d ∈ predefined s) :
    (g.register d).1.Primal where
  toWellFormed := hg.toWellFormed.register d
  unreserved {n _} h := by
    by_cases hn : n = d.fullName
    · exact hn ▸ unreserved_of_mem_predefined hs hd
    · rw [idOf?_register_of_ne hn] at h
      exact hg.unreserved h
  definition {id d'} h := by
    rcases hg.toWellFormed.definition?_of_register h with h | ⟨-, rfl, rfl⟩
    · exact hg.definition h
    · obtain ⟨kind, e, rfl⟩ := exists_predefinedType_of_mem hd
      exact ⟨kind, e, rfl⟩

theorem Primal.seed (hg : g.Primal) (hs : s.Unreserved) : (g.seed s).Primal :=
  seed_induction (fun _ _ h => ⟨⟨h.indexed, h.named, h.fresh, h.listed⟩, h.unreserved, h.definition⟩)
    (fun _ hd _ h => h.register hs hd) hg

/-- A graph with nothing but predefined definitions has neither placeholders nor parameters. -/
theorem Primal.ready (hg : g.Primal) (hstock : g.Stocked) : g.Ready where
  toWellFormed := hg.toWellFormed
  stocked := hstock
  owner _ h := absurd (hg.unreserved h) (not_unreserved_placeholderName _ _)
  closed hd hp := by
    obtain ⟨kind, e, rfl⟩ := hg.definition hd
    cases hp

/-- After seeding, what is registered where it is needed is there. -/
theorem stocked_seed (hg : g.seeded = true → g.Stocked) : (g.seed s).Stocked := by
  cases hs : g.seeded with
  | true => exact (seed_of_seeded hs).symm ▸ hg hs
  | false =>
    intro d hd
    obtain ⟨d', hd', hn⟩ := exists_mem_predefined_of_builtin s hd
    exact hn ▸ exists_idOf?_seed hs hd'

/-- Of the definitions that were offered, the first of each name is registered. -/
structure Offered (offers : List TypeDefinition) (g : TypeGraph) : Prop extends g.WellFormed where
  registered {p : TypeDefinition} : p ∈ offers → ∃ id, g.idOf? p.fullName = some id
  first {id : TypeId} {d : TypeDefinition} : g.definition? id = some d →
    ∃ p, offers.find? (·.fullName == d.fullName) = some p ∧ d = { p with id := id }

theorem Offered.register {offers : List TypeDefinition} (hg : g.Offered offers)
    (d : TypeDefinition) : (g.register d).1.Offered (offers ++ [d]) where
  toWellFormed := hg.toWellFormed.register d
  registered {p} hp := by
    rcases List.mem_append.1 hp with hp | hp
    · exact exists_idOf?_register (hg.registered hp) d
    · rw [List.mem_singleton.1 hp]
      exact ⟨_, idOf?_register_self g d⟩
  first {id d'} hd' := by
    rcases hg.toWellFormed.definition?_of_register hd' with hd' | ⟨hn, rfl, rfl⟩
    · obtain ⟨p, hp, heq⟩ := hg.first hd'
      exact ⟨p, by rw [List.find?_append, hp, Option.some_or], heq⟩
    · have hnew : offers.find? (·.fullName == d.fullName) = none := by
        refine List.find?_eq_none.2 fun p hp hname => ?_
        obtain ⟨i, hi⟩ := hg.registered hp
        rw [eq_of_beq hname, hn] at hi
        cases hi
      exact ⟨d, by simp [List.find?_append, hnew], rfl⟩

theorem offered_seed (g : TypeGraph) (s : Settings) :
    (g.clear.seed s).Offered (predefined s) := by
  have hfold (ds : List TypeDefinition) : ∀ (offers : List TypeDefinition) (g : TypeGraph),
      g.Offered offers → (ds.foldl (fun g d => (g.register d).1) g).Offered (offers ++ ds) := by
    induction ds with
    | nil => exact fun offers g hg => by rwa [List.append_nil]
    | cons d ds ih =>
      intro offers g hg
      have h := ih _ _ (hg.register d)
      rwa [List.append_assoc] at h
  have hclear : g.clear.Offered [] :=
    { toWellFormed := wellFormed_clear g
      registered := fun hp => nomatch hp
      first := fun hd => by simp [clear, definition?] at hd }
  rw [seed, if_neg (by simp [clear])]
  generalize predefined s = ds
  have h := hfold ds [] g.clear hclear
  exact { toWellFormed := ⟨h.indexed, h.named, h.fresh, h.listed⟩
          registered := h.registered
          first := h.first }

theorem predefined_of_seed (g : TypeGraph) {id : TypeId}
    (hd : (g.clear.seed s).definition? id = some d) : d.predefined = true := by
  obtain ⟨p, hp, rfl⟩ := (offered_seed g s).first hd
  obtain ⟨kind, e, rfl⟩ := exists_predefinedType_of_mem (List.mem_of_find?_eq_some hp)
  rfl

end TypeGraph

end ClientBindings
