import ClientBindings.Proofs.Presentation.Controllers

/-! The model with full names for numbers. What its definitions read as is determined by the names of
the types that were entered, whatever numbers they have and whichever came first. -/
namespace ClientBindings

/-- Definitions, each with whether it is predefined, and endpoints by controller. -/
structure NamedModel where
  types : List (NamedDefinition × Bool)
  endpoints : List (String × NamedEndpoint)
  deriving Repr, Inhabited

/-- The same definitions with the same content, in whatever order, and the same endpoints. -/
structure NamedModel.Agrees (m m' : NamedModel) : Prop where
  types : m.types.Perm m'.types
  endpoints : m.endpoints = m'.endpoints

/-- What a definition without references reads as, in any graph. -/
def TypeDefinition.bareReading (d : TypeDefinition) : NamedDefinition where
  fullName := d.fullName
  shortName := d.shortName
  tsName := d.tsName
  kind := d.kind
  superTypes := []
  properties := []
  enumConstants := d.enumConstants
  placeholders := []
  container := d.container
  initialized := d.initialized

/-- Elements that go together have results that do. -/
theorem exists_of_forall₂_of_mapM {α β γ : Type} {R : α → β → Prop} {f : α → Option γ}
    {k : β → Option γ} {as : List α} {bs : List β} {cs : List γ} (h : List.Forall₂ R as bs)
    (hf : as.mapM f = some cs) (hk : bs.mapM k = some cs) {a : α} (ha : a ∈ as) :
    ∃ b c, R a b ∧ f a = some c ∧ k b = some c := by
  induction h generalizing cs with
  | nil => cases ha
  | @cons a' b as bs hab _ ih =>
    rw [List.mapM_cons] at hf hk
    obtain ⟨c, hc, hf⟩ := Option.bind_eq_some_iff.1 hf
    obtain ⟨cs', hcs, hf⟩ := Option.bind_eq_some_iff.1 hf
    obtain ⟨c', hc', hk⟩ := Option.bind_eq_some_iff.1 hk
    obtain ⟨cs'', hcs', hk⟩ := Option.bind_eq_some_iff.1 hk
    obtain ⟨rfl, rfl⟩ := List.cons.inj (Option.some.inj (hf.trans hk.symm))
    rcases List.mem_cons.1 ha with rfl | ha
    · exact ⟨b, c, hab, hc, hc'⟩
    · exact ih hcs hcs' ha

namespace TypeGraph

variable {g : TypeGraph} {d : TypeDefinition} {id : TypeId}

def namedType? (g : TypeGraph) (d : TypeDefinition) : Option (NamedDefinition × Bool) :=
  (g.reading? d).map (·, d.predefined)

/-- A graph and endpoints with names for numbers. -/
def namedModel? (g : TypeGraph) (endpoints : Dict Endpoint) : Option NamedModel := do
  let types ← g.definitions.mapM g.namedType?
  let endpoints ← endpoints.mapM fun e => (g.namedEndpoint? e.2).map (e.1, ·)
  return ⟨types, endpoints⟩

theorem fullName_of_reading? {n : NamedDefinition} (h : g.reading? d = some n) :
    n.fullName = d.fullName := by
  obtain ⟨-, -, -, heq⟩ := parts_of_reading? h
  rw [heq]

theorem bounds_of_namedPlaceholder? {n : NamedPlaceholder} (hd : g.definition? id = some d)
    (h : g.namedPlaceholder? id = some n) :
    g.namedAll? d.superTypes = some n.bounds ∧ n.initialized = d.initialized := by
  obtain ⟨d', hd', h⟩ := Option.bind_eq_some_iff.1 h
  obtain rfl : d = d' := Option.some.inj (hd.symm.trans hd')
  obtain ⟨bounds, hbounds, h⟩ := Option.bind_eq_some_iff.1 h
  rw [← Option.some.inj h]
  exact ⟨hbounds, rfl⟩

theorem Numbered.nodup_fullNames (hg : g.Numbered) : (g.definitions.map (·.fullName)).Nodup := by
  refine List.pairwise_map.2 (hg.ordered.imp_of_mem fun {d d'} hd hd' hlt hname => ?_)
  have hid : g.idOf? d.fullName = some d.id := hg.named (hg.listed hd)
  rw [hname, hg.named (hg.listed hd')] at hid
  exact Nat.lt_irrefl _ (Option.some.inj hid ▸ hlt)

end TypeGraph

namespace BuildContext

open TypeGraph

variable {cx : BuildContext} {S S' : String → Prop} {g g' : TypeGraph} {d : TypeDefinition}
  {id : TypeId} {t : DeclaredType} {m m' : NamedDefinition × Bool}

theorem fullName_of_translateType? {n : NamedDefinition} (h : cx.translateType? t = some n) :
    n.fullName = t.name := by
  unfold translateType? at h
  split at h
  · obtain ⟨placeholders, -, h⟩ := Option.bind_eq_some_iff.1 h
    obtain ⟨properties, -, h⟩ := Option.bind_eq_some_iff.1 h
    obtain ⟨superTypes, -, h⟩ := Option.bind_eq_some_iff.1 h
    rw [← Option.some.inj h]
    rfl
  · rw [← Option.some.inj h]
    rfl
  · rw [← Option.some.inj h]
    rfl

theorem placeholders_of_translateType? {n : NamedDefinition} (hkind : kindOf t.kind = .interfaceType)
    (h : cx.translateType? t = some n) :
    t.typeParameters.mapM (cx.translateParameter? t) = some n.placeholders := by
  unfold translateType? at h
  rw [hkind] at h
  obtain ⟨placeholders, hplaceholders, h⟩ := Option.bind_eq_some_iff.1 h
  obtain ⟨properties, -, h⟩ := Option.bind_eq_some_iff.1 h
  obtain ⟨superTypes, -, h⟩ := Option.bind_eq_some_iff.1 h
  rw [hplaceholders, ← Option.some.inj h]

/-- The definitions that there are once the types of `S` have been entered, by their declarations:
predefined ones, those of the types, and placeholders of their parameters. -/
inductive Described (cx : BuildContext) (S : String → Prop) : NamedDefinition × Bool → Prop
  | predefined {p : TypeDefinition} (hname : Unreserved p.fullName)
      (hp : cx.predefined? p.fullName = some p) : Described cx S (p.bareReading, true)
  | declared {t : DeclaredType} {n : NamedDefinition} (ht : cx.Defined t) (hname : Unreserved t.name)
      (hS : S t.name) (hn : cx.translateType? t = some n) : Described cx S (n, false)
  | placeholder {t : DeclaredType} {p : TypeParameter} {n : NamedPlaceholder} (ht : cx.Defined t)
      (hname : Unreserved t.name) (hS : S t.name) (hkind : kindOf t.kind = .interfaceType)
      (hp : p ∈ t.typeParameters) (hn : cx.translateParameter? t p = some n) :
      Described cx S ({ (placeholder t.name p).bareReading with
        superTypes := n.bounds, initialized := n.initialized }, false)

namespace Described

theorem imp (h : cx.Described S m) (hS : ∀ n, S n → S' n) : cx.Described S' m := by
  cases h with
  | predefined hname hp => exact .predefined hname hp
  | declared ht hname hst hn => exact .declared ht hname (hS _ hst) hn
  | placeholder ht hname hst hkind hp hn => exact .placeholder ht hname (hS _ hst) hkind hp hn

/-- A full name goes with one definition only. -/
theorem eq_of_fullName (h : cx.Described S m) (h' : cx.Described S m')
    (heq : m.1.fullName = m'.1.fullName) : m = m' := by
  cases h with
  | @predefined p hname hp =>
    cases h' with
    | @predefined p' _ hp' =>
      have heq' : p.fullName = p'.fullName := heq
      rw [heq', hp'] at hp
      rw [Option.some.inj hp]
    | @declared t n ht _ _ hn =>
      have heq' : p.fullName = t.name := heq.trans (fullName_of_translateType? hn)
      rw [heq', ht.2] at hp
      cases hp
    | @placeholder t q n _ _ _ _ _ _ =>
      have heq' : p.fullName = placeholderName t.name q.name := heq
      exact absurd (heq' ▸ hname) (not_unreserved_placeholderName _ _)
  | @declared t n ht hname _ hn =>
    have hfull : n.fullName = t.name := fullName_of_translateType? hn
    cases h' with
    | @predefined p _ hp =>
      have heq' : t.name = p.fullName := hfull.symm.trans heq
      rw [← heq', ht.2] at hp
      cases hp
    | @declared t' n' ht' _ _ hn' =>
      have heq' : t.name = t'.name := hfull.symm.trans (heq.trans (fullName_of_translateType? hn'))
      obtain rfl : t = t' := ht.eq_of_name ht' heq'
      rw [hn] at hn'
      rw [Option.some.inj hn']
    | @placeholder t' p' n' _ _ _ _ _ _ =>
      have heq' : t.name = placeholderName t'.name p'.name := hfull.symm.trans heq
      exact absurd (heq' ▸ hname) (not_unreserved_placeholderName _ _)
  | @placeholder t p n ht hname _ _ _ hn =>
    cases h' with
    | @predefined p' hname' _ =>
      have heq' : p'.fullName = placeholderName t.name p.name := heq.symm
      exact absurd (heq' ▸ hname') (not_unreserved_placeholderName _ _)
    | @declared t' n' _ hname' _ hn' =>
      have heq' : t'.name = placeholderName t.name p.name :=
        (fullName_of_translateType? hn').symm.trans heq.symm
      exact absurd (heq' ▸ hname') (not_unreserved_placeholderName _ _)
    | @placeholder t' p' n' ht' hname' _ _ _ hn' =>
      have heq' : placeholderName t.name p.name = placeholderName t'.name p'.name := heq
      obtain ⟨ht'', hp⟩ := placeholderName_inj hname hname' heq'
      obtain rfl : t = t' := ht.eq_of_name ht' ht''
      rw [translateParameter?, ← hp] at hn'
      rw [translateParameter?, hn'] at hn
      obtain rfl : n' = n := Option.some.inj hn
      rw [BuildContext.placeholder, BuildContext.placeholder, hp]

end Described

namespace Whole

variable (hg : cx.Whole g)
include hg

/-- The definition of a type of its own, with its placeholders. -/
theorem exists_definition (hmem : t.name ∈ cx.ownNames g) (ht : cx.Defined t) :
    ∃ id d n, g.definition? id = some d ∧ cx.translateType? t = some n ∧ g.reading? d = some n ∧
      Parameters g t d.genericParams := by
  obtain ⟨hname, hfree, id, hid⟩ := (mem_ownNames hg.toWellFormed).1 hmem
  obtain ⟨d, hd, hfull⟩ := hg.indexed hid
  cases hg.sound.entry hd with
  | predefined _ hp _ =>
    rw [hfull, hfree] at hp
    cases hp
  | placeholder _ hd' _ _ _ =>
    exact absurd ((hfull.symm.trans hd') ▸ hname) (not_unreserved_placeholderName _ _)
  | @declared t' _ ht' _ hkind hnew hparams =>
    rw [hfull] at ht'
    obtain rfl : t' = t := Option.some.inj (ht'.2.2.2.symm.trans ht.1.2.2.2)
    have hown : Own d := ⟨hnew, hkind ▸ kindOf_ne_placeholder _⟩
    obtain ⟨t'', n, ht'', hn, hread⟩ := hg.sound.faithful hd hown fun h => h
    rw [hfull, ht.1.2.2.2, Option.some_inj] at ht''
    subst ht''
    exact ⟨id, d, n, hd, hn, hread, hparams (Option.some_ne_none _)⟩

/-- The placeholder for a parameter of a type of its own. -/
theorem exists_placeholder (hmem : t.name ∈ cx.ownNames g) (ht : cx.Defined t)
    (hkind : kindOf t.kind = .interfaceType) {p : TypeParameter} (hp : p ∈ t.typeParameters) :
    ∃ id n, g.idOf? (placeholderName t.name p.name) = some id ∧
      cx.translateParameter? t p = some n ∧ g.namedPlaceholder? id = some n := by
  obtain ⟨-, d, n, -, hn, hread, hparams⟩ := hg.exists_definition hmem ht
  rw [Parameters, if_pos hkind] at hparams
  exact exists_of_forall₂_of_mapM hparams (placeholders_of_translateType? hkind hn)
    (parts_of_reading? hread).1 hp

/-- Every definition reads as what is described. -/
theorem described (hd : g.definition? id = some d) :
    ∃ m, g.namedType? d = some m ∧ cx.Described (· ∈ cx.ownNames g) m := by
  have hread (n : NamedDefinition) (hn : g.reading? d = some n) :
      g.namedType? d = some (n, d.predefined) := by rw [namedType?, hn, Option.map_some]
  by_cases hname : Unreserved d.fullName
  · cases hg.sound.entry hd with
    | @predefined p _ hp hdp =>
      obtain ⟨kind, e, rfl⟩ := exists_predefinedType_of_mem (predefined?_mem hp).1
      obtain ⟨i, rfl⟩ : ∃ i, d = { predefinedType kind e with id := i } := ⟨d.id, hdp⟩
      exact ⟨_, hread _ (reading?_of_parts rfl rfl rfl),
        .predefined (p := predefinedType kind e) hname hp⟩
    | placeholder _ hd' _ _ _ => exact absurd (hd' ▸ hname) (not_unreserved_placeholderName _ _)
    | @declared t _ ht hfree hkind hnew _ =>
      have hown : Own d := ⟨hnew, hkind ▸ kindOf_ne_placeholder _⟩
      obtain ⟨t', n, ht', hn, hd'⟩ := hg.sound.faithful hd hown fun h => h
      obtain rfl : t' = t := Option.some.inj (ht'.symm.trans ht.2.2.2)
      have htname : t'.name = d.fullName := ht.name_eq
      refine ⟨_, hread n hd', ?_⟩
      rw [hnew]
      refine .declared ⟨htname.symm ▸ ht, htname.symm ▸ hfree⟩ (htname.symm ▸ hname) ?_ hn
      rw [htname]
      exact (mem_ownNames hg.toWellFormed).2 ⟨hname, hfree, id, hg.named hd⟩
  · obtain ⟨t, p, i, bounds, initialized, ht, htname, hkind, hp, rfl⟩ := hg.slot hd hname
    have hid : g.idOf? (placeholderName t.name p.name) = some id := hg.named hd
    -- The bounds of a placeholder are read off where it is a parameter of its owner.
    have hmem : t.name ∈ cx.ownNames g :=
      (mem_ownNames hg.toWellFormed).2 ⟨htname, ht.2, hg.sound.owner htname hid⟩
    obtain ⟨id', n, hid', hn, hnamed⟩ := hg.exists_placeholder hmem ht hkind hp
    obtain rfl : id = id' := Option.some.inj (hid.symm.trans hid')
    obtain ⟨hbounds, rfl⟩ := bounds_of_namedPlaceholder? hd hnamed
    exact ⟨_, hread _ (reading?_of_parts rfl rfl hbounds), .placeholder ht htname hmem hkind hp hn⟩

/-- Whatever is described is registered. -/
theorem exists_idOf? (hm : cx.Described (· ∈ cx.ownNames g) m) :
    ∃ id, g.idOf? m.1.fullName = some id := by
  cases hm with
  | predefined _ hp => exact hg.offered hp
  | declared _ _ hmem hn =>
    obtain ⟨-, -, id, hid⟩ := (mem_ownNames hg.toWellFormed).1 hmem
    exact ⟨id, fullName_of_translateType? hn ▸ hid⟩
  | placeholder ht _ hmem hkind hp _ =>
    obtain ⟨id, -, hid, -⟩ := hg.exists_placeholder hmem ht hkind hp
    exact ⟨id, hid⟩

/-- The definitions read as just what is described, each once. -/
theorem exists_namedTypes (hnumbered : g.Numbered) : ∃ ms, g.definitions.mapM g.namedType? = some ms ∧
    ms.Nodup ∧ ∀ m, m ∈ ms ↔ cx.Described (· ∈ cx.ownNames g) m := by
  let read (d : TypeDefinition) : NamedDefinition × Bool := (g.namedType? d).getD default
  have hread : ∀ d ∈ g.definitions, g.namedType? d = some (read d) ∧
      cx.Described (· ∈ cx.ownNames g) (read d) ∧ (read d).1.fullName = d.fullName := by
    intro d hd
    obtain ⟨m, hm, hdescribed⟩ := hg.described (hg.listed hd)
    have heq : read d = m := by rw [show read d = (g.namedType? d).getD default from rfl, hm]; rfl
    obtain ⟨n, hn, rfl⟩ := Option.map_eq_some_iff.1 hm
    rw [heq]
    exact ⟨hm, hdescribed, fullName_of_reading? hn⟩
  refine ⟨g.definitions.map read, ?_, ?_, fun m => ?_⟩
  · exact mapM_eq_some_of_imp (f := fun d => some (read d))
      (fun d hd n hn => by rw [(hread d hd).1, hn]) List.mapM_pure
  · refine List.Nodup.of_map (fun m => m.1.fullName) ?_
    have hnames : (g.definitions.map read).map (fun m => m.1.fullName) =
        g.definitions.map (·.fullName) := by
      rw [List.map_map]
      exact List.map_congr_left fun d hd => (hread d hd).2.2
    rw [hnames]
    exact hnumbered.nodup_fullNames
  · rw [List.mem_map]
    constructor
    · rintro ⟨d, hd, rfl⟩
      exact (hread d hd).2.1
    · -- What is registered under the name of a description reads as a description of that name.
      intro hm
      obtain ⟨id, hid⟩ := hg.exists_idOf? hm
      obtain ⟨d, hd, hname⟩ := hg.indexed hid
      have hmem : d ∈ g.definitions := List.mem_of_find?_eq_some hd
      exact ⟨d, hmem, (hread d hmem).2.1.eq_of_fullName hm ((hread d hmem).2.2.trans hname)⟩

end Whole

namespace Presented

variable {seen seen' : List String} {w w' : Workspace}

theorem namedEndpoints (h : cx.Presented seen w) :
    ∃ es, w.endpoints.mapM (fun e => (w.graph.namedEndpoint? e.2).map (e.1, ·)) = some es ∧
      (w.endpoints.map (·.1)).mapM (fun c => (cx.translateEndpoint? c).map (c, ·)) = some es := by
  have hread : ∀ e ∈ w.endpoints, ∃ n, cx.translateEndpoint? e.1 = some n ∧
      w.graph.namedEndpoint? e.2 = some n := fun e he => (h.endpoint he).2
  generalize w.endpoints = es at hread
  induction es with
  | nil => exact ⟨[], rfl, rfl⟩
  | cons e es ih =>
    obtain ⟨n, hn, hnamed⟩ := hread e (List.mem_cons_self ..)
    obtain ⟨ns, hns, hns'⟩ := ih fun e he => hread e (List.mem_cons_of_mem _ he)
    refine ⟨(e.1, n) :: ns, ?_, ?_⟩
    · rw [List.mapM_cons, hnamed, hns]
      rfl
    · rw [List.map_cons, List.mapM_cons, hn, hns']
      rfl

/-- The controllers are in the order of their names, so they are determined as a set. -/
theorem keys_eq (h : cx.Presented seen w) (h' : cx.Presented seen' w') (hseen : ∀ c, c ∈ seen ↔ c ∈ seen') :
    w.endpoints.map (·.1) = w'.endpoints.map (·.1) := by
  have hnodup {seen : List String} {w : Workspace} (h : cx.Presented seen w) :
      (w.endpoints.map (·.1)).Nodup := by
    refine h.sorted.imp fun {c c'} hlt heq => ?_
    rw [heq] at hlt
    exact String.lt_irrefl c' hlt
  have hperm : (w.endpoints.map (·.1)).Perm (w'.endpoints.map (·.1)) :=
    (List.perm_ext_iff_of_nodup (hnodup h) (hnodup h')).2 fun c => by rw [h.keys, h'.keys, hseen]
  exact hperm.eq_of_pairwise (fun _ _ _ _ hlt hlt' => absurd hlt' (String.lt_asymm hlt)) h.sorted
    h'.sorted

/-- What has been presented fits into the types that were entered. -/
theorem welcome (h : cx.Presented seen w) {c : String} (hc : c ∈ seen) :
    cx.Welcome (· ∈ cx.ownNames w.graph) c := by
  refine ⟨h.known hc, fun hm => ?_⟩
  obtain ⟨⟨c', e⟩, he, rfl⟩ := List.mem_map.1 (h.keys.2 ⟨hc, hm⟩)
  exact (h.endpoint he).1

/-- The types that were entered are the fewest that the names fit into, so they depend on these
alone. -/
theorem own_iff (h : cx.Presented seen w) (h' : cx.Presented seen' w')
    (hseen : ∀ c, c ∈ seen ↔ c ∈ seen') (n : String) :
    n ∈ cx.ownNames w.graph ↔ n ∈ cx.ownNames w'.graph :=
  ⟨h.within h'.accountable (fun c hc => h'.welcome ((hseen c).1 hc)) n,
    h'.within h.accountable (fun c hc => h.welcome ((hseen c).2 hc)) n⟩

/-- The same names make the same model. -/
theorem agrees (h : cx.Presented seen w) (h' : cx.Presented seen' w')
    (hseen : ∀ c, c ∈ seen ↔ c ∈ seen') :
    ∃ m m', w.graph.namedModel? w.endpoints = some m ∧ w'.graph.namedModel? w'.endpoints = some m' ∧
      m.Agrees m' := by
  obtain ⟨ms, hms, hnodup, hdescribed⟩ := h.whole.exists_namedTypes h.numbered
  obtain ⟨ms', hms', hnodup', hdescribed'⟩ := h'.whole.exists_namedTypes h'.numbered
  obtain ⟨es, hes, hkeys⟩ := h.namedEndpoints
  obtain ⟨es', hes', hkeys'⟩ := h'.namedEndpoints
  have htypes : ms.Perm ms' := by
    refine (List.perm_ext_iff_of_nodup hnodup hnodup').2 fun m => ?_
    rw [hdescribed, hdescribed']
    exact ⟨fun hm => hm.imp fun n => (h.own_iff h' hseen n).1,
      fun hm => hm.imp fun n => (h.own_iff h' hseen n).2⟩
  have hendpoints : es = es' := by
    rw [h.keys_eq h' hseen, hkeys'] at hkeys
    exact (Option.some.inj hkeys).symm
  refine ⟨⟨ms, es⟩, ⟨ms', es'⟩, ?_, ?_, htypes, hendpoints⟩
  · rw [namedModel?, hms]
    change Option.bind _ _ = _
    rw [hes]
    rfl
  · rw [namedModel?, hms']
    change Option.bind _ _ = _
    rw [hes']
    rfl

/-- The same names make the same findings, in some order. -/
theorem diagnostics_perm (h : cx.Presented seen w) (h' : cx.Presented seen' w')
    (hseen : seen.Perm seen') (ht : cx.Tallied seen w) (ht' : cx.Tallied seen' w') :
    w.diagnostics.Perm w'.diagnostics := by
  have hkeys := h.keys_eq h' fun c => hseen.mem_iff
  have hown : (cx.ownNames w.graph).Perm (cx.ownNames w'.graph) :=
    (List.perm_ext_iff_of_nodup (nodup_ownNames h.numbered.nodup_fullNames)
      (nodup_ownNames h'.numbered.nodup_fullNames)).2 (h.own_iff h' fun c => hseen.mem_iff)
  refine ht.trans (.trans ?_ ht'.symm)
  rw [hkeys]
  exact (hseen.flatMap_right _).append (.append_left _ (hown.flatMap_right _))

end Presented

end BuildContext

end ClientBindings
