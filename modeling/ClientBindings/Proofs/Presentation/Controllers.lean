import ClientBindings.Proofs.Endpoint.Closure
import ClientBindings.Proofs.Graph.Numbering
import ClientBindings.Proofs.Presentation.Endpoint
import ClientBindings.Proofs.Round.Retry

/-! What the controllers that have been presented so far leave: the endpoints of those that are marked,
the types that their accounts lead to, and nothing else. -/
namespace ClientBindings

namespace BuildContext

open TypeGraph

variable {cx : BuildContext} {S : String → Prop} {w v : Workspace} {c : String} {cs seen : List String}
  {t t' : DeclaredType} {f : Resolver}

section marked

variable {marker : ResolvedAnnotation} (ht : cx.symbols.type? c = some t)
  (hm : cx.symbols.resolveAnnotation t.annotations Marker.endpoint = some marker)
include ht hm

theorem fares_draft (hs : cx.symbols.Tidy) (hS : cx.Accountable S) (hw : cx.Whole w.graph) :
    cx.Fares S w (cx.accountEndpoint? c)
      (fun e g => e.controllerType = c ∧ ∃ n, cx.translateEndpoint? c = some n ∧
        g.namedEndpoint? e = some n)
      ((cx.draft cx.resolve c t marker).outcome w) := by
  have haccount : cx.accountEndpoint? c =
      andThen? (cx.accountMapping? t.annotations ("endpoint:" ++ c))
        (gather? (cx.accountMethod? t.name) (cx.symbols.allMethods t)) := by
    rw [accountEndpoint?, ht]
    rfl
  rw [haccount]
  refine (fares_resolveMapping t.annotations ("endpoint:" ++ c) hw).bind hw fun default? u _ hu hd => ?_
  have htidy : ∀ m ∈ cx.symbols.allMethods t, m.Tidy := hs.allMethods (SymbolTable.type?_mem ht)
  refine (fares_buildMethods hs hS htidy t.name default? hu).bind_pure fun methods g hmethods => ?_
  obtain ⟨ns, hns, hread⟩ := hmethods
  have hnamed (name : String) (moduleName : Option String) (container : Option Container) :
      g.namedEndpoint? ⟨c, name, moduleName, default?, methods, container⟩ =
        some ⟨c, name, moduleName, default?, ns.reduceOption, container⟩ := by
    rw [namedEndpoint?, hread]
    rfl
  refine ⟨rfl, _, ?_, hnamed ..⟩
  rw [translateEndpoint?, ht]
  change (cx.symbols.resolveAnnotation t.annotations Marker.endpoint).bind _ = _
  rw [hm]
  change (cx.symbols.mapping? t.annotations ("endpoint:" ++ c)).bind _ = _
  rw [hd]
  change ((cx.symbols.allMethods t).mapM (cx.translateMethod? t.name default?)).bind _ = _
  rw [hns]
  rfl

end marked

/-- What is said of a name that is no controller. -/
def complaints (cx : BuildContext) (c : String) : List Diagnostic :=
  if ((cx.symbols.type? c).bind fun t =>
      cx.symbols.resolveAnnotation t.annotations Marker.endpoint).isSome then []
  else [⟨.error, "endpoint:" ++ c, (BuildError.notAController c).message⟩]

theorem marked_iff : cx.Marked c ↔ ((cx.symbols.type? c).bind fun t =>
    cx.symbols.resolveAnnotation t.annotations Marker.endpoint).isSome = true := by
  rw [Option.isSome_iff_exists]
  simp only [Option.bind_eq_some_iff]
  exact ⟨fun ⟨t, m, ht, hm⟩ => ⟨m, t, ht, hm⟩, fun ⟨m, t, ht, hm⟩ => ⟨t, m, ht, hm⟩⟩

/-- A declared name, and an account within `S` if it is that of a controller. -/
def Welcome (cx : BuildContext) (S : String → Prop) (c : String) : Prop :=
  (cx.symbols.type? c).isSome = true ∧ (cx.Marked c → Good S (cx.accountEndpoint? c))

theorem Defined.eq_of_name (ht : cx.Defined t) (ht' : cx.Defined t') (h : t.name = t'.name) : t = t' := by
  have htype := ht.1.2.2.2
  rw [h, ht'.1.2.2.2] at htype
  exact (Option.some.inj htype).symm

/-- After the names `seen`, in whatever order and however often. -/
structure Presented (cx : BuildContext) (seen : List String) (w : Workspace) : Prop where
  whole : cx.Whole w.graph
  numbered : w.graph.Numbered
  accountable : cx.Accountable (· ∈ cx.ownNames w.graph)
  endpoint {c : String} {e : Endpoint} : (c, e) ∈ w.endpoints →
    Good (· ∈ cx.ownNames w.graph) (cx.accountEndpoint? c) ∧
      ∃ n, cx.translateEndpoint? c = some n ∧ w.graph.namedEndpoint? e = some n
  sorted : w.endpoints.Sorted
  keys {c : String} : c ∈ w.endpoints.map (·.1) ↔ c ∈ seen ∧ cx.Marked c
  known {c : String} : c ∈ seen → (cx.symbols.type? c).isSome = true
  within {S : String → Prop} : cx.Accountable S → (∀ c ∈ seen, cx.Welcome S c) →
    ∀ n ∈ cx.ownNames w.graph, S n

namespace Presented

theorem congr (h : cx.Presented seen w) (hgraph : v.graph = w.graph)
    (hendpoints : v.endpoints = w.endpoints) : cx.Presented seen v := by
  obtain ⟨whole, numbered, accountable, endpoint, sorted, keys, known, within⟩ := h
  rw [← hgraph] at whole numbered accountable within
  simp only [← hgraph, ← hendpoints] at endpoint
  rw [← hendpoints] at sorted
  simp only [← hendpoints] at keys
  exact ⟨whole, numbered, accountable, endpoint, sorted, keys, known, within⟩

/-- A name that adds nothing: one that has been presented, or one of no controller. -/
theorem again (h : cx.Presented seen w) (hknown : (cx.symbols.type? c).isSome = true)
    (hc : cx.Marked c → c ∈ seen) : cx.Presented (seen ++ [c]) w where
  whole := h.whole
  numbered := h.numbered
  accountable := h.accountable
  endpoint := h.endpoint
  sorted := h.sorted
  keys {c'} := by
    rw [h.keys, List.mem_append, List.mem_singleton]
    constructor
    · exact fun ⟨hseen, hm⟩ => ⟨.inl hseen, hm⟩
    · rintro ⟨hseen | rfl, hm⟩
      · exact ⟨hseen, hm⟩
      · exact ⟨hc hm, hm⟩
  known hc' := by
    rcases List.mem_append.1 hc' with hseen | hlast
    · exact h.known hseen
    · rwa [List.mem_singleton.1 hlast]
  within hS hwelcome := h.within hS fun c hc => hwelcome c (List.mem_append_left _ hc)

/-- The names at the end of a way are closed if those at its beginning are. -/
theorem accountable_of_passage {as : List Effect} {new : List DeclaredType}
    (h : cx.Accountable (· ∈ cx.ownNames w.graph)) (hv : cx.Passage w as new v) :
    cx.Accountable (· ∈ cx.ownNames v.graph) := by
  intro t ht hmem
  rw [hv.own] at hmem
  rcases List.mem_append.1 hmem with hmem | hmem
  · exact (h t ht hmem).mono fun _ hn => hv.own_subset hn
  · obtain ⟨t', ht', hname⟩ := List.mem_map.1 hmem
    obtain ⟨hdef, hgood⟩ := hv.complete ht'
    obtain rfl : t' = t := hdef.eq_of_name ht hname
    exact hgood

/-- The endpoint of a controller is added. -/
theorem add (h : cx.Presented seen w) {as : List Effect} {new : List DeclaredType} {e : Endpoint}
    (hget : w.endpoints.get? c = none) (hm : cx.Marked c) (has : cx.accountEndpoint? c = some as)
    (hv : cx.Passage w as new v) (hwhole : cx.Whole v.graph) (hnumbered : v.graph.Numbered)
    (he : ∃ n, cx.translateEndpoint? c = some n ∧ v.graph.namedEndpoint? e = some n) :
    cx.Presented (seen ++ [c]) { v with endpoints := w.endpoints.insert c e } where
  whole := hwhole
  numbered := hnumbered
  accountable := by
    have hclosed : cx.Accountable (· ∈ cx.ownNames v.graph) := accountable_of_passage h.accountable hv
    exact hclosed
  endpoint {c' e'} hmem := by
    rcases Dict.mem_insert hmem with heq | hmem
    · obtain ⟨rfl, rfl⟩ := Prod.mk.inj heq
      exact ⟨⟨as, has, fun _ hn => hv.reached hn⟩, he⟩
    · obtain ⟨hgood, n, hn, hread⟩ := h.endpoint hmem
      exact ⟨hgood.mono fun _ hn => hv.own_subset hn, n, hn,
        (hv.keepsNames h.whole.toWellFormed).namedEndpoint? hread⟩
  sorted := Dict.sorted_insert h.sorted
  keys {c'} := by
    have hperm : (w.endpoints.insert c e).Perm ((c, e) :: w.endpoints) := Dict.perm_insert hget
    rw [(hperm.map (·.1)).mem_iff, List.map_cons, List.mem_cons, h.keys, List.mem_append,
      List.mem_singleton]
    constructor
    · rintro (rfl | ⟨hseen, hm'⟩)
      · exact ⟨.inr rfl, hm⟩
      · exact ⟨.inl hseen, hm'⟩
    · rintro ⟨hseen | rfl, hm'⟩
      · exact .inr ⟨hseen, hm'⟩
      · exact .inl rfl
  known {c'} hc' := by
    rcases List.mem_append.1 hc' with hseen | hlast
    · exact h.known hseen
    · obtain ⟨t, marker, ht, -⟩ := hm
      rw [List.mem_singleton.1 hlast, ht]
      rfl
  within {S} hS hwelcome n hn := by
    rw [hv.own] at hn
    rcases List.mem_append.1 hn with hn | hn
    · exact h.within hS (fun c hc => hwelcome c (List.mem_append_left _ hc)) n hn
    · obtain ⟨t, ht, rfl⟩ := List.mem_map.1 hn
      have hgood : Good S (some as) := has ▸ (hwelcome c (by simp)).2 hm
      exact hv.within hS (good_some.1 hgood) t ht

end Presented

section tally

variable (cx)

/-- What is found when the endpoint of a controller is built. -/
def controllerRemarks (c : String) : List Diagnostic := findings ((cx.accountEndpoint? c).getD [])

/-- What is found when the definition of the type of that name is filled. -/
def typeRemarks (n : String) : List Diagnostic := (cx.symbols.type? n).toList.flatMap cx.remarks

/-- What is said of all names, of the controllers among them and of the types that these lead to. -/
def tally (seen controllers types : List String) : List Diagnostic :=
  seen.flatMap cx.complaints ++
    (controllers.flatMap cx.controllerRemarks ++ types.flatMap cx.typeRemarks)

/-- The findings are those of the names `seen`, in some order. -/
def Tallied (seen : List String) (w : Workspace) : Prop :=
  w.diagnostics.Perm (cx.tally seen (w.endpoints.map (·.1)) (cx.ownNames w.graph))

end tally

theorem complaints_of_marked (hm : cx.Marked c) : cx.complaints c = [] := if_pos (marked_iff.1 hm)

theorem complaints_of_not_marked (hm : ¬cx.Marked c) :
    cx.complaints c = [⟨.error, "endpoint:" ++ c, (BuildError.notAController c).message⟩] :=
  if_neg fun h => hm (marked_iff.2 h)

theorem typeRemarks_of_defined (ht : cx.Defined t) : cx.typeRemarks t.name = cx.remarks t := by
  rw [typeRemarks, ht.1.2.2.2, Option.toList_some, List.flatMap_singleton]

namespace Tallied

theorem complain (h : cx.Tallied seen w) :
    cx.Tallied (seen ++ [c]) (w.noteAll (cx.complaints c)) := by
  refine List.perm_iff_count.2 fun x => ?_
  have hx := List.perm_iff_count.1 h x
  simp only [tally, Workspace.noteAll, List.flatMap_append, List.flatMap_singleton,
    List.count_append] at hx ⊢
  omega

theorem again (h : cx.Tallied seen w) (hm : cx.Marked c) : cx.Tallied (seen ++ [c]) w := by
  have hc := h.complain (c := c)
  rw [complaints_of_marked hm] at hc
  simpa [Workspace.noteAll] using hc

/-- The endpoint of a controller is added. -/
theorem add (h : cx.Tallied seen w) {as : List Effect} {new : List DeclaredType} {e : Endpoint}
    (hget : w.endpoints.get? c = none) (hm : cx.Marked c) (has : cx.accountEndpoint? c = some as)
    (hv : cx.Passage w as new v) :
    cx.Tallied (seen ++ [c]) { v with endpoints := w.endpoints.insert c e } := by
  have hkeys : ((w.endpoints.insert c e).map (·.1)).Perm (c :: w.endpoints.map (·.1)) :=
    (Dict.perm_insert hget).map _
  have hremarks : cx.controllerRemarks c = findings as := by
    rw [controllerRemarks, has, Option.getD_some]
  have hnew : (new.map (·.name)).flatMap cx.typeRemarks = new.flatMap cx.remarks := by
    rw [List.flatMap_map]
    exact List.flatMap_congr fun t ht => typeRemarks_of_defined (hv.complete ht).1
  refine List.perm_iff_count.2 fun x => ?_
  have hx := List.perm_iff_count.1 h x
  have hv' := hv.noted x
  have hcount := List.perm_iff_count.1 (hkeys.flatMap_right cx.controllerRemarks) x
  simp only [tally, hv.own, List.flatMap_append, List.flatMap_cons, List.flatMap_nil, hnew, hremarks,
    complaints_of_marked hm, List.count_append, List.count_nil] at hx hcount ⊢
  omega

end Tallied

/-- What comes of presenting further names: they are taken in, or the round is aborted, and then no
set of types lets all of them in. -/
inductive Took (cx : BuildContext) (seen cs : List String) (w : Workspace) :
    Except Failure (List String) × Workspace → Prop
  | ok {r : List String} {u : Workspace} (h : cx.Presented (seen ++ cs) u)
      (ht : cx.Tallied seen w → cx.Tallied (seen ++ cs) u) : Took cx seen cs w (.ok r, u)
  | aborted {f : Failure} {u : Workspace} (h : ∀ S, cx.Accountable S → ∃ c ∈ cs, ¬cx.Welcome S c) :
      Took cx seen cs w (.error f, u)

namespace Took

variable {out : Except Failure (List String) × Workspace}

theorem map (h : cx.Took seen cs w out) (f : List String → List String) :
    cx.Took seen cs w (out.1.map f, out.2) := by
  cases h with
  | ok h ht => exact .ok h ht
  | aborted h => exact .aborted h

/-- After the first name has been taken in. -/
theorem cons (ht : cx.Tallied seen w → cx.Tallied (seen ++ [c]) v)
    (h : cx.Took (seen ++ [c]) cs v out) : cx.Took seen (c :: cs) w out := by
  cases h with
  | ok h ht' =>
    rw [List.append_assoc] at h ht'
    exact .ok h fun hw => ht' (ht hw)
  | aborted h =>
    refine .aborted fun S hS => ?_
    obtain ⟨c', hc', hbad⟩ := h S hS
    exact ⟨c', List.mem_cons_of_mem _ hc', hbad⟩

end Took

theorem assembleNew_missing (ht : cx.symbols.type? c = none) (f : Resolver) (w : Workspace) :
    (cx.assembleNew f c).outcome w = (.error (.missingType c), w) := by
  rw [assembleNew, ht]
  rfl

theorem assembleNew_plain (ht : cx.symbols.type? c = some t)
    (hm : cx.symbols.resolveAnnotation t.annotations Marker.endpoint = none) (f : Resolver)
    (w : Workspace) : (cx.assembleNew f c).outcome w = (.error (.notAController c), w) := by
  simp only [assembleNew, ht, hm]
  rfl

/-- A controller is built for the first time. -/
theorem Presented.buildEndpoint (hs : cx.symbols.Tidy) (h : cx.Presented seen w)
    (hget : w.endpoints.get? c = none) (hm : cx.Marked c) :
    (∃ e v, (cx.buildEndpoint c).outcome w = (.ok e, v) ∧ cx.Presented (seen ++ [c]) v ∧
      (cx.Tallied seen w → cx.Tallied (seen ++ [c]) v)) ∨
    ∃ e v, (cx.buildEndpoint c).outcome w = (.error e, v) ∧ e.isTypeScoped = false ∧
      ∀ S, cx.Accountable S → ¬cx.Welcome S c := by
  have hm' := hm
  obtain ⟨t, marker, ht, hmarker⟩ := hm'
  have hfares (S : String → Prop) (hS : cx.Accountable S) := fares_draft ht hmarker hs hS h.whole
  have hbuild : (cx.buildEndpoint c).outcome w = _ := assembleEndpoint_of_none hget cx.resolve
  rw [assembleNew_of_marked ht hmarker, Build.outcome_bind] at hbuild
  have hnumbered : ((cx.buildEndpoint c).outcome w).2.graph.Numbered :=
    enduring_numbered.buildEndpoint c h.numbered
  rcases ho : (cx.draft cx.resolve c t marker).outcome w with ⟨e | e, v⟩
  · rw [ho] at hbuild
    dsimp only at hbuild
    refine .inr ⟨e, v, hbuild, ?_, fun S hS hwelcome => ?_⟩
    · cases hscoped : e.isTypeScoped with
      | false => rfl
      | true => exact absurd hm ((buildEndpoint_error hbuild).2.2 hscoped)
    · have hfailed := hfares S hS
      rw [ho] at hfailed
      cases hfailed with
      | failed hbad => exact hbad (hwelcome.2 hm)
  · have hfaring := hfares _ h.accountable
    rw [ho] at hfaring
    cases hfaring with
    | ok has hv hR =>
      obtain ⟨hwhole, hc, hread⟩ := hR
      have hadd : v.addEndpoint e = ({ v with endpoints := w.endpoints.insert c e }, e) := by
        rw [Workspace.addEndpoint, hc, hv.endpoints, hget]
      rw [ho] at hbuild
      dsimp only at hbuild
      rw [Build.outcome_lift, Work.run_addEndpoint, hadd] at hbuild
      rw [hbuild] at hnumbered
      refine .inl ⟨e, _, hbuild, ?_, fun htally => htally.add hget hm has hv⟩
      exact h.add hget hm has hv hwhole hnumbered hread

/-- Presenting names one after the other. -/
theorem Presented.buildControllers (hs : cx.symbols.Tidy) (h : cx.Presented seen w)
    (cs : List String) :
    cx.Took seen cs w ((ClientBindings.buildControllers cx.buildEndpoint cs).run w) := by
  induction cs generalizing seen w with
  | nil => exact .ok (by rwa [List.append_nil]) (by rw [List.append_nil]; exact fun ht => ht)
  | cons c cs ih =>
    cases hget : w.endpoints.get? c with
    | some e =>
      have hc : c ∈ seen ∧ cx.Marked c := h.keys.1 (Dict.mem_keys_of_get? hget)
      have ho : (cx.buildEndpoint c).outcome w = (.ok e, w) := assembleEndpoint_of_some hget _
      have hagain : cx.Presented (seen ++ [c]) w := h.again (h.known hc.1) fun _ => hc.1
      rw [buildControllers_ok ho]
      exact .map (.cons (fun ht => ht.again hc.2) (ih hagain)) _
    | none =>
      -- Not built yet: it is built now, or it is no controller and adds a complaint at most.
      by_cases hm : cx.Marked c
      · rcases h.buildEndpoint hs hget hm with ⟨e, v, ho, hv, ht⟩ | ⟨e, v, ho, hscoped, hbad⟩
        · rw [buildControllers_ok ho]
          exact .map (.cons ht (ih hv)) _
        · rw [buildControllers_aborted ho hscoped]
          exact .aborted fun S hS => ⟨c, List.mem_cons_self .., hbad S hS⟩
      · cases ht : cx.symbols.type? c with
        | none =>
          have ho : (cx.buildEndpoint c).outcome w = (.error (.missingType c), w) :=
            (assembleEndpoint_of_none hget _).trans (assembleNew_missing ht _ w)
          rw [buildControllers_aborted ho rfl]
          refine .aborted fun S _ => ⟨c, List.mem_cons_self .., fun hwelcome => ?_⟩
          rw [Welcome, ht] at hwelcome
          cases hwelcome.1
        | some t =>
          have hmarker : cx.symbols.resolveAnnotation t.annotations Marker.endpoint = none := by
            refine Option.eq_none_iff_forall_ne_some.2 fun marker hmarker => hm ⟨t, marker, ht, hmarker⟩
          have ho : (cx.buildEndpoint c).outcome w = (.error (.notAController c), w) :=
            (assembleEndpoint_of_none hget _).trans (assembleNew_plain ht hmarker _ w)
          have hagain : cx.Presented (seen ++ [c]) w :=
            h.again (by rw [ht]; rfl) fun hc => absurd hc hm
          rw [buildControllers_scoped ho rfl]
          have hnoted : cx.Presented (seen ++ [c])
              (w.note ⟨.error, "endpoint:" ++ c, (BuildError.notAController c).message⟩) :=
            hagain.congr rfl rfl
          refine .cons (fun htally => ?_) (ih hnoted)
          have hcomplain := htally.complain (c := c)
          rwa [complaints_of_not_marked hm] at hcomplain

end BuildContext

end ClientBindings
