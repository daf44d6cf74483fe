import ClientBindings.Proofs.Endpoint.Replay
import ClientBindings.Proofs.Round.Population

/-! A failed round that is tried again. It fails in the same way, unless it failed inside a
definition: that one is found registered the second time, and stays half built. -/
namespace ClientBindings

open BuildContext TypeGraph

variable {cx : BuildContext}

theorem keeps_resolve_endpoints (es : Dict Endpoint) (r : TypeRef) :
    (endpointsLaw es).Keeps (fun w w' => w = w' ∧ w.endpoints = es) (cx.resolve r)
      (cx.resolve r) := by
  refine Lasting.keeps_resolveAt (lasting_endpoints es) ?_ ?_ _ r
  · exact fun _ _ _ _ hw => .inr ⟨rfl, rfl, hw⟩
  · exact fun _ _ hw => .inr ⟨rfl, rfl, hw⟩

/-- Where building the endpoint of a controller fails, the endpoints stay. An error that concerns
that name only, comes of names that are no controllers. -/
theorem buildEndpoint_error {c : String} {w v : Workspace} {e : BuildError}
    (h : (cx.buildEndpoint c).outcome w = (.error e, v)) :
    w.endpoints.get? c = none ∧ v.endpoints = w.endpoints ∧
      (e.isTypeScoped = true → ¬cx.Marked c) := by
  cases hget : w.endpoints.get? c with
  | some e' =>
    rw [buildEndpoint, assembleEndpoint_of_some hget] at h
    cases h
  | none =>
    rw [buildEndpoint, assembleEndpoint_of_none hget] at h
    refine ⟨rfl, ?_⟩
    by_cases hm : cx.Marked c
    · obtain ⟨u, hu, ⟨e', he', ho⟩ | ⟨e', ho⟩⟩ := assembleNew_marked keeps_resolve_endpoints hm hget
      · rw [ho] at h
        cases h
        exact ⟨hu, fun hs => by rw [he'] at hs; cases hs⟩
      · rw [ho] at h
        cases h
    · obtain ⟨e', ho⟩ := assembleNew_unmarked hm
      rw [ho] at h
      cases h
      exact ⟨rfl, fun _ => hm⟩

/-- An endpoint that is built is registered, and no other. -/
theorem buildEndpoint_ok {c : String} {w v : Workspace} {e : Endpoint}
    (h : (cx.buildEndpoint c).outcome w = (.ok e, v)) :
    v.endpoints.get? c = some e ∧ (∀ c', c' ≠ c → v.endpoints.get? c' = w.endpoints.get? c') ∧
      (w.endpoints.get? c = some e ∨ w.endpoints.get? c = none ∧ cx.Marked c) := by
  cases hget : w.endpoints.get? c with
  | some e' =>
    rw [buildEndpoint, assembleEndpoint_of_some hget] at h
    cases h
    exact ⟨hget, fun _ _ => rfl, .inl rfl⟩
  | none =>
    rw [buildEndpoint, assembleEndpoint_of_none hget] at h
    by_cases hm : cx.Marked c
    · obtain ⟨u, -, ⟨e', -, ho⟩ | ⟨e', ho⟩⟩ := assembleNew_marked keeps_resolve_endpoints hm hget
      · rw [ho] at h
        cases h
      · rw [ho] at h
        cases h
        exact ⟨Dict.get?_insert_self _ _, fun c' hc => Dict.get?_insert_of_ne _ _ hc,
          .inr ⟨rfl, hm⟩⟩
    · obtain ⟨e', ho⟩ := assembleNew_unmarked hm
      rw [ho] at h
      cases h

/-- Endpoints that are registered stay, and new ones are of controllers. -/
theorem BuildContext.buildControllers_endpoints (cx : BuildContext) (cs : List String) (w : Workspace) :
    (∀ c e, w.endpoints.get? c = some e →
      ((buildControllers cx.buildEndpoint cs).run w).2.endpoints.get? c = some e) ∧
    ∀ c e, ((buildControllers cx.buildEndpoint cs).run w).2.endpoints.get? c = some e →
      w.endpoints.get? c = some e ∨ cx.Marked c := by
  induction cs generalizing w with
  | nil => exact ⟨fun _ _ h => h, fun _ _ h => .inl h⟩
  | cons c cs ih =>
    rcases ho : (cx.buildEndpoint c).outcome w with ⟨e | e, v⟩
    · obtain ⟨-, hv, -⟩ := buildEndpoint_error ho
      rw [← hv]
      cases hs : e.isTypeScoped with
      | true =>
        rw [buildControllers_scoped ho hs]
        exact ih (v.note ⟨.error, "endpoint:" ++ c, e.message⟩)
      | false =>
        rw [buildControllers_aborted ho hs]
        exact ⟨fun _ _ h => h, fun _ _ h => .inl h⟩
    · obtain ⟨hself, hother, hc⟩ := buildEndpoint_ok ho
      obtain ⟨hkeep, hnew⟩ := ih v
      rw [buildControllers_ok ho]
      refine ⟨fun c' e' h => hkeep c' e' ?_, fun c' e' h => ?_⟩
      · by_cases heq : c' = c
        · subst heq
          rcases hc with hc | ⟨hc, -⟩
          · rw [hself, ← hc, h]
          · rw [hc] at h
            cases h
        · rw [hother c' heq, h]
      · rcases hnew c' e' h with h | h
        · by_cases heq : c' = c
          · subst heq
            rcases hc with hc | ⟨-, hm⟩
            · rw [hself] at h
              exact .inl (hc.trans h)
            · exact .inr hm
          · rw [hother c' heq] at h
            exact .inl h
        · exact .inr h

/-- A name that is no controller gets no endpoint. -/
theorem get?_buildControllers_of_not_marked (cs : List String) {c : String} {w : Workspace}
    (hnone : w.endpoints.get? c = none) (hc : ¬cx.Marked c) :
    ((buildControllers cx.buildEndpoint cs).run w).2.endpoints.get? c = none := by
  cases hget : ((buildControllers cx.buildEndpoint cs).run w).2.endpoints.get? c with
  | none => rfl
  | some e =>
    rcases (cx.buildControllers_endpoints cs w).2 c e hget with h | h
    · rw [hnone] at h
      cases h
    · exact absurd h hc

theorem buildEndpoint_framed (hs : cx.symbols.Unreserved) (c : String) :
    cx.Framed (cx.buildEndpoint c) :=
  assembleEndpoint_framed (fun r => resolveAt_framed hs _ r) c

/-- A graph compared with itself. -/
theorem blameless_self {g : TypeGraph} (hg : g.Ready) : cx.Blameless g (HalfBuilt g) g :=
  ⟨⟨⟨hg.toWellFormed, fun h => h⟩, fun h => h⟩, fun _ h => h⟩

/-- The endpoint on which a round fails alike over both resolvers, fails again. -/
theorem buildEndpoint_again (hs : cx.symbols.Tidy) {c : String} {w v u : Workspace}
    {e : BuildError} (hw : w.graph.Ready) (h : (cx.buildEndpoint c).outcome w = (.error e, v))
    (h' : ((cx.assembleEndpoint cx.blaming c).outcome w).1 = .error e)
    (hgraph : cx.Extends v.graph u.graph) (hnone : u.endpoints.get? c = none) :
    ∃ u', (cx.buildEndpoint c).outcome u = (.error e, u') ∧ u'.graph = u.graph ∧
      u'.endpoints = u.endpoints := by
  obtain ⟨hget, -, -⟩ := buildEndpoint_error h
  have hnew (u : Workspace) (hu : u.endpoints.get? c = none) :
      (cx.buildEndpoint c).outcome u = (cx.assembleNew cx.resolve c).outcome u :=
    assembleEndpoint_of_none hu _
  rw [hnew w hget] at h
  rw [assembleEndpoint_of_none hget] at h'
  have hrefails : cx.RefailsAt w (cx.assembleNew cx.resolve c) (cx.assembleNew cx.blaming c) :=
    refails_assembleNew hs (fun r hr => repeats_resolveAt hs _ hr)
      (fun r => resolveAt_framed hs.unreserved _ r) c hw
  obtain ⟨hr, hg⟩ := hrefails e (congrArg Prod.fst h) h' u (by rwa [h])
  rcases ho : (cx.buildEndpoint c).outcome u with ⟨r, u'⟩
  rw [← hnew u hnone, ho] at hr hg
  cases hr
  exact ⟨u', rfl, hg, (buildEndpoint_error ho).2.1⟩

/-- An error that concerns the name only, comes up again without a change. -/
theorem buildEndpoint_scoped_again {c : String} {w v u : Workspace} {e : BuildError}
    (h : (cx.buildEndpoint c).outcome w = (.error e, v)) (hscoped : e.isTypeScoped = true)
    (hnone : u.endpoints.get? c = none) : (cx.buildEndpoint c).outcome u = (.error e, u) := by
  obtain ⟨hget, -, hunmarked⟩ := buildEndpoint_error h
  obtain ⟨e', hfails⟩ := assembleNew_unmarked (hunmarked hscoped)
  have hw : (cx.buildEndpoint c).outcome w = (.error e', w) :=
    (assembleEndpoint_of_none hget _).trans (hfails _ w)
  obtain rfl : e = e' := by
    rw [h] at hw
    cases hw
    rfl
  exact (assembleEndpoint_of_none hnone _).trans (hfails _ u)

theorem buildControllers_map_error {r : Except Failure (List String)} {f : Failure}
    {k : List String → List String} : r.map k = .error f ↔ r = .error f := by
  cases r with
  | error e => exact ⟨fun h => h, fun h => h⟩
  | ok cs => exact ⟨fun h => (nomatch h), fun h => (nomatch h)⟩

/-- A round that fails alike over both resolvers, fails again. -/
theorem buildControllers_again (hs : cx.symbols.Tidy) {cs : List String} {w v u : Workspace}
    {f : Failure} (hw : w.graph.Ready)
    (h : (buildControllers cx.buildEndpoint cs).run w = (.error f, v))
    (h' : ((buildControllers (cx.assembleEndpoint cx.blaming) cs).run w).1 = .error f)
    (hgraph : cx.Extends v.graph u.graph) (hendpoints : u.endpoints = v.endpoints) :
    ∃ u', (buildControllers cx.buildEndpoint cs).run u = (.error f, u') ∧ u'.graph = u.graph ∧
      u'.endpoints = u.endpoints := by
  induction cs generalizing w u with
  | nil => cases h
  | cons c cs ih =>
    have hagree : (cx.blameLaw w.graph (HalfBuilt w.graph)).Agree _
        ((cx.buildEndpoint c).outcome w) ((cx.assembleEndpoint cx.blaming c).outcome w) :=
      assembleEndpoint_blame c ⟨rfl, blameless_self hw⟩
    have hready := (buildEndpoint_framed hs.unreserved c w hw).2
    rcases ho : (cx.buildEndpoint c).outcome w with ⟨o, w₁⟩
    rcases ho' : (cx.assembleEndpoint cx.blaming c).outcome w with ⟨o', w₁'⟩
    rw [ho, ho'] at hagree
    rw [ho] at hready
    cases hagree with
    | @ok e _ _ hv =>
      obtain ⟨rfl, -⟩ := hv
      rw [buildControllers_ok ho] at h
      rw [buildControllers_ok ho'] at h'
      obtain ⟨hr, hv⟩ := Prod.mk.inj h
      have hrun : (buildControllers cx.buildEndpoint cs).run w₁ = (.error f, v) :=
        Prod.ext (buildControllers_map_error.1 hr) hv
      have hget : u.endpoints.get? c = some e := by
        rw [hendpoints, ← hv]
        exact (cx.buildControllers_endpoints cs w₁).1 c e (buildEndpoint_ok ho).1
      have hfound : (cx.buildEndpoint c).outcome u = (.ok e, u) := assembleEndpoint_of_some hget _
      obtain ⟨u', hu', hg, he⟩ := ih hready hrun (buildControllers_map_error.1 h') hgraph hendpoints
      refine ⟨u', ?_, hg, he⟩
      rw [buildControllers_ok hfound, hu']
      rfl
    | dropped h => exact h.elim
    | @failed e _ e' _ hv =>
      obtain ⟨rfl, hv⟩ := hv
      obtain ⟨hnone, hsame, hscoped⟩ := buildEndpoint_error ho
      cases hv with
      | outside hv =>
        cases hsc : e.isTypeScoped with
        | true =>
          rw [buildControllers_scoped ho hsc] at h
          rw [buildControllers_scoped ho' hsc] at h'
          have hgone : u.endpoints.get? c = none := by
            rw [hendpoints, show v = _ from (congrArg Prod.snd h).symm]
            refine get?_buildControllers_of_not_marked cs ?_ (hscoped hsc)
            rw [Workspace.note_endpoints, hsame, hnone]
          have hu : (cx.buildEndpoint c).outcome u = (.error e, u) :=
            buildEndpoint_scoped_again ho hsc hgone
          rw [buildControllers_scoped hu hsc]
          exact ih (w := w₁.note ⟨.error, "endpoint:" ++ c, e.message⟩) hready h h' hgraph hendpoints
        | false =>
          rw [buildControllers_aborted ho hsc] at h
          obtain ⟨hf, rfl⟩ := Prod.mk.inj h
          obtain rfl := Except.error.inj hf
          have hgone : u.endpoints.get? c = none := by
            rw [hendpoints, Workspace.note_endpoints, hsame, hnone]
          obtain ⟨u', hu', hg, he⟩ :=
            buildEndpoint_again hs hw ho (congrArg Prod.fst ho') hgraph hgone
          rw [buildControllers_aborted hu' hsc]
          exact ⟨_, rfl, hg, he⟩
      | @inside t ht he _ _ _ =>
        rw [buildControllers_aborted ho (isTypeScoped_of_ofTypes he)] at h
        rw [buildControllers_aborted ho' rfl] at h'
        obtain rfl := Except.error.inj (Prod.mk.inj h).1
        have hcause : e = .missingType t.name := by
          simpa [abortedAt, Failure.within, Failure.build, eq_comm] using h'
        rw [hcause] at he
        cases he

/-- The sign of placeholders is in no name of the round. -/
def Round.Tidy (r : Round) : Prop := r.symbols.Tidy ∧ r.settings.Unreserved

instance : DecidablePred Round.Tidy := fun r =>
  inferInstanceAs (Decidable (r.symbols.Tidy ∧ r.settings.Unreserved))

theorem Round.Tidy.unreserved {r : Round} (h : r.Tidy) : r.Unreserved := ⟨h.1.unreserved, h.2⟩

namespace Processor

/-- The processor has come about by rounds and resets without the sign of placeholders in what they
define. -/
def Reached (p : Processor) : Prop := ∃ pipeline events,
  (∀ e ∈ events, Event.Unreserved e) ∧ p = run (withPipeline pipeline) events

theorem Reached.orderly {p : Processor} (h : p.Reached) : p.Orderly := by
  obtain ⟨pipeline, events, hevents, rfl⟩ := h
  exact (charged_run pipeline hevents).toOrderly

variable {p q : Processor} {r : Round} {f : Failure}

/-- A round that fails in its building leaves what the building does. -/
theorem prepared_of_attempt {e : BuildError} (h : p.attempt r = (.error f, q))
    (hcause : f.cause = .build e) : p.prepared r = (.error f, q) := by
  rcases hp : p.prepared r with ⟨f' | pending, q'⟩
  · rw [attempt_of_error hp] at h
    obtain ⟨hf, rfl⟩ := Prod.mk.inj h
    rw [Except.error.inj hf]
  · obtain ⟨result, diagnostics, ha, hreader⟩ := attempt_of_ok hp
    rw [ha] at h
    rw [hreader f (congrArg Prod.fst h)] at hcause
    cases hcause

/-- The graph that a round works on again is the one that it left. -/
theorem opened_again (hp : p.Orderly) (hr : r.Unreserved) {cx : BuildContext} {g : TypeGraph}
    (ho : p.opened r = .ok (cx, g)) (h : p.prepared r = (.error f, q)) :
    q.opened r = .ok (cx, q.graph) := by
  have hseeded : q.graph.seeded = true := by
    have hgrown := hp.grown hr ho
    obtain ⟨-, -, rfl⟩ := opened_ok ho
    rw [h] at hgrown
    rw [hgrown.1.seeded, seeded_seed]
  have hpipeline : q.pipeline = p.pipeline := by
    rcases hb : (buildControllers cx.buildEndpoint r.controllers).run ⟨g, p.endpoints, []⟩
      with ⟨built, v⟩
    have hkept := (prepared_of_built hp.settled ho hb).2.2.1
    rwa [h] at hkept
  rw [opened, hpipeline]
  exact openContext_of_seeded ho hseeded

/-- Without a culprit the building of a round fails again, and leaves everything as it is. -/
theorem prepared_again (hp : p.Orderly) (hr : r.Tidy) (h : p.prepared r = (.error f, q))
    (hnone : p.culprit? r = none) : (q.prepared r).1 = .error f ∧
      (q.prepared r).2.graph = q.graph ∧ (q.prepared r).2.endpoints = q.endpoints := by
  cases ho : p.opened r with
  | error f' =>
    have hp' := (prepared_of_error ho).1
    rw [h] at hp'
    cases hp'
    rw [h]
    exact ⟨rfl, rfl, rfl⟩
  | ok context =>
    obtain ⟨cx, g⟩ := context
    have hq : q.Orderly := by
      have hq := hp.prepared hr.unreserved
      rwa [h] at hq
    have ho' := opened_again hp hr.unreserved ho h
    obtain ⟨hsymbols, -, hg⟩ := opened_ok ho
    have hready : g.Ready := hg ▸ hp.ready_seed hr.2
    rcases hb : (buildControllers cx.buildEndpoint r.controllers).run ⟨g, p.endpoints, []⟩
      with ⟨built, v⟩
    rcases hb' : (buildControllers (cx.assembleEndpoint cx.blaming) r.controllers).run
      ⟨g, p.endpoints, []⟩ with ⟨blaming, v'⟩
    obtain ⟨hgraph, hendpoints, -, hfails⟩ := prepared_of_built hp.settled ho hb
    rw [h] at hgraph hendpoints hfails
    obtain rfl := (hfails f).1 rfl
    -- without a culprit the twin fails in the same way
    have hsame : blaming = .error f := by
      obtain ⟨-, -, hattr⟩ := buildControllers_blame (blameless_self hready) hb hb'
      have hculprit : p.culprit? r = blamed? (.error f) blaming := by
        simp only [culprit?, ho, hb, hb']
      rw [hnone] at hculprit
      cases hattr with
      | outside => rfl
      | @inside c e t ht he _ _ _ =>
        simp only [blamed?] at hculprit
        split at hculprit
        · rename_i heq
          rw [← heq]
        · cases hculprit
    obtain ⟨u', hu', hug, hue⟩ := buildControllers_again (hsymbols ▸ hr.1) hready hb
      (by rw [hb', hsame]) (u := ⟨q.graph, q.endpoints, []⟩) (hgraph ▸ .refl _) hendpoints
    obtain ⟨hgraph', hendpoints', -, hfails'⟩ := prepared_of_built hq.settled ho' hu'
    exact ⟨(hfails' f).2 rfl, hgraph'.trans hug, hendpoints'.trans hue⟩

theorem attempt_state (p : Processor) (r : Round) :
    (p.attempt r).2.graph = (p.prepared r).2.graph ∧
      (p.attempt r).2.endpoints = (p.prepared r).2.endpoints := by
  obtain ⟨diagnostics, hs⟩ := step_round p r
  rw [step] at hs
  rw [hs]
  exact ⟨rfl, rfl⟩

/-- A definition that is registered is not the culprit of a round. -/
theorem culprit?_ne_of_abandoned (hp : p.Orderly) {n : String}
    (hn : Abandoned p.graph n) : p.culprit? r ≠ some n := by
  intro hculprit
  cases ho : p.opened r with
  | error f' =>
    rw [(prepared_of_error ho).2] at hculprit
    cases hculprit
  | ok context =>
    obtain ⟨cx, g⟩ := context
    obtain ⟨-, ⟨hnone, -⟩ | ⟨n', hn', hnew, -⟩⟩ := prepared_blame hp.settled ho
    · rw [hnone] at hculprit
      cases hculprit
    · obtain rfl : n' = n := Option.some.inj (hn'.symm.trans hculprit)
      obtain ⟨id, hid, -⟩ := hn
      obtain ⟨-, -, rfl⟩ := opened_ok ho
      rw [idOf?_seed hid] at hnew
      cases hnew

/-- What trying a failed round again comes to. It fails with the same error and in the same place
exactly if it did not fail inside a definition, and then nothing changes. One that succeeds leaves a
type half built. -/
theorem retry_repeats_iff {e : BuildError} (hp : p.Reached) (hr : r.Tidy)
    (h : p.attempt r = (.error f, q)) (hcause : f.cause = .build e) :
    (((q.attempt r).1 = .error f ∧ q.culprit? r = p.culprit? r) ↔ p.culprit? r = none) ∧
    (p.culprit? r = none →
      (q.attempt r).2.graph = q.graph ∧ (q.attempt r).2.endpoints = q.endpoints) ∧
    ∀ report, (q.attempt r).1 = .ok report →
      ∃ n, p.culprit? r = some n ∧ Abandoned (q.attempt r).2.graph n := by
  have hprepared := prepared_of_attempt h hcause
  have hp := hp.orderly
  have hq : q.Orderly := by
    have hq := hp.prepared hr.unreserved
    rwa [hprepared] at hq
  obtain ⟨hgraph, hendpoints⟩ := attempt_state q r
  rw [hgraph, hendpoints]
  cases hculprit : p.culprit? r with
  | none =>
    obtain ⟨hfails, hsame, hkept⟩ := prepared_again hp hr hprepared hculprit
    have hattempt : q.attempt r = (.error f, (q.prepared r).2) :=
      attempt_of_error (Prod.ext hfails rfl)
    have hnone : q.culprit? r = none := by
      cases hn : q.culprit? r with
      | none => rfl
      | some n =>
        have habandoned := hq.abandoned_culprit hr.unreserved hn
        rw [hsame] at habandoned
        exact absurd hn (culprit?_ne_of_abandoned hq habandoned)
    refine ⟨⟨fun _ => rfl, fun _ => ⟨by rw [hattempt], hnone⟩⟩, fun _ => ⟨hsame, hkept⟩, ?_⟩
    intro report hreport
    rw [hattempt] at hreport
    cases hreport
  | some n =>
    have habandoned : Abandoned q.graph n := by
      have habandoned := hp.abandoned_culprit hr.unreserved hculprit
      rwa [hprepared] at habandoned
    refine ⟨⟨fun ⟨_, hn⟩ => ?_, fun hn => (nomatch hn)⟩, fun hn => (nomatch hn), fun _ _ => ?_⟩
    · exact absurd hn (culprit?_ne_of_abandoned hq habandoned)
    · exact ⟨n, rfl, hq.abandoned_prepared hr.unreserved habandoned⟩

/-- The round that fails in the record of the controller. -/
def orphanRound : Round := .process orphanExport .standard ["a.Api"]

/-- It fails, and then it succeeds. -/
theorem orphanRound_attempts :
    (initial.attempt orphanRound).1 =
      .error (abortedAt "a.Api" (.unknownGenericOwner "T" "a.Gone")) ∧
    ((initial.attempt orphanRound).2.attempt orphanRound).1 = .ok ⟨["a.Api"], [], []⟩ := by
  decide +kernel

/-- Tried again, a round that fails need not fail again. -/
theorem retry_orphan_succeeds : ∃ r f e, (initial.attempt r).1 = .error f ∧ f.cause = .build e ∧
    ((initial.attempt r).2.attempt r).1 ≠ .error f := by
  obtain ⟨hfails, hsucceeds⟩ := orphanRound_attempts
  refine ⟨orphanRound, _, _, hfails, rfl, ?_⟩
  rw [hsucceeds]
  exact nofun

/-- The record is half built after that. -/
theorem retry_orphan_abandoned : ∃ n, initial.culprit? orphanRound = some n ∧
    Abandoned ((initial.attempt orphanRound).2.attempt orphanRound).2.graph n := by
  obtain ⟨hfails, hsucceeds⟩ := orphanRound_attempts
  exact (retry_repeats_iff ⟨.standard, [], fun _ he => absurd he List.not_mem_nil, rfl⟩
    (by decide +kernel) (Prod.ext hfails rfl) rfl).2.2 _ hsucceeds

end Processor

end ClientBindings
