import ClientBindings.Processor
import ClientBindings.Proofs.Endpoint.Assembly
import ClientBindings.Proofs.Resolution.Blame

/-! The building of a list of controllers, one after the other, and where it fails. -/
namespace ClientBindings

open BuildContext TypeGraph

/-- The failure of a round that is aborted at a controller. -/
def abortedAt (controller : String) (e : BuildError) : Failure :=
  (Failure.build e).within ("Failed to process " ++ ("endpoint:" ++ controller))

section controllers

variable {build : String → Build Endpoint} {c : String} {cs : List String} {w v : Workspace}

theorem buildControllers_ok {e : Endpoint} (h : (build c).outcome w = (.ok e, v)) :
    (buildControllers build (c :: cs)).run w =
      (((buildControllers build cs).run v).1.map (e.controllerType :: ·),
        ((buildControllers build cs).run v).2) := by
  rw [buildControllers, StateT.run_bind, show (build c).run.run w = _ from h]
  rfl

theorem buildControllers_scoped {e : BuildError} (h : (build c).outcome w = (.error e, v))
    (he : e.isTypeScoped = true) : (buildControllers build (c :: cs)).run w =
      (buildControllers build cs).run (v.note ⟨.error, "endpoint:" ++ c, e.message⟩) := by
  rw [buildControllers, StateT.run_bind, show (build c).run.run w = _ from h]
  change (if e.isTypeScoped then _ else _ : Work _).run v = _
  rw [if_pos he]
  rfl

theorem buildControllers_aborted {e : BuildError} (h : (build c).outcome w = (.error e, v))
    (he : e.isTypeScoped = false) : (buildControllers build (c :: cs)).run w =
      (.error (abortedAt c e),
        v.note ⟨.error, "endpoint:" ++ c, "Round aborted: " ++ e.message⟩) := by
  rw [buildControllers, StateT.run_bind, show (build c).run.run w = _ from h]
  change (if e.isTypeScoped then _ else _ : Work _).run v = _
  rw [if_neg (by rw [he]; exact Bool.false_ne_true)]
  rfl

/-- What every controller keeps of the graph, a round keeps. -/
theorem buildControllers_guard {J : TypeGraph → Prop}
    (h : ∀ c w, J w.graph → J ((build c).outcome w).2.graph) (cs : List String) {w : Workspace}
    (hw : J w.graph) : J ((buildControllers build cs).run w).2.graph := by
  induction cs generalizing w with
  | nil => exact hw
  | cons c cs ih =>
    have hv := h c w hw
    rcases ho : (build c).outcome w with ⟨e | e, v⟩
    · rw [ho] at hv
      cases hs : e.isTypeScoped with
      | true =>
        rw [buildControllers_scoped ho hs]
        exact ih (by rwa [Workspace.note_graph])
      | false =>
        rw [buildControllers_aborted ho hs]
        exact hv
    · rw [ho] at hv
      rw [buildControllers_ok ho]
      exact ih hv

end controllers

/-- How a round over the plain resolver goes with one over its attributing twin: they come to the
same, or the second names the type that the first failed to fill. -/
inductive RoundAttribution (cx : BuildContext) (g₀ : TypeGraph) (X : TypeId → Prop)
    (g : TypeGraph) : Except Failure (List String) → Except Failure (List String) → Prop
  | outside {r} (h : cx.Blameless g₀ X g) : RoundAttribution cx g₀ X g r r
  | inside {c e t} (ht : t ∈ cx.symbols.types) (he : e.ofTypes = true) (hkept : Kept g₀ g)
      (hnew : g₀.idOf? t.name = none)
      (hleft : cx.symbols.Unreserved → g₀.Ready → g.Ready ∧ Abandoned g t.name) :
      RoundAttribution cx g₀ X g (.error (abortedAt c e))
        (.error (abortedAt c (.missingType t.name)))

namespace RoundAttribution

variable {cx : BuildContext} {g₀ g : TypeGraph} {X : TypeId → Prop}

theorem map {r r' : Except Failure (List String)} (h : RoundAttribution cx g₀ X g r r')
    (f : List String → List String) : RoundAttribution cx g₀ X g (r.map f) (r'.map f) := by
  cases h with
  | outside h => exact .outside h
  | inside ht he hkept hnew hleft => exact .inside ht he hkept hnew hleft

theorem kept {r r' : Except Failure (List String)} (h : RoundAttribution cx g₀ X g r r') :
    Kept g₀ g := by
  cases h with
  | outside h => exact h.confined.toKept
  | inside _ _ hkept => exact hkept

end RoundAttribution

theorem isTypeScoped_of_ofTypes {e : BuildError} (h : e.ofTypes = true) :
    e.isTypeScoped = false := by
  cases e <;> first | rfl | cases h

variable {cx : BuildContext} {g₀ : TypeGraph} {X : TypeId → Prop}

theorem assembleEndpoint_blame (controller : String) : (cx.blameLaw g₀ X).Keeps
    (Same (cx.Blameless g₀ X)) (cx.buildEndpoint controller)
    (cx.assembleEndpoint cx.blaming controller) :=
  keeps_assembleEndpoint (hosting_same (observant_blameless g₀ X))
    (fun _ _ _ hw => .inr (blameLaw_pairs hw)) (fun r => blamingAt_matches g₀ X _ r) controller

/-- A round and its attributing twin leave the same graph and endpoints, and fail together. -/
theorem buildControllers_blame {cs : List String} {w v v' : Workspace}
    {r r' : Except Failure (List String)} (hw : cx.Blameless g₀ X w.graph)
    (h : (buildControllers cx.buildEndpoint cs).run w = (r, v))
    (h' : (buildControllers (cx.assembleEndpoint cx.blaming) cs).run w = (r', v')) :
    v.graph = v'.graph ∧ v.endpoints = v'.endpoints ∧ RoundAttribution cx g₀ X v.graph r r' := by
  induction cs generalizing w r r' with
  | nil =>
    cases h
    cases h'
    exact ⟨rfl, rfl, .outside hw⟩
  | cons c cs ih =>
    have ha : (cx.blameLaw g₀ X).Agree _ ((cx.buildEndpoint c).outcome w)
        ((cx.assembleEndpoint cx.blaming c).outcome w) := assembleEndpoint_blame c ⟨rfl, hw⟩
    rcases ho : (cx.buildEndpoint c).outcome w with ⟨o, u⟩
    rcases ho' : (cx.assembleEndpoint cx.blaming c).outcome w with ⟨o', u'⟩
    rw [ho, ho'] at ha
    cases ha with
    | @ok a _ _ hu =>
      obtain ⟨rfl, hu⟩ := hu
      rw [buildControllers_ok ho] at h
      rw [buildControllers_ok ho'] at h'
      obtain ⟨hr, hv⟩ := Prod.mk.inj h
      obtain ⟨hr', hv'⟩ := Prod.mk.inj h'
      obtain ⟨hg, he, hra⟩ := ih hu (Prod.ext rfl hv) (Prod.ext rfl hv')
      exact ⟨hg, he, hr ▸ hr' ▸ hra.map _⟩
    | dropped h => exact h.elim
    | @failed e _ e' _ hu =>
      obtain ⟨rfl, hu⟩ := hu
      cases hu with
      | outside hu =>
        cases hs : e.isTypeScoped with
        | true =>
          rw [buildControllers_scoped ho hs] at h
          rw [buildControllers_scoped ho' hs] at h'
          exact ih (by rwa [Workspace.note_graph]) h h'
        | false =>
          rw [buildControllers_aborted ho hs] at h
          rw [buildControllers_aborted ho' hs] at h'
          obtain ⟨rfl, rfl⟩ := Prod.mk.inj h
          obtain ⟨rfl, rfl⟩ := Prod.mk.inj h'
          exact ⟨rfl, rfl, .outside (by rwa [Workspace.note_graph])⟩
      | inside ht he hkept hnew hleft =>
        rw [buildControllers_aborted ho (isTypeScoped_of_ofTypes he)] at h
        rw [buildControllers_aborted ho' rfl] at h'
        obtain ⟨rfl, rfl⟩ := Prod.mk.inj h
        obtain ⟨rfl, rfl⟩ := Prod.mk.inj h'
        exact ⟨rfl, rfl, .inside ht he hkept hnew hleft⟩

/-- Building endpoints extends the graph. -/
theorem assembleEndpoint_framed {f : Resolver} (hf : ∀ r, cx.Framed (f r)) (controller : String) :
    cx.Framed (cx.assembleEndpoint f controller) :=
  framed_iff_keeps.2 fun g₁ => keeps_assembleEndpoint (hosting_same (observant_grown g₁))
    (fun _ _ _ hw => .inr hw) (fun r => framed_iff_keeps.1 (hf r) g₁) controller

theorem buildControllers_grown (hs : cx.symbols.Unreserved) (cs : List String) {w : Workspace}
    (hw : w.graph.Ready) :
    cx.Grown w.graph ((buildControllers cx.buildEndpoint cs).run w).2.graph := by
  refine buildControllers_guard (fun c u hu => ?_) cs ⟨.refl _, hw⟩
  have hf : cx.Framed (cx.buildEndpoint c) :=
    assembleEndpoint_framed (fun r => resolveAt_framed hs _ r) c
  exact guarding_keeps_iff.1 (framed_iff_keeps.1 hf w.graph) u hu

end ClientBindings
