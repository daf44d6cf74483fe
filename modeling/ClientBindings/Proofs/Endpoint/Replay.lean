import ClientBindings.Proofs.Endpoint.Assembly
import ClientBindings.Proofs.Resolution.Replay

/-! The building of an endpoint that failed, done again. What is built before the failure comes to the
same again, and so does the failure. -/
namespace ClientBindings.BuildContext

variable {cx : BuildContext} {α β : Type} {w : Workspace} {f f' : Resolver}

/-- Where a build and its attributing twin fail alike, the build fails so again. -/
def RefailsAt (cx : BuildContext) (w : Workspace) (m m' : Build α) : Prop :=
  ∀ e, (m.outcome w).1 = .error e → (m'.outcome w).1 = .error e →
    ∀ u, cx.Extends (m.outcome w).2.graph u.graph →
      (m.outcome u).1 = .error e ∧ (m.outcome u).2.graph = u.graph

theorem RepeatsAt.refails {m m' : Build α} (h : cx.RepeatsAt w m m') : cx.RefailsAt w m m' := by
  intro e he he' u hu
  cases h with
  | parted h h' hne =>
    rw [he] at h
    rw [he'] at h'
    cases h
    cases h'
    exact absurd rfl hne
  | repeated _ _ hagain =>
    obtain ⟨hr, hg⟩ := hagain u hu
    exact ⟨hr.trans he, hg⟩

theorem refailsAt_lift (x x' : Work α) : cx.RefailsAt w (liftM x) (liftM x') :=
  fun _ he => nomatch he

/-- What comes before may be more than a failure. -/
theorem RepeatsAt.bind_refails {m m' : Build α} {k k' : α → Build β} (hm : cx.RepeatsAt w m m')
    (hframe : ∀ a, cx.Framed (k a)) (hk : ∀ a v, v.graph.Ready → cx.RefailsAt v (k a) (k' a)) :
    cx.RefailsAt w (m >>= k) (m' >>= k') := by
  cases hm with
  | parted h h' hne =>
    exact (RepeatsAt.parted (Build.outcome_bind_of_error h) (Build.outcome_bind_of_error h')
      hne).refails
  | repeated hsame hgrown hagain =>
    rcases ho : m.outcome w with ⟨e | a, v⟩
    · have hbind : cx.RepeatsAt w (m >>= k) (m' >>= k') := by
        refine RepeatsAt.bind (.repeated hsame hgrown hagain) fun a v' ha _ => ?_
        rw [ho] at ha
        cases ha
      exact hbind.refails
    · rw [ho] at hsame hgrown hagain
      have hext := (hframe a v hgrown.2).1
      have hbind : (m >>= k).outcome w = (k a).outcome v := by rw [Build.outcome_bind, ho]
      have hbind' : (m' >>= k').outcome w = (k' a).outcome v := by rw [Build.outcome_bind, hsame]
      intro e he he' u hu
      rw [hbind] at he hu
      rw [hbind'] at he'
      obtain ⟨hr, hg⟩ := hagain u (hext.trans hu)
      rcases hou : m.outcome u with ⟨r, u'⟩
      rw [hou] at hr hg
      cases hr
      obtain ⟨hr', hg'⟩ := hk a v hgrown.2 e he he' u' (hg ▸ hu)
      rw [Build.outcome_bind, hou]
      exact ⟨hr', hg'.trans hg⟩

theorem repeats_warnOfMany (location noun : String) (values : List String) :
    cx.Repeats (liftM (warnOfMany location noun values)) (liftM (warnOfMany location noun values)) := by
  unfold warnOfMany
  split
  · exact repeats_report _ _ _
  · exact repeats_pure ()

theorem repeats_warnOfClash (location : String) (p : Parameter) (place : BindingLocation)
    (others : List (BindingLocation × ResolvedAnnotation)) :
    cx.Repeats (liftM (warnOfClash location p place others))
      (liftM (warnOfClash location p place others)) := by
  unfold warnOfClash
  split
  · exact repeats_report _ _ _
  · exact repeats_pure ()

theorem repeats_resolveMapping (annotations : List Annotation) (location : String) :
    cx.Repeats (cx.symbols.resolveMapping annotations location)
      (cx.symbols.resolveMapping annotations location) := by
  unfold SymbolTable.resolveMapping
  split
  · exact repeats_pure none
  · dsimp only
    refine (repeats_warnOfMany _ _ _).bind fun _ => ?_
    refine (repeats_warnOfMany _ _ _).bind fun _ => ?_
    split
    · exact repeats_pure _
    · split
      · exact repeats_pure _
      · exact repeats_throw _

theorem repeats_buildParameter {p : Parameter} (h : cx.Repeats (f p.type) (f' p.type))
    (location : String) :
    cx.Repeats (cx.buildParameter f p location) (cx.buildParameter f' p location) := by
  unfold buildParameter
  split
  · exact repeats_pure none
  · refine (repeats_warnOfClash _ _ _ _).bind fun _ => ?_
    exact h.bind fun i? => (repeats_orAny i?).bind fun i => repeats_pure _

theorem repeats_buildParameters {ps : List Parameter}
    (h : ∀ p ∈ ps, cx.Repeats (f p.type) (f' p.type)) (location : String) :
    cx.Repeats (cx.buildParameters f location ps) (cx.buildParameters f' location ps) := by
  induction ps with
  | nil => exact repeats_pure []
  | cons p ps ih =>
    refine (repeats_buildParameter (h p (List.mem_cons_self ..)) location).bind fun built => ?_
    exact (ih fun p hp => h p (List.mem_cons_of_mem _ hp)).bind fun rest => repeats_pure _

theorem repeats_buildMethod (h : ∀ r : TypeRef, r.Tidy → cx.Repeats (f r) (f' r)) {m : Method}
    (hm : m.Tidy) (controller : String) (default? : Option Mapping) :
    cx.Repeats (cx.buildMethod f controller default? m)
      (cx.buildMethod f' controller default? m) := by
  unfold buildMethod
  dsimp only
  refine (repeats_resolveMapping _ _).bind fun mapping? => ?_
  split
  · exact repeats_pure none
  · refine (repeats_buildParameters (fun p hp => h _ (hm.1 p hp)) _).bind fun params => ?_
    refine Repeats.bind ?_ fun returnType => repeats_pure _
    cases hr : m.returnType with
    | none => exact repeats_pure none
    | some r => exact h r (hm.2 r hr)

theorem repeats_buildMethods (h : ∀ r : TypeRef, r.Tidy → cx.Repeats (f r) (f' r))
    {ms : List Method} (hms : ∀ m ∈ ms, m.Tidy) (controller : String) (default? : Option Mapping) :
    cx.Repeats (cx.buildMethods f controller default? ms)
      (cx.buildMethods f' controller default? ms) := by
  induction ms with
  | nil => exact repeats_pure []
  | cons m ms ih =>
    refine (repeats_buildMethod h (hms m (List.mem_cons_self ..)) controller default?).bind
      fun built => ?_
    exact (ih fun m hm => hms m (List.mem_cons_of_mem _ hm)).bind fun rest => repeats_pure _

theorem framed_addEndpoint (e : Endpoint) :
    cx.Framed (liftM (Work.addEndpoint e) : Build Endpoint) := by
  intro w hw
  rw [Build.outcome_lift, Work.run_addEndpoint, addEndpoint_graph]
  exact ⟨.refl _, hw⟩

theorem framed_buildMethods (hframe : ∀ r, cx.Framed (f r)) (controller : String)
    (default? : Option Mapping) (ms : List Method) :
    cx.Framed (cx.buildMethods f controller default? ms) :=
  framed_iff_keeps.2 fun g₁ => keeps_buildMethods (observant_grown g₁) (fun _ _ _ _ hw => .inr hw)
    (fun r => framed_iff_keeps.1 (hframe r) g₁) controller default? ms

/-- The building of a new endpoint fails again where it failed outside the definitions. -/
theorem refails_assembleNew (hs : cx.symbols.Tidy)
    (h : ∀ r : TypeRef, r.Tidy → cx.Repeats (f r) (f' r)) (hframe : ∀ r, cx.Framed (f r))
    (controllerType : String) (hw : w.graph.Ready) :
    cx.RefailsAt w (cx.assembleNew f controllerType) (cx.assembleNew f' controllerType) := by
  unfold assembleNew
  split
  · exact (repeats_throw _ w hw).refails
  · rename_i t ht
    split
    · exact (repeats_throw _ w hw).refails
    · have hmethods (default? : Option Mapping) := repeats_buildMethods h
        (hs.allMethods (SymbolTable.type?_mem ht)) t.name default?
      refine (repeats_resolveMapping t.annotations _ w hw).bind_refails (fun default? => ?_)
        fun default? v hv => ?_
      · exact (framed_buildMethods hframe _ _ _).bind fun methods => framed_addEndpoint _
      · exact (hmethods default? v hv).bind_refails (fun methods => framed_addEndpoint _)
          fun methods u hu => refailsAt_lift _ _

end ClientBindings.BuildContext
