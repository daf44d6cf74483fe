import ClientBindings.Proofs.Graph.Numbering
import ClientBindings.Proofs.Resolution.Marks
import ClientBindings.Proofs.Translation.Calls

/-! Each type that is defined has a lock of its own, which is held while the type is filled. A twin of
the builds marks when locks are taken and given back and when types are entered. It does nothing else,
and its marks show that no lock is taken while it is held and that no type is entered twice. -/
namespace ClientBindings

open BuildContext TypeGraph

def Work.mark (m : Mark) : Work Unit := modify fun w => w.note m.note

@[simp] theorem Work.run_mark (m : Mark) (w : Workspace) : (Work.mark m).run w = ((), w.note m.note) :=
  rfl

/-- A definer and the lock of the type: it is taken first, and it is given back however the
definition ends. A type that is found unregistered is entered. -/
def locking (define : Definer) : Definer := fun t => do
  Work.mark (.taken t.name)
  if ((← Work.graph).idOf? t.name).isNone then Work.mark (.entered t.name)
  let id ← tryCatch (define t) fun e => do
    Work.mark (.released t.name)
    throw e
  Work.mark (.released t.name)
  pure id

theorem locking_outcome {define : Definer} {t : DeclaredType} {w : Workspace}
    (h : w.graph.idOf? t.name = none) : (locking define t).outcome w =
      (((define t).outcome ((w.note (Mark.taken t.name).note).note (Mark.entered t.name).note)).1,
        ((define t).outcome ((w.note (Mark.taken t.name).note).note
          (Mark.entered t.name).note)).2.note (Mark.released t.name).note) := by
  rw [locking, Build.outcome_lift_bind, Build.outcome_lift_bind, Work.run_mark, Work.run_graph,
    Workspace.note_graph, h]
  dsimp only [Option.isNone_none]
  rw [if_pos rfl, Build.outcome_lift_bind, Work.run_mark, Build.outcome_bind,
    Build.outcome_tryCatch]
  rcases (define t).outcome _ with ⟨e | id, v⟩ <;> rfl

namespace BuildContext

/-- The plain resolver, except that locks are noted. -/
def lockingAt (cx : BuildContext) : Nat → Resolver
  | 0, _ => throw .endlessBound
  | depth + 1, r => cx.resolveStep (locking (cx.define (cx.lockingAt depth))) (cx.lockingAt depth) r

def lockingResolve (cx : BuildContext) (r : TypeRef) : Build (Option TypeInstance) :=
  cx.lockingAt (cx.symbols.resolutionDepth r) r

def lockingName (cx : BuildContext) (name : String) : Build TypeId :=
  cx.getOrDefine (locking (cx.define cx.lockingResolve)) name

def lockingEndpoint (cx : BuildContext) (controllerType : String) : Build Endpoint :=
  cx.assembleEndpoint cx.lockingResolve controllerType

end BuildContext

/-- A workspace and that of the twin, from the graph `g` on: they differ by marks, which are
disciplined; of `held`, and of what was entered, everything is registered. -/
structure Watched (g : TypeGraph) (held : List String) (w w' : Workspace) : Prop where
  graph : w.graph = w'.graph
  endpoints : w.endpoints = w'.endpoints
  others : w.diagnostics = Mark.others w'.diagnostics
  disciplined : Mark.Disciplined (Mark.among w'.diagnostics)
  held_eq : Mark.held (Mark.among w'.diagnostics) = held
  names {n : String} {id : TypeId} : g.idOf? n = some id → w.graph.idOf? n = some id
  locked {n : String} : n ∈ held → ∃ id, w.graph.idOf? n = some id
  entered {n : String} : .entered n ∈ Mark.among w'.diagnostics →
    g.idOf? n = none ∧ ∃ id, w.graph.idOf? n = some id

namespace Watched

variable {g : TypeGraph} {held : List String} {w w' : Workspace}

/-- The graph may change as long as names keep their numbers. -/
theorem withGraph (h : Watched g held w w') {g' : TypeGraph}
    (hg : ∀ n id, w.graph.idOf? n = some id → g'.idOf? n = some id) :
    Watched g held (w.withGraph g') (w'.withGraph g') where
  graph := rfl
  endpoints := h.endpoints
  others := h.others
  disciplined := h.disciplined
  held_eq := h.held_eq
  names hn := hg _ _ (h.names hn)
  locked hn := (h.locked hn).imp fun _ => hg _ _
  entered hn := ⟨(h.entered hn).1, (h.entered hn).2.imp fun _ => hg _ _⟩

theorem warn (h : Watched g held w w') (location message : String) :
    Watched g held (w.note ⟨.warning, location, message⟩)
      (w'.note ⟨.warning, location, message⟩) where
  graph := h.graph
  endpoints := h.endpoints
  others := by
    rw [Workspace.note, Workspace.note, Mark.others_warning, h.others]
  disciplined := by
    rw [Workspace.note, Mark.among_warning]
    exact h.disciplined
  held_eq := by
    rw [Workspace.note, Mark.among_warning]
    exact h.held_eq
  names := h.names
  locked := h.locked
  entered hn := by
    rw [Workspace.note, Mark.among_warning] at hn
    exact h.entered hn

theorem lasting (g : TypeGraph) (held : List String) : Lasting (Watched g held) where
  graph := Watched.graph
  warn location message h := h.warn location message
  register d h := by
    rw [← h.graph]
    exact h.withGraph fun _ _ => idOf?_register
  update id f h := by
    rw [← h.graph]
    exact h.withGraph fun _ _ hn => hn

/-- A type that is found unregistered is entered under its lock. -/
theorem enter (h : Watched g held w w') {d : TypeDefinition} (hnone : w.graph.idOf? d.fullName = none) :
    Watched g (d.fullName :: held) (w.withGraph (w.graph.register d).1)
      (((w'.note (Mark.taken d.fullName).note).note (Mark.entered d.fullName).note).withGraph
        (w'.graph.register d).1) := by
  have hmarks : Mark.among (w'.diagnostics ++ [(Mark.taken d.fullName).note] ++
      [(Mark.entered d.fullName).note]) =
        Mark.among w'.diagnostics ++ [.taken d.fullName] ++ [.entered d.fullName] := by
    rw [Mark.among_note, Mark.among_note]
  have hfree : d.fullName ∉ held := by
    intro hmem
    obtain ⟨id, hid⟩ := h.locked hmem
    rw [hnone] at hid
    cases hid
  refine ⟨congrArg (fun g : TypeGraph => (g.register d).1) h.graph, h.endpoints, ?_, ?_, ?_,
    fun hn => idOf?_register (h.names hn), fun {n} hn => ?_, fun {n} hn => ?_⟩
  · change w.diagnostics = Mark.others (w'.diagnostics ++ _ ++ _)
    rw [Mark.others_note, Mark.others_note, h.others]
  · change Mark.Disciplined (Mark.among (w'.diagnostics ++ _ ++ _))
    rw [hmarks]
    have htaken : (Mark.taken d.fullName).Allowed (Mark.among w'.diagnostics) := by
      rw [Mark.Allowed, h.held_eq]
      exact hfree
    refine (h.disciplined.append htaken).append ⟨fun hmem => ?_, _, rfl⟩
    rcases List.mem_append.1 hmem with hmem | hmem
    · obtain ⟨-, id, hid⟩ := h.entered hmem
      rw [hnone] at hid
      cases hid
    · cases List.mem_singleton.1 hmem
  · change Mark.held (Mark.among (w'.diagnostics ++ _ ++ _)) = _
    rw [hmarks, Mark.held_append, Mark.held_append, h.held_eq]
    rfl
  · rcases List.mem_cons.1 hn with rfl | hn
    · exact ⟨_, idOf?_register_self w.graph d⟩
    · exact exists_idOf?_register (h.locked hn) d
  · change .entered n ∈ Mark.among (w'.diagnostics ++ _ ++ _) at hn
    rw [hmarks] at hn
    rcases List.mem_append.1 hn with hn | hn
    · rcases List.mem_append.1 hn with hn | hn
      · obtain ⟨hbefore, hid⟩ := h.entered hn
        exact ⟨hbefore, exists_idOf?_register hid d⟩
      · cases List.mem_singleton.1 hn
    · obtain rfl : n = d.fullName := by
        cases List.mem_singleton.1 hn
        rfl
      refine ⟨?_, _, idOf?_register_self w.graph d⟩
      cases hg : g.idOf? d.fullName with
      | none => rfl
      | some id =>
        rw [h.names hg] at hnone
        cases hnone

theorem release {name : String} (h : Watched g (name :: held) w w') :
    Watched g held w (w'.note (Mark.released name).note) where
  graph := h.graph
  endpoints := h.endpoints
  others := by
    rw [Workspace.note, Mark.others_note, h.others]
  disciplined := by
    rw [Workspace.note, Mark.among_note]
    exact h.disciplined.append ⟨held, h.held_eq⟩
  held_eq := by
    rw [Workspace.note, Mark.among_note, Mark.held_append, h.held_eq]
    exact List.erase_cons_head ..
  names := h.names
  locked hn := h.locked (List.mem_cons_of_mem _ hn)
  entered hn := by
    rw [Workspace.note, Mark.among_note] at hn
    rcases List.mem_append.1 hn with hn | hn
    · exact h.entered hn
    · cases List.mem_singleton.1 hn

theorem hosting (g : TypeGraph) (held : List String) : Hosting (Watched g held) where
  toObservant := (lasting g held).observant
  endpoints := Watched.endpoints
  addEndpoint e h := by
    unfold Workspace.addEndpoint
    rw [h.endpoints]
    split
    · exact h
    · exact ⟨h.graph, rfl, h.others, h.disciplined, h.held_eq, h.names, h.locked, h.entered⟩

end Watched

/-- Failures come with the same error, and with the locks given back that were taken since. -/
def lockingLaw (g : TypeGraph) (held : List String) : FailureLaw :=
  ⟨fun _ => False, fun e v e' v' => e = e' ∧ Watched g held v v'⟩

namespace BuildContext

variable {cx : BuildContext} {g : TypeGraph} {f f' : Resolver}

/-- Filling a type under its lock takes and gives back the locks of the types inside. -/
theorem locking_matches
    (hf : ∀ held r, (lockingLaw g held).Keeps (Watched g held) (f r) (f' r)) (held : List String)
    (t : DeclaredType) : (lockingLaw g held).Matches
      (fun w w' => Watched g held w w' ∧ w.graph.idOf? t.name = none)
      (cx.define f t) (locking (cx.define f') t) fun _ => Watched g held := by
  rintro w w' ⟨hw, hnone⟩
  have hdefine : (lockingLaw g (t.name :: held)).Agree _ ((cx.define f t).outcome w)
      ((cx.define f' t).outcome
        ((w'.note (Mark.taken t.name).note).note (Mark.entered t.name).note)) :=
    Lasting.matches_define (Watched.lasting g (t.name :: held))
      (I := fun w w'' => ∃ w', Watched g held w w' ∧
        w'' = (w'.note (Mark.taken t.name).note).note (Mark.entered t.name).note)
      (fun _ _ ⟨_, hw, heq⟩ => heq ▸ hw.graph)
      (fun _ _ ⟨_, hw, heq⟩ hnone => heq ▸ hw.enter (d := cx.outline t) hnone)
      (fun r _ => hf (t.name :: held) r) ⟨⟨w', hw, rfl⟩, hnone⟩
  rw [locking_outcome (by rw [← hw.graph, hnone])]
  revert hdefine
  generalize (cx.define f t).outcome w = o
  generalize (cx.define f' t).outcome _ = o'
  intro hdefine
  cases hdefine with
  | ok hv => exact .ok hv.release
  | dropped h => exact h.elim
  | failed hv => exact .failed ⟨hv.1, hv.2.release⟩

theorem lockingLaw_pairs {held : List String} {w w' : Workspace} (e : BuildError)
    (h : Watched g held w w') : (lockingLaw g held).dropped e ∨ (lockingLaw g held).paired e w e w' :=
  .inr ⟨rfl, h⟩

theorem lockingAt_matches (held : List String) (depth : Nat) (r : TypeRef) :
    (lockingLaw g held).Keeps (Watched g held) (cx.resolveAt depth r) (cx.lockingAt depth r) := by
  induction depth generalizing held r with
  | zero => exact FailureLaw.matches_throw fun _ _ hw => lockingLaw_pairs _ hw
  | succ depth ih =>
    refine keeps_resolveStep (Watched.lasting g held).observant
      (fun _ _ _ _ hw => lockingLaw_pairs _ hw) (fun _ t _ => ?_) fun a _ => ih held a
    exact locking_matches ih held t

theorem lockingResolve_matches (held : List String) (r : TypeRef) :
    (lockingLaw g held).Keeps (Watched g held) (cx.resolve r) (cx.lockingResolve r) :=
  lockingAt_matches held _ r

theorem lockingName_matches (held : List String) (name : String) :
    (lockingLaw g held).Keeps (Watched g held) (cx.defineName name) (cx.lockingName name) :=
  keeps_getOrDefine (Watched.lasting g held).observant fun t _ =>
    locking_matches lockingResolve_matches held t

theorem lockingEndpoint_matches (held : List String) (controllerType : String) :
    (lockingLaw g held).Keeps (Watched g held) (cx.buildEndpoint controllerType)
      (cx.lockingEndpoint controllerType) :=
  keeps_assembleEndpoint (Watched.hosting g held) (fun _ _ e hw => lockingLaw_pairs e hw)
    (lockingResolve_matches held) controllerType

end BuildContext

/-- Builds that agree leave workspaces that differ by marks. -/
theorem watched_of_keeps {g : TypeGraph} {held : List String} {α : Type} {m m' : Build α}
    (h : (lockingLaw g held).Keeps (Watched g held) m m') {w w' : Workspace}
    (hw : Watched g held w w') : Watched g held (m.outcome w).2 (m'.outcome w').2 :=
  h.workspaces (fun _ he => he) (fun _ _ _ _ hv => hv.2) hw

namespace Workspace

/-- What can be done to a graph, by builds that mark what happens to locks. -/
def watch (w : Workspace) : GraphAction → Workspace
  | .defineName cx name => ((cx.lockingName name).outcome w).2
  | .resolve cx r => ((cx.lockingResolve r).outcome w).2
  | .buildEndpoint cx controllerType => ((cx.lockingEndpoint controllerType).outcome w).2
  | action => w.perform action

def watchAll (w : Workspace) (actions : List GraphAction) : Workspace := actions.foldl watch w

variable {g : TypeGraph} {w w' : Workspace} {action : GraphAction} {actions : List GraphAction}

theorem watch_watched (h : Watched g [] w w') (ha : action ≠ .clear) :
    Watched g [] (w.perform action) (w'.watch action) := by
  have hregister (d : TypeDefinition) : Watched g [] (w.withGraph (w.graph.register d).1)
      (w'.withGraph (w'.graph.register d).1) := (Watched.lasting g []).register d h
  cases action with
  | register d => exact hregister d
  | any => exact hregister Builtin.any
  | collection => exact hregister Builtin.collection
  | map => exact hregister Builtin.map
  | seed settings =>
    have hseed : Watched g [] (w.withGraph (w.graph.seed settings))
        (w'.withGraph (w.graph.seed settings)) := h.withGraph fun _ _ => idOf?_seed
    change Watched g [] _ (w'.withGraph (w'.graph.seed settings))
    rwa [← h.graph]
  | clear => exact absurd rfl ha
  | defineName cx name => exact watched_of_keeps (lockingName_matches [] name) h
  | resolve cx r => exact watched_of_keeps (lockingResolve_matches [] r) h
  | buildEndpoint cx controllerType =>
    exact watched_of_keeps (lockingEndpoint_matches [] controllerType) h

theorem watchAll_watched (h : Watched g [] w w') (ha : .clear ∉ actions) :
    Watched g [] (w.performAll actions) (w'.watchAll actions) := by
  induction actions generalizing w w' with
  | nil => exact h
  | cons action actions ih =>
    have hne : action ≠ .clear := fun heq => ha (heq ▸ List.mem_cons_self ..)
    exact ih (watch_watched h hne) fun hmem => ha (List.mem_cons_of_mem _ hmem)

theorem watched_start (g : TypeGraph) (endpoints : Dict Endpoint) :
    Watched g [] ⟨g, endpoints, []⟩ ⟨g, endpoints, []⟩ where
  graph := rfl
  endpoints := rfl
  others := rfl
  disciplined := Mark.disciplined_nil
  held_eq := rfl
  names h := h
  locked h := nomatch h
  entered h := nomatch h

/-- As long as a graph is not cleared, no type is entered twice, and none while it is being filled:
its lock has just been taken and was not held, and its name was not registered. The builds that mark
this leave what the plain ones do. -/
theorem watchAll_disciplined (g : TypeGraph) (endpoints : Dict Endpoint)
    (ha : .clear ∉ actions) :
    let w := performAll ⟨g, endpoints, []⟩ actions
    let w' := watchAll ⟨g, endpoints, []⟩ actions
    let ms := Mark.among w'.diagnostics
    (w'.graph = w.graph ∧ w'.endpoints = w.endpoints ∧ Mark.others w'.diagnostics = w.diagnostics) ∧
      (ms.filterMap Mark.entry?).Nodup ∧
      (∀ before n after, ms = before ++ .taken n :: after → n ∉ Mark.held before) ∧
      ∀ before n after, ms = before ++ .entered n :: after →
        (∃ earlier, before = earlier ++ [.taken n] ∧ n ∉ Mark.held earlier) ∧
        g.idOf? n = none ∧ ∃ id, w'.graph.idOf? n = some id := by
  have h := watchAll_watched (watched_start g endpoints) ha
  refine ⟨⟨h.graph.symm, h.endpoints.symm, h.others.symm⟩, h.disciplined.nodup,
    fun before n after heq => h.disciplined before _ after heq, fun before n after heq => ?_⟩
  obtain ⟨-, earlier, rfl⟩ := h.disciplined before _ after heq
  have hmem : .entered n ∈ Mark.among (watchAll ⟨g, endpoints, []⟩ actions).diagnostics := by
    rw [heq]
    simp
  obtain ⟨hbefore, hid⟩ := h.entered hmem
  rw [h.graph] at hid
  refine ⟨⟨earlier, rfl, ?_⟩, hbefore, hid⟩
  exact h.disciplined earlier (.taken n) (.entered n :: after) (by simp [heq])

/-- A controller with a record and a class over one interface, and the interface once more. -/
def nodeActions : List GraphAction :=
  [.seed .standard, .buildEndpoint nodeContext "a.Api", .defineName nodeContext "a.Node"]

/-- What is marked: the interface is entered while the record is filled, and the superclass while the
class is. -/
def nodeMarks : List Mark :=
  [.taken "a.Leaf", .entered "a.Leaf", .taken "a.Node", .entered "a.Node", .released "a.Node",
    .released "a.Leaf", .taken "a.Branch", .entered "a.Branch", .taken "a.Base", .entered "a.Base",
    .released "a.Base", .released "a.Branch"]

/-- Each of them is entered once. -/
theorem watchAll_disciplined_node :
    let ms := Mark.among (watchAll ⟨.empty, [], []⟩ nodeActions).diagnostics
    ms = nodeMarks ∧ (ms.filterMap Mark.entry?).Nodup := by
  have hmarks : Mark.among (watchAll ⟨.empty, [], []⟩ nodeActions).diagnostics = nodeMarks := by
    decide +kernel
  have hclear : .clear ∉ nodeActions := by simp [nodeActions]
  exact ⟨hmarks, (watchAll_disciplined .empty [] hclear).2.1⟩

end Workspace

end ClientBindings
