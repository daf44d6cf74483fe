import ClientBindings.Workspace

/-! What a build comes to in a workspace: its result and the workspace that it leaves. A sequence
of builds is taken apart at the first that fails. -/
namespace ClientBindings

abbrev Outcome (α : Type) := Except BuildError α × Workspace

def Build.outcome {α : Type} (m : Build α) (w : Workspace) : Outcome α := m.run.run w

/-- The error of an outcome that is one. -/
def Outcome.error? {α : Type} : Outcome α → Option BuildError
  | (.error e, _) => some e
  | (.ok _, _) => none

theorem exists_of_toOption_any {ε α : Type} {x : Except ε α} {f : α → Bool}
    (h : x.toOption.any f = true) : ∃ a, x = .ok a ∧ f a = true := by
  cases x with
  | error e => cases h
  | ok a => exact ⟨a, rfl, h⟩

theorem Outcome.fst_of_error? {α : Type} {o : Outcome α} {e : BuildError} (h : o.error? = some e) :
    o.1 = .error e := by
  obtain ⟨e' | a, v⟩ := o
  · rw [Option.some.inj h]
  · cases h

theorem Outcome.exists_ok_of_error? {α : Type} {o : Outcome α} (h : o.error? = none) :
    ∃ a, o = (.ok a, o.2) := by
  obtain ⟨e | a, v⟩ := o
  · cases h
  · exact ⟨a, rfl⟩

theorem Outcome.exists_ok_of_any {α : Type} {o : Outcome α} {f : α → Bool}
    (h : o.1.toOption.any f = true) : ∃ a, o = (.ok a, o.2) ∧ f a = true := by
  obtain ⟨a, ha, hf⟩ := exists_of_toOption_any h
  exact ⟨a, Prod.ext ha rfl, hf⟩

namespace Build

variable {α β : Type}

theorem ext {m m' : Build α} (h : ∀ w, m.outcome w = m'.outcome w) : m = m' := funext h

@[simp] theorem outcome_pure (a : α) (w : Workspace) : (pure a : Build α).outcome w = (.ok a, w) :=
  rfl

@[simp] theorem outcome_throw (e : BuildError) (w : Workspace) :
    (throw e : Build α).outcome w = (.error e, w) := rfl

@[simp] theorem outcome_lift (x : Work α) (w : Workspace) :
    (liftM x : Build α).outcome w = (.ok (x.run w).1, (x.run w).2) := rfl

theorem outcome_bind (m : Build α) (k : α → Build β) (w : Workspace) :
    (m >>= k).outcome w = match m.outcome w with
      | (.ok a, v) => (k a).outcome v
      | (.error e, v) => (.error e, v) := by
  unfold outcome
  change (ExceptT.run (m >>= k)).run w = _
  rw [ExceptT.run_bind, StateT.run_bind]
  rcases m.run.run w with ⟨r, v⟩
  cases r <;> rfl

theorem outcome_tryCatch (m : Build α) (handle : BuildError → Build α) (w : Workspace) :
    (tryCatch m handle).outcome w = match m.outcome w with
      | (.ok a, v) => (.ok a, v)
      | (.error e, v) => (handle e).outcome v := by
  unfold outcome
  simp only [tryCatch, tryCatchThe, MonadExceptOf.tryCatch, ExceptT.tryCatch]
  rw [ExceptT.run_mk, StateT.run_bind]
  rcases h : m.run.run w with ⟨e | a, v⟩
  · rw [show StateT.run m w = _ from h]
    rfl
  · rw [show StateT.run m w = _ from h]
    rfl

@[simp] theorem outcome_lift_bind (x : Work α) (k : α → Build β) (w : Workspace) :
    ((liftM x : Build α) >>= k).outcome w = (k (x.run w).1).outcome (x.run w).2 := by
  rw [outcome_bind, outcome_lift]

/-- A sequence succeeds when both of its parts do. -/
theorem outcome_bind_ok {m : Build α} {k : α → Build β} {w v : Workspace} {b : β} :
    (m >>= k).outcome w = (.ok b, v) ↔
      ∃ a u, m.outcome w = (.ok a, u) ∧ (k a).outcome u = (.ok b, v) := by
  rw [outcome_bind]
  rcases m.outcome w with ⟨r, u⟩
  cases r with
  | ok a =>
    refine ⟨fun h => ⟨a, u, rfl, h⟩, ?_⟩
    rintro ⟨_, _, ⟨⟩, h⟩
    exact h
  | error e => simp

/-- A sequence fails in one of its parts. -/
theorem outcome_bind_error {m : Build α} {k : α → Build β} {w v : Workspace} {e : BuildError} :
    (m >>= k).outcome w = (.error e, v) ↔
      m.outcome w = (.error e, v) ∨
        ∃ a u, m.outcome w = (.ok a, u) ∧ (k a).outcome u = (.error e, v) := by
  rw [outcome_bind]
  rcases m.outcome w with ⟨r, u⟩
  cases r with
  | ok a =>
    refine ⟨fun h => .inr ⟨a, u, rfl, h⟩, ?_⟩
    rintro (h | ⟨_, _, ⟨⟩, h⟩)
    · cases h
    · exact h
  | error e => simp

theorem outcome_bind_of_error {m : Build α} {k : α → Build β} {w : Workspace} {e : BuildError}
    (h : (m.outcome w).1 = .error e) : ((m >>= k).outcome w).1 = .error e := by
  rw [outcome_bind]
  rcases ho : m.outcome w with ⟨e' | a, v⟩
  · simpa [ho] using h
  · rw [ho] at h
    cases h

end Build

namespace Workspace

def withGraph (w : Workspace) (g : TypeGraph) : Workspace := { w with graph := g }

def note (w : Workspace) (d : Diagnostic) : Workspace :=
  { w with diagnostics := w.diagnostics ++ [d] }

/-- With findings after those that are there. -/
def noteAll (w : Workspace) (ds : List Diagnostic) : Workspace :=
  { w with diagnostics := w.diagnostics ++ ds }

@[simp] theorem withGraph_graph (w : Workspace) (g : TypeGraph) : (w.withGraph g).graph = g := rfl

@[simp] theorem withGraph_endpoints (w : Workspace) (g : TypeGraph) :
    (w.withGraph g).endpoints = w.endpoints := rfl

@[simp] theorem note_graph (w : Workspace) (d : Diagnostic) : (w.note d).graph = w.graph := rfl

@[simp] theorem note_endpoints (w : Workspace) (d : Diagnostic) :
    (w.note d).endpoints = w.endpoints := rfl

@[simp] theorem noteAll_graph (w : Workspace) (ds : List Diagnostic) :
    (w.noteAll ds).graph = w.graph := rfl

@[simp] theorem noteAll_endpoints (w : Workspace) (ds : List Diagnostic) :
    (w.noteAll ds).endpoints = w.endpoints := rfl

@[simp] theorem noteAll_nil (w : Workspace) : w.noteAll [] = w := by
  rw [noteAll, List.append_nil]

theorem note_noteAll (w : Workspace) (d : Diagnostic) (ds : List Diagnostic) :
    (w.note d).noteAll ds = w.noteAll (d :: ds) := by simp [note, noteAll]

@[simp] theorem noteAll_noteAll (w : Workspace) (ds ds' : List Diagnostic) :
    (w.noteAll ds).noteAll ds' = w.noteAll (ds ++ ds') := by simp [noteAll]

end Workspace

namespace Work

variable {w : Workspace}

@[simp] theorem run_graph : Work.graph.run w = (w.graph, w) := rfl

@[simp] theorem run_endpoint? (controllerType : String) :
    (Work.endpoint? controllerType).run w = (w.endpoints.get? controllerType, w) := rfl

@[simp] theorem run_addEndpoint (e : Endpoint) :
    (Work.addEndpoint e).run w = ((w.addEndpoint e).2, (w.addEndpoint e).1) := rfl

@[simp] theorem run_report (s : Severity) (location message : String) :
    (Work.report s location message).run w = ((), w.note ⟨s, location, message⟩) := rfl

@[simp] theorem run_warn (location message : String) :
    (Work.warn location message).run w = ((), w.note ⟨.warning, location, message⟩) := rfl

@[simp] theorem run_register (d : TypeDefinition) :
    (Work.register d).run w = ((w.graph.register d).2, w.withGraph (w.graph.register d).1) := rfl

@[simp] theorem run_update (id : TypeId) (f : TypeDefinition → TypeDefinition) :
    (Work.update id f).run w = ((), w.withGraph (w.graph.update id f)) := rfl

@[simp] theorem run_anyId : Work.anyId.run w =
    ((w.graph.register Builtin.any).2, w.withGraph (w.graph.register Builtin.any).1) := rfl

@[simp] theorem run_collectionId : Work.collectionId.run w =
    ((w.graph.register Builtin.collection).2,
      w.withGraph (w.graph.register Builtin.collection).1) := rfl

@[simp] theorem run_mapId : Work.mapId.run w =
    ((w.graph.register Builtin.map).2, w.withGraph (w.graph.register Builtin.map).1) := rfl

@[simp] theorem run_anyInstance : Work.anyInstance.run w =
    (.plain (w.graph.register Builtin.any).2, w.withGraph (w.graph.register Builtin.any).1) := rfl

@[simp] theorem run_orAny_some (i : TypeInstance) : (Work.orAny (some i)).run w = (i, w) := rfl

@[simp] theorem run_orAny_none : (Work.orAny none).run w =
    (.plain (w.graph.register Builtin.any).2, w.withGraph (w.graph.register Builtin.any).1) := rfl

end Work

end ClientBindings
