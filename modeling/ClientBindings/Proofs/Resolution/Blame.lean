import ClientBindings.Proofs.Resolution.Confinement

/-! A resolver that says in which definition it failed. It does what the plain one does, but turns
every failure that comes up while a type is filled into one that names the outermost such type. -/
namespace ClientBindings.BuildContext

open TypeGraph

variable {cx : BuildContext}

/-- The definer whose failures name the type. -/
def attributed (define : Definer) : Definer := fun t =>
  tryCatch (define t) fun _ => throw (.missingType t.name)

def blamingAt (cx : BuildContext) : Nat → Resolver
  | 0, _ => throw .endlessBound
  | depth + 1, r =>
    cx.resolveStep (attributed (cx.define (cx.resolveAt depth))) (cx.blamingAt depth) r

/-- The plain resolver, except that failures inside a definition name it. -/
def blaming (cx : BuildContext) (r : TypeRef) : Build (Option TypeInstance) :=
  cx.blamingAt (cx.symbols.resolutionDepth r) r

theorem attributed_outcome (define : Definer) (t : DeclaredType) (w : Workspace) :
    (attributed define t).outcome w = match (define t).outcome w with
      | (.ok id, v) => (.ok id, v)
      | (.error _, v) => (.error (.missingType t.name), v) := by
  rw [attributed, Build.outcome_tryCatch]
  rcases (define t).outcome w with ⟨e | id, v⟩ <;> rfl

/-- A type that is registered and half built. -/
def Abandoned (g : TypeGraph) (name : String) : Prop :=
  ∃ id, g.idOf? name = some id ∧ HalfBuilt g id

/-- What holds of the graph as long as nothing fails inside a definition. -/
structure Blameless (cx : BuildContext) (g₀ : TypeGraph) (X : TypeId → Prop) (g : TypeGraph) :
    Prop where
  confined : Confined g₀ X g
  ready : cx.symbols.Unreserved → g₀.Ready → g.Ready

/-- How a failure of the plain build goes with that of its attributing twin: they are the same, or
the second names a type that was entered since `g₀` and is left half built. -/
inductive Attribution (cx : BuildContext) (g₀ : TypeGraph) (X : TypeId → Prop) (v : Workspace) :
    BuildError → BuildError → Prop
  | outside {e} (h : Blameless cx g₀ X v.graph) : Attribution cx g₀ X v e e
  | inside {e t} (ht : t ∈ cx.symbols.types) (he : e.ofTypes = true) (hkept : Kept g₀ v.graph)
      (hnew : g₀.idOf? t.name = none)
      (hleft : cx.symbols.Unreserved → g₀.Ready → v.graph.Ready ∧ Abandoned v.graph t.name) :
      Attribution cx g₀ X v e (.missingType t.name)

/-- Failures that go together by attribution. -/
def blameLaw (cx : BuildContext) (g₀ : TypeGraph) (X : TypeId → Prop) : FailureLaw :=
  ⟨fun _ => False, fun e v e' v' => v = v' ∧ cx.Attribution g₀ X v e e'⟩

theorem observant_blameless (g₀ : TypeGraph) (X : TypeId → Prop) :
    Observant (Same (cx.Blameless g₀ X)) :=
  observant_same fun g d hd h => ⟨h.confined.register_builtin hd, fun hs hg₀ => by
    rw [(h.ready hs hg₀).stocked.register hd]
    exact h.ready hs hg₀⟩

theorem blameLaw_pairs {g₀ : TypeGraph} {X : TypeId → Prop} {w w' : Workspace} {e : BuildError}
    (hw : Same (cx.Blameless g₀ X) w w') : (cx.blameLaw g₀ X).paired e w e w' :=
  ⟨hw.1, .outside hw.2⟩

theorem attributed_matches {g₀ : TypeGraph} {X : TypeId → Prop} {f : Resolver}
    (hf : ∀ Y r, (fillingLaw g₀).Keeps (Same (Confined g₀ Y)) (f r) (f r))
    (hframe : cx.symbols.Unreserved → ∀ r, cx.Framed (f r)) {n : String} {t : DeclaredType}
    (ht : cx.Definable n t) : (cx.blameLaw g₀ X).Matches
      (fun w w' => Same (cx.Blameless g₀ X) w w' ∧ w.graph.idOf? t.name = none)
      (cx.define f t) (attributed (cx.define f) t) fun _ => Same (cx.Blameless g₀ X) := by
  rintro w _ ⟨⟨rfl, hw⟩, hnone⟩
  have ha : (fillingLaw g₀).Agree _ ((cx.define f t).outcome w) ((cx.define f t).outcome w) :=
    define_confined hf X t ⟨rfl, hw.confined⟩
  rw [attributed_outcome]
  rcases ho : (cx.define f t).outcome w with ⟨e | id, v⟩
  · rw [ho] at ha
    cases ha with
    | dropped h => exact h.elim
    | failed h =>
      refine .failed ⟨rfl, .inside (SymbolTable.type?_mem ht.2.2.2) h.1 h.2 (hw.confined.names hnone)
        fun hs hg₀ => ?_⟩
      have hv : v.graph.Ready := by
        have h := (define_framed (ht.unreserved hs) (hframe hs) ht.self w (hw.ready hs hg₀)).2
        rwa [ho] at h
      exact ⟨hv, (define_error (ht.unreserved hs) (hframe hs) ht.self (hw.ready hs hg₀) ho).2⟩
  · rw [ho] at ha
    cases ha with
    | ok h =>
      refine .ok ⟨rfl, h.2, fun hs hg₀ => ?_⟩
      have h := (define_framed (ht.unreserved hs) (hframe hs) ht.self w (hw.ready hs hg₀)).2
      rwa [ho] at h

/-- The attributing resolver fails where the plain one does, in the same state. -/
theorem blamingAt_matches (g₀ : TypeGraph) (X : TypeId → Prop) (depth : Nat) (r : TypeRef) :
    (cx.blameLaw g₀ X).Keeps (Same (cx.Blameless g₀ X)) (cx.resolveAt depth r)
      (cx.blamingAt depth r) := by
  induction depth generalizing r with
  | zero => exact fun _ _ hw => .failed (blameLaw_pairs hw)
  | succ depth ih =>
    refine keeps_resolveStep (observant_blameless g₀ X) (fun _ _ _ _ hw => .inr (blameLaw_pairs hw))
      (fun n t ht => ?_) fun a _ => ih a
    exact attributed_matches (resolveAt_confined depth) (fun hs => resolveAt_framed hs depth) ht

end ClientBindings.BuildContext
