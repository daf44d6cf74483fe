import ClientBindings.Proofs.Resolution.Matching

/-! The depth of a resolver matters only where it is used up, and of a workspace only the graph
matters: outcomes that end are the same at every greater depth, and in every workspace with that
graph. -/
namespace ClientBindings

/-- Failures for want of depth say nothing; all else is the same on both sides. -/
def FailureLaw.exact : FailureLaw := ⟨(· = .endlessBound), fun e v e' v' => e = e' ∧ v = v'⟩

/-- The same failures, with the same graph. -/
def FailureLaw.alike : FailureLaw := ⟨fun _ => False, fun e v e' v' => e = e' ∧ v.graph = v'.graph⟩

/-- Only what succeeds is followed. -/
def FailureLaw.lenient : FailureLaw := ⟨fun _ => True, fun _ _ _ _ => False⟩

theorem FailureLaw.exact_admits {J : TypeGraph → Prop} : FailureLaw.exact.Admits (Same J) :=
  fun _ _ _ _ hw => .inr ⟨rfl, hw.1⟩

/-- Where it succeeds, a build leaves a property of the graph alone. -/
theorem FailureLaw.lenient_keeps_iff {α : Type} {J : TypeGraph → Prop} {m : Build α} :
    FailureLaw.lenient.Keeps (Same J) m m ↔
      ∀ ⦃w a v⦄, J w.graph → m.outcome w = (.ok a, v) → J v.graph := by
  constructor
  · intro h w a v hw ho
    have ha : FailureLaw.lenient.Agree (fun _ => Same J) (m.outcome w) (m.outcome w) :=
      h ⟨rfl, hw⟩
    rw [ho] at ha
    cases ha with
    | ok h => exact h.2
  · rintro h w _ ⟨rfl, hw⟩
    rcases ho : m.outcome w with ⟨e | a, v⟩
    · exact .dropped trivial
    · exact .ok ⟨rfl, h hw ho⟩

theorem FailureLaw.lenient_admits {I : Workspace → Workspace → Prop} :
    FailureLaw.lenient.Admits I := fun _ _ _ _ _ => .inl trivial

/-- Agreement under the exact law is equality, unless the first build lacked depth. -/
theorem FailureLaw.Agree.eq_of_ends {α : Type} {J : TypeGraph → Prop} {o o' : Outcome α}
    (h : FailureLaw.exact.Agree (fun _ => Same J) o o') (ho : o.1 ≠ .error .endlessBound) :
    o' = o := by
  cases h with
  | ok h => rw [h.1]
  | dropped h => exact absurd (congrArg Except.error h) ho
  | failed h => rw [h.1, h.2]

namespace BuildContext

variable {cx : BuildContext}

/-- Resolving the reference from the workspace ends within the depth. -/
def Within (cx : BuildContext) (depth : Nat) (w : Workspace) (r : TypeRef) : Prop :=
  ((cx.resolveAt depth r).outcome w).1 ≠ .error .endlessBound

theorem not_within_zero (w : Workspace) (r : TypeRef) : ¬cx.Within 0 w r := fun h => h rfl

theorem lasting_anywhere : Lasting (Same fun _ => True) :=
  lasting_same (fun _ _ _ => trivial) fun _ _ _ _ => trivial

theorem keeps_resolveStep_exact {d d' : Definer} {f f' : Resolver}
    (hd : ∀ t, FailureLaw.exact.Keeps (Same fun _ => True) (d t) (d' t))
    (h : ∀ r, FailureLaw.exact.Keeps (Same fun _ => True) (f r) (f' r)) (r : TypeRef) :
    FailureLaw.exact.Keeps (Same fun _ => True) (cx.resolveStep d f r) (cx.resolveStep d' f' r) :=
  keeps_resolveStep lasting_anywhere.observant FailureLaw.exact_admits
    (fun _ t _ => (hd t).imp (fun _ _ hw => hw.1) fun _ _ _ hw => hw) fun r _ => h r

theorem keeps_define_exact {f f' : Resolver}
    (h : ∀ r, FailureLaw.exact.Keeps (Same fun _ => True) (f r) (f' r)) (t : DeclaredType) :
    FailureLaw.exact.Keeps (Same fun _ => True) (cx.define f t) (cx.define f' t) :=
  matches_define (J := fun _ => Same fun _ => True) (K := fun _ => Same fun _ => True)
    (fun _ _ hw => congrArg _ hw.1) (fun _ _ _ hw _ => hw)
    (fun _ _ hw _ => lasting_anywhere.register _ hw)
    (fun _ => Lasting.keeps_populate lasting_anywhere fun r _ => h r)
    fun _ _ _ hw => lasting_anywhere.update _ _ hw

theorem keeps_resolveAt_succ (depth : Nat) (r : TypeRef) :
    FailureLaw.exact.Keeps (Same fun _ => True) (cx.resolveAt depth r)
      (cx.resolveAt (depth + 1) r) := by
  induction depth generalizing r with
  | zero => exact fun _ _ _ => .dropped rfl
  | succ depth ih => exact keeps_resolveStep_exact (keeps_define_exact ih) ih r

theorem resolveAt_succ {depth : Nat} {w : Workspace} {r : TypeRef} (h : cx.Within depth w r) :
    (cx.resolveAt (depth + 1) r).outcome w = (cx.resolveAt depth r).outcome w :=
  (keeps_resolveAt_succ depth r ⟨rfl, trivial⟩).eq_of_ends h

/-- An outcome that ends is the outcome at every greater depth. -/
theorem resolveAt_le {depth depth' : Nat} {w : Workspace} {r : TypeRef} (h : cx.Within depth w r)
    (hle : depth ≤ depth') :
    (cx.resolveAt depth' r).outcome w = (cx.resolveAt depth r).outcome w := by
  induction hle with
  | refl => rfl
  | @step depth' _ ih =>
    have hw : cx.Within depth' w r := by
      rw [Within, ih]
      exact h
    rw [resolveAt_succ hw, ih]

theorem Within.le {depth depth' : Nat} {w : Workspace} {r : TypeRef} (h : cx.Within depth w r)
    (hle : depth ≤ depth') : cx.Within depth' w r := by
  rw [Within, resolveAt_le h hle]
  exact h

/-- Two depths that suffice give one outcome. -/
theorem resolveAt_eq {depth depth' : Nat} {w : Workspace} {r : TypeRef} (h : cx.Within depth w r)
    (h' : cx.Within depth' w r) :
    (cx.resolveAt depth' r).outcome w = (cx.resolveAt depth r).outcome w := by
  rcases Nat.le_total depth depth' with hle | hle
  · exact resolveAt_le h hle
  · exact (resolveAt_le h' hle).symm

/-- One graph on both sides. -/
def SameGraph (w w' : Workspace) : Prop := w.graph = w'.graph

theorem lasting_sameGraph : Lasting SameGraph where
  graph hw := hw
  warn _ _ hw := hw
  register d hw := congrArg (fun g : TypeGraph => (g.register d).1) hw
  update id f hw := congrArg (fun g : TypeGraph => g.update id f) hw

theorem alike_admits : FailureLaw.alike.Admits SameGraph :=
  fun _ _ _ _ hw => .inr ⟨rfl, hw⟩

theorem keeps_resolveAt_sameGraph (depth : Nat) (r : TypeRef) :
    FailureLaw.alike.Keeps SameGraph (cx.resolveAt depth r) (cx.resolveAt depth r) :=
  Lasting.keeps_resolveAt lasting_sameGraph alike_admits (fun _ _ hw => .inr ⟨rfl, hw⟩) depth r

theorem keeps_define_sameGraph {f : Resolver}
    (h : ∀ r, FailureLaw.alike.Keeps SameGraph (f r) (f r)) (t : DeclaredType) :
    FailureLaw.alike.Keeps SameGraph (cx.define f t) (cx.define f t) :=
  matches_define (J := fun _ => SameGraph) (K := fun _ => SameGraph) (fun _ _ hw => hw)
    (fun _ _ _ hw _ => hw) (fun _ _ hw _ => lasting_sameGraph.register _ hw)
    (fun _ => Lasting.keeps_populate lasting_sameGraph fun r _ => h r)
    fun _ _ _ hw => lasting_sameGraph.update _ _ hw

/-- Agreement with one graph throughout is equality of results and of graphs. -/
theorem eq_of_agree_alike {α : Type} {o o' : Outcome α}
    (h : FailureLaw.alike.Agree (fun _ => SameGraph) o o') :
    o.1 = o'.1 ∧ o.2.graph = o'.2.graph := by
  cases h with
  | ok h => exact ⟨rfl, h⟩
  | dropped h => exact h.elim
  | failed h => exact ⟨congrArg Except.error h.1, h.2⟩

theorem resolveAt_congr (depth : Nat) (r : TypeRef) {w w' : Workspace} (h : w.graph = w'.graph) :
    ((cx.resolveAt depth r).outcome w).1 = ((cx.resolveAt depth r).outcome w').1 ∧
      ((cx.resolveAt depth r).outcome w).2.graph = ((cx.resolveAt depth r).outcome w').2.graph :=
  eq_of_agree_alike (keeps_resolveAt_sameGraph depth r h)

theorem within_congr {depth : Nat} {r : TypeRef} {w w' : Workspace} (h : w.graph = w'.graph) :
    cx.Within depth w r ↔ cx.Within depth w' r := by
  rw [Within, Within, (resolveAt_congr depth r h).1]

end BuildContext
end ClientBindings
