import ClientBindings.Proofs.Endpoint.Assembly
import ClientBindings.Proofs.Presentation.Success
import ClientBindings.Proofs.Translation.Calls
import ClientBindings.Proofs.Translation.Signature

/-! Building the endpoint of a controller comes to what its account says, and the endpoint reads as the
controller is translated. -/
namespace ClientBindings.BuildContext

open TypeGraph

variable {cx : BuildContext} {S : String → Prop} {w v : Workspace}

section account

variable (cx)

/-- What reading a mapping does. -/
def accountMapping? (annotations : List Annotation) (location : String) : Option (List Effect) :=
  (cx.symbols.mapping? annotations location).map fun _ =>
    (cx.symbols.mappingFindings annotations location).map .notes

/-- What binding a parameter does, if it is bound. -/
def accountParameter? (location : String) (p : Parameter) : Option (List Effect) :=
  match cx.symbols.bindingsOf p with
  | [] => some []
  | (place, _) :: others =>
    andThen? (some (((warnOfClash location p place others).run .empty).2.diagnostics.map .notes))
      (cx.account? p.type)

/-- What building a method does, if it is mapped. -/
def accountMethod? (controller : String) (m : Method) : Option (List Effect) :=
  let location := "endpoint:" ++ controller ++ "#" ++ m.name
  andThen? (cx.accountMapping? m.annotations location)
    (match cx.symbols.mapping? m.annotations location with
      | some (some _) =>
        andThen? (gather? (cx.accountParameter? location) m.parameters)
          (cx.accountAll? m.returnType.toList)
      | _ => some [])

/-- What building the endpoint of a controller does. -/
def accountEndpoint? (controllerType : String) : Option (List Effect) := do
  let t ← cx.symbols.type? controllerType
  andThen? (cx.accountMapping? t.annotations ("endpoint:" ++ controllerType))
    (gather? (cx.accountMethod? t.name) (cx.symbols.allMethods t))

end account

/-- A graph in which nothing is left to be filled: every definition of its own is faithful. -/
structure Whole (cx : BuildContext) (g : TypeGraph) : Prop extends cx.Identified g where
  sound : cx.Sound none (fun _ => False) g

/-- From a whole graph to a whole graph, or to a failure where there is no account within `S`. -/
def Fares {α : Type} (cx : BuildContext) (S : String → Prop) (w : Workspace)
    (o : Option (List Effect)) (R : α → TypeGraph → Prop) (out : Outcome α) : Prop :=
  cx.Came (¬Good S o) w o (fun a g => cx.Whole g ∧ R a g) out

theorem Passage.keepsNames {as : List Effect} {new : List DeclaredType} (h : cx.Passage w as new v)
    (hw : w.graph.WellFormed) : w.graph.KeepsNames v.graph :=
  keepsNames_of_idOf? hw h.identified.toWellFormed fun _ _ hn => h.names hn

/-- What is known of the results of a build, apart from the way. -/
theorem Came.and_of_ok {α : Type} {excused : Prop} {o : Option (List Effect)}
    {Q Q' : α → TypeGraph → Prop} {out : Outcome α} (h : cx.Came excused w o Q out)
    (hQ : ∀ a v, out = (.ok a, v) → Q' a v.graph) : cx.Came excused w o Q' out := by
  cases h with
  | ok ho h _ => exact .ok ho h (hQ _ _ rfl)
  | failed h => exact .failed h

namespace Fares

variable {α β : Type} {o o' : Option (List Effect)} {R : α → TypeGraph → Prop}
  {R' : β → TypeGraph → Prop}

theorem pure (hw : cx.Whole w.graph) {a : α} (ha : R a w.graph) :
    cx.Fares S w (some []) R ((Pure.pure a : Build α).outcome w) :=
  Came.pure hw.toIdentified ⟨hw, ha⟩

theorem bind {m : Build α} {k : α → Build β} (hw : cx.Whole w.graph)
    (hm : cx.Fares S w o R (m.outcome w))
    (hk : ∀ a v, w.graph.KeepsNames v.graph → cx.Whole v.graph → R a v.graph →
      cx.Fares S v o' R' ((k a).outcome v)) :
    cx.Fares S w (andThen? o o') R' ((m >>= k).outcome w) := by
  have hfirst : cx.Came (¬Good S (andThen? o o')) w o (fun a g => cx.Whole g ∧ R a g) (m.outcome w) :=
    Came.imp hm (fun _ _ h => h) fun hbad hgood => hbad (good_andThen?.1 hgood).1
  refine Came.bind hfirst fun a v as new hv hR => ?_
  exact Came.imp (hk a v (hv.keepsNames hw.toWellFormed) hR.1 hR.2) (fun _ _ h => h)
    fun hbad hgood => hbad (good_andThen?.1 hgood).2

theorem bind_pure {m : Build α} {f : α → β} (hm : cx.Fares S w o R (m.outcome w))
    (hf : ∀ a g, R a g → R' (f a) g) :
    cx.Fares S w o R' ((m >>= fun a => Pure.pure (f a)).outcome w) :=
  Came.bind_pure hm fun a g h => ⟨h.1, hf a g h.2⟩

/-- Before a build that adds nothing. -/
theorem ending {m : Build α} {k : α → Build β} (hw : cx.Whole w.graph)
    (hm : cx.Fares S w o R (m.outcome w))
    (hk : ∀ a v, w.graph.KeepsNames v.graph → cx.Whole v.graph → R a v.graph →
      cx.Fares S v (some []) R' ((k a).outcome v)) : cx.Fares S w o R' ((m >>= k).outcome w) := by
  have h := hm.bind hw hk
  rwa [andThen?_nil] at h

end Fares

/-- Findings are reported. -/
theorem fares_noteAll {α : Type} {R : α → TypeGraph → Prop} (hw : cx.Whole w.graph)
    (ds : List Diagnostic) {a : α} (ha : R a w.graph) :
    cx.Fares S w (some (ds.map .notes)) R (.ok a, w.noteAll ds) :=
  .ok rfl (.noteAll hw.toIdentified ds) ⟨hw, ha⟩

/-- What was built of several things, nothing of some, reads as their translations. -/
def Renders {α β ν : Type} (k : α → Option (Option ν)) (k' : β → Option ν) (xs : List α)
    (ys : List β) : Prop := ∃ ns, xs.mapM k = some ns ∧ ys.mapM k' = some ns.reduceOption

namespace Renders

variable {α β ν : Type} {k : α → Option (Option ν)} {k' : β → Option ν} {x : α} {xs : List α}
  {y : β} {ys zs : List β}

theorem nothing (h : k x = some none) : Renders k k' [x] [] :=
  ⟨[none], by rw [List.mapM_cons, h]; rfl, rfl⟩

theorem single {n : ν} (h : k x = some (some n)) (h' : k' y = some n) : Renders k k' [x] [y] :=
  ⟨[some n], by rw [List.mapM_cons, h]; rfl, by rw [List.mapM_cons, h']; rfl⟩

theorem cons (h : Renders k k' [x] ys) (h' : Renders k k' xs zs) :
    Renders k k' (x :: xs) (ys ++ zs) := by
  obtain ⟨ns, hx, hys⟩ := h
  obtain ⟨ms, hxs, hzs⟩ := h'
  refine ⟨ns ++ ms, ?_, ?_⟩
  · rw [← List.singleton_append, List.mapM_append, hx, hxs]
    rfl
  · rw [List.mapM_append, hys, hzs, List.reduceOption_append]
    rfl

theorem keep {k'' : β → Option ν} (h : Renders k k' xs ys)
    (hk : ∀ ns, ys.mapM k' = some ns → ys.mapM k'' = some ns) : Renders k k'' xs ys :=
  h.imp fun _ hns => ⟨hns.1, hk _ hns.2⟩

end Renders

theorem fares_resolve (hs : cx.symbols.Tidy) (hS : cx.Accountable S) {r : TypeRef} (htidy : r.Tidy)
    (hw : cx.Whole w.graph) :
    cx.Fares S w (cx.account? r) (fun i? g => cx.Reads g [r] i?.toList) ((cx.resolve r).outcome w) := by
  have hcame := came_resolve hs hS htidy hw.toIdentified
  unfold Fares
  rcases ho : (cx.resolve r).outcome w with ⟨e | i?, v⟩
  · rw [ho] at hcame
    cases hcame with
    | failed h => exact .failed h
  · rw [ho] at hcame
    obtain ⟨hv, hread⟩ := resolve_honest hs hw.sound ho
    cases hcame with
    | ok ha h _ => exact .ok ha h ⟨⟨h.identified, hv.sound⟩, hread htidy⟩

/-- A slot that is needed is filled. -/
theorem fares_orAny {r : TypeRef} {i? : Option TypeInstance} (hw : cx.Whole w.graph)
    (h : cx.Reads w.graph [r] i?.toList) :
    cx.Fares S w (some []) (fun i g => ∃ o, cx.translate? r = some o ∧
      g.named? i = some (o.getD (.mk Builtin.any.fullName [])))
      ((liftM (Work.orAny i?) : Build TypeInstance).outcome w) := by
  obtain ⟨i, u, o, hany, hgraph, hr, hi⟩ := orAny_ok hw.sound.toReady h
  refine (came_orAny hw.toIdentified i?).and_of_ok fun j v hj => ?_
  rw [hany] at hj
  cases hj
  rw [hgraph]
  exact ⟨hw, o, hr, hi⟩

theorem fares_resolveMapping (annotations : List Annotation) (location : String)
    (hw : cx.Whole w.graph) :
    cx.Fares S w (cx.accountMapping? annotations location)
      (fun mapping? _ => cx.symbols.mapping? annotations location = some mapping?)
      ((cx.symbols.resolveMapping annotations location).outcome w) := by
  rcases cx.symbols.resolveMapping_outcome annotations location w with
    ⟨mapping?, hm, ho⟩ | ⟨hm, e, v, ho⟩
  · rw [ho, accountMapping?, hm]
    exact fares_noteAll hw _ rfl
  · rw [ho, accountMapping?, hm]
    exact .failed not_good_none

theorem aside_warnOfClash (location : String) (p : Parameter) (place : BindingLocation)
    (others : List (BindingLocation × ResolvedAnnotation)) :
    (liftM (warnOfClash location p place others) : Build Unit).Aside := by
  cases others with
  | nil => exact Build.aside_pure ()
  | cons other others => exact Build.aside_warn _ _

theorem fares_warnOfClash (location : String) (p : Parameter) (place : BindingLocation)
    (others : List (BindingLocation × ResolvedAnnotation)) (hw : cx.Whole w.graph) :
    cx.Fares S w
      (some (((warnOfClash location p place others).run .empty).2.diagnostics.map .notes)) Anything
      ((liftM (warnOfClash location p place others) : Build Unit).outcome w) := by
  rw [(aside_warnOfClash location p place others).outcome_eq w]
  exact fares_noteAll hw _ trivial

section signature

variable (hs : cx.symbols.Tidy) (hS : cx.Accountable S)
include hs hS

theorem fares_buildParameter {p : Parameter} (htidy : p.type.Tidy) (location : String)
    (hw : cx.Whole w.graph) :
    cx.Fares S w (cx.accountParameter? location p)
      (fun built? g => Renders cx.translateBound? g.namedParameter? [p] built?.toList)
      ((cx.buildParameter cx.resolve p location).outcome w) := by
  unfold buildParameter accountParameter?
  cases hb : cx.symbols.bindingsOf p with
  | nil =>
    refine .pure hw (.nothing ?_)
    rw [translateBound?, hb]
  | cons marker others =>
    obtain ⟨place, resolved⟩ := marker
    refine (fares_warnOfClash location p place others hw).bind hw fun _ u _ hu _ => ?_
    refine (fares_resolve hs hS htidy hu).ending hu fun i? v _ hv hread => ?_
    refine (fares_orAny hv hread).bind_pure fun i g ⟨o, ho, hi⟩ => ?_
    refine .single (n := ⟨p.name, o.getD (.mk Builtin.any.fullName []),
      SymbolTable.toBinding p place resolved⟩) ?_ ?_
    · rw [translateBound?, hb]
      dsimp only
      rw [ho]
      rfl
    · rw [namedParameter?, hi]
      rfl

theorem fares_buildParameters {ps : List Parameter} (htidy : ∀ p ∈ ps, p.type.Tidy)
    (location : String) (hw : cx.Whole w.graph) :
    cx.Fares S w (gather? (cx.accountParameter? location) ps)
      (fun built g => Renders cx.translateBound? g.namedParameter? ps built)
      ((cx.buildParameters cx.resolve location ps).outcome w) := by
  induction ps generalizing w with
  | nil => exact .pure hw ⟨[], rfl, rfl⟩
  | cons p ps ih =>
    rw [gather?_cons]
    refine (fares_buildParameter hs hS (htidy p (List.mem_cons_self ..)) location hw).bind hw
      fun built? u _ hu hread => ?_
    refine (ih (fun p hp => htidy p (List.mem_cons_of_mem _ hp)) hu).ending hu
      fun rest v hnames hv hrest => ?_
    exact .pure hv ((hread.keep fun _ => hnames.namedParameters?).cons hrest)

theorem fares_resolveReturn {r? : Option TypeRef} (htidy : ∀ r, r? = some r → r.Tidy)
    (hw : cx.Whole w.graph) :
    cx.Fares S w (cx.accountAll? r?.toList) (fun i? g => cx.Reads g r?.toList i?.toList)
      ((resolveReturn cx.resolve r?).outcome w) := by
  cases r? with
  | none => exact .pure hw .nil
  | some r =>
    rw [Option.toList_some, accountAll?_cons, accountAll?_nil, andThen?_nil]
    exact fares_resolve hs hS (htidy r rfl) hw

theorem fares_buildMethod {m : Method} (htidy : m.Tidy) (controller : String)
    (default? : Option Mapping) (hw : cx.Whole w.graph) :
    cx.Fares S w (cx.accountMethod? controller m)
      (fun built? g => Renders (cx.translateMethod? controller default?) g.namedMethod? [m]
        built?.toList)
      ((cx.buildMethod cx.resolve controller default? m).outcome w) := by
  unfold buildMethod accountMethod?
  dsimp only
  refine (fares_resolveMapping m.annotations _ hw).bind hw fun mapping? u _ hu hm => ?_
  rw [hm]
  cases mapping? with
  | none =>
    refine .pure hu (.nothing ?_)
    rw [translateMethod?, hm]
    rfl
  | some mapping =>
    refine (fares_buildParameters hs hS htidy.1 _ hu).bind hu fun params v _ hv hparams => ?_
    refine (fares_resolveReturn hs hS htidy.2 hv).ending hv fun returnType x hnames hx hreturn => ?_
    obtain ⟨ns, hns, hread⟩ := hparams.keep fun _ => hnames.namedParameters?
    obtain ⟨ts, hts, htypes⟩ := hreturn
    refine .pure hx (.single (n := ⟨(cx.symbols.displayName? m.annotations).getD m.name,
      { mapping with verb := mapping.verb.or (default?.bind (·.verb)) }, ns.reduceOption,
      ts.head?⟩) ?_ ?_)
    · rw [translateMethod?, hm]
      change ((m.parameters.mapM cx.translateBound?).bind _) = _
      rw [hns]
      change ((cx.translateAll? m.returnType.toList).bind _) = _
      rw [hts]
      rfl
    · rw [namedMethod?, hread]
      change ((x.graph.namedAll? returnType.toList).bind _) = _
      rw [htypes]
      rfl

theorem fares_buildMethods {ms : List Method} (htidy : ∀ m ∈ ms, m.Tidy) (controller : String)
    (default? : Option Mapping) (hw : cx.Whole w.graph) :
    cx.Fares S w (gather? (cx.accountMethod? controller) ms)
      (fun built g => Renders (cx.translateMethod? controller default?) g.namedMethod? ms built)
      ((cx.buildMethods cx.resolve controller default? ms).outcome w) := by
  induction ms generalizing w with
  | nil => exact .pure hw ⟨[], rfl, rfl⟩
  | cons m ms ih =>
    rw [gather?_cons]
    refine (fares_buildMethod hs hS (htidy m (List.mem_cons_self ..)) controller default? hw).bind hw
      fun built? u _ hu hread => ?_
    refine (ih (fun m hm => htidy m (List.mem_cons_of_mem _ hm)) hu).ending hu
      fun rest v hnames hv hrest => ?_
    exact .pure hv ((hread.keep fun _ => hnames.namedMethods?).cons hrest)

end signature

end ClientBindings.BuildContext
