import ClientBindings.Proofs.Endpoint.Assembly
import ClientBindings.Proofs.Translation.Resolving

/-! Sequences of calls on a graph that was seeded afresh. Whatever they are and in whatever order, if
all of them succeed then every definition of a declared type is the direct translation. -/
namespace ClientBindings.BuildContext

open TypeGraph

variable {cx : BuildContext} {X : TypeId → Prop} {w v : Workspace}

/-- What is asked of a graph: a definition, an instance, or an endpoint. -/
inductive Call where
  | define (name : String)
  | resolve (r : TypeRef)
  | endpoint (controllerType : String)
  deriving Repr

/-- A call, without its result. -/
def call (cx : BuildContext) : Call → Build Unit
  | .define name => do
    let _ ← cx.defineName name
    pure ()
  | .resolve r => do
    let _ ← cx.resolve r
    pure ()
  | .endpoint controllerType => do
    let _ ← cx.buildEndpoint controllerType
    pure ()

def callAll (cx : BuildContext) : List Call → Build Unit
  | [] => pure ()
  | c :: cs => do
    cx.call c
    cx.callAll cs

theorem buildEndpoint_sound (hs : cx.symbols.Tidy) {c : String} {e : Endpoint}
    (hw : cx.Sound none X w.graph) (h : (cx.buildEndpoint c).outcome w = (.ok e, v)) :
    cx.Sound none X v.graph := by
  have hresolve (r : TypeRef) :
      FailureLaw.lenient.Keeps (Same (cx.Sound none X)) (cx.resolve r) (cx.resolve r) :=
    FailureLaw.lenient_keeps_iff.2 fun _ _ _ hw h => (resolve_honest hs hw h).1.sound
  have hkeeps : FailureLaw.lenient.Keeps (Same (cx.Sound none X)) (cx.buildEndpoint c)
      (cx.buildEndpoint c) :=
    keeps_assembleEndpoint (hosting_same observant_sound) (fun _ _ _ _ => .inl trivial) hresolve c
  exact FailureLaw.lenient_keeps_iff.1 hkeeps hw h

/-- A call that succeeds. -/
theorem call_sound (hs : cx.symbols.Tidy) (c : Call) (hw : cx.Sound none X w.graph)
    (h : (cx.call c).outcome w = (.ok (), v)) : cx.Sound none X v.graph := by
  have hframe (r : TypeRef) : cx.Framed (cx.resolve r) := resolveAt_framed hs.unreserved _ r
  cases c with
  | define name =>
    obtain ⟨id, u, hid, h⟩ := Build.outcome_bind_ok.1 h
    cases h
    exact (getOrDefine_ok hs hframe (resolve_honest hs) hw hid).1.sound
  | resolve r =>
    obtain ⟨i?, u, hr, h⟩ := Build.outcome_bind_ok.1 h
    cases h
    exact (resolve_honest hs hw hr).1.sound
  | endpoint controllerType =>
    obtain ⟨e, u, he, h⟩ := Build.outcome_bind_ok.1 h
    cases h
    exact buildEndpoint_sound hs hw he

theorem callAll_sound (hs : cx.symbols.Tidy) {calls : List Call} (hw : cx.Sound none X w.graph)
    (h : (cx.callAll calls).outcome w = (.ok (), v)) : cx.Sound none X v.graph := by
  induction calls generalizing w with
  | nil =>
    cases h
    exact hw
  | cons c calls ih =>
    obtain ⟨⟨⟩, u, hc, h⟩ := Build.outcome_bind_ok.1 h
    exact ih (call_sound hs c hw hc) h

/-- After any sequence of calls that all succeed, on a graph seeded afresh, every definition of a
declared type is, with full names for numbers, the direct translation of its declaration. -/
theorem definition_translates (hs : cx.symbols.Tidy) (hsettings : cx.settings.Unreserved)
    {g : TypeGraph} (hw : w.graph = g.clear.seed cx.settings) {calls : List Call}
    (h : (cx.callAll calls).outcome w = (.ok (), v)) {d : TypeDefinition}
    (hd : d ∈ v.graph.definitions) (hnew : d.predefined = false)
    (hkind : d.kind ≠ .genericPlaceholder) :
    ∃ t n, cx.symbols.type? d.fullName = some t ∧ cx.translateType? t = some n ∧
      v.graph.reading? d = some n := by
  have hseed : cx.Sound none (fun _ => False) w.graph := by
    rw [hw]
    exact sound_seed hsettings g
  have hv := callAll_sound hs hseed h
  exact hv.faithful (hv.listed hd) ⟨hnew, hkind⟩ id

/-- An interface whose parameter is bounded by the interface itself, a record that uses the interface
with the record as its argument, and a class that has a superclass, implements the interface and
collects records. A controller returns the record and is sent the class; what else is in its signatures
does not count. -/
def nodeContext : BuildContext where
  symbols := {
    types := [
      ⟨"a.Node", none, none, none, .interfaceType, [], [],
        [⟨"T", [.declared "a.Node" [.typeVar "T" (.type "a.Node")]]⟩], none, [], [],
        [⟨"getNext", ["public"], [], [], [], some (.typeVar "T" (.type "a.Node"))⟩], [], []⟩,
      ⟨"a.Leaf", none, none, none, .recordType, [], [], [], none,
        [.declared "a.Node" [.declared "a.Leaf" []]], [], [],
        [⟨"parent", .declared "a.Node" [.declared "a.Leaf" []], []⟩], []⟩,
      ⟨"a.Base", none, none, none, .classType, [], [], [], some (.declared "java.lang.Object" []), [], [],
        [⟨"getLabel", ["public"], [], [], [], some (.declared "java.lang.String" [])⟩], [], []⟩,
      ⟨"a.Branch", none, none, none, .classType, [], [], [], some (.declared "a.Base" []),
        [.declared "a.Node" [.declared "a.Branch" []]], [],
        [⟨"getLeaves", ["public"], [], [], [], some (.array (.declared "a.Leaf" []))⟩], [], []⟩,
      ⟨"a.Spare", none, none, none, .classType, [], [], [], none, [], [], [], [], []⟩,
      ⟨"a.Api", none, none, none, .classType, [], [.written Marker.endpoint []], [], none, [], [],
        [⟨"get", [], [.written Marker.requestMapping []], [], [], some (.declared "a.Leaf" [])⟩,
          ⟨"put", [], [.written Marker.requestMapping []], [],
            [⟨"branch", .declared "a.Branch" [], [.written Marker.requestBody []]⟩,
              ⟨"spare", .declared "a.Spare" [], []⟩], none⟩,
          ⟨"reset", [], [], [], [], some (.declared "a.Spare" [])⟩], [], []⟩]
    annotationTypes := [] }
  settings := .standard
  exclusions := []
  pipeline := .standard

/-- Its interface is first met while the record is being filled. -/
def nodeOutcome : Outcome Unit :=
  (nodeContext.callAll [.endpoint "a.Api", .resolve (.declared "a.Leaf" []), .define "a.Node"]).outcome
    (Workspace.empty.withGraph (TypeGraph.empty.clear.seed nodeContext.settings))

/-- The interface has a parameter that is bounded, and the class its superclass before the interface. -/
def nodeContents : List (String × NamedContent) := [
  ("a.Node", ⟨[("a.Node#T", ["a.Node"])], [("next", "a.Node#T", [])], []⟩),
  ("a.Leaf", ⟨[], [("parent", "a.Node", ["a.Leaf"])], [("a.Node", ["a.Leaf"])]⟩),
  ("a.Branch", ⟨[], [("leaves", "[]", ["a.Leaf"])], [("a.Base", []), ("a.Node", ["a.Branch"])]⟩),
  ("a.Base", ⟨[], [("label", "java.lang.String", [])], []⟩)]

theorem nodeOutcome_reads : nodeOutcome.error? = none ∧ ∀ e ∈ nodeContents,
    ∃ d ∈ nodeOutcome.2.graph.definitions, d.fullName = e.1 ∧ d.predefined = false ∧
      d.kind = .interfaceType ∧ (nodeOutcome.2.graph.reading? d).map (·.content) = some e.2 := by
  decide +kernel

/-- All of them are translated. -/
theorem definition_translates_node : nodeOutcome.error? = none ∧ ∀ e ∈ nodeContents,
    ∃ d ∈ nodeOutcome.2.graph.definitions, d.fullName = e.1 ∧
      ∃ t n, nodeContext.symbols.type? d.fullName = some t ∧ nodeContext.translateType? t = some n ∧
        nodeOutcome.2.graph.reading? d = some n ∧ n.content = e.2 := by
  obtain ⟨hok, hreads⟩ := nodeOutcome_reads
  refine ⟨hok, fun e he => ?_⟩
  obtain ⟨d, hd, hname, hnew, hkind, hcontent⟩ := hreads e he
  have hsucceeds : nodeOutcome = (.ok (), nodeOutcome.2) := by
    rcases ho : nodeOutcome with ⟨e | ⟨⟩, v⟩
    · rw [ho] at hok
      cases hok
    · rfl
  obtain ⟨t, n, ht, htranslated, hn⟩ := definition_translates (by decide +kernel) (by decide +kernel) rfl
    hsucceeds hd hnew (by rw [hkind]; decide)
  rw [hn, Option.map_some, Option.some.injEq] at hcontent
  exact ⟨d, hd, hname, t, n, ht, htranslated, hn, hcontent⟩

end ClientBindings.BuildContext
