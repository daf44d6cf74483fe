import ClientBindings.Proofs.Property.Discovery
import Mathlib.Data.List.Pairwise

/-! How often a property of the source is exposed. What an accessor, a record component and a field have in
common if they expose the same property is the name that convention gives them, and they are merged by the
name that they come to. So the property appears once for each display name, of which one of them is the first
member. -/
namespace ClientBindings
namespace SymbolTable

variable {s : SymbolTable} {members : List PropertyCandidate} {c d : PropertyCandidate} {p : PropertyDefinition}
variable {properties : List PropertyDefinition}

/-- The member that a property comes from: the first of its name. -/
def Exposes (s : SymbolTable) (members : List PropertyCandidate) (c : PropertyCandidate) (p : PropertyDefinition) : Prop :=
  members.find? (s.effectiveName · == p.name) = some c

/-- No member before this one comes to the same name. -/
def Foremost (s : SymbolTable) (members : List PropertyCandidate) (c : PropertyCandidate) : Prop :=
  members.find? (s.effectiveName · == s.effectiveName c) = some c

/-- No two properties come from members to which convention gives the same name. -/
def ExposedOnce (s : SymbolTable) (members : List PropertyCandidate) (properties : List PropertyDefinition) : Prop :=
  properties.Pairwise fun p q =>
    ∀ c d, s.Exposes members c p → s.Exposes members d q → c.name ≠ d.name

theorem Exposes.effectiveName_eq (h : s.Exposes members c p) : s.effectiveName c = p.name := by
  simpa using List.find?_some h

theorem Exposes.foremost (h : s.Exposes members c p) : s.Foremost members c := by
  rw [Foremost, h.effectiveName_eq]
  exact h

theorem Foremost.mem (h : s.Foremost members c) : c ∈ members :=
  List.mem_of_find?_eq_some h

theorem Foremost.exposes (h : s.Foremost members c) (hname : p.name = s.effectiveName c) :
    s.Exposes members c p := by
  rw [Exposes, hname]
  exact h

/-- Members of which one display name is on both or none is on either come to the same name. -/
theorem effectiveName_congr (hname : c.name = d.name)
    (hdisplay : s.displayName? c.annotations = s.displayName? d.annotations) :
    s.effectiveName c = s.effectiveName d := by
  rw [effectiveName, effectiveName, hname, hdisplay]

section Discovered

variable {classifiers : List Classifier} {resolve : Resolver} {w w' : Workspace}

theorem Discovered.exists_exposes (h : s.Discovered members classifiers resolve w w' properties)
    (hp : p ∈ properties) : ∃ c, s.Exposes members c p := by
  obtain ⟨states, -, -, hstates⟩ := h.resolved
  obtain ⟨i, hi⟩ := List.mem_iff_getElem?.1 hp
  obtain ⟨c, hc, -⟩ := hstates i p hi
  exact ⟨c, hc⟩

theorem Discovered.exists_property (h : s.Discovered members classifiers resolve w w' properties)
    (hc : s.Foremost members c) : ∃ p ∈ properties, s.Exposes members c p := by
  have hname : s.effectiveName c ∈ properties.map (·.name) :=
    (h.represented _).2 ⟨c, hc.mem, rfl⟩
  obtain ⟨p, hp, heq⟩ := List.mem_map.1 hname
  exact ⟨p, hp, hc.exposes heq⟩

theorem Discovered.exposedOnce_iff (h : s.Discovered members classifiers resolve w w' properties) :
    s.ExposedOnce members properties ↔ ∀ c d, s.Foremost members c → s.Foremost members d →
      c.name = d.name → s.effectiveName c = s.effectiveName d := by
  constructor
  · intro honce c d hc hd hname
    refine Decidable.byContradiction fun hne => ?_
    obtain ⟨p, hp, hcp⟩ := h.exists_property hc
    obtain ⟨q, hq, hdq⟩ := h.exists_property hd
    have hpq : p ≠ q := by
      rintro rfl
      exact hne (hcp.effectiveName_eq.trans hdq.effectiveName_eq.symm)
    have : Std.Symm fun p q : PropertyDefinition =>
        ∀ c d, s.Exposes members c p → s.Exposes members d q → c.name ≠ d.name :=
      ⟨fun p q hpq c d hc hd => (hpq d c hd hc).symm⟩
    exact honce.forall hp hq hpq c d hcp hdq hname
  · intro hagree
    refine (List.pairwise_map.1 h.nodup).imp fun {p q} hne c d hc hd hname => hne ?_
    rw [← hc.effectiveName_eq, ← hd.effectiveName_eq]
    exact hagree c d hc.foremost hd.foremost hname

end Discovered

end SymbolTable

namespace BuildContext

variable (cx : BuildContext) (resolve : Resolver) (t : DeclaredType)
variable {w w' : Workspace} {properties : List PropertyDefinition}

/-- Each property comes from a member, and each property of the source is exposed once exactly if no two
members of one convention name are the first of different effective names; so it is if the display names
on members of one convention name are the same. -/
theorem discover_exposed_once_iff
    (h : (cx.discover resolve t).outcome w = (.ok properties, w')) :
    let s := cx.symbols
    let members := s.located cx.pipeline.locators t
    (∀ p ∈ properties, ∃ c, s.Exposes members c p) ∧
    (s.ExposedOnce members properties ↔ ∀ c d, s.Foremost members c → s.Foremost members d →
      c.name = d.name → s.effectiveName c = s.effectiveName d) ∧
    ((∀ c ∈ members, ∀ d ∈ members, c.name = d.name →
      s.displayName? c.annotations = s.displayName? d.annotations) →
        s.ExposedOnce members properties) := by
  intro s members
  rw [discover_eq] at h
  have hdiscovered := SymbolTable.discovered_of_outcome h
  refine ⟨fun p hp => hdiscovered.exists_exposes hp, hdiscovered.exposedOnce_iff, fun hdisplay => ?_⟩
  refine hdiscovered.exposedOnce_iff.2 fun c d hc hd hname => ?_
  exact SymbolTable.effectiveName_congr hname (hdisplay c hc.mem d hd.mem hname)

def titled : Annotation :=
  .written Marker.displayName [("value", .text "title")]

/-- A getter that is called otherwise, and its field with what is on that. -/
def bookType (onField : List Annotation) : DeclaredType :=
  let text : TypeRef := .declared "java.lang.String" []
  ⟨"a.Item", none, none, none, .classType, [], [.written Marker.lombokData []], [], none, [],
    [⟨"name", text, [], onField⟩], [⟨"getName", ["public"], [titled], [], [], some text⟩], [], []⟩

def bookContext (onField : List Annotation) : BuildContext :=
  ⟨⟨[bookType onField], []⟩, .standard, [], .standard⟩

/-- The getter and the field are both called otherwise, and give one property. -/
theorem discover_exposed_once_book : ∃ properties w',
    ((bookContext [titled]).properties (bookType [titled])).outcome .empty = (.ok properties, w') ∧
    properties.map (·.name) = ["title"] ∧
    (bookContext [titled]).symbols.ExposedOnce ((bookContext [titled]).symbols.located
      [.accessor, .record, .field] (bookType [titled])) properties := by
  obtain ⟨properties, ho, hnames⟩ := Outcome.exists_ok_of_any
    (o := ((bookContext [titled]).properties (bookType [titled])).outcome .empty)
    (f := fun properties => properties.map (·.name) == ["title"]) (by decide +kernel)
  refine ⟨properties, _, ho, eq_of_beq hnames, ?_⟩
  refine (discover_exposed_once_iff (bookContext [titled]) _ (bookType [titled]) ho).2.2 ?_
  decide +kernel

/-- Only the getter is called otherwise, and the property is exposed under both names. -/
theorem not_exposed_once_book : ∃ properties w',
    ((bookContext []).properties (bookType [])).outcome .empty = (.ok properties, w') ∧
    properties.map (·.name) = ["title", "name"] ∧
    ¬(bookContext []).symbols.ExposedOnce ((bookContext []).symbols.located
      [.accessor, .record, .field] (bookType [])) properties := by
  obtain ⟨properties, ho, hfound⟩ := Outcome.exists_ok_of_any
    (o := ((bookContext []).properties (bookType [])).outcome .empty)
    (f := fun properties => properties.map (·.name) == ["title", "name"]) (by decide +kernel)
  have hnames : properties.map (·.name) = ["title", "name"] := eq_of_beq hfound
  refine ⟨properties, _, ho, hnames, fun honce => ?_⟩
  obtain ⟨p, rest, rfl, hp, hrest⟩ := List.map_eq_cons_iff.1 hnames
  obtain ⟨q, rest', rfl, hq, -⟩ := List.map_eq_cons_iff.1 hrest
  -- under either name the first member is one that convention calls `name`
  have hgiven (name : String) (hmem : name ∈ ["title", "name"]) :
      (((bookContext []).symbols.located [.accessor, .record, .field] (bookType [])).find?
        ((bookContext []).symbols.effectiveName · == name)).map (·.name) = some "name" := by
    revert name
    decide +kernel
  obtain ⟨c, hc, hcname⟩ := Option.map_eq_some_iff.1 (hgiven p.name (by simp [hp]))
  obtain ⟨d, hd, hdname⟩ := Option.map_eq_some_iff.1 (hgiven q.name (by simp [hq]))
  exact List.rel_of_pairwise_cons honce (List.mem_cons_self ..) c d hc hd (hcname.trans hdname.symm)

end BuildContext

end ClientBindings
