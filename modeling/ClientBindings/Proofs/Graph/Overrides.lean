import Mathlib.Data.List.Nodup
import ClientBindings.Proofs.Graph.Seeding
import ClientBindings.Proofs.Outcome

/-! The types that the settings override. They are offered to a graph after all other predefined types, and
of the definitions that are offered under one name the first stays. An override stands exactly if none of the
types before has its name, or the one that has it is called the same in the generated code. -/
namespace ClientBindings

namespace TypeGraph

variable {s : Settings} {p q : TypeDefinition} {name ts : String}

/-- The predefined types that no override is needed for: the type that stands for everything, primitive and
boxed types, the markers, and the date and time types if they are wanted. -/
def tables (s : Settings) : List TypeDefinition :=
  predefinedType .primitive (Marker.object, Builtin.anyName) ::
    (primitives ++ boxed).map (predefinedType .primitive) ++
    [predefinedType .map (Marker.map, "Map"),
      predefinedType .collection (Builtin.collectionName, Builtin.collectionName)] ++
    (if s.enableTimeIntegration then (timeTypes s.time).map (predefinedType .primitive) else [])

theorem predefined_eq (s : Settings) :
    predefined s = tables s ++ s.typeOverrides.map (predefinedType .interfaceType) := rfl

@[simp] theorem fullName_predefinedType (kind : TypeKind) (e : String × String) :
    (predefinedType kind e).fullName = e.1 := rfl

@[simp] theorem tsName_predefinedType (kind : TypeKind) (e : String × String) :
    (predefinedType kind e).tsName = e.2 := rfl

/-- What date and time types are called in the generated code does not change their names. -/
theorem nodup_tables (s : Settings) : ((tables s).map (·.fullName)).Nodup := by
  cases htime : s.enableTimeIntegration with
  | true =>
    have hnames : (tables s).map (·.fullName) = (tables .standard).map (·.fullName) := by
      unfold tables
      rw [htime]
      rfl
    rw [hnames]
    decide +kernel
  | false =>
    have hnames : (tables s).map (·.fullName) =
        (tables { Settings.standard with enableTimeIntegration := false }).map (·.fullName) := by
      unfold tables
      rw [htime]
      rfl
    rw [hnames]
    decide +kernel

theorem eq_of_mem_tables (hp : p ∈ tables s) (hq : q ∈ tables s) (h : p.fullName = q.fullName) : p = q :=
  List.inj_on_of_nodup_map (nodup_tables s) hp hq h

theorem find?_overrides {overrides : Dict String} (h : overrides.get? name = some ts) :
    (overrides.map (predefinedType .interfaceType)).find? (·.fullName == name) =
      some (predefinedType .interfaceType (name, ts)) := by
  induction overrides with
  | nil => cases h
  | cons e overrides ih =>
    rw [Dict.get?, List.lookup_cons] at h
    by_cases hname : name = e.1
    · rw [hname, beq_self_eq_true] at h
      rw [List.map_cons, List.find?_cons_of_pos (by simp [hname]), hname, ← Option.some.inj h]
    · rw [beq_false_of_ne hname] at h
      rw [List.map_cons, List.find?_cons_of_neg (by simpa using Ne.symm hname)]
      exact ih h

/-- Under the name of an override something is offered; first comes what the generated code calls as the
override says, exactly if all tables call it so. -/
theorem exists_find?_predefined (h : s.typeOverrides.get? name = some ts) :
    ∃ p, (predefined s).find? (·.fullName == name) = some p ∧
      (p.tsName = ts ↔ ∀ q ∈ tables s, q.fullName = name → q.tsName = ts) := by
  rw [predefined_eq, List.find?_append]
  cases hfind : (tables s).find? (·.fullName == name) with
  | some p =>
    have hp : p ∈ tables s := List.mem_of_find?_eq_some hfind
    have hname : p.fullName = name := by simpa using List.find?_some hfind
    refine ⟨p, rfl, fun hts q hq hqname => ?_, fun hall => hall p hp hname⟩
    rwa [eq_of_mem_tables hq hp (hqname.trans hname.symm)]
  | none =>
    refine ⟨_, find?_overrides h, iff_of_true rfl fun q hq hqname => ?_⟩
    exact absurd hqname (by simpa using List.find?_eq_none.1 hfind q hq)

end TypeGraph

namespace BuildContext

open TypeGraph

variable {cx : BuildContext} {g : TypeGraph} {w : Workspace} {id : TypeId} {name ts : String}

/-- What is registered under a name that is not excluded is found, and nothing is done or reported. -/
theorem getOrDefine_of_idOf? (hexcluded : cx.exclusions.excludes name = false)
    (h : w.graph.idOf? name = some id) (define : Definer) :
    (cx.getOrDefine define name).outcome w = (.ok id, w) := by
  rw [getOrDefine, if_neg (by rw [hexcluded]; exact Bool.false_ne_true), Build.outcome_lift_bind,
    Work.run_graph]
  dsimp only
  rw [h]
  rfl

/-- A name leads to a predefined definition that the generated code calls `ts`, and the workspace stays as
it is. -/
def LeadsToPredefined (cx : BuildContext) (w : Workspace) (name ts : String) : Prop :=
  ∃ id d, (cx.defineName name).outcome w = (.ok id, w) ∧ w.graph.definition? id = some d ∧
    d.predefined = true ∧ d.tsName = ts

theorem leadsToPredefined_of_find? {p : TypeDefinition} (hw : w.graph = g.clear.seed cx.settings)
    (hexcluded : cx.exclusions.excludes name = false)
    (hp : (predefined cx.settings).find? (·.fullName == name) = some p) {ts : String} :
    cx.LeadsToPredefined w name ts ↔ p.tsName = ts := by
  have hoffered : w.graph.Offered (predefined cx.settings) := hw ▸ offered_seed g cx.settings
  have hname : p.fullName = name := by simpa using List.find?_some hp
  obtain ⟨id, hid⟩ := hoffered.registered (List.mem_of_find?_eq_some hp)
  rw [hname] at hid
  obtain ⟨d, hd, hdname⟩ := hoffered.indexed hid
  have hts : d.tsName = p.tsName := by
    obtain ⟨p', hp', rfl⟩ := hoffered.first hd
    rw [hdname, hp] at hp'
    rw [Option.some.inj hp']
  have hfound := getOrDefine_of_idOf? hexcluded hid (cx.define cx.resolve)
  constructor
  · rintro ⟨id', d', hdefine, hd', -, rfl⟩
    rw [defineName, hfound] at hdefine
    obtain rfl : id = id' := Except.ok.inj (Prod.mk.inj hdefine).1
    rw [← hts, Option.some.inj (hd.symm.trans hd')]
  · rintro rfl
    exact ⟨id, d, hfound, hd, predefined_of_seed g (hw ▸ hd), hts⟩

/-- In a graph that has just been seeded, the name of an override leads to a predefined definition, unless it
is excluded. That definition is called what the override says exactly if none of the other predefined types
that has the name is called otherwise. -/
theorem override_leads_iff (hw : w.graph = g.clear.seed cx.settings)
    (hname : cx.settings.typeOverrides.get? name = some ts)
    (hexcluded : cx.exclusions.excludes name = false) :
    (∃ ts', cx.LeadsToPredefined w name ts') ∧
      (cx.LeadsToPredefined w name ts ↔
        ∀ p ∈ tables cx.settings, p.fullName = name → p.tsName = ts) := by
  obtain ⟨p, hp, hiff⟩ := exists_find?_predefined hname
  refine ⟨⟨_, (leadsToPredefined_of_find? hw hexcluded hp).2 rfl⟩, ?_⟩
  rw [leadsToPredefined_of_find? hw hexcluded hp]
  exact hiff

end BuildContext

/-- Settings with one override, with or without date and time types of their own. -/
def overridingSettings (time : Bool) (name ts : String) : Settings :=
  { Settings.standard with enableTimeIntegration := time, typeOverrides := [(name, ts)] }

/-- A context over no declarations, without exclusions. -/
def overridingContext (time : Bool) (name ts : String) : BuildContext where
  symbols := .empty
  settings := overridingSettings time name ts
  exclusions := []
  pipeline := .standard

namespace BuildContext

open TypeGraph

/-- An override of a date type stands where the settings do not ask for date and time types. -/
theorem override_leads_date :
    let cx := overridingContext false "java.time.LocalDate" "Date"
    cx.LeadsToPredefined ⟨TypeGraph.empty.clear.seed cx.settings, [], []⟩ "java.time.LocalDate" "Date" := by
  intro cx
  exact (override_leads_iff (g := .empty) rfl rfl rfl).2.2 (by decide +kernel)

/-- An override of a boxed type is passed over. -/
theorem not_override_leads_boxed :
    let cx := overridingContext true "java.math.BigDecimal" "Decimal"
    let w : Workspace := ⟨TypeGraph.empty.clear.seed cx.settings, [], []⟩
    cx.settings.typeOverrides.get? "java.math.BigDecimal" = some "Decimal" ∧
      cx.exclusions.excludes "java.math.BigDecimal" = false ∧
      cx.LeadsToPredefined w "java.math.BigDecimal" "number" ∧
      ¬cx.LeadsToPredefined w "java.math.BigDecimal" "Decimal" := by
  intro cx w
  have hp : (predefined cx.settings).find? (·.fullName == "java.math.BigDecimal") =
      some (predefinedType .primitive ("java.math.BigDecimal", "number")) := by rfl
  have hleads {ts : String} : cx.LeadsToPredefined w "java.math.BigDecimal" ts ↔ "number" = ts :=
    leadsToPredefined_of_find? (w := w) (g := .empty) rfl rfl hp
  refine ⟨rfl, rfl, hleads.2 rfl, fun h => ?_⟩
  exact absurd (hleads.1 h) (by decide)

end BuildContext

end ClientBindings
