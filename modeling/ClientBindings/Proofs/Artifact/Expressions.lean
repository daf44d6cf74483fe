import ClientBindings.Proofs.Artifact.Lines
import ClientBindings.Proofs.Graph.Registry
import ClientBindings.Proofs.Outcome

/-! The type expressions of interfaces as trees. What is written for an interface is the text of its
trees, and they say which definitions it names. -/
namespace ClientBindings

/-- A type expression over definitions. -/
inductive TypeExpr where
  /-- A definition by its name, with arguments. -/
  | named (id : TypeId) (args : List TypeExpr)
  | array (component : TypeExpr)
  /-- Texts to values; the index is labelled after an enumeration. -/
  | labelled (label : TypeId) (value : TypeExpr)
  | indexed (key value : TypeExpr)
  /-- A map without arguments. -/
  | record
  /-- A map whose keys cannot index. -/
  | unindexed
  deriving Inhabited

namespace TypeExpr

mutual

/-- The definitions that are named as types. The label of an index is a name of its own. -/
def names : TypeExpr → List TypeId
  | .named id args => id :: namesAll args
  | .array component => names component
  | .labelled _ value => names value
  | .indexed key value => names key ++ names value
  | .record => []
  | .unindexed => []

def namesAll : List TypeExpr → List TypeId
  | [] => []
  | e :: es => names e ++ namesAll es

end

theorem mem_namesAll {es : List TypeExpr} {id : TypeId} :
    id ∈ namesAll es ↔ ∃ e ∈ es, id ∈ e.names := by
  induction es with
  | nil => simp [namesAll]
  | cons e es ih => simp [namesAll, ih]

end TypeExpr

/-- An interface with the expressions of its properties, of what it extends and of the bounds of its
parameters. -/
structure InterfaceExpr where
  properties : List (PropertyDefinition × TypeExpr)
  extended : List TypeExpr
  parameters : List (TypeDefinition × List TypeExpr)

def InterfaceExpr.exprs (e : InterfaceExpr) : List TypeExpr :=
  e.properties.map (·.2) ++ e.extended ++ e.parameters.flatMap (·.2)

namespace TypeGraph

/-- The number of the definition that stands for everything. -/
def anyId (g : TypeGraph) : TypeId := (g.register Builtin.any).2

def anyText (g : TypeGraph) : String := (g.tsName? g.anyId).getD Builtin.anyName

def nameText (g : TypeGraph) (id : TypeId) : String := (g.tsName? id).getD g.anyText

mutual

def exprText (g : TypeGraph) : TypeExpr → String
  | .named id args =>
    if args.isEmpty then g.nameText id
    else g.nameText id ++ "<" ++ ", ".intercalate (exprTexts g args) ++ ">"
  | .array component => exprText g component ++ "[]"
  | .labelled label value =>
    "\x7b [" ++ Literal.lowerCamel (g.nameText label) ++ ": string]: " ++ exprText g value ++ " \x7d"
  | .indexed key value =>
    "\x7b [index: " ++ exprText g key ++ "]: " ++ exprText g value ++ " \x7d"
  | .record => "\x7b \x7d"
  | .unindexed => "\x7b\x7d"

def exprTexts (g : TypeGraph) : List TypeExpr → List String
  | [] => []
  | e :: es => exprText g e :: exprTexts g es

end

mutual

/-- The expression that an instance is written as. -/
def expr (g : TypeGraph) : TypeInstance → TypeExpr
  | .mk d args =>
    match g.kind? d with
    | some .collection => .array (exprFirst g args)
    | some .map => match args with
      | [] => .record
      | key :: rest =>
        if g.kind? key.definition = some .enumType then .labelled key.definition (exprFirst g rest)
        else if g.exprText (expr g key) = "number" ∨ g.exprText (expr g key) = "string" then
          .indexed (expr g key) (exprFirst g rest)
        else .unindexed
    | _ => .named d (exprAll g args)

def exprFirst (g : TypeGraph) : List TypeInstance → TypeExpr
  | [] => .named g.anyId []
  | a :: _ => expr g a

def exprAll (g : TypeGraph) : List TypeInstance → List TypeExpr
  | [] => []
  | a :: as => expr g a :: exprAll g as

end

theorem exprTexts_eq_map (g : TypeGraph) (es : List TypeExpr) : g.exprTexts es = es.map g.exprText := by
  induction es with
  | nil => rfl
  | cons e es ih => rw [exprTexts, List.map_cons, ih]

theorem exprAll_eq_map (g : TypeGraph) (is : List TypeInstance) : g.exprAll is = is.map g.expr := by
  induction is with
  | nil => rfl
  | cons i is ih => rw [exprAll, List.map_cons, ih]

/-- The expressions of a list, in which what stands for everything is left out. -/
def listed (g : TypeGraph) (is : List TypeInstance) : List TypeExpr :=
  (is.filter fun i => i.definition != g.anyId).map g.expr

def interfaceExpr (g : TypeGraph) (d : TypeDefinition) : InterfaceExpr where
  properties := d.properties.map fun p => (p, g.expr p.type)
  extended := g.listed d.superTypes
  parameters := (d.genericParams.filterMap g.definition?).map fun p => (p, g.listed p.superTypes)

def parameterText (g : TypeGraph) (p : TypeDefinition × List TypeExpr) : String :=
  let bounds := " & ".intercalate (p.2.map g.exprText)
  if bounds.isEmpty then p.1.tsName else p.1.tsName ++ " extends " ++ bounds

def propertyText (g : TypeGraph) (s : Settings) (p : PropertyDefinition × TypeExpr) : String :=
  let marker := if s.optionalNullableProperties && p.1.nullable then "?" else ""
  s.indent ++ (p.1.name ++ marker ++ ": " ++ g.exprText p.2 ++ ";")

/-- The text of an interface, line by line, by its expressions. -/
def interfaceText (g : TypeGraph) (s : Settings) (l : Layout) (d : TypeDefinition) : String :=
  let e := g.interfaceExpr d
  let extended := ", ".intercalate (e.extended.map g.exprText)
  let imports := (g.importsForType l d).map fun i =>
    "import \x7b " ++ i.name ++ " \x7d from '" ++ i.path ++ "';"
  let params := if d.genericParams.isEmpty then ""
    else "<" ++ ", ".intercalate (e.parameters.map g.parameterText) ++ ">"
  "\n".intercalate (imports ++ (if imports.isEmpty then [] else [""]) ++
    ["export interface " ++ d.tsName ++ params ++
      (if extended.isEmpty then "" else " extends " ++ extended) ++ " \x7b"] ++
    e.properties.map (g.propertyText s) ++ ["\x7d"])

end TypeGraph

namespace Work

variable {α β : Type} {w : Workspace}

/-- The steps come to this value and do nothing but report. -/
def Computes (x : Work α) (w : Workspace) (a : α) : Prop := ∃ ds, x.run w = (a, w.noteAll ds)

theorem computes_pure (a : α) (w : Workspace) : (pure a : Work α).Computes w a :=
  ⟨[], by rw [Workspace.noteAll_nil]; rfl⟩

theorem Computes.bind {x : Work α} {k : α → Work β} {a : α} {b : β} (hx : x.Computes w a)
    (hk : ∀ ds, (k a).Computes (w.noteAll ds) b) : (x >>= k).Computes w b := by
  obtain ⟨ds, hx⟩ := hx
  obtain ⟨ds', hk⟩ := hk ds
  refine ⟨ds ++ ds', ?_⟩
  rw [StateT.run_bind, hx]
  exact hk.trans (by rw [Workspace.noteAll_noteAll])

theorem computes_graph (w : Workspace) : Work.graph.Computes w w.graph :=
  ⟨[], by rw [Workspace.noteAll_nil]; rfl⟩

theorem computes_warn (location message : String) (w : Workspace) :
    (Work.warn location message).Computes w () := ⟨[⟨.warning, location, message⟩], rfl⟩

theorem computes_anyId (hw : w.graph.Stocked) : Work.anyId.Computes w w.graph.anyId := by
  refine ⟨[], ?_⟩
  rw [run_anyId, hw.register (by simp [Builtin.all]), Workspace.noteAll_nil]
  rfl

end Work

open Work

namespace TypeText

variable {w : Workspace}

theorem computes_anyName (hw : w.graph.Stocked) : anyName.Computes w w.graph.anyText :=
  (computes_anyId hw).bind fun _ => (computes_graph _).bind fun _ => computes_pure _ _

theorem computes_nameOf (hw : w.graph.Stocked) (id : TypeId) :
    (nameOf id).Computes w (w.graph.nameText id) := by
  refine (computes_graph w).bind fun ds => ?_
  unfold TypeGraph.nameText
  cases w.graph.tsName? id with
  | some name => exact computes_pure _ _
  | none => exact computes_anyName (w := w.noteAll ds) hw

theorem computes_indexed_of (key value : String) (h : key = "number" ∨ key = "string") (w : Workspace) :
    (indexed key value).Computes w
      ("\x7b [index: " ++ key ++ "]: " ++ value ++ " \x7d") := by
  rw [indexed, if_pos h]
  exact computes_pure _ _

theorem computes_indexed_of_not (key value : String) (h : ¬(key = "number" ∨ key = "string"))
    (w : Workspace) : (indexed key value).Computes w "\x7b\x7d" := by
  rw [indexed, if_neg h]
  exact (computes_warn _ _ w).bind fun _ => computes_pure _ _

mutual

/-- What is rendered is the text of the expression. -/
theorem computes_render {w : Workspace} (hw : w.graph.Stocked) (i : TypeInstance) :
    (render i).Computes w (w.graph.exprText (w.graph.expr i)) := by
  cases i with
  | mk d args =>
    unfold render TypeGraph.expr
    refine (computes_graph w).bind fun ds => ?_
    have hnamed : (do
        let name ← nameOf d
        if args.isEmpty then return name
        else return name ++ "<" ++ Text.join ", " (← renderAll args) ++ ">" : Work String).Computes
          (w.noteAll ds) (w.graph.exprText (.named d (w.graph.exprAll args))) := by
      refine (computes_nameOf (w := w.noteAll ds) hw d).bind fun ds' => ?_
      have hempty : (w.graph.exprAll args).isEmpty = args.isEmpty := by cases args <;> rfl
      rw [TypeGraph.exprText, hempty, ← Text.join_eq_intercalate]
      split
      · exact computes_pure _ _
      · exact (computes_renderAll (w := (w.noteAll ds).noteAll ds') hw args).bind
          fun _ => computes_pure _ _
    cases hkind : w.graph.kind? d with
    | none => exact hnamed
    | some kind =>
      cases kind with
      | collection =>
        exact (computes_renderFirst (w := w.noteAll ds) hw args).bind fun _ => computes_pure _ _
      | map =>
        cases args with
        | nil => exact computes_pure _ _
        | cons key rest =>
          refine (computes_renderFirst (w := w.noteAll ds) hw rest).bind fun ds' => ?_
          refine (computes_graph _).bind fun ds'' => ?_
          dsimp only [Workspace.noteAll_graph]
          split
          · exact (computes_nameOf (w := ((w.noteAll ds).noteAll ds').noteAll ds'') hw _).bind
              fun _ => computes_pure _ _
          · refine (computes_render (w := ((w.noteAll ds).noteAll ds').noteAll ds'') hw key).bind
              fun _ => ?_
            split
            · rename_i hkey
              exact computes_indexed_of _ _ hkey _
            · rename_i hkey
              exact computes_indexed_of_not _ _ hkey _
      | primitive | interfaceType | enumType | genericPlaceholder | unknown => exact hnamed

theorem computes_renderFirst {w : Workspace} (hw : w.graph.Stocked) (args : List TypeInstance) :
    (renderFirst args).Computes w (w.graph.exprText (w.graph.exprFirst args)) := by
  cases args with
  | nil =>
    have h : w.graph.exprText (.named w.graph.anyId []) = w.graph.anyText := by
      change w.graph.nameText w.graph.anyId = _
      unfold TypeGraph.nameText TypeGraph.anyText
      cases w.graph.tsName? w.graph.anyId <;> rfl
    rw [TypeGraph.exprFirst, h]
    exact computes_anyName hw
  | cons a args => exact computes_render hw a

theorem computes_renderAll {w : Workspace} (hw : w.graph.Stocked) (args : List TypeInstance) :
    (renderAll args).Computes w (w.graph.exprTexts (w.graph.exprAll args)) := by
  cases args with
  | nil => exact computes_pure _ _
  | cons a args =>
    refine (computes_render hw a).bind fun ds => ?_
    exact (computes_renderAll (w := w.noteAll ds) hw args).bind fun _ => computes_pure _ _

end

theorem computes_renderList (hw : w.graph.Stocked) (is : List TypeInstance) (separator : String) :
    (renderList is separator).Computes w
      (separator.intercalate ((w.graph.listed is).map w.graph.exprText)) := by
  refine (computes_anyId hw).bind fun ds => ?_
  rw [← Text.join_eq_intercalate, TypeGraph.listed, ← TypeGraph.exprAll_eq_map, ← TypeGraph.exprTexts_eq_map]
  exact (computes_renderAll (w := w.noteAll ds) hw _).bind fun _ => computes_pure _ _

end TypeText

namespace Artifact

variable {w : Workspace}

theorem computes_typeParamTexts (hw : w.graph.Stocked) (ps : List TypeDefinition) :
    (typeParamTexts ps).Computes w
      (ps.map fun p => w.graph.parameterText (p, w.graph.listed p.superTypes)) := by
  induction ps generalizing w with
  | nil => exact computes_pure _ _
  | cons p ps ih =>
    refine (TypeText.computes_renderList hw _ _).bind fun ds => ?_
    exact (ih (w := w.noteAll ds) hw).bind fun _ => computes_pure _ _

theorem computes_typeParams (hw : w.graph.Stocked) (d : TypeDefinition) :
    (typeParams d).Computes w (if d.genericParams.isEmpty then "" else
      "<" ++ ", ".intercalate ((w.graph.interfaceExpr d).parameters.map w.graph.parameterText) ++ ">") := by
  unfold typeParams
  split
  · exact computes_pure _ _
  · refine (computes_graph w).bind fun ds => ?_
    refine (computes_typeParamTexts (w := w.noteAll ds) hw _).bind fun _ => ?_
    rw [← Text.join_eq_intercalate, TypeGraph.interfaceExpr, List.map_map]
    exact computes_pure _ _

theorem computes_propertyLines (hw : w.graph.Stocked) (s : Settings) (ps : List PropertyDefinition) :
    (propertyLines s ps).Computes w
      (ps.map fun p => w.graph.propertyText s (p, w.graph.expr p.type)) := by
  induction ps generalizing w with
  | nil => exact computes_pure _ _
  | cons p ps ih =>
    refine (TypeText.computes_render hw p.type).bind fun ds => ?_
    refine (ih (w := w.noteAll ds) hw).bind fun _ => ?_
    rw [line_succ, line_zero]
    exact computes_pure _ _

/-- What is written for an interface is the text of its expressions. -/
theorem computes_interfaceText (hw : w.graph.Stocked) (s : Settings) (l : Layout)
    (d : TypeDefinition) : (interfaceText s l d).Computes w (w.graph.interfaceText s l d) := by
  refine (computes_propertyLines hw s _).bind fun ds => ?_
  refine (TypeText.computes_renderList (w := w.noteAll ds) hw _ _).bind fun ds' => ?_
  refine (computes_graph _).bind fun ds'' => ?_
  refine (computes_typeParams (w := ((w.noteAll ds).noteAll ds').noteAll ds'') hw d).bind fun _ => ?_
  rw [TypeGraph.interfaceText, ← document_eq_intercalate]
  simp only [TypeGraph.interfaceExpr, List.map_map]
  exact computes_pure _ _

end Artifact

end ClientBindings
