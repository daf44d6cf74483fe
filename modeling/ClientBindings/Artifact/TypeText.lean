import ClientBindings.Workspace
import ClientBindings.Artifact.Literal

/-! Type instances as type expressions. -/
namespace ClientBindings.TypeText

/-- The generated name of the type that stands for everything. -/
def anyName : Work String := do
  let id ← Work.anyId
  return ((← Work.graph).tsName? id).getD Builtin.anyName

def nameOf (id : TypeId) : Work String := do
  match (← Work.graph).tsName? id with
  | some name => pure name
  | none => anyName

/-- An index signature; other keys than texts, numbers and enumerations cannot index. -/
def indexed (key value : String) : Work String :=
  if key = "number" ∨ key = "string" then
    pure ("\x7b [index: " ++ key ++ "]: " ++ value ++ " \x7d")
  else do
    Work.warn "emit:map"
      s!"Unable to use '{key}' as map index, only string and number keys are indexable"
    pure "\x7b\x7d"

mutual

/-- Collections become arrays and maps index signatures; others are written with their arguments. -/
def render : TypeInstance → Work String
  | .mk d args => do
    match (← Work.graph).kind? d with
    | some .collection => return (← renderFirst args) ++ "[]"
    | some .map => match args with
      | [] => return "\x7b \x7d"
      | key :: rest =>
        let value ← renderFirst rest
        if (← Work.graph).kind? key.definition = some .enumType then
          let name ← nameOf key.definition
          return "\x7b [" ++ Literal.lowerCamel name ++ ": string]: " ++ value ++ " \x7d"
        else
          let key ← render key
          indexed key value
    | _ =>
      let name ← nameOf d
      if args.isEmpty then return name
      else return name ++ "<" ++ Text.join ", " (← renderAll args) ++ ">"

/-- The first instance, or any type where there is none. -/
def renderFirst : List TypeInstance → Work String
  | [] => anyName
  | a :: _ => render a

def renderAll : List TypeInstance → Work (List String)
  | [] => pure []
  | a :: as => do
    let s ← render a
    let rest ← renderAll as
    pure (s :: rest)

end

/-- Instances between separators; the type that stands for everything says nothing and is left
out. -/
def renderList (instances : List TypeInstance) (separator : String) : Work String := do
  let any ← Work.anyId
  return Text.join separator (← renderAll (instances.filter fun i => i.definition != any))

end ClientBindings.TypeText
