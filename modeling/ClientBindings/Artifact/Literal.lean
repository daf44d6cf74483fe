import ClientBindings.Model.Endpoint
import ClientBindings.Text.Case

/-! Literals and identifiers of the generated code. -/
namespace ClientBindings.Literal

def escapeChar (c : Char) : List Char :=
  if c = '\\' then ['\\', '\\'] else if c = '\'' then ['\\', '\''] else [c]

/-- A text in single quotes. -/
def quote (s : String) : String := "'" ++ String.ofList (s.toList.flatMap escapeChar) ++ "'"

def truth (b : Bool) : String := if b then "true" else "false"

/-- Fields in braces. -/
def object (fields : List String) : String := "\x7b" ++ Text.join ", " fields ++ "\x7d"

def mapping (m : Mapping) : String :=
  let method := match m.verb with
    | some v => "RequestMethod." ++ v.label
    | none => "null"
  object ["urlTemplate: " ++ quote (m.urlTemplate.getD ""), "method: " ++ method]

def optionalMapping (m : Option Mapping) : String :=
  match m with
  | some m => mapping m
  | none => "null"

def parameter (p : MethodParameter) : String :=
  let b := p.binding
  let name := match b.location with
    | .path => ["pathVariableName: " ++ quote b.name]
    | .query => ["requestParameterName: " ++ quote b.name]
    | .body => []
  object (["paramName: " ++ quote p.name, "isRequired: " ++ truth b.required] ++ name ++
    ["isRequestBody: " ++ truth (b.location == .body), "value: " ++ p.name])

/-- The first character in lower case. -/
def lowerCamel (name : String) : String :=
  match name.toList with
  | [] => ""
  | c :: cs => String.ofList (Text.lower c ++ cs)

/-- The first character in upper case. -/
def capitalize (cs : List Char) : List Char :=
  match cs with
  | [] => []
  | c :: cs => Text.upper c ++ cs

/-- The words between hyphens, each with a capital. -/
def moduleClass (name : String) : String :=
  String.ofList ((Text.splitChars (· == '-') name.toList).flatMap capitalize)

end ClientBindings.Literal
