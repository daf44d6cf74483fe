import ClientBindings.Artifact.TypeText
import ClientBindings.Naming.Import

/-! The texts of artifacts: interfaces, enumerations, services, modules and the shared files. -/
namespace ClientBindings.Artifact

/-- An import line. -/
def importLine (name path : String) : String :=
  "import \x7b " ++ name ++ " \x7d from '" ++ path ++ "';"

def importLines (imports : List ImportEntry) : List String :=
  imports.map fun i => importLine i.name i.path

/-- A line at a depth of indentation. -/
def line (indent : String) (depth : Nat) (s : String) : String :=
  String.join (List.replicate depth indent) ++ s

def document (lines : List String) : String := Text.join "\n" lines

/-- Parameters with their bounds, in angle brackets. -/
def typeParamTexts : List TypeDefinition → Work (List String)
  | [] => pure []
  | p :: ps => do
    let bounds ← TypeText.renderList p.superTypes " & "
    let rest ← typeParamTexts ps
    pure ((if bounds.isEmpty then p.tsName else p.tsName ++ " extends " ++ bounds) :: rest)

def typeParams (d : TypeDefinition) : Work String := do
  if d.genericParams.isEmpty then return ""
  else
    let g ← Work.graph
    let params ← typeParamTexts (d.genericParams.filterMap g.definition?)
    return "<" ++ Text.join ", " params ++ ">"

def propertyLines (s : Settings) : List PropertyDefinition → Work (List String)
  | [] => pure []
  | p :: ps => do
    let type ← TypeText.render p.type
    let marker := if s.optionalNullableProperties && p.nullable then "?" else ""
    let rest ← propertyLines s ps
    pure (line s.indent 1 (p.name ++ marker ++ ": " ++ type ++ ";") :: rest)

def interfaceText (s : Settings) (l : Layout) (d : TypeDefinition) : Work String := do
  let properties ← propertyLines s d.properties
  let superTypes ← TypeText.renderList d.superTypes ", "
  let imports := importLines ((← Work.graph).importsForType l d)
  let params ← typeParams d
  let extending := if superTypes.isEmpty then "" else " extends " ++ superTypes
  return document (imports ++ (if imports.isEmpty then [] else [""]) ++
    ["export interface " ++ d.tsName ++ params ++ extending ++ " \x7b"] ++ properties ++ ["\x7d"])

def enumText (s : Settings) (d : TypeDefinition) : String :=
  document (["export enum " ++ d.tsName ++ " \x7b"] ++
    d.enumConstants.map (fun c => line s.indent 1 (c ++ " = '" ++ c ++ "',")) ++ ["\x7d"])

/-- The text of a definition that has an artifact. -/
def typeText? (s : Settings) (l : Layout) (d : TypeDefinition) : Work (Option String) := do
  match d.kind with
  | .interfaceType => return some (← interfaceText s l d)
  | .enumType => return some (enumText s d)
  | _ => return none

/-- The lines of a list of which all but the last end with a comma. -/
def separated : List String → List String
  | [] => []
  | [s] => [s]
  | s :: rest => (s ++ ",") :: separated rest

def signature : List MethodParameter → Work (List String)
  | [] => pure []
  | p :: ps => do
    let type ← TypeText.render p.type
    let rest ← signature ps
    pure ((p.name ++ ": " ++ type) :: rest)

def methodLines (s : Settings) (m : EndpointMethod) : Work (List String) := do
  let signature ← signature m.params
  let returnType ← match m.returnType with
    | some r => TypeText.render r
    | none => pure "void"
  let row := line s.indent
  let params := separated (m.params.map Literal.parameter)
  return ["", row 1 ("public " ++ m.name ++ "(" ++ Text.join ", " signature ++ "): Observable<" ++
      returnType ++ "> \x7b"),
    row 2 ("const mapping: HttpRequestMapping = " ++ Literal.mapping m.mapping ++ ";")] ++
    (if params.isEmpty then [row 2 "const params: MethodParamMapping[] = [];"]
      else
        [row 2 "const params: MethodParamMapping[] = ["] ++ params.map (row 3) ++ [row 2 "];"]) ++
    [row 2 "return this.httpService.execute(this.defaultRequestMapping, mapping, params);",
      row 1 "\x7d"]

def allMethodLines (s : Settings) : List EndpointMethod → Work (List String)
  | [] => pure []
  | m :: ms => do
    let lines ← methodLines s m
    let rest ← allMethodLines s ms
    pure (lines ++ rest)

def serviceText (s : Settings) (l : Layout) (e : Endpoint) : Work String := do
  let includes := (s.serviceIncludes.map Text.trim).filter fun i => !i.isEmpty
  let imports := importLines ((← Work.graph).importsForEndpoint l e)
  let http := s.httpServiceInclude.getD
    (l.endpointRootImport e (stripExtension s.requestManagerFileName))
  let std := l.endpointRootImport e (stripExtension s.stdApiFileName)
  let methods ← allMethodLines s e.methods
  return document ([importLine "Injectable" "@angular/core", importLine "Observable" "rxjs"] ++
    includes ++
    [importLine s.httpServiceClass http,
      importLine "HttpRequestMapping, MethodParamMapping, RequestMethod" std] ++
    imports ++
    ["", "@Injectable()", "export class " ++ e.name ++ " \x7b", "",
      line s.indent 1 ("constructor(private httpService: " ++ s.httpServiceClass ++ ") \x7b \x7d"),
      "",
      line s.indent 1 ("defaultRequestMapping: HttpRequestMapping | null = " ++
        Literal.optionalMapping e.defaultMapping ++ ";")] ++
    methods ++ ["\x7d"])

def moduleText (s : Settings) (l : Layout) (name : String) (endpoints : List Endpoint) : String :=
  let http := s.httpServiceInclude.getD ("./" ++ stripExtension s.requestManagerFileName)
  let row := line s.indent
  document ([importLine "NgModule" "@angular/core", importLine s.httpServiceClass http] ++
    endpoints.map (fun e => importLine e.name (l.moduleEndpointImport e)) ++
    ["", "@NgModule(\x7b", row 1 "providers: ["] ++
    (separated (s.httpServiceClass :: endpoints.map (·.name))).map (row 2) ++
    [row 1 "]", "\x7d)", "export class " ++ Literal.moduleClass name ++ " \x7b \x7d"])

end ClientBindings.Artifact
