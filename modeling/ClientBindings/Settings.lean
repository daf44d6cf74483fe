import ClientBindings.Dict
import ClientBindings.Failure
import ClientBindings.Document.Decoding
import ClientBindings.Document.Toml
import ClientBindings.Pattern.Reader
import ClientBindings.Text.Basic

/-! The options of the generator: defaults, reading, and completion from the environment. -/
namespace ClientBindings

/-- The names that stand for date and time types. -/
structure TimeTypes where
  zonedDateTime : String
  localDateTime : String
  localTime : String
  localDate : String
  deriving DecidableEq, Repr

def TimeTypes.standard : TimeTypes := ⟨"string", "string", "string", "string"⟩

inductive StorageKind where
  | file | memory
  deriving DecidableEq, Repr

structure Settings where
  outputFolder : String
  generatedSuffix : String
  stdApiFileName : String
  requestManagerFileName : String
  defaultModuleName : String
  httpServiceClass : String
  httpServiceInclude : Option String
  serviceIncludes : List String
  enableTimeIntegration : Bool
  time : TimeTypes
  pathOverrides : Dict String
  excludeClasses : Dict String
  typeOverrides : Dict String
  indentWidth : Nat
  optionalNullableProperties : Bool
  storage : StorageKind
  /-- What reads the patterns of excluded classes. It is no option. -/
  patterns : PatternReader
  deriving Repr

def Settings.standard : Settings where
  outputFolder := "sys-gen/"
  generatedSuffix := ".generated"
  stdApiFileName := "sys-std"
  requestManagerFileName := "sys-request-manager"
  defaultModuleName := "service-api"
  httpServiceClass := "ServiceRequestManager"
  httpServiceInclude := none
  serviceIncludes := []
  enableTimeIntegration := true
  time := .standard
  pathOverrides := []
  excludeClasses := []
  typeOverrides := []
  indentWidth := 2
  optionalNullableProperties := false
  storage := .file
  patterns := .standard

/-- One rule for names that are left out: a pattern for the whole name. -/
structure ExclusionRule where
  name : String
  covers : String → Bool

instance : Repr ExclusionRule := ⟨fun r => reprPrec r.name⟩

abbrev Exclusions := List ExclusionRule

namespace Exclusions

/-- Reads the patterns in the order of their names; blank ones make no rule. -/
def compileBy (patterns : PatternReader) : Dict String → Except Failure Exclusions
  | [] => .ok []
  | (name, source) :: rest =>
    if Text.isBlankText source then compileBy patterns rest
    else match patterns.read? ("^(?:" ++ source ++ ")$") with
      | none => .error (Failure.ofReader s!"Invalid exclude_classes pattern '{name}': {source}")
      | some covers => (compileBy patterns rest).map (⟨name, covers⟩ :: ·)

/-- The rules by the standard patterns. -/
def compile (rules : Dict String) : Except Failure Exclusions := compileBy .standard rules

/-- The first rule that matches. -/
def matchingRule? (rules : Exclusions) (typeName : String) : Option String :=
  (rules.find? (·.covers typeName)).map (·.name)

def excludes (rules : Exclusions) (typeName : String) : Bool :=
  (rules.matchingRule? typeName).isSome

end Exclusions

/-- Variables that were set when the program started. -/
abbrev Environment := List (String × String)

/-- An unsigned word in decimal digits, with an optional plus sign. -/
def parseCount? (s : String) : Option Nat :=
  (Document.naturalWithSign? 10 s.toList).filter fun n => Word.fitsUnsigned 64 n

namespace Settings

open Document

def dictOfTexts (d : Document) : Option (Dict String) := do
  let entries ← d.entries?
  let values ← decodeAll text? (entries.map (·.2))
  pure (Dict.ofEntries ((entries.map (·.1)).zip values))

def timeTypes (d : Document) : Option TimeTypes := do
  let f ← d.fields? ["zoned_date_time", "local_date_time", "local_time", "local_date"]
  let zonedDateTime ← f.withDefault "zoned_date_time" "string" text?
  let localDateTime ← f.withDefault "local_date_time" "string" text?
  let localTime ← f.withDefault "local_time" "string" text?
  let localDate ← f.withDefault "local_date" "string" text?
  pure { zonedDateTime, localDateTime, localTime, localDate }

def storageKind : Document → Option StorageKind := enumOf [("file", .file), ("memory", .memory)]

/-- Reads settings; every option has a default. -/
def ofDocument (d : Document) : Option Settings := do
  let f ← d.fields? ["output_folder", "generated_suffix", "std_api_file_name",
    "request_manager_file_name", "default_module_name", "http_service_class",
    "http_service_include", "service_includes", "enable_time_integration", "time",
    "path_overrides", "exclude_classes", "type_overrides", "indent_width",
    "optional_nullable_properties", "storage"]
  let std := standard
  let outputFolder ← f.withDefault "output_folder" std.outputFolder text?
  let generatedSuffix ← f.withDefault "generated_suffix" std.generatedSuffix text?
  let stdApiFileName ← f.withDefault "std_api_file_name" std.stdApiFileName text?
  let requestManagerFileName ←
    f.withDefault "request_manager_file_name" std.requestManagerFileName text?
  let defaultModuleName ← f.withDefault "default_module_name" std.defaultModuleName text?
  let httpServiceClass ← f.withDefault "http_service_class" std.httpServiceClass text?
  let httpServiceInclude ← f.optional "http_service_include" text?
  let serviceIncludes ← f.list "service_includes" text?
  let enableTimeIntegration ← f.withDefault "enable_time_integration" true bool?
  let time ← f.withDefault "time" .standard timeTypes
  let pathOverrides ← f.withDefault "path_overrides" [] dictOfTexts
  let excludeClasses ← f.withDefault "exclude_classes" [] dictOfTexts
  let typeOverrides ← f.withDefault "type_overrides" [] dictOfTexts
  let indentWidth ← f.withDefault "indent_width" std.indentWidth natural?
  let optionalNullableProperties ← f.withDefault "optional_nullable_properties" false bool?
  let storage ← f.withDefault "storage" .file storageKind
  pure {
    outputFolder, generatedSuffix, stdApiFileName, requestManagerFileName, defaultModuleName,
    httpServiceClass, httpServiceInclude, serviceIncludes, enableTimeIntegration, time,
    pathOverrides, excludeClasses, typeOverrides, indentWidth, optionalNullableProperties,
    storage, patterns := .standard }

def toDocument (s : Settings) : Document := .map [
  ("output_folder", .text s.outputFolder),
  ("generated_suffix", .text s.generatedSuffix),
  ("std_api_file_name", .text s.stdApiFileName),
  ("request_manager_file_name", .text s.requestManagerFileName),
  ("default_module_name", .text s.defaultModuleName),
  ("http_service_class", .text s.httpServiceClass),
  ("http_service_include", ofOption .text s.httpServiceInclude),
  ("service_includes", ofTexts s.serviceIncludes),
  ("enable_time_integration", .bool s.enableTimeIntegration),
  ("time", .map [
    ("zoned_date_time", .text s.time.zonedDateTime),
    ("local_date_time", .text s.time.localDateTime),
    ("local_time", .text s.time.localTime),
    ("local_date", .text s.time.localDate)]),
  ("path_overrides", .map (s.pathOverrides.map fun e => (e.1, .text e.2))),
  ("exclude_classes", .map (s.excludeClasses.map fun e => (e.1, .text e.2))),
  ("type_overrides", .map (s.typeOverrides.map fun e => (e.1, .text e.2))),
  ("indent_width", .int s.indentWidth),
  ("optional_nullable_properties", .bool s.optionalNullableProperties),
  ("storage", .text (match s.storage with
    | .file => "file"
    | .memory => "memory"))]

/-- The rules for the classes that are left out. -/
def exclusions (s : Settings) : Except Failure Exclusions :=
  Exclusions.compileBy s.patterns s.excludeClasses

def outputFolderVariable := "TSGEN_OUTPUT_FOLDER"
def indentWidthVariable := "TSGEN_INDENT_WIDTH"

/-- Applies the environment, closes the output folder with a slash and checks the exclusions. -/
def finish (env : Environment) (s : Settings) : Except Failure Settings := do
  let folder := (env.lookup outputFolderVariable).getD s.outputFolder
  let width ← match env.lookup indentWidthVariable with
    | none => pure s.indentWidth
    | some given => match parseCount? (Text.trim given) with
      | some n => pure n
      | none => throw (Failure.ofReader s!"Invalid TSGEN_INDENT_WIDTH value: {given}")
  let _ ← s.exclusions
  pure { s with outputFolder := Text.endingWith folder "/", indentWidth := width }

/-- Reads a configuration text; `path` is named when it is malformed. -/
def parse (env : Environment) (path source : String) : Except Failure Settings :=
  match (Toml.read? source).bind ofDocument with
  | none => .error (Failure.ofReader s!"Failed to parse generator config: {path}")
  | some s => s.finish env

def indent (s : Settings) : String := String.ofList (List.replicate s.indentWidth ' ')

end Settings

end ClientBindings
