import ClientBindings.Proofs.Artifact.Expressions
import ClientBindings.Proofs.Artifact.Grouping

/-! What stands in the files that are written for a model: in the shared files the declarations that services
and modules import, in the file of a type its declaration, and in that of a module the imports and the
providers of its services. -/
namespace ClientBindings

namespace Artifact

variable {s : Settings} {l : Layout} {w : Workspace}

/-- The shared files by their names, with the lines by which they declare what others import from them. -/
def sharedFiles (s : Settings) : List (String × List String) :=
  (s.stdApiFileName, ["export enum RequestMethod \x7b", "export interface HttpRequestMapping \x7b",
    "export interface MethodParamMapping \x7b"]) ::
  if s.httpServiceInclude = none then
    [(s.requestManagerFileName, ["export class " ++ s.httpServiceClass ++ " \x7b"])]
  else []

theorem stdApiText_declares (s : Settings) : ∀ row ∈ ["export enum RequestMethod \x7b",
    "export interface HttpRequestMapping \x7b", "export interface MethodParamMapping \x7b"],
    Text.HasLine (stdApiText s) row := by
  intro row h
  refine hasLine_document ?_
  simp only [List.mem_cons, List.not_mem_nil, or_false] at h ⊢
  rcases h with rfl | rfl | rfl <;> simp

theorem requestManagerText_declares (s : Settings) :
    Text.HasLine (requestManagerText s) ("export class " ++ s.httpServiceClass ++ " \x7b") :=
  hasLine_document (by simp)

theorem forall₂_sharedArtifacts (s : Settings) (l : Layout) :
    List.Forall₂ (fun file a => a.path = l.rootPath file.1 ∧ ∀ row ∈ file.2, Text.HasLine a.content row)
      (sharedFiles s) (sharedArtifacts s l) := by
  refine .cons ⟨rfl, stdApiText_declares s⟩ ?_
  cases s.httpServiceInclude with
  | none => exact .cons ⟨rfl, List.forall_mem_singleton.2 (requestManagerText_declares s)⟩ .nil
  | some path => exact .nil

/-- The lines of an enumeration: a member for each constant, of its name and with the name as its value. -/
def enumLines (s : Settings) (d : TypeDefinition) : List String :=
  ["export enum " ++ d.tsName ++ " \x7b"] ++
    d.enumConstants.map (fun c => s.indent ++ (c ++ " = '" ++ c ++ "',")) ++ ["\x7d"]

theorem enumText_eq (s : Settings) (d : TypeDefinition) :
    enumText s d = "\n".intercalate (enumLines s d) := by
  simp only [enumText, document_eq_intercalate, enumLines, line_succ, line_zero]

/-- The lines of a module: imports of what carries requests out and of the services, all of these as
providers, and the class of the module. -/
def moduleLines (s : Settings) (l : Layout) (name : String) (services : List Endpoint) : List String :=
  let http := s.httpServiceInclude.getD ("./" ++ stripExtension s.requestManagerFileName)
  ["import \x7b NgModule \x7d from '@angular/core';",
    "import \x7b " ++ s.httpServiceClass ++ " \x7d from '" ++ http ++ "';"] ++
  services.map (fun e => "import \x7b " ++ e.name ++ " \x7d from '" ++ l.moduleEndpointImport e ++ "';") ++
  ["", "@NgModule(\x7b", s.indent ++ "providers: ["] ++
  commaLines (s.indent ++ s.indent) (s.httpServiceClass :: services.map (·.name)) ++
  [s.indent ++ "]", "\x7d)", "export class " ++ Literal.moduleClass name ++ " \x7b \x7d"]

theorem moduleText_eq (s : Settings) (l : Layout) (name : String) (services : List Endpoint) :
    moduleText s l name services = "\n".intercalate (moduleLines s l name services) := by
  have hmargin : line s.indent 2 = ((s.indent ++ s.indent) ++ ·) := by
    funext t
    rw [line_succ, line_succ, line_zero, ← String.append_assoc]
  rw [moduleText, document_eq_intercalate, moduleLines]
  simp only [← map_separated, hmargin, line_succ, line_zero]
  rfl

theorem serviceText_declares (s : Settings) (l : Layout) (e : Endpoint) (w : Workspace) :
    Text.HasLine ((serviceText s l e).run w).1 ("export class " ++ e.name ++ " \x7b") :=
  hasLine_document (List.mem_append_left _ (List.mem_append_left _ (List.mem_append_right _ (by simp))))

end Artifact

namespace TypeGraph

open Artifact

/-- The text of a type that has an artifact: an enumeration of its constants, or else an interface of the
expressions of its definition. -/
def typeText (g : TypeGraph) (s : Settings) (l : Layout) (d : TypeDefinition) : String :=
  if d.kind = .enumType then "\n".intercalate (enumLines s d) else g.interfaceText s l d

theorem content_of_typeText? {w : Workspace} (hw : w.graph.Stocked) {s : Settings} {l : Layout}
    {d : TypeDefinition} {content : String} (h : ((typeText? s l d).run w).1 = some content) :
    content = w.graph.typeText s l d := by
  unfold typeText? at h
  unfold typeText
  cases hkind : d.kind with
  | enumType =>
    rw [hkind] at h
    exact (Option.some.inj h).symm.trans (enumText_eq s d)
  | interfaceType =>
    obtain ⟨ds, hrun⟩ := computes_interfaceText hw s l d
    rw [hkind] at h
    exact (Option.some.inj h).symm.trans (congrArg Prod.fst hrun)
  | primitive | collection | map | genericPlaceholder | unknown =>
    rw [hkind] at h
    cases h

end TypeGraph

namespace Artifact

/-- What is written for a model, in the parts in which it is written. -/
structure Parts where
  shared : List Artifact
  types : List Artifact
  services : List Artifact
  modules : List Artifact

def Parts.all (parts : Parts) : List Artifact :=
  parts.shared ++ parts.types ++ parts.services ++ parts.modules

/-- The parts have what belongs into them for these endpoints and these modules: the declarations of requests,
and the request manager unless another is included; each type that has an artifact; each endpoint; and each
module with its services. The text of a service is the one that the model has, once it is seeded. -/
structure Parts.Hold (parts : Parts) (s : Settings) (w : Workspace) (endpoints : List Endpoint)
    (modules : Dict (List Endpoint)) : Prop where
  shared : List.Forall₂ (fun file a => a.path = (Layout.ofSettings s).rootPath file.1 ∧
    ∀ row ∈ file.2, Text.HasLine a.content row) (sharedFiles s) parts.shared
  types : List.Forall₂ (fun d a => a.path = (Layout.ofSettings s).typePath d ∧
    a.content = w.graph.typeText s (Layout.ofSettings s) d) w.graph.emittable parts.types
  services : List.Forall₂ (fun e a => a.path = (Layout.ofSettings s).endpointPath e ∧
    Text.HasLine a.content ("export class " ++ e.name ++ " \x7b") ∧
    (w.graph.seeded = true → ((serviceText s (Layout.ofSettings s) e).run w).1 = a.content))
    endpoints parts.services
  modules : parts.modules = modules.map fun m => ⟨(Layout.ofSettings s).modulePath m.1,
    "\n".intercalate (moduleLines s (Layout.ofSettings s) m.1 m.2)⟩

/-- What is emitted consists of these parts. Types have their texts from a seeded model, and one that is not
seeded has none. -/
theorem exists_parts (s : Settings) (endpoints : List Endpoint)
    (hseeded : w.graph.seeded = true → w.graph.Stocked)
    (hfresh : w.graph.seeded = false → w.graph.emittable = []) : ∃ parts : Parts,
      ((emission s endpoints).run w).1 = parts.all ∧ parts.Hold s w endpoints (groupModules s endpoints) := by
  have hemittable : ∀ d ∈ w.graph.emittable, d.kind.isImportable = true := fun _ =>
    TypeGraph.isImportable_of_mem_emittable
  refine ⟨⟨sharedArtifacts s (.ofSettings s), _, _, moduleArtifacts s (.ofSettings s) endpoints⟩, rfl, ?_⟩
  refine ⟨forall₂_sharedArtifacts s _, ?_, ?_, ?_⟩
  · cases h : w.graph.seeded with
    | true =>
      have hstocked := hseeded h
      exact (forall₂_typeArtifacts hemittable w).imp fun d a h =>
        ⟨h.1, TypeGraph.content_of_typeText? hstocked (h.2 hstocked)⟩
    | false =>
      rw [hfresh h]
      exact .nil
  · exact (forall₂_serviceArtifacts endpoints fun hstocked =>
      ((reads_typeArtifacts s (.ofSettings s) w.graph.emittable).run_eq hstocked rfl).2).imp
        fun e a ⟨hpath, ⟨v, hv⟩, htext⟩ =>
          ⟨hpath, hv ▸ serviceText_declares s _ e v, fun hs => htext (hseeded hs)⟩
  · exact List.map_congr_left fun m _ => by rw [moduleText_eq]

end Artifact

end ClientBindings
