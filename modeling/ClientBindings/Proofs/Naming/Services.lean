import ClientBindings.Proofs.Naming.Imports
import ClientBindings.Proofs.Naming.Relative

/-! The imports between services and the files of the output folder. A service imports a file from the folder
of its package, which is the folder of its own file as long as file names have no slashes. -/
namespace ClientBindings

open ClientBindings.Path

theorem endingWith_ts (name : String) : Text.endingWith name ".ts" = stripExtension name ++ ".ts" :=
  Text.endingWith_eq name ".ts"

/-- Names lead where they say. -/
theorem Path.destination_eq_self {names : List String} (h : ".." ∉ names) : destination names = names := by
  have hfoldl (place : List String) : names.foldl enter place = names.reverse ++ place := by
    induction names generalizing place with
    | nil => rfl
    | cons n names ih =>
      rw [List.mem_cons, not_or] at h
      have henter : enter place n = n :: place := if_neg (Ne.symm h.1)
      rw [List.foldl_cons, henter, ih h.2, List.reverse_cons, List.append_assoc]
      rfl
  rw [destination, hfoldl, List.append_nil, List.reverse_reverse]

namespace Layout

variable {s : Settings} {e : Endpoint} {file : String}

theorem stripExtension_rootPath (l : Layout) (file : String) :
    stripExtension (l.rootPath file) = l.outputFolder ++ stripExtension file := by
  rw [rootPath, endingWith_ts, ← String.append_assoc, stripExtension_append]

/-- The import of a file goes the steps that lead there, although the slash at its end is taken off. -/
theorem segments_endpointRootImport (l : Layout) (e : Endpoint) (file : String) :
    segments (l.endpointRootImport e file) =
      steps (segments (l.endpointFolder e)) (segments (l.outputFolder ++ file)) := by
  obtain ⟨way, hway⟩ := exists_relative (l.endpointFolder e) (l.outputFolder ++ file)
  have himport : l.endpointRootImport e file = way := by
    rw [endpointRootImport, hway, Text.stripEnd?_append]
    rfl
  rw [himport, ← segments_relative_eq, hway, segments_eq, segments_eq, String.toList_append]
  exact (pieces_concat_slash _).symm

/-- The import of a file of the output folder by a service leads there from the file of the service. -/
def LeadsToRoot (l : Layout) (e : Endpoint) (file : String) : Prop :=
  resolve (folder (l.endpointPath e)) (l.endpointRootImport e (stripExtension file)) =
    destination (segments (stripExtension (l.rootPath file)))

instance (l : Layout) (e : Endpoint) (file : String) : Decidable (l.LeadsToRoot e file) :=
  inferInstanceAs (Decidable (_ = _))

/-- It leads there exactly if on the way no segment is climbed out of that climbs itself. -/
theorem leadsToRoot_iff (hsuffix : Unseparated s.generatedSuffix) (hname : Unseparated e.name)
    (henclosing : ∀ n ∈ enclosingNamesOf e.container, Unseparated n) :
    (ofSettings s).LeadsToRoot e file ↔ ".." ∉ left (segments ((ofSettings s).endpointFolder e))
      (segments ((ofSettings s).outputFolder ++ stripExtension file)) := by
  obtain ⟨cs, hcs⟩ : ∃ cs, ((ofSettings s).endpointFolder e).toList = cs ++ ['/'] :=
    (ofSettings s).exists_targetFolder e.packageName
  have hfile : Unseparated ((ofSettings s).fileName e.container e.name ++ ".ts") :=
    (unseparated_fileName hsuffix hname henclosing).append (by decide)
  rw [LeadsToRoot, endpointPath, endpointBase, String.append_assoc, stripExtension_rootPath,
    resolve_folder_append hcs hfile, segments_endpointRootImport]
  exact destination_steps_eq_iff _ _

/-- Where no override has a folder that climbs and file names have no slashes, the import of a file of the
output folder leads there from the file of the service, for every package. Where neither the output folder
nor the name climbs, that is the output folder and the name. -/
theorem endpointRootImport_leads (hoverrides : ∀ o ∈ s.pathOverrides, ".." ∉ segments o.2)
    (hsuffix : Unseparated s.generatedSuffix) (hname : Unseparated e.name)
    (henclosing : ∀ n ∈ enclosingNamesOf e.container, Unseparated n) (file : String) :
    (ofSettings s).LeadsToRoot e file ∧
      (".." ∉ segments s.outputFolder → ".." ∉ segments (stripExtension file) →
        resolve (folder ((ofSettings s).endpointPath e))
            ((ofSettings s).endpointRootImport e (stripExtension file)) =
          segments (stripExtension ((ofSettings s).rootPath file))) := by
  have hroot : segments ((ofSettings s).outputFolder ++ stripExtension file) =
      segments s.outputFolder ++ segments (stripExtension file) := segments_endingWith _ _
  have hleads : (ofSettings s).LeadsToRoot e file := by
    rw [leadsToRoot_iff hsuffix hname henclosing, hroot, endpointFolder, segments_targetFolder]
    exact fun hdots => dots_not_mem_packagePath hoverrides _ (left_append_subset _ _ _ hdots)
  refine ⟨hleads, fun hfolder hfile => ?_⟩
  rw [show resolve _ _ = _ from hleads, stripExtension_rootPath, hroot]
  exact destination_eq_self fun hdots => (List.mem_append.1 hdots).elim hfolder hfile

/-- An endpoint of a package, before its methods are known. -/
def endpointIn (package name : String) : Endpoint where
  controllerType := package ++ "." ++ name
  name := name
  moduleName := none
  defaultMapping := none
  methods := []
  container := some ⟨some package, []⟩

/-- From a package in the folder that the file has the name of, too, although that is no step on the way. -/
theorem endpointRootImport_leads_namesake :
    (ofSettings Settings.standard).endpointRootImport (endpointIn "sys-std.api" "Api") "sys-std" = ".." ∧
      resolve (folder ((ofSettings Settings.standard).endpointPath (endpointIn "sys-std.api" "Api")))
          ((ofSettings Settings.standard).endpointRootImport (endpointIn "sys-std.api" "Api")
            (stripExtension "sys-std.ts")) =
        segments (stripExtension ((ofSettings Settings.standard).rootPath "sys-std.ts")) := by
  refine ⟨by decide +kernel, ?_⟩
  exact (endpointRootImport_leads (s := Settings.standard) (e := endpointIn "sys-std.api" "Api")
    (by decide +kernel) (by decide +kernel) (by decide +kernel) (by decide +kernel) "sys-std.ts").2
    (by decide +kernel) (by decide +kernel)

/-- Services in folders of their own, by an ending of file names that has a slash. -/
def folderedSettings : Settings := { Settings.standard with generatedSuffix := "/service" }

/-- From a file in a folder of its own the import leads to the folder of the package. -/
theorem not_endpointRootImport_leads_foldered :
    ".." ∉ segments folderedSettings.outputFolder ∧
      (∀ o ∈ folderedSettings.pathOverrides, ".." ∉ segments o.2) ∧
      Unseparated (endpointIn "a" "Api").name ∧
      (∀ n ∈ enclosingNamesOf (endpointIn "a" "Api").container, Unseparated n) ∧
      Unseparated "sys-std" ∧
      ¬(ofSettings folderedSettings).LeadsToRoot (endpointIn "a" "Api") "sys-std" := by
  decide +kernel

end Layout

end ClientBindings
