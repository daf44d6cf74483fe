import ClientBindings.Proofs.Naming.Segments

/-! Where imports lead. The folder of a type goes on from the output folder by its package or by the folder
of an override, and the import of another type leads to the file of that type, unless it climbs out of a
folder that climbs itself. -/
namespace ClientBindings

open ClientBindings.Path

/-- A path leads on from the folder that a file is in. -/
theorem Path.resolve_folder_append {source file : String} {cs : List Char}
    (hsource : source.toList = cs ++ ['/']) (hfile : Unseparated file) (path : String) :
    resolve (folder (source ++ file)) path = destination (segments source ++ segments path) := by
  have hfolder : folder (source ++ file) = String.ofList cs := by
    rw [folder, Text.beforeLast?_append (by decide) hfile hsource]
    rfl
  have hsegments : segments (String.ofList cs) = segments source := by
    rw [segments_eq, segments_eq, hsource, String.toList_ofList, pieces_concat_slash]
  rw [resolve, hfolder, segments_slash, hsegments]

/-- From a file of a folder, the relative path to another folder leads to what is in there exactly if it
climbs out of names only. -/
theorem Path.resolve_relative_iff {source target file : String} {cs ds : List Char}
    (hsource : source.toList = cs ++ ['/']) (htarget : target.toList = ds ++ ['/'])
    (hfile : Unseparated file) (inner : String) :
    resolve (folder (source ++ file)) (relative source target ++ inner) =
        destination (segments (target ++ inner)) ↔
      ".." ∉ left (segments source) (segments target) := by
  rw [resolve_folder_append hsource hfile, segments_relative, segments_append_of_slash htarget]
  exact destination_steps_iff _ _ _

namespace Layout

variable {l : Layout} {s : Settings} {package : String}

theorem segments_targetFolder (s : Settings) (package : String) :
    segments ((ofSettings s).targetFolder package) =
      segments s.outputFolder ++ segments ((ofSettings s).packagePath package) := by
  rw [targetFolder, segments_collapseSlashes]
  refine (segments_endingWith s.outputFolder _).trans ?_
  have h := segments_endingWith ((ofSettings s).packagePath package) ""
  rw [String.append_empty] at h
  rw [h]
  exact congrArg _ (List.append_nil _)

theorem dots_not_mem_pieces {cs : List Char} (h : '.' ∉ cs) : ".." ∉ pieces cs := fun hmem =>
  h ((of_mem_pieces hmem).2 '.' (by decide)).1

/-- In a package as a path there are slashes where there were dots. -/
theorem dot_not_mem_packagePath (package : String) :
    '.' ∉ package.toList.map fun c => if c = '.' then '/' else c := by
  intro h
  obtain ⟨c, -, hc⟩ := List.mem_map.1 h
  split at hc
  · cases hc
  · rename_i hne
    exact hne hc

/-- A package climbs only where the folder of an override does. -/
theorem dots_not_mem_packagePath (h : ∀ e ∈ s.pathOverrides, ".." ∉ segments e.2) (package : String) :
    ".." ∉ segments ((ofSettings s).packagePath package) := by
  have hdot := dot_not_mem_packagePath package
  unfold packagePath
  split
  · rw [segments_eq, String.toList_ofList]
    exact dots_not_mem_pieces hdot
  · rename_i o ho
    obtain ⟨e, he, rfl⟩ := List.mem_map.1 (List.mem_mergeSort.1 (List.mem_of_find?_eq_some ho))
    rw [segments_endingWith, List.mem_append, not_or]
    refine ⟨h e he, ?_⟩
    rw [segments_eq, String.toList_ofList]
    exact dots_not_mem_pieces fun hmem =>
      hdot (List.mem_of_mem_drop ((List.dropWhile_sublist _).subset hmem))

/-- What is climbed out of on the way between two packages are segments of the first. -/
theorem left_subset_packagePath (s : Settings) (package package' : String) :
    left (segments ((ofSettings s).targetFolder package))
        (segments ((ofSettings s).targetFolder package')) ⊆
      segments ((ofSettings s).packagePath package) := by
  rw [segments_targetFolder, segments_targetFolder]
  exact left_append_subset _ _ _

theorem unseparated_enclosing {names : List String} (h : ∀ n ∈ names, Unseparated n) :
    Unseparated (String.join (names.map (· ++ "$"))) := by
  intro c hc
  rw [String.toList_join, List.mem_flatMap] at hc
  obtain ⟨marked, hmarked, hc⟩ := hc
  obtain ⟨n, hn, rfl⟩ := List.mem_map.1 hmarked
  exact (h n hn).append (by decide) c hc

theorem unseparated_fileName {container : Option Container} {name : String}
    (hsuffix : Unseparated l.generatedSuffix) (hname : Unseparated name)
    (henclosing : ∀ n ∈ enclosingNamesOf container, Unseparated n) :
    Unseparated (l.fileName container name) :=
  ((unseparated_enclosing henclosing).append hname).append hsuffix

/-- The import of a type by another leads from the file of the one to the file of the other. -/
def Leads (l : Layout) (source target : TypeDefinition) : Prop :=
  resolve (folder (l.typePath source)) (l.typeImport source target) =
    destination (segments (stripExtension (l.typePath target)))

instance (l : Layout) (source target : TypeDefinition) : Decidable (l.Leads source target) :=
  inferInstanceAs (Decidable (_ = _))

/-- The import of a type leads to its file exactly if on the way no segment is climbed out of that climbs
itself. Where no override has such segments, every import leads there. -/
theorem typeImport_leads_iff (s : Settings) {source target : TypeDefinition}
    (hsuffix : Unseparated s.generatedSuffix) (hname : Unseparated source.shortName)
    (henclosing : ∀ n ∈ enclosingNamesOf source.container, Unseparated n) :
    ((ofSettings s).Leads source target ↔ ".." ∉ left
      (segments ((ofSettings s).typeFolder source)) (segments ((ofSettings s).typeFolder target))) ∧
    ((∀ e ∈ s.pathOverrides, ".." ∉ segments e.2) → (ofSettings s).Leads source target) := by
  have hiff : (ofSettings s).Leads source target ↔ ".." ∉ left
      (segments ((ofSettings s).typeFolder source)) (segments ((ofSettings s).typeFolder target)) := by
    obtain ⟨cs, hcs⟩ := (ofSettings s).exists_targetFolder source.packageName
    obtain ⟨ds, hds⟩ := (ofSettings s).exists_targetFolder target.packageName
    have hfile : Unseparated ((ofSettings s).typeFileName source ++ ".ts") :=
      (unseparated_fileName hsuffix hname henclosing).append (by decide)
    rw [Leads, typePath, typePath, stripExtension_append, String.append_assoc]
    exact resolve_relative_iff hcs hds hfile _
  refine ⟨hiff, fun hoverrides => hiff.2 fun hdots => ?_⟩
  exact dots_not_mem_packagePath hoverrides _ (left_subset_packagePath s _ _ hdots)

/-- An interface of a package, as it is before its content is known. -/
def interfaceIn (package shortName : String) : TypeDefinition :=
  { TypeDefinition.declared (package ++ "." ++ shortName) shortName .interfaceType with
    container := some ⟨some package, []⟩ }

/-- Packages below each other, one of them moved to a folder beside the output. -/
def movedSettings (folder : String) : Settings :=
  { Settings.standard with pathOverrides := [("com.acme", folder)] }

/-- From a moved package the import of another leads to its file. -/
theorem typeImport_leads_moved :
    (∀ e ∈ (movedSettings "libs/acme").pathOverrides, ".." ∉ segments e.2) ∧
      (ofSettings (movedSettings "libs/acme")).Leads (interfaceIn "com.acme.shop" "Order")
        (interfaceIn "org.bank" "Account") := by
  have hoverrides : ∀ e ∈ (movedSettings "libs/acme").pathOverrides, ".." ∉ segments e.2 := by
    decide +kernel
  exact ⟨hoverrides, (typeImport_leads_iff (movedSettings "libs/acme") (by decide +kernel)
    (by decide +kernel) (by decide +kernel)).2 hoverrides⟩

/-- Of a folder beside the output, the way back to it climbs out of the dots as of a name. -/
theorem not_typeImport_leads_beside :
    ¬(ofSettings (movedSettings "../shared")).Leads (interfaceIn "com.acme" "Order")
      (interfaceIn "org.bank" "Account") := by
  decide +kernel

end Layout

end ClientBindings
