import ClientBindings.Proofs.Naming.Placement
import ClientBindings.Proofs.Naming.Services

/-! The imports of services by modules. A module is in the output folder and imports a service by what is left
of the path of its file after the text of that folder. Paths of services have no repeated slashes in their
folders, so the text is found exactly if the output folder has none either. -/
namespace ClientBindings

open ClientBindings.Path

theorem Text.stripStart?_eq_some_iff {start cs rest : List Char} :
    stripStart? start cs = some rest ↔ cs = start ++ rest := by
  constructor
  · intro h
    obtain ⟨rest', rfl⟩ := exists_of_stripStart? (Option.isSome_iff_exists.2 ⟨rest, h⟩)
    rw [stripStart?_append] at h
    rw [Option.some.inj h]
  · rintro rfl
    exact stripStart?_append start rest

namespace Path

/-- A folder without repeated slashes stays at the front when those after it are dropped. -/
theorem collapseChars_begins {cs : List Char} (h : ¬['/', '/'] <:+: cs ++ ['/']) (ds : List Char) :
    ∃ rest, collapseChars (cs ++ '/' :: ds) = cs ++ '/' :: rest := by
  induction cs with
  | nil => exact List.head?_eq_some_iff.1 (head?_collapseChars ('/' :: ds))
  | cons c cs ih =>
    rw [List.cons_append, List.infix_cons_iff, not_or] at h
    obtain ⟨hfirst, hcs⟩ := h
    obtain ⟨rest, hrest⟩ := ih hcs
    have hsingle : ¬(c = '/' ∧ (cs ++ '/' :: ds).head? = some '/') := by
      rintro ⟨rfl, hhead⟩
      apply hfirst
      cases cs with
      | nil => exact List.prefix_refl _
      | cons c cs =>
        rw [List.cons_append, List.head?_cons, Option.some.injEq] at hhead
        rw [hhead]
        exact List.prefix_append ['/', '/'] _
    refine ⟨rest, ?_⟩
    rw [List.cons_append, collapseChars_cons, if_neg hsingle, hrest]
    rfl

/-- A mark that a path is relative leads nowhere else, before a name and before a slash. -/
theorem segments_mark (path : String) :
    segments (if Text.startsWith "/" path then "." ++ path else "./" ++ path) = segments path := by
  split
  · rename_i hslash
    obtain ⟨rest, hrest⟩ := Text.startsWith_iff.1 hslash
    have hdot : pieces (['.'] ++ '/' :: rest) = pieces ['.'] ++ pieces rest :=
      pieces_append_cons (by decide) _ _
    have hnone : pieces ([] ++ '/' :: rest) = pieces [] ++ pieces rest :=
      pieces_append_cons (by decide) _ _
    rw [segments_eq, segments_eq, String.toList_append, ← hrest]
    exact hdot.trans hnone.symm
  · exact segments_dot_slash path

end Path

namespace Layout

variable {l : Layout} {s : Settings} {e : Endpoint} {name : String} {rest : List Char}

theorem segments_outputFolder (s : Settings) :
    segments (ofSettings s).outputFolder = segments s.outputFolder := by
  have h := segments_endingWith s.outputFolder ""
  rw [String.append_empty] at h
  exact h.trans (List.append_nil _)

theorem exists_outputFolder (s : Settings) : ∃ cs, (ofSettings s).outputFolder.toList = cs ++ ['/'] := by
  obtain ⟨r, hr⟩ := Text.exists_endingWith s.outputFolder "/"
  exact ⟨r.toList, (congrArg String.toList hr).trans String.toList_append⟩

/-- The file of a service is below the output folder, in the folder of its package. -/
theorem segments_endpointBase (s : Settings) (e : Endpoint) :
    segments ((ofSettings s).endpointBase e) = segments s.outputFolder ++
      (segments ((ofSettings s).packagePath e.packageName) ++
        segments ((ofSettings s).fileName e.container e.name)) := by
  obtain ⟨cs, hcs⟩ : ∃ cs, ((ofSettings s).endpointFolder e).toList = cs ++ ['/'] :=
    (ofSettings s).exists_targetFolder e.packageName
  rw [← List.append_assoc, ← segments_targetFolder, endpointBase, segments_append_of_slash hcs]
  rfl

/-- Where the path of a service begins with the output folder, a module imports it by the rest. -/
theorem segments_moduleEndpointImport (h : (l.endpointBase e).toList = l.outputFolder.toList ++ rest) :
    segments (l.moduleEndpointImport e) = pieces rest := by
  unfold moduleEndpointImport
  dsimp only
  rw [Text.stripStart?_eq_some_iff.2 h]
  refine (segments_mark (String.ofList rest)).trans ?_
  rw [segments_eq, String.toList_ofList]

/-- Otherwise it imports the service by its whole path, as if that began in the output folder. -/
theorem segments_moduleEndpointImport_of_not
    (h : ¬l.outputFolder.toList <+: (l.endpointBase e).toList) :
    segments (l.moduleEndpointImport e) = segments (l.endpointBase e) := by
  have hnone : Text.stripStart? l.outputFolder.toList (l.endpointBase e).toList = none := by
    refine Option.eq_none_iff_forall_ne_some.2 fun rest hrest => h ⟨rest, ?_⟩
    exact (Text.stripStart?_eq_some_iff.1 hrest).symm
  unfold moduleEndpointImport
  dsimp only
  rw [hnone]
  exact segments_mark (l.endpointBase e)

/-- The import of a service by a module leads there from the file of the module. -/
def LeadsToService (l : Layout) (name : String) (e : Endpoint) : Prop :=
  resolve (folder (l.modulePath name)) (l.moduleEndpointImport e) =
    destination (segments (stripExtension (l.endpointPath e)))

instance (l : Layout) (name : String) (e : Endpoint) : Decidable (l.LeadsToService name e) :=
  inferInstanceAs (Decidable (_ = _))

/-- An import by a module is read from the output folder. -/
theorem resolve_modulePath (hname : Unseparated name) (path : String) :
    resolve (folder ((ofSettings s).modulePath name)) path =
      destination (segments s.outputFolder ++ segments path) := by
  obtain ⟨cs, hcs⟩ := exists_outputFolder s
  have hfile : Unseparated (Text.endingWith name ".module.ts") := by
    unfold Text.endingWith
    split
    · exact hname
    · exact hname.append (by decide)
  rw [modulePath, resolve_folder_append hcs hfile, segments_outputFolder]

/-- The import leads to the service exactly if the path of that begins with the output folder, as a text, or
if the output folder has no segments. -/
theorem leadsToService_iff (hname : Unseparated name) (hfolder : ".." ∉ segments s.outputFolder) :
    (ofSettings s).LeadsToService name e ↔ segments s.outputFolder = [] ∨
      (ofSettings s).outputFolder.toList <+: ((ofSettings s).endpointBase e).toList := by
  rw [LeadsToService, resolve_modulePath hname, endpointPath, stripExtension_append]
  by_cases hbegins : (ofSettings s).outputFolder.toList <+: ((ofSettings s).endpointBase e).toList
  · obtain ⟨rest, hrest⟩ := hbegins
    obtain ⟨cs, hcs⟩ := exists_outputFolder s
    have hbase : segments ((ofSettings s).endpointBase e) = segments s.outputFolder ++ pieces rest := by
      rw [← segments_outputFolder, segments_eq ((ofSettings s).endpointBase e), ← hrest,
        pieces_append_of_slash hcs]
    rw [segments_moduleEndpointImport hrest.symm, hbase]
    exact iff_of_true rfl (.inr ⟨rest, hrest⟩)
  · rw [segments_moduleEndpointImport_of_not hbegins, segments_endpointBase, or_iff_left hbegins]
    constructor
    · -- the output folder is gone into twice, and each of its names leads one level down
      intro heq
      have hdepth := congrArg depth heq
      simp only [depth_destination, depth_append, depth_eq (segments s.outputFolder)] at hdepth
      rw [List.count_eq_zero.2 hfolder] at hdepth
      exact List.length_eq_zero_iff.1 (by omega)
    · intro hnil
      rw [hnil, List.nil_append, List.nil_append]

/-- An output folder without repeated slashes, or one that names no folder at all. -/
def PlainFolder (outputFolder : String) : Prop :=
  segments outputFolder = [] ∨ ¬['/', '/'] <:+: (Text.endingWith outputFolder "/").toList

instance : DecidablePred PlainFolder := fun _ => inferInstanceAs (Decidable (_ ∨ _))

theorem outputFolder_prefix_endpointBase
    (h : ¬['/', '/'] <:+: (Text.endingWith s.outputFolder "/").toList) (e : Endpoint) :
    (ofSettings s).outputFolder.toList <+: ((ofSettings s).endpointBase e).toList := by
  obtain ⟨cs, hcs⟩ := exists_outputFolder s
  have hsingle : ¬['/', '/'] <:+: cs ++ ['/'] := hcs ▸ h
  obtain ⟨rest, hrest⟩ := collapseChars_begins hsingle
    (Text.endingWith ((ofSettings s).packagePath e.packageName) "/").toList
  have htarget : ((ofSettings s).targetFolder e.packageName).toList = cs ++ '/' :: rest := by
    rw [targetFolder, collapseSlashes, String.toList_ofList, String.toList_append, hcs, List.append_assoc]
    exact hrest
  rw [endpointBase, endpointFolder, String.toList_append, htarget, hcs]
  exact ⟨rest ++ ((ofSettings s).fileName e.container e.name).toList, by simp⟩

/-- The folder of a package has no repeated slashes, so an output folder that has some could at most go on
in the name of the file. -/
theorem not_infix_of_prefix_endpointBase
    (hfile : '/' ∉ ((ofSettings s).fileName e.container e.name).toList)
    (h : (ofSettings s).outputFolder.toList <+: ((ofSettings s).endpointBase e).toList) :
    ¬['/', '/'] <:+: (Text.endingWith s.outputFolder "/").toList := by
  obtain ⟨cs, hcs⟩ := exists_outputFolder s
  rw [endpointBase, String.toList_append] at h
  have hwithin : (ofSettings s).outputFolder.toList <+: ((ofSettings s).endpointFolder e).toList := by
    rcases List.prefix_or_prefix_of_prefix h (List.prefix_append ..) with hwithin | ⟨more, hmore⟩
    · exact hwithin
    · rw [← hmore, List.prefix_append_right_inj] at h
      obtain rfl | ⟨init, last, rfl⟩ := List.eq_nil_or_concat more
      · rw [← hmore, List.append_nil]
      · rw [hcs, List.concat_eq_append, ← List.append_assoc] at hmore
        have hlast : last = '/' := (List.cons.inj (List.append_inj' hmore rfl).2).1
        exact absurd (h.subset (by simp [hlast])) hfile
  exact fun hdouble => not_infix_targetFolder s e.packageName (hdouble.trans hwithin.isInfix)

/-- Where the output folder is written without repeated slashes, or names no folder, the import of a service
leads there from the file of the module, for every service; without climbing names this is the path of the
service as it is written. Of a service whose file has no slash in its name, the import leads there only
then. -/
theorem moduleEndpointImport_leads_iff (hname : Unseparated name) (hfolder : ".." ∉ segments s.outputFolder)
    (e : Endpoint) :
    (PlainFolder s.outputFolder → (ofSettings s).LeadsToService name e ∧
      ((∀ o ∈ s.pathOverrides, ".." ∉ segments o.2) →
        ".." ∉ segments ((ofSettings s).fileName e.container e.name) →
        resolve (folder ((ofSettings s).modulePath name)) ((ofSettings s).moduleEndpointImport e) =
          segments (stripExtension ((ofSettings s).endpointPath e)))) ∧
      ('/' ∉ ((ofSettings s).fileName e.container e.name).toList →
        ((ofSettings s).LeadsToService name e ↔ PlainFolder s.outputFolder)) := by
  have hleads (h : PlainFolder s.outputFolder) : (ofSettings s).LeadsToService name e :=
    (leadsToService_iff hname hfolder).2 (h.imp_right fun h => outputFolder_prefix_endpointBase h e)
  refine ⟨fun h => ⟨hleads h, fun hoverrides hfile => ?_⟩, fun hfile => ⟨fun h => ?_, hleads⟩⟩
  · rw [show resolve _ _ = _ from hleads h, endpointPath, stripExtension_append]
    refine destination_eq_self ?_
    rw [segments_endpointBase, List.mem_append, List.mem_append, not_or, not_or]
    exact ⟨hfolder, dots_not_mem_packagePath hoverrides _, hfile⟩
  · exact ((leadsToService_iff hname hfolder).1 h).imp_right (not_infix_of_prefix_endpointBase hfile)

/-- The service of a moved package, below an output folder that is written with slashes of both kinds. -/
theorem moduleEndpointImport_leads_moved :
    let s := { movedSettings "//libs//acme" with outputFolder := "src\\app/gen" }
    (ofSettings s).moduleEndpointImport (endpointIn "com.acme.shop" "Api") = "./libs/acme/shop/Api.generated" ∧
      resolve (folder ((ofSettings s).modulePath "shop"))
          ((ofSettings s).moduleEndpointImport (endpointIn "com.acme.shop" "Api")) =
        segments (stripExtension ((ofSettings s).endpointPath (endpointIn "com.acme.shop" "Api"))) := by
  intro s
  have hname : Unseparated "shop" := by decide +kernel
  refine ⟨by decide +kernel, ?_⟩
  exact ((moduleEndpointImport_leads_iff (s := s) hname (by decide +kernel)
    (endpointIn "com.acme.shop" "Api")).1 (by decide +kernel)).2 (by decide +kernel) (by decide +kernel)

/-- An output folder with a slash too many. -/
def doubledSettings : Settings := { Settings.standard with outputFolder := "gen//app" }

/-- The output folder is not found in the path of the service, which is then imported as if it were in there
once more. -/
theorem not_moduleEndpointImport_leads_doubled :
    ".." ∉ segments doubledSettings.outputFolder ∧
      (∀ o ∈ doubledSettings.pathOverrides, ".." ∉ segments o.2) ∧ Unseparated "shop" ∧
      (ofSettings doubledSettings).moduleEndpointImport (endpointIn "a" "Api") =
        "./gen/app/a/Api.generated" ∧
      ¬(ofSettings doubledSettings).LeadsToService "shop" (endpointIn "a" "Api") := by
  decide +kernel

end Layout

end ClientBindings
