import ClientBindings.CommandLine.FilePath
import ClientBindings.Proofs.Artifact.Paths

/-! Where the paths of artifacts begin: all of them with the output folder, so that it alone decides
whether files are written below the folder that they are stored in. -/
namespace ClientBindings

/-- Steps that come to an end have come to the end of the first of them. -/
theorem exists_of_bind_ok {ε α β : Type} {x : Except ε α} {f : α → Except ε β} {b : β}
    (h : x >>= f = .ok b) : ∃ a, x = .ok a ∧ f a = .ok b := by
  cases x with
  | error e => cases h
  | ok a => exact ⟨a, rfl, h⟩

namespace Text

theorem startsWith_slash (s : String) : startsWith "/" s = (s.toList.head? == some '/') := by
  rw [startsWith]
  cases s.toList with
  | nil => rfl
  | cons c cs =>
    by_cases h : '/' = c
    · subst h
      rfl
    · simp [stripStart?, h, Ne.symm h]

theorem head?_append {s : String} (h : s ≠ "") (t : String) :
    (s ++ t).toList.head? = s.toList.head? := by
  rw [String.toList_append, List.head?_append_of_ne_nil]
  exact fun hnil => h (String.toList_inj.1 hnil)

theorem head?_endingWith {s : String} (h : s ≠ "") (tail : String) :
    (endingWith s tail).toList.head? = s.toList.head? := by
  unfold endingWith
  split
  · rfl
  · exact head?_append h tail

theorem endingWith_ne_empty {s tail : String} (h : tail ≠ "") : endingWith s tail ≠ "" := by
  obtain ⟨r, hr⟩ := exists_endingWith s tail
  rw [hr, ne_eq, String.append_eq_empty_iff]
  exact fun hempty => h hempty.2

theorem endingWith_idem (s tail : String) :
    endingWith (endingWith s tail) tail = endingWith s tail := by
  obtain ⟨r, hr⟩ := exists_endingWith s tail
  rw [hr, endingWith_append]

end Text

namespace FilePath

/-- A path behind the folder that it is below; the empty folder is the current one. -/
def below (folder path : String) : String :=
  (if folder.isEmpty then "" else Text.endingWith folder "/") ++ path

theorem join_of_relative {path : String} (h : Text.startsWith "/" path = false) (folder : String) :
    join folder path = below folder path := by
  unfold join below Text.endingWith
  cases hempty : folder.isEmpty with
  | true => simp
  | false =>
    cases hslash : Text.endsWith "/" folder <;>
      simp [h, String.append_assoc]

end FilePath

namespace Layout

variable {l : Layout}

theorem head?_targetFolder (h : l.outputFolder ≠ "") (package : String) :
    (l.targetFolder package).toList.head? = l.outputFolder.toList.head? := by
  rw [targetFolder, Path.collapseSlashes, String.toList_ofList, Path.head?_collapseChars,
    Text.head?_append h]

theorem targetFolder_ne_empty (l : Layout) (package : String) : l.targetFolder package ≠ "" := by
  obtain ⟨cs, hcs⟩ := l.exists_targetFolder package
  intro hempty
  rw [hempty] at hcs
  exact absurd hcs.symm (by simp)

theorem head?_place (h : l.outputFolder ≠ "") (container : Option Container) (name : String) :
    (l.place container name).toList.head? = l.outputFolder.toList.head? := by
  rw [place, Text.head?_append (l.targetFolder_ne_empty _), head?_targetFolder h]

theorem place_ne_empty (l : Layout) (container : Option Container) (name : String) :
    l.place container name ≠ "" := by
  intro hempty
  rw [place, String.append_eq_empty_iff] at hempty
  exact l.targetFolder_ne_empty _ hempty.1

theorem head?_typePath (h : l.outputFolder ≠ "") (d : TypeDefinition) :
    (l.typePath d).toList.head? = l.outputFolder.toList.head? := by
  rw [typePath_eq, Text.head?_append (l.place_ne_empty _ _), head?_place h]

theorem head?_endpointPath (h : l.outputFolder ≠ "") (e : Endpoint) :
    (l.endpointPath e).toList.head? = l.outputFolder.toList.head? := by
  rw [endpointPath_eq, Text.head?_append (l.place_ne_empty _ _), head?_place h]

end Layout

namespace Settings

variable {env : Environment} {s s' : Settings}

/-- The output folder as it is configured: by the environment, or else by the settings. -/
def configuredFolder (env : Environment) (s : Settings) : String :=
  (env.lookup outputFolderVariable).getD s.outputFolder

theorem outputFolder_finish (h : s.finish env = .ok s') :
    s'.outputFolder = Text.endingWith (s.configuredFolder env) "/" := by
  have hchecked : ∀ width, (s.exclusions >>= fun _ =>
      (pure { s with
        outputFolder := Text.endingWith (s.configuredFolder env) "/", indentWidth := width } :
          Except Failure Settings)) = .ok s' →
      s'.outputFolder = Text.endingWith (s.configuredFolder env) "/" := by
    intro width h
    obtain ⟨rules, -, h⟩ := exists_of_bind_ok h
    rw [← Except.ok.inj h]
  unfold finish at h
  dsimp only at h
  split at h
  · exact hchecked _ h
  · split at h
    · exact hchecked _ h
    · cases h

/-- A folder that is closed with a slash is absolute if it was, or if there was no folder. -/
theorem startsWith_endingWith_slash (folder : String) :
    Text.startsWith "/" (Text.endingWith folder "/") = false ↔
      folder ≠ "" ∧ Text.startsWith "/" folder = false := by
  by_cases h : folder = ""
  · subst h
    decide
  · rw [Text.startsWith_slash, Text.startsWith_slash, Text.head?_endingWith h]
    exact (and_iff_right h).symm

end Settings

namespace Artifact

variable {s : Settings}

/-- Every path of a model begins as the output folder does. -/
theorem startsWith_emission {es : List Endpoint} {w : Workspace} {a : Artifact}
    (ha : a ∈ ((emission s es).run w).1) :
    Text.startsWith "/" a.path = Text.startsWith "/" (Layout.ofSettings s).outputFolder := by
  have hfolder : (Layout.ofSettings s).outputFolder ≠ "" := Text.endingWith_ne_empty (by decide)
  have hpath := List.mem_map_of_mem (f := (·.path)) ha
  rw [paths_emission] at hpath
  rw [Text.startsWith_slash, Text.startsWith_slash]
  simp only [List.mem_append, List.mem_map] at hpath
  rcases hpath with ((⟨f, -, hf⟩ | ⟨d, -, hd⟩) | ⟨e, -, he⟩) | ⟨m, -, hm⟩
  · rw [← hf, Layout.rootPath, Text.head?_append hfolder]
  · rw [← hd, Layout.head?_typePath hfolder]
  · rw [← he, Layout.head?_endpointPath hfolder]
  · rw [← hm, Layout.modulePath, Text.head?_append hfolder]

theorem emission_ne_nil (s : Settings) (es : List Endpoint) (w : Workspace) :
    ∃ a, a ∈ ((emission s es).run w).1 :=
  ⟨_, List.mem_cons_self ..⟩

end Artifact

namespace Processor

variable {p q : Processor} {symbols : SymbolTable} {s : Settings} {cs : List String}
  {pending : PendingRound}

/-- The artifacts of a round are those of the model that it leaves. -/
theorem artifacts_prepare (h : p.prepare symbols s cs true = (.ok pending, q)) :
    ∃ w : Workspace, pending.artifacts = ((Artifact.emission s (w.endpoints.map (·.2))).run w).1 := by
  unfold prepare at h
  split at h
  · cases h
  · rename_i cx g _
    rcases hb : (buildControllers cx.buildEndpoint cs).run ⟨g, p.endpoints, []⟩ with ⟨f | built, w⟩
    · rw [hb] at h
      cases h
    · rw [hb] at h
      obtain ⟨hpending, -⟩ := Prod.mk.inj h
      rw [← Except.ok.inj hpending]
      exact ⟨w, rfl⟩

/-- With finished settings, what a round writes goes below the folder that it is stored in exactly if
the output folder was configured as a relative path, and not left empty. -/
theorem prepare_below_iff {env : Environment} {configured : Settings}
    (hs : configured.finish env = .ok s) (h : p.prepare symbols s cs true = (.ok pending, q)) :
    (∀ a ∈ pending.artifacts, Text.startsWith "/" a.path = false ∧
        ∀ folder, FilePath.join folder a.path = FilePath.below folder a.path) ↔
      configured.configuredFolder env ≠ "" ∧
        Text.startsWith "/" (configured.configuredFolder env) = false := by
  obtain ⟨w, hartifacts⟩ := artifacts_prepare h
  have hfolder : (Layout.ofSettings s).outputFolder =
      Text.endingWith (configured.configuredFolder env) "/" := by
    rw [Layout.ofSettings, Settings.outputFolder_finish hs]
    exact Text.endingWith_idem _ _
  rw [← Settings.startsWith_endingWith_slash, ← hfolder, hartifacts]
  constructor
  · intro hbelow
    obtain ⟨a, ha⟩ := Artifact.emission_ne_nil s (w.endpoints.map (·.2)) w
    rw [← Artifact.startsWith_emission ha]
    exact (hbelow a ha).1
  · intro hrelative a ha
    have hpath := (Artifact.startsWith_emission ha).trans hrelative
    exact ⟨hpath, FilePath.join_of_relative hpath⟩

/-- A controller without methods. -/
def bareExport : SymbolTable where
  types := [⟨"a.Api", none, none, none, .classType, [], [.written Marker.endpoint []], [], none, [], [], [],
    [], []⟩]
  annotationTypes := []

/-- The paths of its round, with settings that are finished first. -/
def barePaths (configured : Settings) : Except Failure (List String) := do
  let s ← configured.finish []
  let pending ← (initial.prepare bareExport s ["a.Api"] true).1
  pure (pending.artifacts.map (·.path))

theorem exists_of_barePaths {configured : Settings} {paths : List String}
    (h : (barePaths configured).toOption = some paths) : ∃ s pending q,
      configured.finish [] = .ok s ∧
        initial.prepare bareExport s ["a.Api"] true = (.ok pending, q) ∧
        pending.artifacts.map (·.path) = paths := by
  cases hpaths : barePaths configured with
  | error f =>
    rw [hpaths] at h
    cases h
  | ok _ =>
    rw [hpaths] at h
    cases h
    obtain ⟨s, hs, hpaths⟩ := exists_of_bind_ok hpaths
    obtain ⟨pending, hpending, hpaths⟩ := exists_of_bind_ok hpaths
    exact ⟨s, pending, _, hs, Prod.ext hpending rfl, Except.ok.inj hpaths⟩

/-- By default everything goes below the folder that it is stored in. -/
theorem prepare_below_standard : ∃ s pending q, Settings.standard.finish [] = .ok s ∧
    initial.prepare bareExport s ["a.Api"] true = (.ok pending, q) ∧
      ∀ a ∈ pending.artifacts, Text.startsWith "/" a.path = false ∧
        ∀ folder, FilePath.join folder a.path = FilePath.below folder a.path := by
  obtain ⟨s, pending, q, hs, h, -⟩ := exists_of_barePaths
    (by decide +kernel : (barePaths .standard).toOption = some ["sys-gen/sys-std.ts",
      "sys-gen/sys-request-manager.ts", "sys-gen/a/Api.generated.ts", "sys-gen/service-api.module.ts"])
  exact ⟨s, pending, q, hs, h, (prepare_below_iff hs h).2 (by decide)⟩

/-- An output folder that is left empty is finished to the root of the file system, where nothing
stays below the folder that it is stored in. -/
theorem not_prepare_below_empty : ∃ s pending q, Text.startsWith "/" "" = false ∧
    ({ Settings.standard with outputFolder := "" }).finish [] = .ok s ∧
      initial.prepare bareExport s ["a.Api"] true = (.ok pending, q) ∧
      pending.artifacts.map (·.path) = ["/sys-std.ts", "/sys-request-manager.ts",
        "/a/Api.generated.ts", "/service-api.module.ts"] ∧
      FilePath.join "out" "/a/Api.generated.ts" = "/a/Api.generated.ts" := by
  obtain ⟨s, pending, q, hs, h, hpaths⟩ := exists_of_barePaths
    (by decide +kernel : (barePaths { Settings.standard with outputFolder := "" }).toOption =
      some ["/sys-std.ts", "/sys-request-manager.ts", "/a/Api.generated.ts", "/service-api.module.ts"])
  exact ⟨s, pending, q, by decide, hs, h, hpaths, by decide⟩

end Processor

end ClientBindings
