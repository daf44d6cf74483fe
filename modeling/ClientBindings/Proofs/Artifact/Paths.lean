import Mathlib.Data.List.Nodup
import ClientBindings.Processor
import ClientBindings.Proofs.Emission
import ClientBindings.Proofs.Presentation.Controllers

/-! The paths of the artifacts of a model: one for each shared file, type, service and module, in this
order. Files that are stored under different paths are all there afterwards. -/
namespace ClientBindings

namespace Text

theorem stripStart?_append (start cs : List Char) : stripStart? start (start ++ cs) = some cs := by
  induction start with
  | nil => cases cs <;> rfl
  | cons a start ih => simpa [stripStart?] using ih

theorem endsWith_append (s tail : String) : endsWith tail (s ++ tail) = true := by
  rw [endsWith, String.toList_append, List.reverse_append, stripStart?_append]
  rfl

theorem endingWith_append (s tail : String) : endingWith (s ++ tail) tail = s ++ tail :=
  if_pos (endsWith_append s tail)

theorem exists_of_stripStart? {start cs : List Char} (h : (stripStart? start cs).isSome = true) :
    ∃ rest, cs = start ++ rest := by
  induction start generalizing cs with
  | nil => exact ⟨cs, rfl⟩
  | cons a start ih =>
    cases cs with
    | nil => cases h
    | cons c cs =>
      rw [stripStart?] at h
      split at h
      · rename_i heq
        obtain ⟨rest, rfl⟩ := ih h
        exact ⟨rest, by rw [heq]; rfl⟩
      · cases h

theorem startsWith_iff {start s : String} :
    startsWith start s = true ↔ start.toList <+: s.toList := by
  constructor
  · intro h
    obtain ⟨rest, hrest⟩ := exists_of_stripStart? h
    exact ⟨rest, hrest.symm⟩
  · rintro ⟨rest, hrest⟩
    rw [startsWith, ← hrest, stripStart?_append]
    rfl

theorem exists_of_endsWith {s tail : String} (h : endsWith tail s = true) : ∃ r, s = r ++ tail := by
  obtain ⟨rest, hrest⟩ := exists_of_stripStart? h
  refine ⟨String.ofList rest.reverse, String.toList_inj.1 ?_⟩
  rw [String.toList_append, String.toList_ofList, ← List.reverse_inj, hrest]
  simp

theorem exists_endingWith (s tail : String) : ∃ r, endingWith s tail = r ++ tail := by
  unfold endingWith
  split
  · rename_i h
    exact exists_of_endsWith h
  · exact ⟨s, rfl⟩

end Text

theorem Path.collapseChars_concat_slash (cs : List Char) :
    ∃ ds, collapseChars (cs ++ ['/']) = ds ++ ['/'] := by
  induction cs using collapseChars.induct with
  | case1 rest ih => simpa [collapseChars] using ih
  | case2 c rest hne ih =>
    obtain ⟨ds, hds⟩ := ih
    cases rest with
    | nil =>
      by_cases hc : c = '/'
      · exact ⟨[], by subst hc; rfl⟩
      · exact ⟨[c], by simp [collapseChars, hc]⟩
    | cons c' rest =>
      refine ⟨c :: ds, ?_⟩
      rw [List.cons_append, List.cons_append, collapseChars, ← List.cons_append, hds, List.cons_append]
      intro rest' hc heq
      exact hne rest hc (by rw [(List.cons.inj heq).1])
  | case3 => exact ⟨[], rfl⟩

theorem Path.head?_collapseChars (cs : List Char) : (collapseChars cs).head? = cs.head? := by
  induction cs using collapseChars.induct with
  | case1 rest ih => simpa [collapseChars] using ih
  | case2 c rest hne ih => rw [collapseChars, List.head?_cons, List.head?_cons]; exact hne
  | case3 => rfl

/-- Where two texts are split at the last slash of both, they are the same in both parts. -/
theorem append_slash_inj {xs ys as bs : List Char} (ha : '/' ∉ as) (hb : '/' ∉ bs)
    (h : xs ++ '/' :: as = ys ++ '/' :: bs) : xs = ys ∧ as = bs := by
  have hreverse : as.reverse ++ '/' :: xs.reverse = bs.reverse ++ '/' :: ys.reverse := by
    simpa using congrArg List.reverse h
  obtain ⟨has, hxs⟩ := append_cons_inj (by simpa using ha) (by simpa using hb) hreverse
  exact ⟨List.reverse_inj.1 hxs, List.reverse_inj.1 has⟩

namespace Layout

/-- The name of an artifact after those of the enclosing types, without what all names end with. -/
def stem (container : Option Container) (name : String) : String :=
  String.join ((enclosingNamesOf container).map (· ++ "$")) ++ name

/-- The folder of a type or a service and its name in there. -/
def place (l : Layout) (container : Option Container) (name : String) : String :=
  l.targetFolder (packageNameOf container) ++ stem container name

theorem typePath_eq (l : Layout) (d : TypeDefinition) :
    l.typePath d = l.place d.container d.shortName ++ (l.generatedSuffix ++ ".ts") := by
  simp only [typePath, typeFolder, typeFileName, fileName, place, stem, TypeDefinition.packageName,
    String.append_assoc]

theorem endpointPath_eq (l : Layout) (e : Endpoint) :
    l.endpointPath e = l.place e.container e.name ++ (l.generatedSuffix ++ ".ts") := by
  simp only [endpointPath, endpointBase, endpointFolder, fileName, place, stem, Endpoint.packageName,
    String.append_assoc]

theorem exists_targetFolder (l : Layout) (package : String) :
    ∃ cs, (l.targetFolder package).toList = cs ++ ['/'] := by
  obtain ⟨r, hr⟩ := Text.exists_endingWith (l.packagePath package) "/"
  rw [targetFolder, hr, Path.collapseSlashes, String.toList_ofList, String.toList_append,
    String.toList_append, ← List.append_assoc]
  exact Path.collapseChars_concat_slash _

end Layout

theorem TypeGraph.isImportable_of_mem_emittable {g : TypeGraph} {d : TypeDefinition} (h : d ∈ g.emittable) :
    d.kind.isImportable = true :=
  (Bool.and_eq_true_iff.1 (List.mem_filter.1 h).2).2

/-- Values of elements with different keys are different exactly if no two keys have the same. -/
theorem nodup_map_iff_of_keys {α β κ : Type} {key : α → κ} {f : α → β} {items : List α}
    (h : (items.map key).Nodup) : (items.map f).Nodup ↔
      ∀ a ∈ items, ∀ b ∈ items, key a ≠ key b → f a ≠ f b := by
  rw [List.nodup_map_iff_inj_on h.of_map]
  constructor
  · exact fun hf a ha b hb hne heq => hne (congrArg key (hf a ha b hb heq))
  · intro hf a ha b hb heq
    by_contra hne
    exact hf a ha b hb (fun hkey => hne (List.inj_on_of_nodup_map h ha hb hkey)) heq

namespace Artifact

variable {s : Settings} {l : Layout} {es : List Endpoint}

/-- The names of the shared files that are written. -/
def sharedNames (s : Settings) : List String :=
  s.stdApiFileName :: if s.httpServiceInclude.isNone then [s.requestManagerFileName] else []

/-- The names of the modules that endpoints belong to. -/
def moduleNames (s : Settings) (es : List Endpoint) : List String := (groupModules s es).map (·.1)

theorem paths_sharedArtifacts (s : Settings) (l : Layout) :
    (sharedArtifacts s l).map (·.path) = (sharedNames s).map l.rootPath := by
  unfold sharedArtifacts sharedNames
  split <;> rfl

theorem isSome_typeText? {d : TypeDefinition} (hd : d.kind.isImportable = true) (w : Workspace) :
    ((typeText? s l d).run w).1.isSome = true := by
  unfold typeText?
  cases hk : d.kind <;> simp only [hk, TypeKind.isImportable, Bool.false_eq_true] at hd ⊢ <;> rfl

/-- Each type has its artifact. -/
theorem forall₂_typeArtifacts {ds : List TypeDefinition} (h : ∀ d ∈ ds, d.kind.isImportable = true)
    (w : Workspace) : List.Forall₂ (fun d a => a.path = l.typePath d ∧
      (w.graph.Stocked → ((typeText? s l d).run w).1 = some a.content)) ds
      ((typeArtifacts s l ds).run w).1 := by
  induction ds generalizing w with
  | nil => exact .nil
  | cons d ds ih =>
    obtain ⟨content, hcontent⟩ := Option.isSome_iff_exists.1
      (isSome_typeText? (s := s) (l := l) (h d (List.mem_cons_self ..)) w)
    have hrest := ih (fun d hd => h d (List.mem_cons_of_mem _ hd)) ((typeText? s l d).run w).2
    change List.Forall₂ _ _ ((((typeText? s l d).run w).1.map fun c => ⟨l.typePath d, c⟩).toList ++
      ((typeArtifacts s l ds).run ((typeText? s l d).run w).2).1)
    rw [hcontent]
    refine .cons ⟨rfl, fun _ => hcontent⟩ (hrest.imp ?_)
    rintro d' a ⟨hpath, htext⟩
    refine ⟨hpath, fun hw => ?_⟩
    have hgraph := ((reads_typeText? s l d).run_eq hw rfl).2
    exact ((reads_typeText? s l d').run_eq hw hgraph).1.symm.trans (htext (hgraph.symm ▸ hw))

/-- Each endpoint has its service, which is that of the model whatever has been reported before. -/
theorem forall₂_serviceArtifacts (es : List Endpoint) {w w' : Workspace}
    (hgraph : w.graph.Stocked → w'.graph = w.graph) :
    List.Forall₂ (fun e a => a.path = l.endpointPath e ∧
      (∃ v, ((serviceText s l e).run v).1 = a.content) ∧
      (w.graph.Stocked → ((serviceText s l e).run w).1 = a.content)) es
      ((serviceArtifacts s l es).run w').1 := by
  induction es generalizing w' with
  | nil => exact .nil
  | cons e es ih =>
    have hreads := reads_serviceText s l e
    refine .cons ⟨rfl, ⟨w', rfl⟩, fun hw => (hreads.run_eq hw (hgraph hw)).1.symm⟩ (ih fun hw => ?_)
    exact (hreads.run_eq hw (hgraph hw)).2

theorem paths_eq_of_forall₂ {α : Type} {path : α → String} {P : α → Artifact → Prop} {items : List α}
    {as : List Artifact} (h : List.Forall₂ (fun x a => a.path = path x ∧ P x a) items as) :
    as.map (·.path) = items.map path := by
  induction h with
  | nil => rfl
  | cons hfirst _ ih => rw [List.map_cons, List.map_cons, hfirst.1, ih]

theorem paths_typeArtifacts {ds : List TypeDefinition} (h : ∀ d ∈ ds, d.kind.isImportable = true)
    (w : Workspace) : ((typeArtifacts s l ds).run w).1.map (·.path) = ds.map l.typePath :=
  paths_eq_of_forall₂ (forall₂_typeArtifacts h w)

theorem paths_serviceArtifacts (es : List Endpoint) (w : Workspace) :
    ((serviceArtifacts s l es).run w).1.map (·.path) = es.map l.endpointPath :=
  paths_eq_of_forall₂ (forall₂_serviceArtifacts es fun _ => rfl)

theorem paths_moduleArtifacts : (moduleArtifacts s l es).map (·.path) =
    (moduleNames s es).map l.modulePath := by
  rw [moduleArtifacts, moduleNames, List.map_map, List.map_map]
  rfl

/-- What is written, in order, whatever has been reported before. -/
theorem paths_emission (s : Settings) (es : List Endpoint) (w : Workspace) :
    ((emission s es).run w).1.map (·.path) =
      (sharedNames s).map (Layout.ofSettings s).rootPath ++
        w.graph.emittable.map (Layout.ofSettings s).typePath ++
        es.map (Layout.ofSettings s).endpointPath ++
        (moduleNames s es).map (Layout.ofSettings s).modulePath := by
  have hemittable : ∀ d ∈ w.graph.emittable, d.kind.isImportable = true := fun _ =>
    TypeGraph.isImportable_of_mem_emittable
  change List.map (·.path) (sharedArtifacts s _ ++ ((typeArtifacts s _ w.graph.emittable).run w).1 ++
    ((serviceArtifacts s _ es).run _).1 ++ moduleArtifacts s _ es) = _
  simp only [List.map_append, paths_sharedArtifacts, paths_typeArtifacts hemittable,
    paths_serviceArtifacts, paths_moduleArtifacts]

theorem keys_foldl_addToModule (s : Settings) (es : List Endpoint) {modules : Dict (List Endpoint)}
    (h : modules.Sorted) :
    (es.foldl (addToModule s) modules).Sorted ∧
      ∀ m, m ∈ (es.foldl (addToModule s) modules).map (·.1) ↔
        m ∈ modules.map (·.1) ∨ ∃ e ∈ es, moduleOf s e = m := by
  induction es generalizing modules with
  | nil => exact ⟨h, by simp⟩
  | cons e es ih =>
    have hadded : (addToModule s modules e).Sorted := Dict.sorted_insert h
    obtain ⟨hsorted, hmem⟩ := ih hadded
    refine ⟨hsorted, fun m => ?_⟩
    rw [List.foldl_cons, hmem, addToModule, Dict.mem_keys_insert]
    simp only [List.mem_cons, exists_eq_or_imp]
    constructor
    · rintro ((rfl | h) | h)
      · exact .inr (.inl rfl)
      · exact .inl h
      · exact .inr (.inr h)
    · rintro (h | rfl | h)
      · exact .inl (.inr h)
      · exact .inl (.inl rfl)
      · exact .inr h

theorem moduleNames_eq (s : Settings) (es : List Endpoint) :
    moduleNames s es = (es.foldl (addToModule s) []).map (·.1) := by
  rw [moduleNames, groupModules, List.map_map]
  rfl

theorem nodup_moduleNames (s : Settings) (es : List Endpoint) : (moduleNames s es).Nodup := by
  rw [moduleNames_eq]
  exact Dict.nodup_keys (keys_foldl_addToModule s es Dict.sorted_nil).1

theorem mem_moduleNames {m : String} : m ∈ moduleNames s es ↔ ∃ e ∈ es, moduleOf s e = m := by
  rw [moduleNames_eq, (keys_foldl_addToModule s es Dict.sorted_nil).2]
  simp

end Artifact

namespace MemoryFiles

/-- Files that are written to different paths are all there afterwards. -/
theorem get?_writeAll {as : List Artifact} (h : (as.map (·.path)).Nodup) (files : MemoryFiles) :
    (∀ a ∈ as, ((Processor.writeAll MemoryFiles.store as).run files).2.get? a.path = some a.content) ∧
      ∀ path ∉ as.map (·.path),
        ((Processor.writeAll MemoryFiles.store as).run files).2.get? path = files.get? path := by
  induction as generalizing files with
  | nil => exact ⟨fun a ha => (nomatch ha), fun _ _ => rfl⟩
  | cons a as ih =>
    obtain ⟨ha, has⟩ := List.nodup_cons.1 h
    obtain ⟨hwritten, hother⟩ := ih has (files.insert a.path a.content)
    refine ⟨fun b hb => ?_, fun path hpath => ?_⟩
    · rcases List.mem_cons.1 hb with rfl | hb
      · exact (hother b.path ha).trans (Dict.get?_insert_self _ _)
      · exact hwritten b hb
    · rw [List.map_cons, List.mem_cons, not_or] at hpath
      obtain ⟨hne, hpath⟩ := hpath
      exact (hother path hpath).trans (Dict.get?_insert_of_ne _ _ hne)

end MemoryFiles

end ClientBindings
