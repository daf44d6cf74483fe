import Mathlib.Data.List.DropRight
import ClientBindings.Proofs.Naming.Segments

/-! Where files go, by names. A path is a folder and what names are put together to, and it is given twice
exactly if two files come to the same folder and the same names. -/
namespace ClientBindings

/-- A folder, and in it the names that the name of a file is put together from. -/
@[ext] structure Spot where
  folder : String
  names : List String
  deriving DecidableEq, Repr

namespace Spot

/-- A dollar sign in a name parts it in two, as it parts that of an enclosing type from the next. -/
def parts (name : String) : List String := (name.toList.splitOn '$').map String.ofList

/-- Where a name leads from a folder. A slash in it leads to a folder below. -/
def of (folder name : String) : Spot where
  folder := folder ++ String.ofList (name.toList.rdropWhile (· != '/'))
  names := parts (String.ofList (name.toList.rtakeWhile (· != '/')))

/-- A text that ends with a slash. -/
def IsFolder (folder : String) : Prop := ∃ cs, folder.toList = cs ++ ['/']

/-- A name that leads nowhere else and is no more than one. -/
def Plain (name : String) : Prop := '/' ∉ name.toList ∧ '$' ∉ name.toList

variable {folder folder' name name' : String} {names : List String}

theorem parts_inj : parts name = parts name' ↔ name = name' := by
  refine ⟨fun h => ?_, congrArg parts⟩
  have hsplit : name.toList.splitOn '$' = name'.toList.splitOn '$' :=
    List.map_injective_iff.2 (fun _ _ => String.ofList_inj.1) h
  have hjoined := congrArg ['$'].intercalate hsplit
  rw [List.intercalate_splitOn, List.intercalate_splitOn] at hjoined
  exact String.toList_inj.1 hjoined

/-- Names that are put together have the parts of each. -/
theorem parts_intercalate (hne : names ≠ []) : parts ("$".intercalate names) = names.flatMap parts := by
  induction names with
  | nil => exact absurd rfl hne
  | cons n names ih =>
    cases names with
    | nil => simp
    | cons m names =>
      have happend : ("$".intercalate (n :: m :: names)).toList =
          n.toList ++ '$' :: ("$".intercalate (m :: names)).toList := by
        simp [String.intercalate_cons_cons]
      have hsplit : (n.toList ++ '$' :: ("$".intercalate (m :: names)).toList).splitOn '$' =
          n.toList.splitOn '$' ++ ("$".intercalate (m :: names)).toList.splitOn '$' :=
        List.splitOnP_append_cons _ _ (beq_self_eq_true '$')
      rw [List.flatMap_cons, ← ih (List.cons_ne_nil _ _), parts, happend, hsplit, List.map_append]
      rfl

theorem flatMap_parts (h : ∀ n ∈ names, Plain n) : names.flatMap parts = names := by
  induction names with
  | nil => rfl
  | cons n names ih =>
    rw [List.forall_mem_cons] at h
    rw [List.flatMap_cons, ih h.2, parts, List.splitOn_eq_singleton h.1.2]
    simp

theorem names_of (folder name : String) :
    (of folder name).names = parts (String.ofList (name.toList.rtakeWhile (· != '/'))) := by
  rw [of]

theorem toList_append_name (folder name : String) : (folder ++ name).toList =
    (of folder name).folder.toList ++ name.toList.rtakeWhile (· != '/') := by
  rw [of, String.toList_append, String.toList_append, String.toList_ofList, List.append_assoc,
    List.rdropWhile_append_rtakeWhile]

/-- Slashes in the name lead to a folder again. -/
theorem isFolder_of (h : IsFolder folder) (name : String) : IsFolder (of folder name).folder := by
  obtain ⟨cs, hcs⟩ := h
  rw [IsFolder, of, String.toList_append, String.toList_ofList, hcs]
  by_cases hnil : name.toList.rdropWhile (· != '/') = []
  · exact ⟨cs, by rw [hnil, List.append_nil]⟩
  · have hlast := List.rdropWhile_last_not _ _ hnil
    have hslash : (name.toList.rdropWhile (· != '/')).getLast hnil = '/' := by simpa using hlast
    refine ⟨cs ++ '/' :: (name.toList.rdropWhile (· != '/')).dropLast, ?_⟩
    conv_lhs => rw [← List.dropLast_append_getLast hnil, hslash]
    simp

theorem slash_notMem_rtakeWhile (cs : List Char) : '/' ∉ cs.rtakeWhile (· != '/') := by
  intro h
  simpa using List.mem_rtakeWhile_imp h

/-- Paths are the same exactly if they come to the same folder and the same names. -/
theorem of_inj (h : IsFolder folder) (h' : IsFolder folder') :
    of folder name = of folder' name' ↔ folder ++ name = folder' ++ name' := by
  constructor
  · intro heq
    have hparts := congrArg Spot.names heq
    rw [names_of, names_of, parts_inj, String.ofList_inj] at hparts
    rw [← String.toList_inj, toList_append_name, toList_append_name, heq, hparts]
  · intro heq
    obtain ⟨cs, hcs⟩ := isFolder_of h name
    obtain ⟨cs', hcs'⟩ := isFolder_of h' name'
    have hlists := congrArg String.toList heq
    rw [toList_append_name, toList_append_name, hcs, hcs', List.append_assoc, List.append_assoc] at hlists
    obtain ⟨rfl, hlast⟩ := append_slash_inj (slash_notMem_rtakeWhile _) (slash_notMem_rtakeWhile _) hlists
    have hfolder : (of folder name).folder = (of folder' name').folder :=
      String.toList_inj.1 (hcs.trans hcs'.symm)
    have hnames : (of folder name).names = (of folder' name').names := by
      rw [names_of, names_of, hlast]
    exact Spot.ext hfolder hnames

theorem slash_notMem_intercalate (h : ∀ n ∈ names, '/' ∉ n.toList) :
    '/' ∉ ("$".intercalate names).toList := by
  induction names with
  | nil => simp
  | cons n names ih =>
    rw [List.forall_mem_cons] at h
    cases names with
    | nil => simpa using h.1
    | cons m names =>
      rw [String.intercalate_cons_cons, String.toList_append, String.toList_append, List.mem_append,
        List.mem_append]
      simpa [h.1] using ih h.2

/-- Names without a slash stay in the folder. -/
theorem of_intercalate (hne : names ≠ []) (h : ∀ n ∈ names, '/' ∉ n.toList) (folder : String) :
    of folder ("$".intercalate names) = ⟨folder, names.flatMap parts⟩ := by
  have hslash := slash_notMem_intercalate h
  have hfront : ("$".intercalate names).toList.rdropWhile (· != '/') = [] :=
    List.rdropWhile_eq_nil_iff.2 fun c hc => by simpa using fun heq : c = '/' => hslash (heq ▸ hc)
  have hlast : ("$".intercalate names).toList.rtakeWhile (· != '/') = ("$".intercalate names).toList :=
    List.rtakeWhile_eq_self_iff.2 fun c hc => by simpa using fun heq : c = '/' => hslash (heq ▸ hc)
  rw [of, hfront, hlast, String.ofList_toList, parts_intercalate hne, String.ofList_nil, String.append_empty]

end Spot

namespace Layout

variable {l : Layout} {c c' : Option Container} {n n' : String}

/-- Where a type or a service goes by its name: to the folder of its package, with the names of the
enclosing types before its own. -/
def spot (l : Layout) (c : Option Container) (n : String) : Spot :=
  .of (l.targetFolder (packageNameOf c)) ("$".intercalate (enclosingNamesOf c ++ [n]))

/-- Where a file goes that is not in the folder of a package. -/
def rootSpot (l : Layout) (n : String) : Spot := .of l.outputFolder n

theorem stem_eq (c : Option Container) (n : String) :
    stem c n = "$".intercalate (enclosingNamesOf c ++ [n]) := by
  rw [stem]
  induction enclosingNamesOf c with
  | nil => simp
  | cons m names ih =>
    rw [List.cons_append, String.intercalate_cons_of_ne_nil (by simp), ← ih, List.map_cons,
      String.join_cons, String.append_assoc]

theorem isFolder_targetFolder (l : Layout) (package : String) : Spot.IsFolder (l.targetFolder package) :=
  l.exists_targetFolder package

/-- Types and services are given the same place exactly if they come to the same folder and names. -/
theorem spot_inj : l.spot c n = l.spot c' n' ↔ l.place c n = l.place c' n' := by
  rw [place, place, stem_eq, stem_eq]
  exact Spot.of_inj (l.isFolder_targetFolder _) (l.isFolder_targetFolder _)

/-- If no slash is in their names, to the same folder with the same parts of names, the enclosing ones and
their own. -/
theorem spot_inj_of_no_slash (h : ∀ m ∈ enclosingNamesOf c ++ [n], '/' ∉ m.toList)
    (h' : ∀ m ∈ enclosingNamesOf c' ++ [n'], '/' ∉ m.toList) : l.spot c n = l.spot c' n' ↔
      l.targetFolder (packageNameOf c) = l.targetFolder (packageNameOf c') ∧
        (enclosingNamesOf c ++ [n]).flatMap Spot.parts =
          (enclosingNamesOf c' ++ [n']).flatMap Spot.parts := by
  rw [spot, spot, Spot.of_intercalate (by simp) h, Spot.of_intercalate (by simp) h', Spot.mk.injEq]

/-- If their names are plain, to the same folder with the same enclosing names and the same own. -/
theorem spot_inj_of_plain (h : ∀ m ∈ enclosingNamesOf c ++ [n], Spot.Plain m)
    (h' : ∀ m ∈ enclosingNamesOf c' ++ [n'], Spot.Plain m) : l.spot c n = l.spot c' n' ↔
      l.targetFolder (packageNameOf c) = l.targetFolder (packageNameOf c') ∧
        enclosingNamesOf c = enclosingNamesOf c' ∧ n = n' := by
  rw [spot_inj_of_no_slash (fun m hm => (h m hm).1) (fun m hm => (h' m hm).1), Spot.flatMap_parts h,
    Spot.flatMap_parts h', List.append_singleton_inj]

/-- The name of a module's file, but for the extension. -/
def moduleStem (name : String) : String := (Text.stripEnd? ".module.ts" name).getD name ++ ".module"

theorem rootPath_eq (l : Layout) (f : String) :
    l.rootPath f = l.outputFolder ++ stripExtension f ++ ".ts" := by
  rw [rootPath, Text.endingWith_eq, String.append_assoc]
  rfl

theorem modulePath_eq (l : Layout) (m : String) :
    l.modulePath m = l.outputFolder ++ moduleStem m ++ ".ts" := by
  rw [modulePath, Text.endingWith_eq, moduleStem, String.append_assoc, String.append_assoc]
  rfl

theorem place_append (l : Layout) (c : Option Container) (n tail : String) :
    l.place c (n ++ tail) = l.place c n ++ tail := by
  simp only [place, stem, String.append_assoc]

/-- Two files of types and services. -/
theorem place_append_inj {tail : String} :
    l.place c n ++ tail = l.place c' n' ++ tail ↔ l.spot c n = l.spot c' n' := by
  rw [String.append_left_inj, spot_inj]

/-- A file that is not in the folder of a package, and one of a type or of a service. -/
theorem root_append_inj (hl : Spot.IsFolder l.outputFolder) {file : String} :
    l.outputFolder ++ file ++ ".ts" = l.place c n ++ (l.generatedSuffix ++ ".ts") ↔
      l.rootSpot file = l.spot c (n ++ l.generatedSuffix) := by
  rw [← String.append_assoc, String.append_left_inj, ← place_append, place, stem_eq]
  exact (Spot.of_inj hl (l.isFolder_targetFolder _)).symm

/-- Two files that are not in the folder of a package. -/
theorem root_inj {file file' : String} :
    l.outputFolder ++ file ++ ".ts" = l.outputFolder ++ file' ++ ".ts" ↔ file = file' := by
  rw [String.append_left_inj, String.append_right_inj]

theorem isFolder_outputFolder (s : Settings) : Spot.IsFolder (ofSettings s).outputFolder := by
  obtain ⟨r, hr⟩ := Text.exists_endingWith s.outputFolder "/"
  exact ⟨r.toList, by rw [ofSettings, hr, String.toList_append]; rfl⟩

end Layout

end ClientBindings
