import Mathlib.Logic.Relation
import ClientBindings.Proofs.Naming.Segments

/-! The folder of a package. Packages are found by the texts that they begin with, the longest first, and
what is left is taken by its length in bytes. For packages of names between dots that comes to the override
that has the most of the first names, and to the names that are left. -/
namespace ClientBindings

namespace Path

/-- A slash that follows another is dropped. -/
theorem collapseChars_cons (c : Char) (cs : List Char) : collapseChars (c :: cs) =
    if c = '/' ∧ cs.head? = some '/' then collapseChars cs else c :: collapseChars cs := by
  split
  · rename_i h
    obtain ⟨rfl, hhead⟩ := h
    obtain ⟨cs, rfl⟩ := List.head?_eq_some_iff.1 hhead
    exact collapseChars.eq_1 cs
  · rename_i h
    refine collapseChars.eq_2 c cs fun rest hc hcs => h ⟨hc, ?_⟩
    rw [hcs]
    rfl

theorem not_infix_collapseChars (cs : List Char) : ¬['/', '/'] <:+: collapseChars cs := by
  induction cs with
  | nil => exact fun h => nomatch List.infix_nil.1 h
  | cons c cs ih =>
    rw [collapseChars_cons]
    split
    · exact ih
    · rename_i hne
      rw [List.infix_cons_iff, not_or]
      refine ⟨fun hstart => hne ?_, ih⟩
      obtain ⟨rfl, hrest⟩ := List.cons_prefix_cons.1 hstart
      obtain ⟨rest, hrest⟩ := hrest
      refine ⟨rfl, ?_⟩
      rw [← head?_collapseChars, ← hrest]
      rfl

theorem collapseChars_eq_self {cs : List Char} (h : ¬['/', '/'] <:+: cs) : collapseChars cs = cs := by
  induction cs with
  | nil => rfl
  | cons c cs ih =>
    have hcs : ¬['/', '/'] <:+: cs := fun hcs => h (List.infix_cons hcs)
    rw [collapseChars_cons, ih hcs, if_neg]
    rintro ⟨rfl, hhead⟩
    obtain ⟨cs, rfl⟩ := List.head?_eq_some_iff.1 hhead
    exact h (List.prefix_append ['/', '/'] cs).isInfix

/-! Texts that are the same up to repeated slashes. -/

/-- One slash of two that follow each other is dropped. -/
inductive DropsSlash : List Char → List Char → Prop
  | mk (cs ds : List Char) : DropsSlash (cs ++ '/' :: '/' :: ds) (cs ++ '/' :: ds)

/-- Texts that can be had from each other by repeating and dropping slashes beside slashes. -/
def UpToSlashes : List Char → List Char → Prop := Relation.EqvGen DropsSlash

theorem UpToSlashes.cons {as bs : List Char} (c : Char) (h : UpToSlashes as bs) :
    UpToSlashes (c :: as) (c :: bs) := by
  induction h with
  | rel _ _ h =>
    obtain ⟨cs, ds⟩ := h
    exact .rel _ _ (.mk (c :: cs) ds)
  | refl => exact .refl _
  | symm _ _ _ ih => exact .symm _ _ ih
  | trans _ _ _ _ _ ih ih' => exact .trans _ _ _ ih ih'

theorem upToSlashes_collapseChars (cs : List Char) : UpToSlashes cs (collapseChars cs) := by
  induction cs with
  | nil => exact .refl _
  | cons c cs ih =>
    rw [collapseChars_cons]
    split
    · rename_i h
      obtain ⟨rfl, hhead⟩ := h
      obtain ⟨ds, rfl⟩ := List.head?_eq_some_iff.1 hhead
      exact .trans _ _ _ (.rel _ _ (.mk [] ds)) ih
    · exact ih.cons c

theorem collapseChars_double (cs ds : List Char) :
    collapseChars (cs ++ '/' :: '/' :: ds) = collapseChars (cs ++ '/' :: ds) := by
  induction cs with
  | nil => exact collapseChars.eq_1 ds
  | cons c cs ih =>
    have hhead : (cs ++ '/' :: '/' :: ds).head? = (cs ++ '/' :: ds).head? := by
      rw [List.head?_append, List.head?_append]
      rfl
    rw [List.cons_append, List.cons_append, collapseChars_cons, collapseChars_cons, hhead, ih]

/-- Texts come to the same without repeated slashes exactly if they are the same up to these. -/
theorem collapseChars_eq_iff {as bs : List Char} :
    collapseChars as = collapseChars bs ↔ UpToSlashes as bs := by
  constructor
  · intro h
    exact .trans _ _ _ (upToSlashes_collapseChars as) (h ▸ .symm _ _ (upToSlashes_collapseChars bs))
  · intro h
    induction h with
    | rel _ _ h =>
      obtain ⟨cs, ds⟩ := h
      exact collapseChars_double cs ds
    | refl => rfl
    | symm _ _ _ ih => exact ih.symm
    | trans _ _ _ _ _ ih ih' => exact ih.trans ih'

theorem collapseChars_dropWhile (cs ds es : List Char) :
    collapseChars (cs ++ '/' :: (ds.dropWhile (· == '/') ++ es)) =
      collapseChars (cs ++ '/' :: (ds ++ es)) := by
  induction ds with
  | nil => rfl
  | cons d ds ih =>
    by_cases hd : d = '/'
    · rw [hd, List.dropWhile_cons_of_pos (by decide), ih]
      exact (collapseChars_double cs (ds ++ es)).symm
    · rw [List.dropWhile_cons_of_neg (by simpa using hd)]

theorem collapseChars_endingWith (cs : List Char) (s : String) (ds : List Char) :
    collapseChars (cs ++ ((Text.endingWith s "/").toList ++ ds)) =
      collapseChars (cs ++ (s.toList ++ '/' :: ds)) := by
  unfold Text.endingWith
  split
  · rename_i hends
    obtain ⟨r, rfl⟩ := Text.exists_of_endsWith hends
    have hdouble := collapseChars_double (cs ++ r.toList) ds
    simp only [List.append_assoc] at hdouble
    rw [String.toList_append, List.append_assoc, List.append_assoc]
    exact hdouble.symm
  · rw [String.toList_append, List.append_assoc]
    rfl

end Path

/-! Names between dots. -/

/-- The names of a package: what stands between its dots. -/
def packageNames (package : String) : List String :=
  (Text.split (· == '.') package).filter (· != "")

/-- A package has one dot between any two names and no other; without names it is empty. -/
def IsPackage (package : String) : Prop := Text.join "." (packageNames package) = package

/-- What packages begin with: at least one name, with or without a dot after the last. -/
def IsStart (start : String) : Prop :=
  packageNames start ≠ [] ∧
    (Text.join "." (packageNames start) = start ∨ Text.join "." (packageNames start) ++ "." = start)

instance : DecidablePred IsPackage := fun _ => inferInstanceAs (Decidable (_ = _))
instance : DecidablePred IsStart := fun _ => inferInstanceAs (Decidable (_ ∧ (_ ∨ _)))

/-- Names that dots can be put between. -/
def Dotless (names : List String) : Prop := ∀ n ∈ names, n ≠ "" ∧ '.' ∉ n.toList

theorem dotless_packageNames (package : String) : Dotless (packageNames package) := by
  intro n hn
  obtain ⟨hsplit, hne⟩ := List.mem_filter.1 hn
  obtain ⟨piece, hpiece, rfl⟩ := List.mem_map.1 hsplit
  have hmem : piece ∈ Text.splitChars (· == '.') package.toList := hpiece
  refine ⟨bne_iff_ne.1 hne, fun hdot => ?_⟩
  rw [String.toList_ofList] at hdot
  exact absurd (Text.of_mem_splitChars hmem hdot).2 (by decide)

/-- Each name with a dot after it. -/
def dotted (names : List String) : List Char := names.flatMap fun n => n.toList ++ ['.']

variable {as bs names : List String}

theorem dotted_nil : dotted [] = [] := rfl

theorem dotted_cons (n : String) (names : List String) :
    dotted (n :: names) = n.toList ++ '.' :: dotted names := by
  rw [dotted, List.flatMap_cons, List.append_assoc]
  rfl

theorem dotted_append (as bs : List String) : dotted (as ++ bs) = dotted as ++ dotted bs :=
  List.flatMap_append

theorem toList_join_sep (sep : String) (h : names ≠ []) :
    (Text.join sep names).toList ++ sep.toList = names.flatMap fun n => n.toList ++ sep.toList := by
  induction names with
  | nil => exact absurd rfl h
  | cons n names ih =>
    cases names with
    | nil => exact (List.append_nil _).symm
    | cons n' names =>
      have hjoin : Text.join sep (n :: n' :: names) = n ++ sep ++ Text.join sep (n' :: names) := rfl
      rw [hjoin, String.toList_append, String.toList_append, List.append_assoc,
        ih (List.cons_ne_nil _ _)]
      rfl

theorem toList_join_dot (h : names ≠ []) : (Text.join "." names).toList ++ ['.'] = dotted names :=
  toList_join_sep "." h

/-- What begins with names and dots begins with the names. -/
theorem dotted_prefix_iff (ha : Dotless as) (hb : Dotless bs) : dotted as <+: dotted bs ↔ as <+: bs := by
  induction as generalizing bs with
  | nil => exact iff_of_true List.nil_prefix List.nil_prefix
  | cons a as ih =>
    have hdot := (ha a (List.mem_cons_self ..)).2
    cases bs with
    | nil =>
      rw [dotted_cons, dotted_nil, List.prefix_nil, List.prefix_nil]
      exact iff_of_false (List.append_ne_nil_of_right_ne_nil _ (List.cons_ne_nil _ _)) (List.cons_ne_nil _ _)
    | cons b bs =>
      rw [List.cons_prefix_cons, dotted_cons, dotted_cons,
        ← ih (fun n hn => ha n (List.mem_cons_of_mem _ hn)) fun n hn => hb n (List.mem_cons_of_mem _ hn)]
      constructor
      · rintro ⟨rest, hrest⟩
        rw [List.append_assoc, List.cons_append] at hrest
        obtain ⟨hname, hnames⟩ := append_cons_inj hdot (hb b (List.mem_cons_self ..)).2 hrest
        exact ⟨String.toList_inj.1 hname, rest, hnames⟩
      · rintro ⟨rfl, rest, hnames⟩
        exact ⟨rest, by rw [← hnames, List.append_assoc, List.cons_append]⟩

theorem endingWith_join_dot (h : Dotless names) :
    Text.endingWith (Text.join "." names) "." = Text.join "." names ++ "." := by
  refine if_neg fun hends => ?_
  obtain ⟨r, hr⟩ := Text.exists_of_endsWith hends
  obtain rfl | ⟨init, last, rfl⟩ := List.eq_nil_or_concat names
  · exact absurd (congrArg String.toList hr) (by simp [Text.join])
  · obtain ⟨hne, hdot⟩ := h last (by simp)
    have hjoin := toList_join_dot (List.append_ne_nil_of_right_ne_nil init (List.cons_ne_nil last []))
    rw [dotted_append, dotted_cons, dotted_nil, ← List.append_assoc,
      List.append_left_inj, ← List.concat_eq_append, hr, String.toList_append] at hjoin
    have hlast := congrArg List.getLast? hjoin
    rw [List.getLast?_append_of_ne_nil _ fun hnil => hne (String.toList_inj.1 hnil)] at hlast
    exact hdot (List.mem_of_getLast? (hlast.symm.trans (List.getLast?_concat ..)))

theorem IsPackage.endingWith_dot {package : String} (h : IsPackage package) :
    Text.endingWith package "." = package ++ "." := by
  have hending := endingWith_join_dot (dotless_packageNames package)
  rwa [show Text.join "." (packageNames package) = package from h] at hending

theorem IsPackage.toList_append_dot {package : String} (h : IsPackage package)
    (hnames : packageNames package ≠ []) : package.toList ++ ['.'] = dotted (packageNames package) := by
  have hdotted := toList_join_dot hnames
  rwa [show Text.join "." (packageNames package) = package from h] at hdotted

/-- More first names of one package take more bytes. -/
theorem length_le_of_size_le {all : List String} (ha : as <+: all) (hb : bs <+: all)
    (h : (String.ofList (dotted as)).utf8ByteSize ≤ (String.ofList (dotted bs)).utf8ByteSize) :
    as.length ≤ bs.length := by
  by_contra hlong
  obtain ⟨rest, rfl⟩ := List.prefix_of_prefix_length_le hb ha (Nat.le_of_not_le hlong)
  have hrest : (String.ofList (dotted rest)).utf8ByteSize = 0 := by
    rw [dotted_append, String.ofList_append, String.utf8ByteSize_append] at h
    omega
  have hnil : dotted rest = [] := by
    simpa using congrArg String.toList (String.utf8ByteSize_eq_zero_iff.1 hrest)
  cases rest with
  | nil => exact hlong (by simp)
  | cons n names =>
    rw [dotted_cons] at hnil
    exact List.append_ne_nil_of_right_ne_nil _ (List.cons_ne_nil _ _) hnil

theorem toList_start {start : String} (h : IsStart start) :
    (Text.endingWith start ".").toList = dotted (packageNames start) := by
  have hstart : Text.endingWith start "." = Text.join "." (packageNames start) ++ "." := by
    rcases h.2 with heq | heq
    · nth_rewrite 1 [← heq]
      exact endingWith_join_dot (dotless_packageNames start)
    · nth_rewrite 1 [← heq]
      exact Text.endingWith_append _ _
  rw [hstart, String.toList_append]
  exact toList_join_dot h.1

/-- A package has the text of a start, with a dot after both, exactly if it has its names. -/
theorem startsWith_start_iff {start package : String} (hstart : IsStart start)
    (hpackage : IsPackage package) :
    Text.startsWith (Text.endingWith start ".") (Text.endingWith package ".") = true ↔
      packageNames start <+: packageNames package := by
  rw [Text.startsWith_iff, toList_start hstart, hpackage.endingWith_dot, String.toList_append]
  by_cases hnames : packageNames package = []
  · -- without names there is still the dot that is put after the package
    have hempty : package = "" := by
      rw [← hpackage, hnames]
      rfl
    rw [hnames, List.prefix_nil, hempty]
    refine iff_of_false (fun hdot => ?_) hstart.1
    obtain ⟨n, names, hn⟩ := List.exists_cons_of_ne_nil hstart.1
    obtain ⟨hne, hdotless⟩ := dotless_packageNames start n (hn ▸ List.mem_cons_self ..)
    obtain ⟨c, cs, hc⟩ := List.exists_cons_of_ne_nil (fun hnil => hne (String.toList_inj.1 hnil))
    rw [hn, dotted_cons, hc] at hdot
    have hfirst : c = '.' := (List.cons_prefix_cons.1 hdot).1
    exact hdotless (hc ▸ hfirst ▸ List.mem_cons_self ..)
  · rw [show package.toList ++ ".".toList = _ from hpackage.toList_append_dot hnames]
    exact dotted_prefix_iff (dotless_packageNames start) (dotless_packageNames package)

namespace Layout

variable {s : Settings} {package : String} {o : PathOverride}

/-- An override as it is looked up. -/
def closed (e : String × String) : PathOverride :=
  ⟨Text.endingWith e.1 ".", Text.endingWith e.2 "/"⟩

theorem mem_overrides_iff : o ∈ (ofSettings s).overrides ↔ ∃ e ∈ s.pathOverrides, closed e = o :=
  List.mem_mergeSort.trans List.mem_map

/-- The override that is found covers the package, and none that covers it begins with a longer text. -/
theorem override?_eq_some (h : (ofSettings s).override? package = some o) :
    ∃ e ∈ s.pathOverrides, o = closed e ∧
      Text.startsWith o.start (Text.endingWith package ".") = true ∧
      ∀ e' ∈ s.pathOverrides, Text.startsWith (closed e').start (Text.endingWith package ".") = true →
        (closed e').start.utf8ByteSize ≤ o.start.utf8ByteSize := by
  obtain ⟨hcovers, before, after, hsplit, hbefore⟩ := List.find?_eq_some_iff_append.1 h
  have hsorted : (ofSettings s).overrides.Pairwise
      fun a b => decide (b.start.utf8ByteSize ≤ a.start.utf8ByteSize) = true :=
    List.pairwise_mergeSort (fun a b c hab hbc => by simp only [decide_eq_true_eq] at *; omega)
      (fun a b => by simp only [Bool.or_eq_true, decide_eq_true_eq]; omega) _
  obtain ⟨e, he, heq⟩ := mem_overrides_iff.1
    (hsplit ▸ List.mem_append_right _ (List.mem_cons_self ..) : o ∈ (ofSettings s).overrides)
  refine ⟨e, he, heq.symm, hcovers, fun e' he' hcovers' => ?_⟩
  have hmem' : closed e' ∈ (ofSettings s).overrides := mem_overrides_iff.2 ⟨e', he', rfl⟩
  rw [hsplit] at hsorted hmem'
  rcases List.mem_append.1 hmem' with hfirst | hlast
  · exact absurd hcovers' (by simpa using hbefore _ hfirst)
  · rcases List.mem_cons.1 hlast with heq' | hlast
    · rw [heq']
    · exact of_decide_eq_true (List.rel_of_pairwise_cons (List.pairwise_append.1 hsorted).2.1 hlast)

theorem override?_eq_none (h : (ofSettings s).override? package = none) {e : String × String}
    (he : e ∈ s.pathOverrides) :
    ¬Text.startsWith (closed e).start (Text.endingWith package ".") = true := by
  rw [override?, List.find?_eq_none] at h
  exact h (closed e) (mem_overrides_iff.2 ⟨e, he, rfl⟩)

end Layout

/-! Packages as paths. -/

/-- A slash for a dot. -/
def slash (c : Char) : Char := if c = '.' then '/' else c

/-- A package as a path. -/
def slashed (package : String) : String := String.ofList (package.toList.map slash)

theorem slash_of_ne {c : Char} (h : c ≠ '.') : slash c = c := if_neg h

/-- Dots and slashes take one byte each. -/
theorem utf8ByteSize_map_slash (cs : List Char) :
    (String.ofList (cs.map slash)).utf8ByteSize = (String.ofList cs).utf8ByteSize := by
  have hsize (c : Char) : (slash c).utf8Size = c.utf8Size := by
    by_cases h : c = '.'
    · subst h
      decide
    · rw [slash_of_ne h]
  induction cs with
  | nil => rfl
  | cons c cs ih =>
    simp only [List.map_cons, String.ofList_cons, String.utf8ByteSize_append,
      String.utf8ByteSize_singleton, ih, hsize]

theorem map_slash_dotted (h : Dotless names) :
    (dotted names).map slash = names.flatMap fun n => n.toList ++ ['/'] := by
  induction names with
  | nil => rfl
  | cons n names ih =>
    have hname : n.toList.map slash = n.toList := by
      refine (List.map_congr_left fun c hc => slash_of_ne ?_).trans (List.map_id _)
      exact fun hdot => (h n (List.mem_cons_self ..)).2 (hdot ▸ hc)
    rw [dotted_cons, List.map_append, List.map_cons, hname,
      ih fun n hn => h n (List.mem_cons_of_mem _ hn), List.flatMap_cons, List.append_assoc]
    rfl

theorem slashed_eq {package : String} (h : IsPackage package) :
    slashed package = Text.join "/" (packageNames package) := by
  by_cases hnames : packageNames package = []
  · rw [hnames, ← h, hnames]
    rfl
  · refine String.toList_inj.1 ((List.append_left_inj ['/']).1 ?_)
    have hslashed := map_slash_dotted (dotless_packageNames package)
    rw [← h.toList_append_dot hnames, List.map_append] at hslashed
    rw [slashed, String.toList_ofList]
    exact hslashed.trans (toList_join_sep "/" hnames).symm

/-- After a slash, names come to the same with slashes for their dots as with slashes between them. -/
theorem collapseChars_names (h : Dotless names) (cs : List Char) :
    Path.collapseChars (cs ++ '/' :: (dotted names).map slash) =
      Path.collapseChars (cs ++ '/' :: ((Text.join "/" names).toList ++ ['/'])) := by
  by_cases hnames : names = []
  · rw [hnames]
    exact (Path.collapseChars_double cs []).symm
  · rw [map_slash_dotted h]
    exact congrArg (fun ds => Path.collapseChars (cs ++ '/' :: ds)) (toList_join_sep "/" hnames).symm

/-- The bytes of a text from a position on are those of a text: the position is one of the text, and between
two of its characters. -/
structure SlicedAt (text : String) (position : Nat) (rest : String) : Prop where
  valid : (String.Pos.Raw.mk position).IsValid text
  bytes : text.toByteArray.extract position text.utf8ByteSize = rest.toByteArray

theorem slicedAt_append (a b : String) : SlicedAt (a ++ b) a.utf8ByteSize b where
  valid := String.Pos.Raw.isValid_iff_exists_append.2 ⟨a, b, rfl, rfl⟩
  bytes := by
    rw [String.toByteArray_append]
    exact ByteArray.extract_append_eq_right rfl String.utf8ByteSize_append

namespace Layout

variable {s : Settings} {package : String} {o : PathOverride}

/-- An override that covers a package begins, but for its last dot, as the package does. -/
theorem exists_append_of_override? (h : (ofSettings s).override? package = some o) :
    ∃ before after, o.start.toList = before ++ ['.'] ∧ package.toList = before ++ after := by
  obtain ⟨e, -, rfl, hcovers, -⟩ := override?_eq_some h
  obtain ⟨r, hr⟩ := Text.exists_endingWith e.1 "."
  have hstart : (closed e).start.toList = r.toList ++ ['.'] :=
    (congrArg String.toList hr).trans String.toList_append
  rw [Text.startsWith_iff, hstart] at hcovers
  have hdotted : r.toList ++ ['.'] <+: package.toList ++ ['.'] := by
    refine hcovers.trans ?_
    unfold Text.endingWith
    split
    · exact List.prefix_append ..
    · rw [String.toList_append]
      exact List.prefix_refl _
  have hbegins : r.toList <+: package.toList := by
    rcases List.prefix_concat_iff.1 hdotted with heq | hbegins
    · rw [List.append_cancel_right heq]
    · exact (List.prefix_append ..).trans hbegins
  obtain ⟨after, hafter⟩ := hbegins
  exact ⟨r.toList, after, hstart, hafter.symm⟩

theorem packagePath_of_some (h : (ofSettings s).override? package = some o) {before after : List Char}
    (hstart : o.start.toList = before ++ ['.']) (hpackage : package.toList = before ++ after) :
    (ofSettings s).packagePath package =
      o.folder ++ String.ofList ((after.map slash).dropWhile (· == '/')) := by
  have hlength : o.start.length - 1 = (before.map slash).length := by
    rw [← String.length_toList, hstart, List.length_append, List.length_map]
    exact Nat.add_sub_cancel ..
  have hdrop : (package.toList.map slash).drop (o.start.length - 1) = after.map slash := by
    rw [hpackage, List.map_append, hlength, List.drop_left]
  unfold packagePath
  rw [h]
  change o.folder ++ String.ofList
    (((package.toList.map slash).drop (o.start.length - 1)).dropWhile (· == '/')) = _
  rw [hdrop]

theorem packagePath_of_none (h : (ofSettings s).override? package = none) :
    (ofSettings s).packagePath package = slashed package := by
  unfold packagePath
  rw [h]
  rfl

/-- What an override leaves of a package is taken from it by bytes, without slashes at the front. -/
theorem packagePath_slice (h : (ofSettings s).override? package = some o) :
    ∃ rest, SlicedAt (slashed package) (o.start.utf8ByteSize - 1) rest ∧
      (ofSettings s).packagePath package =
        o.folder ++ String.ofList (rest.toList.dropWhile (· == '/')) := by
  obtain ⟨before, after, hstart, hpackage⟩ := exists_append_of_override? h
  refine ⟨String.ofList (after.map slash), ?_, ?_⟩
  · have hsize : o.start.utf8ByteSize - 1 = (String.ofList (before.map slash)).utf8ByteSize := by
      rw [utf8ByteSize_map_slash, ← String.ofList_toList (s := o.start), hstart, String.ofList_append,
        String.utf8ByteSize_append]
      exact Nat.add_sub_cancel ..
    rw [slashed, hpackage, List.map_append, String.ofList_append, hsize]
    exact slicedAt_append _ _
  · rw [packagePath_of_some h hstart hpackage, String.toList_ofList]

theorem toList_targetFolder (s : Settings) (package : String) :
    ((ofSettings s).targetFolder package).toList = Path.collapseChars
      (s.outputFolder.toList ++ '/' :: (((ofSettings s).packagePath package).toList ++ ['/'])) := by
  have houtput := Path.collapseChars_endingWith [] s.outputFolder
    (Text.endingWith ((ofSettings s).packagePath package) "/").toList
  have hpath := Path.collapseChars_endingWith (s.outputFolder.toList ++ ['/'])
    ((ofSettings s).packagePath package) []
  simp only [List.append_assoc, List.append_nil, List.nil_append, List.singleton_append] at houtput hpath
  rw [targetFolder, Path.collapseSlashes, String.toList_ofList, String.toList_append]
  exact houtput.trans hpath

theorem not_infix_targetFolder (s : Settings) (package : String) :
    ¬['/', '/'] <:+: ((ofSettings s).targetFolder package).toList := by
  rw [toList_targetFolder]
  exact Path.not_infix_collapseChars _

/-- Where a package is placed: in the folder of an override that has the most of its first names, below
that by the names that are left, or by all names if no override has any of them. -/
inductive Placed (s : Settings) (package : String) : String → Prop
  | moved {e : String × String} (he : e ∈ s.pathOverrides)
      (hcovers : packageNames e.1 <+: packageNames package)
      (hlongest : ∀ e' ∈ s.pathOverrides, packageNames e'.1 <+: packageNames package →
        (packageNames e'.1).length ≤ (packageNames e.1).length) :
      Placed s package
        (e.2 ++ "/" ++ Text.join "/" ((packageNames package).drop (packageNames e.1).length))
  | kept (hnone : ∀ e ∈ s.pathOverrides, ¬packageNames e.1 <+: packageNames package) :
      Placed s package (Text.join "/" (packageNames package))

/-- What an override leaves of a package begins with the dot after its last name. -/
theorem exists_left_of_override? (hpackage : IsPackage package) {e : String × String}
    (hstart : IsStart e.1) (h : (ofSettings s).override? package = some (closed e)) {rest : List String}
    (hrest : packageNames package = packageNames e.1 ++ rest) :
    ∃ after, after ++ ['.'] = '.' :: dotted rest ∧ (ofSettings s).packagePath package =
      Text.endingWith e.2 "/" ++ String.ofList ((after.map slash).dropWhile (· == '/')) := by
  obtain ⟨before, after, hbefore, hafter⟩ := exists_append_of_override? h
  refine ⟨after, ?_, packagePath_of_some h hbefore hafter⟩
  have hnames : packageNames package ≠ [] := by
    rw [hrest]
    exact List.append_ne_nil_of_left_ne_nil hstart.1 _
  have hdotted : package.toList ++ ['.'] = before ++ ['.'] ++ dotted rest := by
    rw [hpackage.toList_append_dot hnames, hrest, dotted_append, ← toList_start hstart]
    exact congrArg (· ++ dotted rest) hbefore
  rw [hafter, List.append_assoc, List.append_assoc] at hdotted
  exact (List.append_right_inj before).1 hdotted

theorem toList_targetFolder_moved (hpackage : IsPackage package) {e : String × String}
    (hstart : IsStart e.1) (h : (ofSettings s).override? package = some (closed e)) {rest : List String}
    (hrest : packageNames package = packageNames e.1 ++ rest) :
    ((ofSettings s).targetFolder package).toList = Path.collapseChars (s.outputFolder.toList ++
      '/' :: ((e.2 ++ "/" ++ Text.join "/" rest).toList ++ ['/'])) := by
  obtain ⟨after, hleft, hpath⟩ := exists_left_of_override? hpackage hstart h hrest
  have hdotless : Dotless rest := fun n hn =>
    dotless_packageNames package n (hrest ▸ List.mem_append_right _ hn)
  have hslashed : after.map slash ++ ['/'] = '/' :: (dotted rest).map slash := by
    simpa [slash] using congrArg (List.map slash) hleft
  have hfolder := Path.collapseChars_endingWith (s.outputFolder.toList ++ ['/']) e.2
    ((after.map slash).dropWhile (· == '/') ++ ['/'])
  have hdropped := Path.collapseChars_dropWhile (s.outputFolder.toList ++ '/' :: e.2.toList)
    (after.map slash) ['/']
  have hdouble := Path.collapseChars_double (s.outputFolder.toList ++ '/' :: e.2.toList)
    ((dotted rest).map slash)
  have hnames := collapseChars_names hdotless (s.outputFolder.toList ++ '/' :: e.2.toList)
  rw [hslashed] at hdropped
  rw [toList_targetFolder, hpath]
  simp only [String.toList_append, String.toList_ofList, List.append_assoc, List.cons_append,
    List.nil_append] at hfolder hdropped hdouble hnames ⊢
  exact hfolder.trans (hdropped.trans (hdouble.trans hnames))

/-- The folder of a package is where it is placed below the output folder, up to repeated slashes, of which
it has none; it ends with a slash. What an override leaves of the package is taken at a position between two
of its characters. -/
theorem targetFolder_placed (hoverrides : ∀ e ∈ s.pathOverrides, IsStart e.1)
    (hpackage : IsPackage package) :
    (∃ place, Placed s package place ∧ Path.UpToSlashes ((ofSettings s).targetFolder package).toList
        (s.outputFolder ++ "/" ++ place ++ "/").toList) ∧
      (∃ folder, (ofSettings s).targetFolder package = folder ++ "/") ∧
      ¬['/', '/'] <:+: ((ofSettings s).targetFolder package).toList ∧
      ∀ o, (ofSettings s).override? package = some o →
        ∃ rest, SlicedAt (slashed package) (o.start.utf8ByteSize - 1) rest ∧
          (ofSettings s).packagePath package =
            o.folder ++ String.ofList (rest.toList.dropWhile (· == '/')) := by
  refine ⟨?_, ?_, not_infix_targetFolder s package, fun o h => packagePath_slice h⟩
  · have hplace {place : String} (h : ((ofSettings s).targetFolder package).toList =
        Path.collapseChars (s.outputFolder.toList ++ '/' :: (place.toList ++ ['/']))) :
        Path.UpToSlashes ((ofSettings s).targetFolder package).toList
          (s.outputFolder ++ "/" ++ place ++ "/").toList := by
      rw [← Path.collapseChars_eq_iff, Path.collapseChars_eq_self (not_infix_targetFolder s package), h]
      simp
    cases hoverride : (ofSettings s).override? package with
    | none =>
      refine ⟨_, .kept fun e he hcovers => ?_, hplace ?_⟩
      · exact override?_eq_none hoverride he
          ((startsWith_start_iff (hoverrides e he) hpackage).2 hcovers)
      · rw [toList_targetFolder, packagePath_of_none hoverride, slashed_eq hpackage]
    | some o =>
      obtain ⟨e, he, rfl, hcovers, hlongest⟩ := override?_eq_some hoverride
      have hcovers' := (startsWith_start_iff (hoverrides e he) hpackage).1 hcovers
      refine ⟨_, .moved he hcovers' fun e' he' hcovers'' => ?_, hplace ?_⟩
      · have hsize := hlongest e' he' ((startsWith_start_iff (hoverrides e' he') hpackage).2 hcovers'')
        refine length_le_of_size_le hcovers'' hcovers' ?_
        rw [← toList_start (hoverrides e' he'), ← toList_start (hoverrides e he), String.ofList_toList,
          String.ofList_toList]
        exact hsize
      · obtain ⟨rest, hrest⟩ := hcovers'
        rw [← hrest, List.drop_left]
        exact toList_targetFolder_moved hpackage (hoverrides e he) hoverride hrest.symm
  · obtain ⟨cs, hcs⟩ := (ofSettings s).exists_targetFolder package
    refine ⟨String.ofList cs, String.toList_inj.1 ?_⟩
    rw [hcs, String.toList_append, String.toList_ofList]
    rfl

/-- A package and one below it, each with a folder of its own. -/
def nestedSettings : Settings :=
  { Settings.standard with
    outputFolder := "out"
    pathOverrides := [("com.größe", "shop"), ("com.größe.api.", "services/")] }

/-- The longer of two starts is taken, although the other comes first. -/
theorem targetFolder_placed_nested :
    (∀ e ∈ nestedSettings.pathOverrides, IsStart e.1) ∧ IsPackage "com.größe.api.v2" ∧
      (ofSettings nestedSettings).targetFolder "com.größe.api.v2" = "out/services/v2/" := by
  have hoverrides : ∀ e ∈ nestedSettings.pathOverrides, IsStart e.1 := by decide +kernel
  have hpackage : IsPackage "com.größe.api.v2" := by decide +kernel
  have hcovers : packageNames "com.größe.api." <+: packageNames "com.größe.api.v2" := by decide +kernel
  have hlast : ("com.größe.api.", "services/") ∈ nestedSettings.pathOverrides := by decide +kernel
  refine ⟨hoverrides, hpackage, ?_⟩
  obtain ⟨⟨_, hplaced, hplace⟩, -, hsingle, -⟩ := targetFolder_placed hoverrides hpackage
  refine String.toList_inj.1 ?_
  rw [← Path.collapseChars_eq_self hsingle, Path.collapseChars_eq_iff.2 hplace]
  cases hplaced with
  | kept hnone => exact absurd hcovers (hnone _ hlast)
  | moved he _ hlongest =>
    have hlength := hlongest _ hlast hcovers
    rcases List.mem_cons.1 he with rfl | he
    · exact absurd hlength (by decide +kernel)
    · rw [List.mem_singleton.1 he]
      decide +kernel

end Layout

end ClientBindings
