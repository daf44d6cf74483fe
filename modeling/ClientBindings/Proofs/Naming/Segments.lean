import ClientBindings.Proofs.Artifact.Paths

/-! The segments of paths and where they lead: a name goes down, two dots cancel the name before them.
The steps from one folder to another lead there exactly if they climb out of names only. -/
namespace ClientBindings

namespace Text

variable {sep : Char → Bool} {cs ds : List Char}

theorem splitChars_ne_nil (sep : Char → Bool) (cs : List Char) : splitChars sep cs ≠ [] := by
  cases cs with
  | nil => exact List.cons_ne_nil _ _
  | cons c cs =>
    rw [splitChars]
    split
    · exact List.cons_ne_nil _ _
    · split <;> exact List.cons_ne_nil _ _

theorem splitChars_cons_of_sep {c : Char} (h : sep c = true) (cs : List Char) :
    splitChars sep (c :: cs) = [] :: splitChars sep cs := if_pos h

theorem splitChars_cons_of_not_sep {c : Char} {piece : List Char} {pieces : List (List Char)}
    (h : sep c = false) (hcs : splitChars sep cs = piece :: pieces) :
    splitChars sep (c :: cs) = (c :: piece) :: pieces := by
  rw [splitChars, if_neg (by rw [h]; exact Bool.false_ne_true), hcs]

/-- Texts on both sides of a separator are split on their own. -/
theorem splitChars_append_cons {c : Char} (hc : sep c = true) (cs ds : List Char) :
    splitChars sep (cs ++ c :: ds) = splitChars sep cs ++ splitChars sep ds := by
  induction cs with
  | nil => exact splitChars_cons_of_sep hc ds
  | cons a cs ih =>
    rw [List.cons_append]
    cases ha : sep a with
    | true => rw [splitChars_cons_of_sep ha, splitChars_cons_of_sep ha, ih, List.cons_append]
    | false =>
      obtain ⟨piece, pieces, hcs⟩ := List.exists_cons_of_ne_nil (splitChars_ne_nil sep cs)
      rw [hcs, List.cons_append] at ih
      rw [splitChars_cons_of_not_sep ha ih, splitChars_cons_of_not_sep ha hcs, List.cons_append]

theorem splitChars_of_unseparated (h : ∀ c ∈ cs, sep c = false) : splitChars sep cs = [cs] := by
  induction cs with
  | nil => rfl
  | cons c cs ih =>
    exact splitChars_cons_of_not_sep (h c (List.mem_cons_self ..))
      (ih fun c hc => h c (List.mem_cons_of_mem _ hc))

/-- Pieces are made of characters of the text, without the separators. -/
theorem of_mem_splitChars {piece : List Char} (h : piece ∈ splitChars sep cs) {c : Char}
    (hc : c ∈ piece) : c ∈ cs ∧ sep c = false := by
  induction cs generalizing piece with
  | nil =>
    rw [splitChars, List.mem_singleton] at h
    rw [h] at hc
    cases hc
  | cons a cs ih =>
    cases ha : sep a with
    | true =>
      rw [splitChars_cons_of_sep ha] at h
      rcases List.mem_cons.1 h with rfl | h
      · cases hc
      · exact (ih h hc).imp_left (List.mem_cons_of_mem _)
    | false =>
      obtain ⟨first, pieces, hcs⟩ := List.exists_cons_of_ne_nil (splitChars_ne_nil sep cs)
      rw [splitChars_cons_of_not_sep ha hcs] at h
      rw [hcs] at ih
      rcases List.mem_cons.1 h with rfl | h
      · rcases List.mem_cons.1 hc with rfl | hc
        · exact ⟨List.mem_cons_self .., ha⟩
        · exact (ih (List.mem_cons_self ..) hc).imp_left (List.mem_cons_of_mem _)
      · exact (ih (List.mem_cons_of_mem _ h) hc).imp_left (List.mem_cons_of_mem _)

theorem stripEnd?_append (s tail : String) : stripEnd? tail (s ++ tail) = some s := by
  rw [stripEnd?, String.toList_append, List.reverse_append, stripStart?_append]
  simp

/-- A text with an ending is the text without it, and the ending. -/
theorem endingWith_eq (s tail : String) : endingWith s tail = (stripEnd? tail s).getD s ++ tail := by
  unfold endingWith
  split
  · rename_i hends
    obtain ⟨r, rfl⟩ := exists_of_endsWith hends
    rw [stripEnd?_append]
    rfl
  · rename_i hends
    rw [endsWith, Option.not_isSome_iff_eq_none] at hends
    rw [stripEnd?, hends]
    rfl

/-- The part before the last separator of a text that goes on without one. -/
theorem beforeLast?_append {a b : String} {c : Char} (hc : sep c = true)
    (hb : ∀ c ∈ b.toList, sep c = false) (ha : a.toList = cs ++ [c]) :
    beforeLast? sep (a ++ b) = some (String.ofList cs) := by
  have hdrop : (b.toList.reverse ++ c :: cs.reverse).dropWhile (fun c => !sep c) = c :: cs.reverse := by
    rw [List.dropWhile_append_of_pos (by simpa using hb), List.dropWhile_cons_of_neg (by simp [hc])]
  rw [beforeLast?, String.toList_append, ha]
  simp only [List.reverse_append, List.reverse_cons, List.reverse_nil, List.nil_append,
    List.singleton_append, hdrop, List.reverse_reverse]

end Text

theorem stripExtension_append (s : String) : stripExtension (s ++ ".ts") = s := by
  rw [stripExtension, Text.stripEnd?_append]
  rfl

namespace Path

def isSeparator (c : Char) : Bool := c == '/' || c == '\\'

/-- Neither kind of slash is in the text. -/
def Unseparated (s : String) : Prop := ∀ c ∈ s.toList, isSeparator c = false

instance : DecidablePred Unseparated := fun s =>
  List.decidableBAll (fun c => isSeparator c = false) s.toList

theorem Unseparated.append {a b : String} (ha : Unseparated a) (hb : Unseparated b) :
    Unseparated (a ++ b) := by
  intro c hc
  rw [String.toList_append, List.mem_append] at hc
  exact hc.elim (ha c) (hb c)

/-- What counts as a segment: neither nothing nor a single dot. -/
def counts (s : String) : Bool := s != "" && s != "."

/-- The segments of a list of characters. -/
def pieces (cs : List Char) : List String :=
  ((Text.splitChars isSeparator cs).map String.ofList).filter counts

theorem segments_eq (path : String) : segments path = pieces path.toList := rfl

variable {cs : List Char} {s : String}

theorem pieces_append_cons {c : Char} (hc : isSeparator c = true) (cs ds : List Char) :
    pieces (cs ++ c :: ds) = pieces cs ++ pieces ds := by
  rw [pieces, Text.splitChars_append_cons hc, List.map_append, List.filter_append]
  rfl

theorem pieces_concat_slash (cs : List Char) : pieces (cs ++ ['/']) = pieces cs := by
  rw [pieces_append_cons (by decide)]
  exact List.append_nil _

theorem pieces_append_of_slash {folder : String} (h : folder.toList = cs ++ ['/']) (ds : List Char) :
    pieces (folder.toList ++ ds) = segments folder ++ pieces ds := by
  rw [segments_eq, h, pieces_concat_slash, List.append_assoc]
  exact pieces_append_cons (by decide) _ _

/-- What follows a folder that is written with its last slash begins with a segment of its own. -/
theorem segments_append_of_slash {folder : String} (h : folder.toList = cs ++ ['/']) (inner : String) :
    segments (folder ++ inner) = segments folder ++ segments inner := by
  rw [segments_eq, String.toList_append, pieces_append_of_slash h]
  rfl

@[simp] theorem segments_slash (a b : String) :
    segments (a ++ "/" ++ b) = segments a ++ segments b := by
  rw [segments_eq, String.toList_append, String.toList_append, List.append_assoc]
  exact pieces_append_cons (by decide) _ _

/-- A single dot leads nowhere else. -/
theorem segments_dot_slash (path : String) : segments ("./" ++ path) = segments path := by
  rw [segments_eq, String.toList_append]
  exact pieces_append_cons (c := '/') (by decide) ['.'] _

theorem of_mem_pieces (h : s ∈ pieces cs) :
    counts s = true ∧ ∀ c ∈ s.toList, c ∈ cs ∧ isSeparator c = false := by
  obtain ⟨hmem, hcounts⟩ := List.mem_filter.1 h
  obtain ⟨piece, hpiece, rfl⟩ := List.mem_map.1 hmem
  refine ⟨hcounts, fun c hc => Text.of_mem_splitChars hpiece ?_⟩
  rwa [String.toList_ofList] at hc

/-- A segment is a path of one segment. -/
theorem segments_of_mem {path : String} (h : s ∈ segments path) : segments s = [s] := by
  obtain ⟨hcounts, hs⟩ := of_mem_pieces h
  rw [segments_eq, pieces, Text.splitChars_of_unseparated fun c hc => (hs c hc).2]
  simp [hcounts]

/-- Segments that are joined are separated again. -/
theorem segments_join {parts : List String} (h : ∀ s ∈ parts, segments s = [s]) :
    segments (Text.join "/" parts) = parts := by
  induction parts with
  | nil => rfl
  | cons s parts ih =>
    cases parts with
    | nil => exact h s (List.mem_singleton_self s)
    | cons t parts =>
      have hjoin : Text.join "/" (s :: t :: parts) = s ++ "/" ++ Text.join "/" (t :: parts) := rfl
      rw [hjoin, segments_slash, h s (List.mem_cons_self ..),
        ih fun s hs => h s (List.mem_cons_of_mem _ hs)]
      rfl

theorem segments_endingWith (a b : String) :
    segments (Text.endingWith a "/" ++ b) = segments a ++ segments b := by
  unfold Text.endingWith
  split
  · rename_i hends
    obtain ⟨r, rfl⟩ := Text.exists_of_endsWith hends
    have hslash : segments (r ++ "/") = segments r := by
      rw [segments_eq, segments_eq, String.toList_append]
      exact pieces_concat_slash _
    rw [hslash]
    exact segments_slash r b
  · exact segments_slash a b

/-- Slashes that follow each other separate as one does. -/
theorem splitChars_collapseChars (cs : List Char) : ∃ piece rest rest',
    Text.splitChars isSeparator cs = piece :: rest ∧
    Text.splitChars isSeparator (collapseChars cs) = piece :: rest' ∧
    rest.filter (· != []) = rest'.filter (· != []) := by
  induction cs using collapseChars.induct with
  | case1 cs ih =>
    obtain ⟨piece, rest, rest', hcs, hcollapsed, hrest⟩ := ih
    rw [Text.splitChars_cons_of_sep (by decide)] at hcs
    obtain ⟨rfl, rfl⟩ := List.cons.inj hcs
    refine ⟨[], [] :: Text.splitChars isSeparator cs, rest', ?_, ?_, hrest⟩
    · rw [Text.splitChars_cons_of_sep (by decide), Text.splitChars_cons_of_sep (by decide)]
    · rwa [collapseChars]
  | case2 c cs hne ih =>
    obtain ⟨piece, rest, rest', hcs, hcollapsed, hrest⟩ := ih
    rw [collapseChars.eq_2 _ _ hne]
    cases hc : isSeparator c with
    | true =>
      refine ⟨[], _, _, Text.splitChars_cons_of_sep hc _, Text.splitChars_cons_of_sep hc _, ?_⟩
      rw [hcs, hcollapsed, List.filter_cons, List.filter_cons, hrest]
    | false =>
      exact ⟨c :: piece, rest, rest', Text.splitChars_cons_of_not_sep hc hcs,
        Text.splitChars_cons_of_not_sep hc hcollapsed, hrest⟩
  | case3 => exact ⟨[], [], [], rfl, rfl, rfl⟩

theorem pieces_eq_of_filter {a b : List (List Char)} (h : a.filter (· != []) = b.filter (· != [])) :
    (a.map String.ofList).filter counts = (b.map String.ofList).filter counts := by
  have hcounts (ps : List (List Char)) : (ps.map String.ofList).filter counts =
      ((ps.filter (· != [])).map String.ofList).filter counts := by
    induction ps with
    | nil => rfl
    | cons p ps ih =>
      cases p with
      | nil => exact ih
      | cons c p =>
        rw [List.map_cons, List.filter_cons, ih]
        exact (List.filter_cons ..).symm
  rw [hcounts a, hcounts b, h]

theorem segments_collapseSlashes (path : String) : segments (collapseSlashes path) = segments path := by
  obtain ⟨piece, rest, rest', hcs, hcollapsed, hrest⟩ := splitChars_collapseChars path.toList
  rw [segments_eq, segments_eq, collapseSlashes, String.toList_ofList, pieces, pieces, hcs, hcollapsed]
  refine pieces_eq_of_filter ?_
  rw [List.filter_cons, List.filter_cons, hrest]

/-! Where segments lead. -/

/-- Going down into a name, or with two dots back out of the last one. Where there is none to go back
out of, the dots stay. The innermost name comes first. -/
def enter (place : List String) (segment : String) : List String :=
  if segment = ".." then
    match place with
    | [] => [".."]
    | last :: outer => if last = ".." then ".." :: last :: outer else outer
  else segment :: place

/-- The place that segments lead to, from the outside in. -/
def destination (segments : List String) : List String := (segments.foldl enter []).reverse

/-- How much deeper a segment leads. -/
def gain (segment : String) : Int := if segment = ".." then -1 else 1

def depth : List String → Int
  | [] => 0
  | s :: segments => gain s + depth segments

theorem gain_dots : gain ".." = -1 := rfl

theorem gain_name {s : String} (h : s ≠ "..") : gain s = 1 := if_neg h

theorem depth_append (a b : List String) : depth (a ++ b) = depth a + depth b := by
  induction a with
  | nil => exact (Int.zero_add _).symm
  | cons s a ih => rw [List.cons_append, depth, ih, depth, Int.add_assoc]

theorem depth_enter (place : List String) (segment : String) :
    depth (enter place segment) = depth place + gain segment := by
  unfold enter
  split
  · rename_i hdots
    rw [hdots, gain_dots]
    cases place with
    | nil => rfl
    | cons last outer =>
      dsimp only
      split
      · rw [depth, gain_dots]
        omega
      · rename_i hlast
        rw [depth, gain_name hlast]
        omega
  · rw [depth, Int.add_comm]

theorem depth_foldl_enter (segments place : List String) :
    depth (segments.foldl enter place) = depth place + depth segments := by
  induction segments generalizing place with
  | nil => exact (Int.add_zero _).symm
  | cons s segments ih => rw [List.foldl_cons, ih, depth_enter, depth, Int.add_assoc]

theorem depth_reverse (segments : List String) : depth segments.reverse = depth segments := by
  induction segments with
  | nil => rfl
  | cons s segments ih =>
    rw [List.reverse_cons, depth_append, ih, depth, depth, depth]
    omega

/-- A place is as deep as the segments that lead there. -/
theorem depth_destination (segments : List String) : depth (destination segments) = depth segments := by
  rw [destination, depth_reverse, depth_foldl_enter]
  exact Int.zero_add _

theorem depth_replicate_dots (n : Nat) : depth (List.replicate n "..") = -(n : Int) := by
  induction n with
  | zero => rfl
  | succ n ih =>
    rw [List.replicate_succ, depth, ih, gain_dots]
    omega

/-- Names go down one level each; each pair of dots is two levels short of that. -/
theorem depth_eq (segments : List String) :
    depth segments = segments.length - 2 * (segments.count ".." : Int) := by
  induction segments with
  | nil => rfl
  | cons s segments ih =>
    rw [depth, ih, List.length_cons]
    by_cases hs : s = ".."
    · rw [hs, gain_dots, List.count_cons_self]
      omega
    · rw [gain_name hs, List.count_cons_of_ne hs]
      omega

/-- Names that are left as often as they were entered. -/
theorem foldl_enter_climb {down : List String} (h : ".." ∉ down) (place : List String) :
    (down ++ List.replicate down.length "..").foldl enter place = place := by
  induction down generalizing place with
  | nil => rfl
  | cons s down ih =>
    rw [List.mem_cons, not_or] at h
    rw [List.length_cons, List.replicate_succ', ← List.append_assoc, List.foldl_append,
      List.cons_append]
    change enter ((down ++ List.replicate down.length "..").foldl enter (enter place s)) ".." = place
    rw [ih h.2]
    simp [enter, Ne.symm h.1]

section steps

variable [DecidableEq α]

theorem take_commonLength (as bs : List α) :
    as.take (commonLength as bs) = bs.take (commonLength as bs) := by
  induction as generalizing bs with
  | nil => simp [commonLength]
  | cons a as ih =>
    cases bs with
    | nil => rfl
    | cons b bs =>
      rw [commonLength]
      split
      · rename_i heq
        rw [List.take_succ_cons, List.take_succ_cons, heq, ih]
      · rfl

theorem le_commonLength (as bs cs : List α) : as.length ≤ commonLength (as ++ bs) (as ++ cs) := by
  induction as with
  | nil => exact Nat.zero_le _
  | cons a as ih =>
    rw [List.cons_append, List.cons_append, commonLength, if_pos rfl]
    exact Nat.succ_le_succ ih

end steps

/-- The segments that steps to another folder climb out of. -/
def left (source target : List String) : List String := source.drop (commonLength source target)

/-- What is common to two folders is not climbed out of. -/
theorem left_append_subset (common as bs : List String) : left (common ++ as) (common ++ bs) ⊆ as := by
  rw [left, List.drop_append, List.drop_eq_nil_of_le (le_commonLength ..), List.nil_append]
  exact List.drop_subset _ _

/-- Steps from a folder to another lead there, and to what is in there, exactly if none of the segments
that they climb out of climbs itself. -/
theorem destination_steps_iff (source target inner : List String) :
    destination (source ++ (steps source target ++ inner)) = destination (target ++ inner) ↔
      ".." ∉ left source target := by
  obtain ⟨common, down, up, hdown, hsource, htarget, hsteps⟩ : ∃ common down up : List String,
      down = left source target ∧ source = common ++ down ∧ target = common ++ up ∧
        steps source target = List.replicate down.length ".." ++ up := by
    refine ⟨_, _, target.drop (commonLength source target), rfl,
      (List.take_append_drop (commonLength source target) source).symm, ?_, ?_⟩
    · rw [take_commonLength, List.take_append_drop]
    · rw [left, List.length_drop]
      rfl
  rw [← hdown, hsteps, htarget]
  nth_rewrite 1 [hsource]
  constructor
  · intro heq hdots
    have hdepth := congrArg depth heq
    simp only [depth_destination, depth_append, depth_replicate_dots, depth_eq down] at hdepth
    have hcount : 0 < down.count ".." := List.count_pos_iff.2 hdots
    omega
  · intro hdots
    have hassoc : common ++ down ++ (List.replicate down.length ".." ++ up ++ inner) =
        common ++ ((down ++ List.replicate down.length "..") ++ (up ++ inner)) := by
      simp only [List.append_assoc]
    rw [destination, hassoc, List.foldl_append, List.foldl_append, foldl_enter_climb hdots,
      ← List.foldl_append, ← List.append_assoc, destination]

theorem destination_steps_eq_iff (source target : List String) :
    destination (source ++ steps source target) = destination target ↔ ".." ∉ left source target := by
  have hleads := destination_steps_iff source target []
  rwa [List.append_nil, List.append_nil] at hleads

theorem segments_eq_of_mem_steps {source target s : String}
    (h : s ∈ steps (segments source) (segments target)) : segments s = [s] := by
  rcases List.mem_append.1 h with h | h
  · rw [List.eq_of_mem_replicate h]
    rfl
  · exact segments_of_mem (List.mem_of_mem_drop h)

/-- The segments of a relative path are the steps that it stands for. -/
theorem segments_relative (source target inner : String) : segments (relative source target ++ inner) =
    steps (segments source) (segments target) ++ segments inner := by
  have hjoin : segments (Text.join "/" (steps (segments source) (segments target))) =
      steps (segments source) (segments target) := segments_join fun _ => segments_eq_of_mem_steps
  unfold relative
  generalize steps (segments source) (segments target) = parts at hjoin
  cases parts with
  | nil => exact segments_dot_slash inner
  | cons part parts =>
    have hpath := segments_endingWith (Text.join "/" (part :: parts)) inner
    rw [hjoin] at hpath
    dsimp only
    split
    · exact hpath
    · rw [String.append_assoc, segments_dot_slash, hpath]

/-- The folder of a file: what stands before the last slash of either kind. -/
def folder (path : String) : String := (Text.beforeLast? isSeparator path).getD ""

/-- The place that a path leads to from a folder. -/
def resolve (folder path : String) : List String := destination (segments (folder ++ "/" ++ path))

end Path

end ClientBindings
