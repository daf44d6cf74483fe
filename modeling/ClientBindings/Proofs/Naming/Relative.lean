import ClientBindings.Proofs.Naming.Segments

/-! The way from one folder to another: up from what the first has of its own, then down into what the
second has of its own. It leads there exactly if it climbs out of names only. It begins like a relative path
except where it goes straight down into a folder whose name begins with a dot. -/
namespace ClientBindings.Path

/-- The longest that two lists begin with in common, and how each of them goes on. -/
structure Parted (source target common down up : List String) : Prop where
  source_eq : source = common ++ down
  target_eq : target = common ++ up
  longest : ∀ p, p <+: source → p <+: target → p <+: common

variable {as bs common down up : List String}

theorem isPrefix_take_commonLength {p : List String} (ha : p <+: as) (hb : p <+: bs) :
    p <+: as.take (commonLength as bs) := by
  refine List.prefix_take_iff.2 ⟨ha, ?_⟩
  obtain ⟨as', rfl⟩ := ha
  obtain ⟨bs', rfl⟩ := hb
  exact le_commonLength p as' bs'

/-- What lists have in common is counted right. -/
theorem parted_commonLength (as bs : List String) :
    Parted as bs (as.take (commonLength as bs)) (left as bs) (bs.drop (commonLength as bs)) where
  source_eq := (List.take_append_drop ..).symm
  target_eq := by rw [take_commonLength, List.take_append_drop]
  longest _ ha hb := isPrefix_take_commonLength ha hb

theorem exists_parted (as bs : List String) : ∃ common down up, Parted as bs common down up :=
  ⟨_, _, _, parted_commonLength as bs⟩

/-- There is only one way to part two lists. -/
theorem Parted.common_eq (h : Parted as bs common down up) :
    as.take (commonLength as bs) = common := by
  have hlast := (parted_commonLength as bs).longest common ⟨down, h.source_eq.symm⟩
    ⟨up, h.target_eq.symm⟩
  have hfirst := h.longest _ (List.take_prefix (commonLength as bs) as)
    (take_commonLength as bs ▸ List.take_prefix ..)
  exact hfirst.eq_of_length_le hlast.length_le

theorem Parted.left_eq (h : Parted as bs common down up) : left as bs = down := by
  refine (List.append_right_inj common).1 ?_
  rw [← h.source_eq, ← h.common_eq]
  exact List.take_append_drop ..

theorem Parted.steps_eq (h : Parted as bs common down up) :
    steps as bs = List.replicate down.length ".." ++ up := by
  have hup : bs.drop (commonLength as bs) = up := by
    refine (List.append_right_inj common).1 ?_
    rw [← h.target_eq, ← h.common_eq, take_commonLength]
    exact List.take_append_drop ..
  rw [steps, hup, ← h.left_eq, left, List.length_drop]

/-- Lists are parted where they go on with different names, or where one of them ends. -/
theorem parted_append (common : List String) (h : ∀ s ∈ down.head?, s ∉ up.head?) :
    Parted (common ++ down) (common ++ up) common down up where
  source_eq := rfl
  target_eq := rfl
  longest p hdown hup := by
    refine List.prefix_of_prefix_length_le hdown (List.prefix_append ..) ?_
    by_contra hlong
    have hlong : common.length < p.length := Nat.not_le.1 hlong
    obtain ⟨rest, rfl⟩ := List.prefix_of_prefix_length_le (List.prefix_append common down) hdown hlong.le
    rw [List.prefix_append_right_inj] at hdown hup
    cases rest with
    | nil => exact absurd hlong (by simp)
    | cons s rest =>
      obtain ⟨down', rfl⟩ := hdown
      obtain ⟨up', rfl⟩ := hup
      exact h s rfl rfl

/-- Two folders are the same exactly if there is no way to go. -/
theorem steps_eq_nil_iff : steps as bs = [] ↔ as = bs := by
  obtain ⟨common, down, up, h⟩ := exists_parted as bs
  rw [h.steps_eq, List.append_eq_nil_iff, List.replicate_eq_nil_iff, List.length_eq_zero_iff]
  constructor
  · rintro ⟨rfl, rfl⟩
    rw [h.source_eq, h.target_eq]
  · intro heq
    have hcommon : as <+: common := h.longest as (List.prefix_refl _) (heq ▸ List.prefix_refl _)
    have hlength := hcommon.length_le
    rw [h.source_eq, List.length_append] at hlength
    have hdown : down = [] := List.length_eq_zero_iff.1 (by omega)
    refine ⟨hdown, (List.append_right_inj common).1 ?_⟩
    rw [← h.target_eq, ← heq, h.source_eq, hdown]

variable {source target : String}

theorem segments_relative_eq (source target : String) :
    segments (relative source target) = steps (segments source) (segments target) := by
  have happended := segments_relative source target ""
  rw [String.append_empty] at happended
  exact happended.trans (List.append_nil _)

/-- The relative path to another folder leads there exactly if none of the segments that only the first
folder has climbs itself. It goes up once for each of these and down into those of the second, and is the
current folder exactly if there are none of either. -/
theorem relative_leads_iff (h : Parted (segments source) (segments target) common down up) :
    (resolve source (relative source target) = destination (segments target) ↔ ".." ∉ down) ∧
      segments (relative source target) = List.replicate down.length ".." ++ up ∧
      ((segments (relative source target)).takeWhile (· == "..")).length =
        down.length + (up.takeWhile (· == "..")).length ∧
      (relative source target = "./" ↔ segments source = segments target) := by
  have hsteps := segments_relative_eq source target
  have hsegments : segments (relative source target) = List.replicate down.length ".." ++ up :=
    hsteps.trans h.steps_eq
  refine ⟨?_, hsegments, ?_, ?_⟩
  · rw [resolve, segments_slash, hsteps, ← h.left_eq]
    exact destination_steps_eq_iff _ _
  · rw [hsegments, List.takeWhile_append_of_pos fun s hs => by rw [List.eq_of_mem_replicate hs]; rfl,
      List.length_append, List.length_replicate]
  · rw [← steps_eq_nil_iff]
    constructor
    · intro hpath
      rw [← hsteps, hpath]
      rfl
    · intro hnone
      rw [relative, hnone]

/-- From below a common folder, up two folders and down into one beside them. -/
theorem relative_leads_bank :
    relative "gen/../shop/api/" "gen/../shop/../bank/" = "../../bank/" ∧
      resolve "gen/../shop/api/" (relative "gen/../shop/api/" "gen/../shop/../bank/") =
        destination (segments "gen/../shop/../bank/") := by
  have hsource : segments "gen/../shop/api/" = ["gen", "..", "shop"] ++ ["api"] := by decide +kernel
  have htarget : segments "gen/../shop/../bank/" = ["gen", "..", "shop"] ++ ["..", "bank"] := by
    decide +kernel
  have h : Parted (segments "gen/../shop/api/") (segments "gen/../shop/../bank/")
      ["gen", "..", "shop"] ["api"] ["..", "bank"] := by
    rw [hsource, htarget]
    exact parted_append _ (by decide)
  exact ⟨by decide +kernel, (relative_leads_iff h).1.2 (by decide)⟩

/-! How the relative path begins and ends. -/

/-- A path that is read from the folder of the file that has it: others name a package. -/
def Marked (path : String) : Prop :=
  Text.startsWith "./" path = true ∨ Text.startsWith "../" path = true

instance : DecidablePred Marked := fun _ => inferInstanceAs (Decidable (_ ∨ _))

/-- A name that begins with a dot and goes down like any other. -/
def Hidden (name : String) : Prop := name ≠ ".." ∧ Text.startsWith "." name = true

/-- The second folder is below the first, in a folder there whose name begins with a dot. -/
def EntersHidden (source target : String) : Prop :=
  ∃ name rest, segments target = segments source ++ name :: rest ∧ Hidden name

theorem segment_chars {name : String} (h : segments name = [name]) :
    '/' ∉ name.toList ∧ name ≠ "" ∧ name ≠ "." := by
  have hmem : name ∈ pieces name.toList := by
    rw [← segments_eq, h]
    exact List.mem_singleton_self name
  obtain ⟨hcounts, hchars⟩ := of_mem_pieces hmem
  refine ⟨fun hslash => absurd (hchars '/' hslash).2 (by decide), ?_, ?_⟩
  · rintro rfl
    exact absurd hcounts (by decide)
  · rintro rfl
    exact absurd hcounts (by decide)

/-- A path with a first segment is marked exactly if that is a dot or two. -/
theorem marked_append_slash_iff {name : String} (h : '/' ∉ name.toList) (rest : String) :
    Marked (name ++ "/" ++ rest) ↔ name = "." ∨ name = ".." := by
  have hstart (dots : String) (hdots : '/' ∉ dots.toList) :
      Text.startsWith (dots ++ "/") (name ++ "/" ++ rest) = true ↔ name = dots := by
    rw [Text.startsWith_iff]
    simp only [String.toList_append, List.append_assoc]
    constructor
    · rintro ⟨more, hmore⟩
      rw [List.append_assoc] at hmore
      exact String.toList_inj.1 (append_cons_inj hdots h hmore).1.symm
    · rintro rfl
      exact ⟨rest.toList, by simp⟩
  exact or_congr (hstart "." (by decide)) (hstart ".." (by decide))

theorem marked_dot_slash (path : String) : Marked ("./" ++ path) := by
  refine .inl (Text.startsWith_iff.2 ?_)
  rw [String.toList_append]
  exact List.prefix_append ..

theorem startsWith_dot_append {name : String} (h : name ≠ "") (rest : String) :
    Text.startsWith "." (name ++ rest) = Text.startsWith "." name := by
  obtain ⟨c, cs, hname⟩ := List.exists_cons_of_ne_nil (fun hnil => h (String.toList_inj.1 hnil))
  rw [Bool.eq_iff_iff, Text.startsWith_iff, Text.startsWith_iff, String.toList_append, hname]
  exact (List.cons_prefix_cons.trans (and_iff_left (List.nil_prefix ..))).trans
    (List.cons_prefix_cons.trans (and_iff_left (List.nil_prefix ..))).symm

theorem exists_endingWith_join {name : String} (h : '/' ∉ name.toList) (names : List String) :
    ∃ rest, Text.endingWith (Text.join "/" (name :: names)) "/" = name ++ "/" ++ rest := by
  unfold Text.endingWith
  cases names with
  | nil =>
    split
    · rename_i hends
      obtain ⟨r, hr⟩ := Text.exists_of_endsWith hends
      have hname : name.toList = r.toList ++ ['/'] := (congrArg _ hr).trans String.toList_append
      exact absurd (hname ▸ List.mem_append_right _ (List.mem_singleton_self '/')) h
    · exact ⟨"", (String.append_empty ..).symm⟩
  | cons second names =>
    split
    · exact ⟨_, rfl⟩
    · exact ⟨_, String.append_assoc ..⟩

/-- The second folder is entered so exactly if the first step is such a name. -/
theorem entersHidden_iff : EntersHidden source target ↔
    ∃ name rest, steps (segments source) (segments target) = name :: rest ∧ Hidden name := by
  constructor
  · rintro ⟨name, rest, htarget, hname⟩
    have h : Parted (segments source ++ []) (segments source ++ name :: rest) _ _ _ :=
      parted_append (segments source) fun _ hs => nomatch hs
    rw [List.append_nil, ← htarget] at h
    exact ⟨name, rest, h.steps_eq, hname⟩
  · rintro ⟨name, rest, hsteps, hname⟩
    obtain ⟨common, down, up, h⟩ := exists_parted (segments source) (segments target)
    rw [h.steps_eq] at hsteps
    cases down with
    | nil =>
      refine ⟨name, rest, ?_, hname⟩
      rw [h.target_eq, h.source_eq, List.append_nil]
      exact congrArg _ hsteps
    | cons s down => exact absurd (List.cons.inj hsteps).1.symm hname.1

theorem exists_relative (source target : String) : ∃ way, relative source target = way ++ "/" := by
  unfold relative
  generalize steps (segments source) (segments target) = parts
  cases parts with
  | nil => exact ⟨".", rfl⟩
  | cons name names =>
    obtain ⟨way, hway⟩ := Text.exists_endingWith (Text.join "/" (name :: names)) "/"
    dsimp only
    rw [hway]
    split
    · exact ⟨way, rfl⟩
    · exact ⟨"./" ++ way, (String.append_assoc ..).symm⟩

/-- The relative path ends with a slash. With or without a file it is marked as one unless the second folder
is below the first, in a folder whose name begins with a dot. -/
theorem relative_marked_iff (source target : String) :
    (∃ way, relative source target = way ++ "/") ∧
      ∀ file, Marked (relative source target ++ file) ↔ ¬EntersHidden source target := by
  have hsegment (s : String) : s ∈ steps (segments source) (segments target) → segments s = [s] :=
    segments_eq_of_mem_steps
  refine ⟨exists_relative source target, fun file => ?_⟩
  rw [entersHidden_iff]
  unfold relative
  generalize steps (segments source) (segments target) = parts at hsegment
  cases parts with
  | nil => exact iff_of_true (marked_dot_slash file) (by simp)
  | cons name names =>
    obtain ⟨hslash, hne, hdot⟩ := segment_chars (hsegment name (List.mem_cons_self ..))
    obtain ⟨rest, hrest⟩ := exists_endingWith_join hslash names
    have hfirst : (∃ n ns, name :: names = n :: ns ∧ Hidden n) ↔ Hidden name :=
      ⟨fun ⟨_, _, heq, h⟩ => (List.cons.inj heq).1 ▸ h, fun h => ⟨_, _, rfl, h⟩⟩
    have hstart : Text.startsWith "." (name ++ "/" ++ rest) = Text.startsWith "." name := by
      rw [String.append_assoc, startsWith_dot_append hne]
    dsimp only
    rw [hfirst, hrest, hstart]
    split
    · rename_i h
      rw [String.append_assoc, marked_append_slash_iff hslash, Hidden]
      tauto
    · rename_i h
      rw [String.append_assoc]
      exact iff_of_true (marked_dot_slash _) fun hidden => h hidden.2

/-- Down into a folder whose name begins with a dot, the path begins with that name. -/
theorem not_marked_below_hidden :
    relative "gen/" "gen/.well-known/" = ".well-known/" ∧
      ¬Marked (relative "gen/" "gen/.well-known/") := by
  decide +kernel

end ClientBindings.Path
