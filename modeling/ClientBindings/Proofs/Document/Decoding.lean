import Mathlib.Data.List.Nodup
import ClientBindings.Symbol.Decoding
import ClientBindings.Proofs.Dict

/-! Reading what has been written: dictionaries, lists, optional values and records come back if what is
in them does. A document that is written has nothing in it that is left to its reader. -/
namespace ClientBindings

namespace Document

variable {α : Type} {decode : Document → Option α} {encode : α → Document}

theorem decodeAll_map {as : List α} (h : ∀ a ∈ as, decode (encode a) = some a) :
    decodeAll decode (as.map encode) = some as := by
  induction as with
  | nil => rfl
  | cons a as ih =>
    rw [List.map_cons, decodeAll, h a (List.mem_cons_self ..),
      ih fun a ha => h a (List.mem_cons_of_mem _ ha)]

theorem listOf_map {as : List α} (h : ∀ a ∈ as, decode (encode a) = some a) :
    listOf decode (.list (as.map encode)) = some as := decodeAll_map h

theorem listOf_of_all {fits : α → Bool} {as : List α}
    (hencode : ∀ {a}, fits a = true → decode (encode a) = some a) (h : as.all fits = true) :
    listOf decode (.list (as.map encode)) = some as :=
  listOf_map fun a ha => hencode (List.all_eq_true.1 h a ha)

theorem listOf_texts (items : List String) : listOf text? (ofTexts items) = some items :=
  listOf_map fun _ _ => rfl

/-- Texts and maps are values, and do not stand for absent ones. -/
def Given : Document → Prop
  | .text _ => True
  | .map _ => True
  | _ => False

theorem optionOf_of_given {d : Document} (h : d.Given) : optionOf decode d = (decode d).map some := by
  cases d with
  | text | map => rfl
  | null | bool | int | float | plain | list | tagged | unreadable => exact h.elim

theorem optionOf_some {d : Document} {a : α} (hgiven : d.Given) (h : decode d = some a) :
    optionOf decode d = some (some a) :=
  (optionOf_of_given hgiven).trans (congrArg (Option.map some) h)

theorem optionOf_ofOption {a? : Option α} (hgiven : ∀ a, (encode a).Given)
    (h : ∀ a, a? = some a → decode (encode a) = some a) :
    optionOf decode (ofOption encode a?) = some a? := by
  cases a? with
  | none => rfl
  | some a => exact optionOf_some (hgiven a) (h a rfl)

theorem optionOf_text (s? : Option String) : optionOf text? (ofOption .text s?) = some s? :=
  optionOf_ofOption (fun _ => trivial) fun _ _ => rfl

theorem natural?_of_fits {n : Nat} (h : Word.fitsUnsigned 64 n = true) : natural? (.int n) = some n := by
  rw [natural?, if_pos h, Int.toNat_natCast]

/-! Records. Each step takes a field that has been written, and leaves what is read after it. -/

section records

variable {β : Type} {entries : List (String × Document)} {name : String} {d : Document}

/-- Where each field is given once at most, the entries are the fields. -/
theorem fields?_map {names : List String} (hnames : names.Nodup)
    (h : (entries.map (·.1)).Sublist names) : fields? names (.map entries) = some ⟨entries⟩ := by
  refine if_pos (List.all_eq_true.2 fun name _ => decide_eq_true ?_)
  have hcount : (entries.filter fun e => e.1 == name).length = (entries.map (·.1)).count name := by
    rw [List.count, List.countP_map, List.countP_eq_length_filter]
    rfl
  rw [hcount]
  exact List.nodup_iff_count_le_one.1 (hnames.sublist h) name

theorem bind_fields? {names : List String} {k : Fields → Option β} {b : Option β} (hnames : names.Nodup)
    (h : (entries.map (·.1)).Sublist names) (hk : k ⟨entries⟩ = b) :
    fields? names (.map entries) >>= k = b := by
  rw [fields?_map hnames h]
  exact hk

namespace Fields

variable {k : α → Option β} {b : Option β} {a default : α}

theorem bind_required (hd : entries.lookup name = some d) (ha : decode d = some a) (hk : k a = b) :
    (mk entries).required name decode >>= k = b := by
  rw [required, hd, Option.bind_some, ha]
  exact hk

theorem bind_withDefault (hd : entries.lookup name = some d) (ha : decode d = some a) (hk : k a = b) :
    (mk entries).withDefault name default decode >>= k = b := by
  rw [withDefault, hd]
  exact (congrArg (· >>= k) ha).trans hk

/-- A field that has been left out. -/
theorem bind_withDefault_of_none (h : entries.lookup name = none) (hk : k default = b) :
    (mk entries).withDefault name default decode >>= k = b := by
  rw [withDefault, h]
  exact hk

end Fields

end records

/-! Depths. -/

theorem depth_le_depthAll {items : List Document} {d : Document} (h : d ∈ items) :
    d.depth ≤ depthAll items := by
  induction items with
  | nil => cases h
  | cons d' items ih =>
    rw [depthAll]
    rcases List.mem_cons.1 h with rfl | h
    · exact Nat.le_max_left ..
    · exact Nat.le_trans (ih h) (Nat.le_max_right ..)

theorem depth_le_depthEntries {entries : List (String × Document)} {e : String × Document}
    (h : e ∈ entries) : e.2.depth ≤ depthEntries entries := by
  induction entries with
  | nil => cases h
  | cons e' entries ih =>
    obtain ⟨key, d⟩ := e'
    rw [depthEntries]
    rcases List.mem_cons.1 h with rfl | h
    · exact Nat.le_max_left ..
    · exact Nat.le_trans (ih h) (Nat.le_max_right ..)

theorem depth_list_le {items : List Document} {n : Nat} (h : (list items).depth ≤ n) {d : Document}
    (hd : d ∈ items) : d.depth ≤ n := by
  have hle := depth_le_depthAll hd
  rw [depth] at h
  omega

theorem depth_map_le {entries : List (String × Document)} {n : Nat} (h : (map entries).depth ≤ n) :
    ∃ m, n = m + 1 ∧ ∀ e ∈ entries, e.2.depth ≤ m := by
  rw [depth] at h
  refine ⟨n - 1, by omega, fun e he => ?_⟩
  have hle := depth_le_depthEntries he
  omega

/-! What is settled. -/

/-- Every scalar in the document has its type already. -/
def Settled (d : Document) : Prop := d.settle = some d

theorem settled_list {items : List Document} (h : ∀ d ∈ items, d.Settled) : (list items).Settled := by
  have hitems : settleItems items = some items := by
    induction items with
    | nil => rfl
    | cons d items ih =>
      rw [settleItems, h d (List.mem_cons_self ..), ih fun d hd => h d (List.mem_cons_of_mem _ hd)]
  rw [Settled, settle, hitems]
  rfl

theorem settled_map {entries : List (String × Document)} (h : ∀ e ∈ entries, e.2.Settled) :
    (map entries).Settled := by
  have hentries : settleEntries entries = some entries := by
    induction entries with
    | nil => rfl
    | cons e entries ih =>
      obtain ⟨key, d⟩ := e
      rw [settleEntries, h (key, d) (List.mem_cons_self ..),
        ih fun e he => h e (List.mem_cons_of_mem _ he)]
  rw [Settled, settle, hentries]
  rfl

@[simp] theorem settled_text (s : String) : (text s).Settled := rfl

end Document

end ClientBindings
