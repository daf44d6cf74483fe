import Mathlib.Logic.Basic
import ClientBindings.Dict

/-! What inserting into a dictionary does to its look-ups, its keys and their order. -/
namespace ClientBindings.Dict

variable {α : Type} {d entries : Dict α} {key k : String} {value : α}

/-! ### Look-ups -/

section lookup

variable (d : Dict α) (value : α)

theorem get?_insert_self : (d.insert key value).get? key = some value := by
  induction d with
  | nil => simp [insert, get?]
  | cons e d ih =>
    obtain ⟨k, v⟩ := e
    rw [insert]
    split
    · simp [get?]
    · split
      · simp [get?]
      · rename_i hne
        rw [get?, List.lookup_cons, beq_false_of_ne hne]
        exact ih

theorem get?_insert_of_ne (h : k ≠ key) : (d.insert key value).get? k = d.get? k := by
  induction d with
  | nil => simp [insert, get?, List.lookup_cons, beq_false_of_ne h]
  | cons e d ih =>
    obtain ⟨k', v⟩ := e
    rw [insert]
    split
    · rw [get?, List.lookup_cons, beq_false_of_ne h]
      rfl
    · split
      · rename_i heq
        subst heq
        simp [get?, List.lookup_cons, beq_false_of_ne h]
      · rw [get?, get?, List.lookup_cons, List.lookup_cons]
        cases hk : k == k' with
        | true => rfl
        | false => exact ih

end lookup

theorem get?_insert : (d.insert key value).get? k = if k = key then some value else d.get? k := by
  by_cases h : k = key
  · rw [if_pos h, h, get?_insert_self]
  · rw [if_neg h, get?_insert_of_ne d value h]

/-! ### Entries and keys -/

theorem get?_eq_none_iff : d.get? key = none ↔ key ∉ d.map (·.1) := by
  rw [get?, List.lookup_eq_none_iff, List.mem_map]
  constructor
  · rintro h ⟨p, hp, rfl⟩
    simpa using h p hp
  · intro h p hp
    simpa using fun hk : key = p.1 => h ⟨p, hp, hk.symm⟩

theorem mem_keys_of_get? (h : d.get? key = some value) : key ∈ d.map (·.1) := by
  refine by_contra fun hkey => ?_
  rw [get?_eq_none_iff.2 hkey] at h
  cases h

theorem get?_of_mem (h : (d.map (·.1)).Nodup) {e : String × α} (he : e ∈ d) : d.get? e.1 = some e.2 := by
  induction d with
  | nil => cases he
  | cons first d ih =>
    obtain ⟨hfirst, h⟩ := List.nodup_cons.1 h
    rw [get?, List.lookup_cons]
    rcases List.mem_cons.1 he with rfl | he
    · rw [beq_self_eq_true]
    · have hne : e.1 ≠ first.1 := fun heq => hfirst (List.mem_map.2 ⟨e, he, heq⟩)
      rw [beq_false_of_ne hne]
      exact ih h he

theorem mem_keys_insert : k ∈ (d.insert key value).map (·.1) ↔ k = key ∨ k ∈ d.map (·.1) := by
  induction d with
  | nil => simp [insert]
  | cons e d ih =>
    obtain ⟨k', v⟩ := e
    rw [insert]
    split
    · simp
    · split
      · rename_i heq
        simp [heq]
      · simp only [List.map_cons, List.mem_cons, ih]
        exact or_left_comm

theorem contains_iff_mem_keys : d.contains key = true ↔ key ∈ d.map (·.1) := by
  simp [contains]

theorem contains_iff_get?_ne_none : d.contains key = true ↔ d.get? key ≠ none := by
  rw [contains_iff_mem_keys, ne_eq, get?_eq_none_iff, not_not]

theorem contains_insert :
    (d.insert key value).contains k = true ↔ k = key ∨ d.contains k = true := by
  rw [contains_iff_mem_keys, contains_iff_mem_keys, mem_keys_insert]

/-! ### Order -/

theorem perm_insert (h : d.get? key = none) : (d.insert key value).Perm ((key, value) :: d) := by
  induction d with
  | nil => exact .refl _
  | cons e d ih =>
    obtain ⟨k, v⟩ := e
    rw [get?_eq_none_iff, List.map_cons, List.mem_cons, not_or] at h
    rw [insert]
    split
    · exact .refl _
    · rw [if_neg h.1]
      exact ((ih (get?_eq_none_iff.2 h.2)).cons (k, v)).trans (.swap ..)

theorem nodup_keys (h : d.Sorted) : (d.map (·.1)).Nodup :=
  h.imp fun {a b} (hlt : a < b) heq => by
    subst heq
    exact String.lt_irrefl a hlt

/-- A key after all others goes to the end. -/
theorem insert_of_last (value : α) (h : ∀ e ∈ d, e.1 < key) :
    d.insert key value = d ++ [(key, value)] := by
  induction d with
  | nil => rfl
  | cons e d ih =>
    have hlt : e.1 < key := h e (List.mem_cons_self ..)
    have hne : key ≠ e.1 := fun heq => String.lt_irrefl key (heq ▸ hlt)
    rw [insert, if_neg (String.lt_asymm hlt), if_neg hne, ih fun e he => h e (List.mem_cons_of_mem _ he)]
    rfl

theorem foldl_insert_of_sorted (h : entries.Sorted)
    (hd : ∀ e ∈ d, ∀ e' ∈ entries, e.1 < e'.1) :
    entries.foldl (fun d e => d.insert e.1 e.2) d = d ++ entries := by
  induction entries generalizing d with
  | nil => exact (List.append_nil d).symm
  | cons e entries ih =>
    obtain ⟨he, hentries⟩ := List.pairwise_cons.1 h
    have hlast : ∀ e' ∈ d, e'.1 < e.1 := fun e' he' => hd e' he' e (List.mem_cons_self ..)
    rw [List.foldl_cons, insert_of_last e.2 hlast, ih hentries, List.append_assoc]
    · rfl
    · intro e' he' e'' he''
      rcases List.mem_append.1 he' with he' | he'
      · exact hd e' he' e'' (List.mem_cons_of_mem _ he'')
      · rw [List.mem_singleton.1 he']
        exact he e''.1 (List.mem_map_of_mem he'')

/-- Entries in the order of their keys make a dictionary as they are. -/
theorem ofEntries_of_sorted (h : entries.Sorted) : ofEntries entries = entries :=
  foldl_insert_of_sorted h nofun

end ClientBindings.Dict
