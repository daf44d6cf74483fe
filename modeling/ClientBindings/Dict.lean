/-! Dictionaries keyed by text, as lists of entries in increasing order of their keys. -/
namespace ClientBindings

abbrev Dict (α : Type) := List (String × α)

namespace Dict

def get? (d : Dict α) (key : String) : Option α := d.lookup key

def contains (d : Dict α) (key : String) : Bool := d.any fun e => e.1 == key

/-- Puts an entry in its place; an entry of the same key is replaced. -/
def insert (d : Dict α) (key : String) (value : α) : Dict α :=
  match d with
  | [] => [(key, value)]
  | (k, v) :: rest =>
    if key < k then (key, value) :: (k, v) :: rest
    else if key = k then (key, value) :: rest
    else (k, v) :: insert rest key value

/-- Of entries with one key the last stays. -/
def ofEntries (entries : List (String × α)) : Dict α :=
  entries.foldl (fun d e => d.insert e.1 e.2) []

/-- The keys are in increasing order, so each is there once. -/
def Sorted (d : Dict α) : Prop := (d.map (·.1)).Pairwise (· < ·)

variable {α : Type} {d : Dict α} {key : String} {value : α}

theorem sorted_nil : Sorted ([] : Dict α) := .nil

theorem mem_insert {e : String × α} (h : e ∈ d.insert key value) : e = (key, value) ∨ e ∈ d := by
  induction d with
  | nil => exact .inl (List.mem_singleton.1 h)
  | cons e' d ih =>
    obtain ⟨k, v⟩ := e'
    rw [insert] at h
    split at h
    · exact List.mem_cons.1 h
    · split at h
      · exact (List.mem_cons.1 h).imp_right (List.mem_cons_of_mem _)
      · rcases List.mem_cons.1 h with h | h
        · exact .inr (h ▸ List.mem_cons_self ..)
        · exact (ih h).imp_right (List.mem_cons_of_mem _)

/-- An entry is put where its key belongs. -/
theorem sorted_insert (h : d.Sorted) : (d.insert key value).Sorted := by
  induction d with
  | nil => exact List.pairwise_singleton ..
  | cons e d ih =>
    obtain ⟨k, v⟩ := e
    obtain ⟨hk, hd⟩ := List.pairwise_cons.1 h
    rw [insert]
    split
    · rename_i hlt
      refine List.pairwise_cons.2 ⟨fun k' hk' => ?_, h⟩
      rcases List.mem_cons.1 hk' with rfl | hk'
      · exact hlt
      · exact String.lt_trans hlt (hk k' hk')
    · rename_i hle
      split
      · rename_i heq
        exact List.pairwise_cons.2 ⟨fun k' hk' => heq ▸ hk k' hk', hd⟩
      · rename_i hne
        refine List.pairwise_cons.2 ⟨fun k' hk' => ?_, ih hd⟩
        obtain ⟨e, he, rfl⟩ := List.mem_map.1 hk'
        rcases mem_insert he with rfl | he
        · exact Std.lt_of_le_of_ne (String.not_lt.1 hle) (Ne.symm hne)
        · exact hk e.1 (List.mem_map_of_mem he)

theorem sorted_ofEntries (entries : List (String × α)) : (ofEntries entries).Sorted := by
  suffices h : ∀ d : Dict α, d.Sorted → (entries.foldl (fun d e => d.insert e.1 e.2) d).Sorted from
    h [] sorted_nil
  induction entries with
  | nil => exact fun _ h => h
  | cons e entries ih => exact fun d h => ih _ (sorted_insert h)

end Dict

end ClientBindings
