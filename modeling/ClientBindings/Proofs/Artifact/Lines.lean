import ClientBindings.Artifact.Shared

/-! What stands in the texts of artifacts, line by line. A text is its lines with line feeds between them,
and a line is written out here as it stands there. -/
namespace ClientBindings

theorem Text.join_eq_intercalate (sep : String) (ss : List String) :
    Text.join sep ss = sep.intercalate ss := by
  induction ss with
  | nil => rfl
  | cons s ss ih =>
    cases ss with
    | nil => exact String.intercalate_singleton.symm
    | cons t ss => rw [String.intercalate_cons_cons, ← ih]; rfl

/-- A text has a line, with others before and after it. -/
def Text.HasLine (text line : String) : Prop :=
  ∃ before after : List String, text = "\n".intercalate (before ++ line :: after)

namespace Artifact

theorem document_eq_intercalate (lines : List String) : document lines = "\n".intercalate lines :=
  Text.join_eq_intercalate "\n" lines

theorem hasLine_document {lines : List String} {s : String} (h : s ∈ lines) :
    Text.HasLine (document lines) s := by
  obtain ⟨before, after, rfl⟩ := List.append_of_mem h
  exact ⟨before, after, document_eq_intercalate _⟩

theorem line_zero (indent s : String) : line indent 0 s = s := by
  simp [line]

theorem line_succ (indent s : String) (n : Nat) : line indent (n + 1) s = indent ++ line indent n s := by
  rw [line, line, List.replicate_succ, String.join_cons, String.append_assoc]

/-- Lines behind a margin, with a comma at the end of each but the last. -/
def commaLines (margin : String) (ss : List String) : List String :=
  ss.dropLast.map (margin ++ · ++ ",") ++ ss.getLast?.toList.map (margin ++ ·)

theorem map_separated (margin : String) (ss : List String) :
    (separated ss).map (margin ++ ·) = commaLines margin ss := by
  induction ss with
  | nil => rfl
  | cons s ss ih =>
    cases ss with
    | nil => rfl
    | cons t ss =>
      rw [separated, List.map_cons, ih, ← String.append_assoc]
      · rfl
      · exact nofun

end Artifact

end ClientBindings
