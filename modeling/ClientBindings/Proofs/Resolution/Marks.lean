import Mathlib.Data.List.Induction
import ClientBindings.Diagnostic

/-! Marks of what happens to the locks of types while they are defined, kept among the findings, and
the order that they have to come in. -/
namespace ClientBindings

/-- What happens to the lock of a name, and that its type is entered. -/
inductive Mark where
  | taken (name : String)
  | entered (name : String)
  | released (name : String)
  deriving DecidableEq, Repr

namespace Mark

/-- Marks are kept among the findings; they are the only ones that are neither warnings nor errors. -/
def note : Mark → Diagnostic
  | taken name => ⟨.info, "taken", name⟩
  | entered name => ⟨.info, "entered", name⟩
  | released name => ⟨.info, "released", name⟩

def of? : Diagnostic → Option Mark
  | ⟨.info, "taken", name⟩ => some (taken name)
  | ⟨.info, "entered", name⟩ => some (entered name)
  | ⟨.info, "released", name⟩ => some (released name)
  | _ => none

theorem of?_note (m : Mark) : of? m.note = some m := by cases m <;> rfl

/-- The type that is entered. -/
def entry? : Mark → Option String
  | entered name => some name
  | _ => none

/-- The locks that are held after a mark, the latest first. -/
def next (held : List String) : Mark → List String
  | taken name => name :: held
  | entered _ => held
  | released name => held.erase name

/-- The locks that are held after these marks. -/
def held (ms : List Mark) : List String := ms.foldl next []

/-- The marks among findings. -/
def among (ds : List Diagnostic) : List Mark := ds.filterMap of?

/-- The other findings. -/
def others (ds : List Diagnostic) : List Diagnostic := ds.filter fun d => d.severity != .info

theorem held_append (ms : List Mark) (m : Mark) : held (ms ++ [m]) = next (held ms) m := by
  simp [held]

theorem among_note (ds : List Diagnostic) (m : Mark) : among (ds ++ [m.note]) = among ds ++ [m] := by
  simp [among, of?_note]

theorem others_note (ds : List Diagnostic) (m : Mark) : others (ds ++ [m.note]) = others ds := by
  cases m <;> simp [others, note]

theorem among_warning (ds : List Diagnostic) (location message : String) :
    among (ds ++ [⟨.warning, location, message⟩]) = among ds := by
  simp [among, of?]

theorem others_warning (ds : List Diagnostic) (location message : String) :
    others (ds ++ [⟨.warning, location, message⟩]) = others ds ++ [⟨.warning, location, message⟩] := by
  simp [others]

/-- What a mark may come after: a lock that is taken is not held, a type that is entered was not
entered before and its lock has just been taken, and the lock that is given back is the one that was
taken last of those that are held. -/
def Allowed (before : List Mark) : Mark → Prop
  | taken name => name ∉ held before
  | entered name => entered name ∉ before ∧ ∃ earlier, before = earlier ++ [taken name]
  | released name => ∃ rest, held before = name :: rest

def Disciplined (ms : List Mark) : Prop :=
  ∀ before m after, ms = before ++ m :: after → m.Allowed before

theorem disciplined_nil : Disciplined [] := by
  intro before m after h
  simp at h

theorem Disciplined.append {ms : List Mark} {m : Mark} (h : Disciplined ms) (hm : m.Allowed ms) :
    Disciplined (ms ++ [m]) := by
  intro before m' after heq
  rcases List.append_eq_append_iff.1 heq with ⟨as, rfl, has⟩ | ⟨bs, rfl, hbs⟩
  · cases as with
    | nil =>
      obtain ⟨rfl, -⟩ := List.cons.inj has
      rwa [List.append_nil]
    | cons a as => simp at has
  · cases bs with
    | nil =>
      obtain ⟨rfl, -⟩ := List.cons.inj hbs
      rwa [List.append_nil] at hm
    | cons b bs =>
      obtain ⟨rfl, -⟩ := List.cons.inj hbs
      exact h before m' bs rfl

/-- No type is entered twice. -/
theorem Disciplined.nodup {ms : List Mark} (h : Disciplined ms) : (ms.filterMap entry?).Nodup := by
  induction ms using List.reverseRecOn with
  | nil => exact .nil
  | append_singleton ms m ih =>
    have hms : Disciplined ms := fun before m' after heq =>
      h before m' (after ++ [m]) (by simp [heq])
    rw [List.filterMap_append]
    cases m with
    | taken name => exact (List.append_nil _).symm ▸ ih hms
    | released name => exact (List.append_nil _).symm ▸ ih hms
    | entered name =>
      obtain ⟨hnew, -⟩ := h ms (.entered name) [] rfl
      refine List.nodup_append.2 ⟨ih hms, List.pairwise_singleton .., fun n hn n' hn' heq => hnew ?_⟩
      obtain ⟨m, hm, hentry⟩ := List.mem_filterMap.1 hn
      have hname : n = name := heq.trans (List.mem_singleton.1 hn')
      cases m with
      | entered n' =>
        cases hentry
        exact hname ▸ hm
      | taken n' => cases hentry
      | released n' => cases hentry

end Mark

end ClientBindings
