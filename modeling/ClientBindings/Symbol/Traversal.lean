/-! Depth-first expansion of a graph whose nodes are named, each name expanded at most once. The
names that may still be expanded are carried along, so the work left is plain from the arguments. -/
namespace ClientBindings.Traversal

variable {α : Type}

/-- The work that expanding each of `names` once can still cause. -/
def pendingWork (next : String → List α) : List String → Nat
  | [] => 0
  | n :: names => 1 + (next n).length + pendingWork next names

theorem pendingWork_filter_le (next : String → List α) (p : String → Bool) (names : List String) :
    pendingWork next (names.filter p) ≤ pendingWork next names := by
  induction names with
  | nil => exact Nat.le_refl _
  | cons m names ih =>
    cases h : p m with
    | true => simpa [pendingWork, h] using ih
    | false =>
      simp only [List.filter_cons, h, pendingWork]
      exact Nat.le_trans ih (Nat.le_add_left ..)

theorem pendingWork_filter_ne (next : String → List α) {names : List String} {n : String}
    (h : n ∈ names) :
    pendingWork next (names.filter (· != n)) + (1 + (next n).length) ≤ pendingWork next names := by
  induction names with
  | nil => simp at h
  | cons m names ih =>
    by_cases hm : m = n
    · subst hm
      have := pendingWork_filter_le next (· != m) names
      simp only [List.filter_cons, bne_self_eq_false, Bool.false_eq_true, if_false, pendingWork]
      omega
    · have hn : n ∈ names := by simpa [Ne.symm hm] using h
      have := ih hn
      have hk : (m != n) = true := by simpa using hm
      simp only [List.filter_cons, hk, if_true, pendingWork]
      omega

/-- Everything that is reached from the pending nodes, in the order in which it is found. A node
whose name is not among `names` adds nothing. -/
def expand (key : α → String) (next : String → List α) (names : List String) :
    List α → List α
  | [] => []
  | a :: pending =>
    if key a ∈ names then
      next (key a) ++ expand key next (names.filter (· != key a)) (next (key a) ++ pending)
    else expand key next names pending
  termination_by pending => pendingWork next names + pending.length
  decreasing_by
  · rename_i h
    have := pendingWork_filter_ne next h
    simp
    omega
  · simp

end ClientBindings.Traversal
