import ClientBindings.Proofs.Resolution.References
import ClientBindings.Proofs.Translation.Direct

/-! What resolving does besides giving an instance: the types that it enters and the findings that it
notes. Like the direct translation this is read off the declarations alone, so it does not matter what
has been resolved before: a type that has been entered already counts as well, and its content is
accounted for by itself. -/
namespace ClientBindings

/-- A type is entered, if it is not there yet, or a finding is noted. -/
inductive Effect where
  | enters (typeName : String)
  | notes (finding : Diagnostic)
  deriving Repr

namespace Effect

def entered? : Effect → Option String
  | enters name => some name
  | notes _ => none

def noted? : Effect → Option Diagnostic
  | enters _ => none
  | notes d => some d

end Effect

/-- The names of the types that are entered. -/
def entries (as : List Effect) : List String := as.filterMap Effect.entered?

/-- The findings that are noted. -/
def findings (as : List Effect) : List Diagnostic := as.filterMap Effect.noted?

@[simp] theorem entries_nil : entries [] = [] := rfl

@[simp] theorem entries_enters (name : String) : entries [.enters name] = [name] := rfl

@[simp] theorem entries_notes (d : Diagnostic) : entries [.notes d] = [] := rfl

@[simp] theorem entries_append (as bs : List Effect) : entries (as ++ bs) = entries as ++ entries bs :=
  List.filterMap_append

@[simp] theorem entries_map_notes (ds : List Diagnostic) : entries (ds.map .notes) = [] := by
  induction ds with
  | nil => rfl
  | cons d ds ih => exact ih

@[simp] theorem findings_nil : findings [] = [] := rfl

@[simp] theorem findings_enters (name : String) : findings [.enters name] = [] := rfl

@[simp] theorem findings_notes (d : Diagnostic) : findings [.notes d] = [d] := rfl

@[simp] theorem findings_append (as bs : List Effect) :
    findings (as ++ bs) = findings as ++ findings bs := List.filterMap_append

@[simp] theorem findings_map_notes (ds : List Diagnostic) : findings (ds.map .notes) = ds := by
  induction ds with
  | nil => rfl
  | cons d ds ih => exact congrArg (d :: ·) ih

/-- The account of one thing after another; there is none if one of them has none. -/
def andThen? (o o' : Option (List Effect)) : Option (List Effect) :=
  o.bind fun as => o'.map (as ++ ·)

@[simp] theorem andThen?_some (as bs : List Effect) : andThen? (some as) (some bs) = some (as ++ bs) :=
  rfl

@[simp] theorem andThen?_none (o : Option (List Effect)) : andThen? none o = none := rfl

@[simp] theorem nil_andThen? (o : Option (List Effect)) : andThen? (some []) o = o := by
  cases o <;> rfl

@[simp] theorem andThen?_nil (o : Option (List Effect)) : andThen? o (some []) = o := by
  cases o with
  | none => rfl
  | some as => exact congrArg some (List.append_nil as)

theorem andThen?_assoc (o o' o'' : Option (List Effect)) :
    andThen? (andThen? o o') o'' = andThen? o (andThen? o' o'') := by
  cases o with
  | none => rfl
  | some as =>
    cases o' with
    | none => rfl
    | some bs =>
      cases o'' with
      | none => rfl
      | some ds => exact congrArg some (List.append_assoc as bs ds)

section gather

variable {α : Type}

/-- The accounts of several things, one after the other. -/
def gather? (f : α → Option (List Effect)) (xs : List α) : Option (List Effect) :=
  (xs.mapM f).map List.flatten

variable {f : α → Option (List Effect)}

@[simp] theorem gather?_nil : gather? f [] = some [] := rfl

@[simp] theorem gather?_cons (x : α) (xs : List α) :
    gather? f (x :: xs) = andThen? (f x) (gather? f xs) := by
  rw [gather?, List.mapM_cons]
  cases hx : f x with
  | none => rfl
  | some as =>
    rw [gather?]
    cases hxs : xs.mapM f <;> rfl

theorem gather?_append (xs ys : List α) :
    gather? f (xs ++ ys) = andThen? (gather? f xs) (gather? f ys) := by
  induction xs with
  | nil => simp
  | cons x xs ih => rw [List.cons_append, gather?_cons, ih, gather?_cons, andThen?_assoc]

end gather

/-- There is an account, and it enters nothing but types of `S`. -/
def Good (S : String → Prop) (o : Option (List Effect)) : Prop :=
  ∃ as, o = some as ∧ ∀ n ∈ entries as, S n

section good

variable {S : String → Prop} {o o' : Option (List Effect)}

theorem good_some {as : List Effect} : Good S (some as) ↔ ∀ n ∈ entries as, S n := by
  simp [Good]

theorem Good.mono {S' : String → Prop} (h : Good S o) (hS : ∀ n, S n → S' n) : Good S' o := by
  obtain ⟨as, ho, has⟩ := h
  exact ⟨as, ho, fun n hn => hS n (has n hn)⟩

theorem not_good_none : ¬Good S none := fun ⟨_, h, _⟩ => nomatch h

theorem good_andThen? : Good S (andThen? o o') ↔ Good S o ∧ Good S o' := by
  cases o with
  | none => simp [not_good_none]
  | some as =>
    cases o' with
    | none => simp [andThen?, not_good_none]
    | some bs =>
      simp only [andThen?_some, good_some, entries_append, List.mem_append]
      exact ⟨fun h => ⟨fun n hn => h n (.inl hn), fun n hn => h n (.inr hn)⟩,
        fun h n hn => hn.elim (h.1 n) (h.2 n)⟩

theorem good_gather? {α : Type} {f : α → Option (List Effect)} {xs : List α} :
    Good S (gather? f xs) ↔ ∀ x ∈ xs, Good S (f x) := by
  induction xs with
  | nil => simp [good_some]
  | cons x xs ih => rw [gather?_cons, good_andThen?, ih, List.forall_mem_cons]

end good

namespace BuildContext

variable {cx : BuildContext}

/-- A declared type that gets a definition of its own and is not predefined. -/
def Defined (cx : BuildContext) (t : DeclaredType) : Prop :=
  cx.Definable t.name t ∧ cx.predefined? t.name = none

/-- What looking up a name does. -/
def naming (cx : BuildContext) (name : String) : List Effect :=
  if cx.exclusions.excludes name || (cx.predefined? name).isSome ||
      cx.symbols.isAssignable name Marker.collection || cx.symbols.isAssignable name Marker.map then []
  else if (cx.symbols.type? name).isSome then [.enters name]
  else
    [.notes ⟨.warning, "type:" ++ name, "Type is not part of the symbol export, generating 'any'"⟩]

/-- What a reference does by itself, apart from the references that it leads to. -/
def immediate? (cx : BuildContext) : TypeRef → Option (List Effect)
  | .primitive name | .declared name _ => some (cx.naming name)
  | .typeVar _ (.type owner) =>
    if (cx.symbols.type? owner).isNone && (cx.predefined? owner).isNone then none
    else some (cx.naming owner)
  | .typeVar name (.method declaringType method overload) =>
    let owner := GenericOwner.method declaringType method overload
    (cx.symbols.typeParameter? owner name).map fun p =>
      if p.bounds.length ≤ 1 then []
      else [.notes ⟨.warning, "type_var:" ++ owner.display ++ ":" ++ name,
        s!"Method type variable '{name}' has {p.bounds.length} bounds, generating 'any'"⟩]
  | .wildcard .. | .array _ => some []

/-- The references that a reference leads to; arguments are gone through on kinds that take them. -/
def followed (cx : BuildContext) : TypeRef → List TypeRef
  | .declared name args =>
    if (cx.kindNamed? (cx.denoted name)).any (·.hasTypeParams) then args else []
  | r => cx.inner r

/-- What resolving a reference does, or nothing if it fails or does not end. -/
def account? (cx : BuildContext) (r : TypeRef) : Option (List Effect) := do
  -- Put in by a tactic for the same reason as in the translation.
  let again : TypeRef → Option (List Effect) := by apply account?; exact cx
  let own ← cx.immediate? r
  let rest ← (cx.followed r).mapM again
  return own ++ rest.flatten
partial_fixpoint

def accountAll? (cx : BuildContext) (rs : List TypeRef) : Option (List Effect) :=
  gather? cx.account? rs

theorem account?_eq (r : TypeRef) :
    cx.account? r = andThen? (cx.immediate? r) (cx.accountAll? (cx.followed r)) := by
  rw [account?]
  cases cx.immediate? r with
  | none => rfl
  | some as =>
    rw [accountAll?, gather?]
    cases (cx.followed r).mapM cx.account? <;> rfl

/-- What filling the definition of a type does. -/
def accountType? (cx : BuildContext) (t : DeclaredType) : Option (List Effect) :=
  cx.accountAll? (cx.content t)

theorem followed_subset_inner (r : TypeRef) : cx.followed r ⊆ cx.inner r := by
  cases r with
  | declared name args =>
    rw [followed]
    split
    · exact List.Subset.refl args
    · exact List.nil_subset args
  | _ => exact List.Subset.refl _

/-- The content of every type of `S` is accounted for within `S`. -/
def Accountable (cx : BuildContext) (S : String → Prop) : Prop :=
  ∀ t, cx.Defined t → S t.name → Good S (cx.accountType? t)

/-- The findings that filling the definition of a type notes. -/
def remarks (cx : BuildContext) (t : DeclaredType) : List Diagnostic :=
  findings ((cx.accountType? t).getD [])

/-- Looking up the name of a type of its own enters it. -/
theorem naming_of_defined {t : DeclaredType} (ht : cx.Defined t) : cx.naming t.name = [.enters t.name] := by
  obtain ⟨⟨hex, hc, hm, htype⟩, hfree⟩ := ht
  simp [naming, hex, hc, hm, htype, hfree]

end BuildContext

end ClientBindings
