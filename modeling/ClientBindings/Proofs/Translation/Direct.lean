import Mathlib.Data.List.Nodup
import Mathlib.Data.List.ReduceOption
import ClientBindings.Proofs.Resolution.References

/-! Declarations translated as they are written down. There is no graph, so nothing is remembered and
no cycle is met: definitions are named where they are used, and a reference is gone through afresh
each time. Only bounds of variables of methods could lead on forever; their translation is nothing
then. -/
namespace ClientBindings

/-- A definition, by its full name, used with arguments. -/
inductive NamedInstance where
  | mk (name : String) (arguments : List NamedInstance)
  deriving Repr, Inhabited

def NamedInstance.name : NamedInstance → String
  | mk name _ => name

def NamedInstance.arguments : NamedInstance → List NamedInstance
  | mk _ arguments => arguments

structure NamedProperty where
  name : String
  type : NamedInstance
  nullable : Bool
  deriving Repr, Inhabited

structure NamedPlaceholder where
  fullName : String
  shortName : String
  kind : TypeKind
  bounds : List NamedInstance
  initialized : Bool
  deriving Repr, Inhabited

/-- A definition that refers to others by their full names. -/
structure NamedDefinition where
  fullName : String
  shortName : String
  tsName : String
  kind : TypeKind
  superTypes : List NamedInstance
  properties : List NamedProperty
  enumConstants : List String
  placeholders : List NamedPlaceholder
  container : Option Container
  initialized : Bool
  deriving Repr, Inhabited

/-- What stands in a definition of a type, by names: its parameters with their bounds, its properties with
their types and what these are applied to, and its supertypes with theirs. -/
structure NamedContent where
  parameters : List (String × List String)
  properties : List (String × String × List String)
  superTypes : List (String × List String)
  deriving DecidableEq, Repr

def NamedDefinition.content (n : NamedDefinition) : NamedContent where
  parameters := n.placeholders.map fun p => (p.fullName, p.bounds.map (·.name))
  properties := n.properties.map fun p => (p.name, p.type.name, p.type.arguments.map (·.name))
  superTypes := n.superTypes.map fun r => (r.name, r.arguments.map (·.name))

/-- The bounds of the parameter of that name; of several the last counts. -/
def boundsOf (name : String) (ps : List TypeParameter) : List TypeRef :=
  ((ps.reverse.find? (·.name == name)).map (·.bounds)).getD []

/-- Parameters of distinct names have each its own. -/
theorem boundsOf_of_nodup {ps : List TypeParameter} (h : (ps.map (·.name)).Nodup)
    {p : TypeParameter} (hp : p ∈ ps) : boundsOf p.name ps = p.bounds := by
  obtain ⟨q, hq⟩ : ∃ q, ps.reverse.find? (·.name == p.name) = some q := by
    rw [← Option.isSome_iff_exists, List.find?_isSome]
    exact ⟨p, List.mem_reverse.2 hp, beq_self_eq_true _⟩
  have hmem : q ∈ ps := List.mem_reverse.1 (List.mem_of_find?_eq_some hq)
  have hname : q.name = p.name := by simpa using List.find?_some hq
  obtain rfl : q = p := List.inj_on_of_nodup_map h hmem hp hname
  rw [boundsOf, hq]
  rfl

theorem forall₂_of_mapM_eq_some {α β : Type} {f : α → Option β} {as : List α} {bs : List β}
    (h : as.mapM f = some bs) : List.Forall₂ (fun a b => f a = some b) as bs := by
  induction as generalizing bs with
  | nil =>
    obtain rfl : [] = bs := Option.some.inj h
    exact .nil
  | cons a as ih =>
    rw [List.mapM_cons] at h
    obtain ⟨b, hb, hrest⟩ := Option.bind_eq_some_iff.1 h
    obtain ⟨bs', hbs, hcons⟩ := Option.bind_eq_some_iff.1 hrest
    obtain rfl : b :: bs' = bs := Option.some.inj hcons
    exact .cons hb (ih hbs)

theorem mapM_eq_some_of_forall₂ {α β : Type} {f : α → Option β} {as : List α} {bs : List β}
    (h : List.Forall₂ (fun a b => f a = some b) as bs) : as.mapM f = some bs := by
  induction h with
  | nil => rfl
  | cons hb _ ih =>
    rw [List.mapM_cons, hb, ih]
    rfl

namespace BuildContext

/-- The predefined type of that name. -/
def predefined? (cx : BuildContext) (name : String) : Option TypeDefinition :=
  (TypeGraph.predefined cx.settings).find? (·.fullName == name)

/-- The full name of what a name stands for. -/
def denoted (cx : BuildContext) (name : String) : String :=
  if cx.exclusions.excludes name then Builtin.any.fullName
  else if (cx.predefined? name).isSome then name
  else if cx.symbols.isAssignable name Marker.collection then Builtin.collection.fullName
  else if cx.symbols.isAssignable name Marker.map then Builtin.map.fullName
  else if (cx.symbols.type? name).isSome then name
  else Builtin.any.fullName

def kindNamed? (cx : BuildContext) (name : String) : Option TypeKind :=
  ((cx.predefined? name).map (·.kind)).or ((cx.symbols.type? name).map fun t => kindOf t.kind)

/-- The placeholder for a parameter of the type of that name. -/
def slot? (cx : BuildContext) (owner param : String) : Option String :=
  match cx.predefined? owner, cx.symbols.type? owner with
  | none, some t =>
    if kindOf t.kind = .interfaceType && t.typeParameters.any (·.name == param) then
      some (placeholderName owner param)
    else none
  | _, _ => none

/-- What a reference stands for, or nothing where it has no slot. -/
def translate? (cx : BuildContext) (r : TypeRef) : Option (Option NamedInstance) :=
  -- The recursion, put in by a tactic: a call that is written out would keep its place in the file as
  -- a part of the definition.
  let again : TypeRef → Option (Option NamedInstance) := by apply translate?; exact cx
  match r with
  | .primitive name => some (some (.mk (cx.denoted name) []))
  | .declared name args =>
    if (cx.kindNamed? (cx.denoted name)).any (·.hasTypeParams) then do
      let args ← args.mapM again
      return some (.mk (cx.denoted name) args.reduceOption)
    else some (some (.mk (cx.denoted name) []))
  | .typeVar name (.type owner) =>
    if (cx.symbols.type? owner).isNone && (cx.predefined? owner).isNone then none
    else some ((cx.slot? (cx.denoted owner) name).map (.mk · []))
  | .typeVar name (.method declaringType method overload) =>
    match cx.symbols.typeParameter? (.method declaringType method overload) name with
    | none => none
    | some p => match p.bounds with
      | [bound] => again bound
      | _ => some (some (.mk Builtin.any.fullName []))
  | .wildcard (some bound) _ => again bound
  | .wildcard none _ => some (some (.mk Builtin.any.fullName []))
  | .array component => do
    let component ← again component
    return some (.mk Builtin.collection.fullName component.toList)
partial_fixpoint

section method

variable {cx : BuildContext} {name declaringType method : String} {overload : Nat}
  {p : TypeParameter}
  (hp : cx.symbols.typeParameter? (.method declaringType method overload) name = some p)
include hp

theorem translate?_of_bound {b : TypeRef} (hb : p.bounds = [b]) :
    cx.translate? (.typeVar name (.method declaringType method overload)) = cx.translate? b := by
  rw [translate?]
  simp only [hp, hb]

theorem translate?_of_bounds (hb : ∀ b, p.bounds ≠ [b]) :
    cx.translate? (.typeVar name (.method declaringType method overload)) =
      some (some (.mk Builtin.any.fullName [])) := by
  rw [translate?]
  simp only [hp]

end method

/-- What holds of every translation: one case for each kind of reference. -/
theorem translate?_induction {cx : BuildContext} {motive : TypeRef → Option NamedInstance → Prop}
    (primitive : ∀ name, motive (.primitive name) (some (.mk (cx.denoted name) [])))
    (plain : ∀ name args, (cx.kindNamed? (cx.denoted name)).any (·.hasTypeParams) = false →
      motive (.declared name args) (some (.mk (cx.denoted name) [])))
    (applied : ∀ name args os, args.mapM cx.translate? = some os → List.Forall₂ motive args os →
      motive (.declared name args) (some (.mk (cx.denoted name) os.reduceOption)))
    (slot : ∀ name owner, motive (.typeVar name (.type owner))
      ((cx.slot? (cx.denoted owner) name).map (.mk · [])))
    (bound : ∀ name declaringType method overload p b o,
      cx.symbols.typeParameter? (.method declaringType method overload) name = some p →
      p.bounds = [b] → motive b o → motive (.typeVar name (.method declaringType method overload)) o)
    (free : ∀ name declaringType method overload p,
      cx.symbols.typeParameter? (.method declaringType method overload) name = some p →
      (∀ b, p.bounds ≠ [b]) → motive (.typeVar name (.method declaringType method overload))
        (some (.mk Builtin.any.fullName [])))
    (unbounded : ∀ lower, motive (.wildcard none lower) (some (.mk Builtin.any.fullName [])))
    (upper : ∀ b lower o, motive b o → motive (.wildcard (some b) lower) o)
    (array : ∀ c o, motive c o →
      motive (.array c) (some (.mk Builtin.collection.fullName o.toList)))
    {r : TypeRef} {o : Option NamedInstance} (h : cx.translate? r = some o) : motive r o := by
  -- The calls that the recursion stands for are translations too, so that is shown along with it.
  suffices hboth : cx.translate? r = some o ∧ motive r o from hboth.2
  refine translate?.partial_correctness cx
    (motive := fun r o => cx.translate? r = some o ∧ motive r o) ?_ r o h
  intro again hagain r o hbody
  cases r with
  | primitive name =>
    obtain rfl := Option.some.inj hbody
    exact ⟨by rw [translate?], primitive name⟩
  | declared name args =>
    dsimp only at hbody
    split at hbody
    · rename_i hkind
      obtain ⟨os, hos, hsome⟩ := Option.bind_eq_some_iff.1 hbody
      obtain rfl := Option.some.inj hsome
      have hargs := forall₂_of_mapM_eq_some hos
      have htranslated : args.mapM cx.translate? = some os :=
        mapM_eq_some_of_forall₂ (hargs.imp fun a o ha => (hagain a o ha).1)
      refine ⟨?_, applied name args os htranslated (hargs.imp fun a o ha => (hagain a o ha).2)⟩
      rw [translate?]
      simp only [hkind, if_true, htranslated]
      rfl
    · rename_i hkind
      obtain rfl := Option.some.inj hbody
      refine ⟨?_, plain name args (by simpa using hkind)⟩
      rw [translate?]
      simp only [hkind, Bool.false_eq_true, if_false]
  | typeVar name owner =>
    cases owner with
    | type owner =>
      dsimp only at hbody
      split at hbody
      · cases hbody
      · rename_i hknown
        obtain rfl := Option.some.inj hbody
        refine ⟨?_, slot name owner⟩
        rw [translate?]
        simp only [hknown, Bool.false_eq_true, if_false]
    | method declaringType method overload =>
      dsimp only at hbody
      split at hbody
      · cases hbody
      · rename_i p hp
        split at hbody
        · rename_i b hb
          obtain ⟨htranslated, hmotive⟩ := hagain b o hbody
          exact ⟨(translate?_of_bound hp hb).trans htranslated, bound _ _ _ _ p b o hp hb hmotive⟩
        · rename_i hb
          obtain rfl := Option.some.inj hbody
          exact ⟨translate?_of_bounds hp hb, free _ _ _ _ p hp hb⟩
  | wildcard upper? lower =>
    cases upper? with
    | none =>
      obtain rfl := Option.some.inj hbody
      exact ⟨by rw [translate?], unbounded lower⟩
    | some b =>
      obtain ⟨htranslated, hmotive⟩ := hagain b o hbody
      exact ⟨by rw [translate?, htranslated], upper b lower o hmotive⟩
  | array c =>
    obtain ⟨o', ho', hsome⟩ := Option.bind_eq_some_iff.1 hbody
    obtain rfl := Option.some.inj hsome
    obtain ⟨htranslated, hmotive⟩ := hagain c o' ho'
    refine ⟨?_, array c o' hmotive⟩
    rw [translate?, htranslated]
    rfl

/-- References in order, without those that have no slot. -/
def translateAll? (cx : BuildContext) (rs : List TypeRef) : Option (List NamedInstance) :=
  (rs.mapM cx.translate?).map (·.reduceOption)

def translateProperty? (cx : BuildContext) (c : String × PropertyCandidate) :
    Option NamedProperty := do
  let type? ← cx.translate? c.2.type
  return ⟨c.1, type?.getD (.mk Builtin.any.fullName []), !cx.symbols.isNotNull cx.pipeline c.2⟩

def translateParameter? (cx : BuildContext) (t : DeclaredType) (p : TypeParameter) :
    Option NamedPlaceholder := do
  let bounds ← cx.translateAll? (boundsOf p.name t.typeParameters)
  return ⟨placeholderName t.name p.name, p.name, .genericPlaceholder, bounds, true⟩

/-- What a declaration says of its definition, whatever the kind. -/
def heading (cx : BuildContext) (t : DeclaredType) : NamedDefinition where
  fullName := t.name
  shortName := t.simpleName
  tsName := (cx.symbols.displayName? t.annotations).getD t.simpleName
  kind := kindOf t.kind
  superTypes := []
  properties := []
  enumConstants := []
  placeholders := []
  container := some (cx.symbols.placeOf t)
  initialized := true

/-- The definition of a declared type, with what its kind has. -/
def translateType? (cx : BuildContext) (t : DeclaredType) : Option NamedDefinition :=
  match kindOf t.kind with
  | .interfaceType => do
    let placeholders ← t.typeParameters.mapM (cx.translateParameter? t)
    let properties ← (cx.symbols.winners cx.pipeline t).mapM cx.translateProperty?
    let superTypes ← cx.translateAll? t.parents
    return { cx.heading t with placeholders, properties, superTypes }
  | .enumType => some { cx.heading t with enumConstants := t.enumConstants }
  | _ => some (cx.heading t)

end BuildContext

end ClientBindings
