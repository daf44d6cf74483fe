import ClientBindings.Proofs.Symbol.Collection
import ClientBindings.Proofs.Symbol.Mirroring

/-! The values of a target annotation on an element. Every entry of an annotation that is collected
can contribute to one attribute of the target, its own or one that it is declared to stand for, and
each attribute has the value of the first entry that leads to it along the aliases of the target. -/
namespace ClientBindings.SymbolTable

variable {s : SymbolTable} {target key wanted : String} {a : Annotation}
  {annotations : List Annotation}

/-- A local alias on the declaration of the target: the first attribute of that name stands for
another one, of no annotation in particular or of that very one. -/
def LocalAlias (s : SymbolTable) (target key other : String) : Prop :=
  ∃ t declared meaning, s.declaredAnnotation? target = some t ∧
    t.attribute? key = some declared ∧ declared.aliasFor = some meaning ∧
    (meaning.owner = none ∨ meaning.owner = some t.name) ∧ meaning.target = some other

/-- The attribute of the target that an entry of an annotation is for: that of the same name on the
target itself, on another annotation the one that the attribute is declared to stand for. -/
inductive StandsFor (s : SymbolTable) (target : String) (a : Annotation) (key : String) :
    String → Prop
  | own (h : a.name = target) : StandsFor s target a key key
  | aliased {t : AnnotationType} {declared : AnnotationAttribute} {meaning : AliasFor}
      (h : a.name ≠ target) (ht : s.declaredAnnotation? a.name = some t)
      (hdeclared : t.attribute? key = some declared) (hmeaning : declared.aliasFor = some meaning)
      (howner : meaning.owner = some target) : StandsFor s target a key (meaning.target.getD key)

/-- An entry of an annotation, an attribute and its value, after the annotation. -/
abbrev WrittenEntry := Annotation × String × AnnotationValue

/-- The entries of annotations in order, each with the annotation that it is written in. -/
def entriesOf (annotations : List Annotation) : List WrittenEntry :=
  annotations.flatMap fun a => a.values.map fun e => (a, e)

/-- Whether an entry is for an attribute of the target that leads to the wanted one. -/
def Gives (s : SymbolTable) (target wanted : String) (e : WrittenEntry) : Prop :=
  ∃ key, s.StandsFor target e.1 e.2.1 key ∧ Relation.ReflTransGen (s.LocalAlias target) key wanted

open Classical in
/-- The value of the first entry that gives one to the wanted attribute. -/
noncomputable def firstGiven (s : SymbolTable) (target wanted : String)
    (annotations : List Annotation) : Option AnnotationValue :=
  ((entriesOf annotations).find? fun e => s.Gives target wanted e).map (·.2.2)

/-! ### The contributions -/

/-- The attribute of the target that an entry contributes to, with the value. -/
def contribution? (s : SymbolTable) (target : String) (e : WrittenEntry) :
    Option (String × AnnotationValue) :=
  if e.1.name = target then some e.2
  else (s.declaredAnnotation? e.1.name).bind fun t =>
    ((t.attribute? e.2.1).bind (·.aliasFor)).bind fun meaning =>
      if meaning.owner = some target then some (meaning.target.getD e.2.1, e.2.2) else none

theorem contribution?_eq_some_iff {e : WrittenEntry} {c : String × AnnotationValue} :
    s.contribution? target e = some c ↔ s.StandsFor target e.1 e.2.1 c.1 ∧ c.2 = e.2.2 := by
  obtain ⟨a, k, v⟩ := e
  obtain ⟨key, value⟩ := c
  by_cases h : a.name = target
  · simp only [contribution?, if_pos h, Option.some.injEq, Prod.mk.injEq]
    constructor
    · rintro ⟨rfl, rfl⟩
      exact ⟨.own h, rfl⟩
    · rintro ⟨hfor, rfl⟩
      cases hfor with
      | own _ => exact ⟨rfl, rfl⟩
      | aliased hne => exact absurd h hne
  · simp only [contribution?, if_neg h, Option.bind_eq_some_iff]
    constructor
    · rintro ⟨t, ht, meaning, ⟨declared, hdeclared, hmeaning⟩, hgiven⟩
      split at hgiven
      · rename_i howner
        obtain ⟨rfl, rfl⟩ := Prod.mk.inj (Option.some.inj hgiven)
        exact ⟨.aliased h ht hdeclared hmeaning howner, rfl⟩
      · cases hgiven
    · rintro ⟨hfor, rfl⟩
      cases hfor with
      | own heq => exact absurd heq h
      | aliased _ ht hdeclared hmeaning howner =>
        exact ⟨_, ht, _, ⟨_, hdeclared, hmeaning⟩, by rw [if_pos howner]⟩

theorem contributions_eq (a : Annotation) :
    s.contributions target a = a.values.filterMap fun e => s.contribution? target (a, e) := by
  by_cases h : a.name = target
  · simp [contributions, contribution?, h]
  · rw [contributions, if_neg h]
    cases hd : s.declaredAnnotation? a.name with
    | none => simp [contribution?, h, hd]
    | some t =>
      refine congrArg (a.values.filterMap ·) (funext fun e => ?_)
      cases hm : (t.attribute? e.1).bind (·.aliasFor) <;> simp [contribution?, h, hd, hm]

theorem flatMap_contributions (annotations : List Annotation) :
    annotations.flatMap (s.contributions target) =
      (entriesOf annotations).filterMap (s.contribution? target) := by
  rw [entriesOf, List.filterMap_flatMap]
  refine congrArg (annotations.flatMap ·) (funext fun a => ?_)
  rw [List.filterMap_map, contributions_eq]
  rfl

/-! ### The values of the target -/

/-- The declaration of a target; one that is declared nowhere has no attributes. -/
def declarationOf (s : SymbolTable) (target : String) : AnnotationType :=
  (s.declaredAnnotation? target).getD ⟨target, [], []⟩

/-- Where setting a value of the target goes on. -/
def localAlias? (s : SymbolTable) (target : String) : String → Option String :=
  aliasIn (s.declarationOf target).name (s.declarationOf target).attributes

/-- Sets a value of the target. -/
def setValue (s : SymbolTable) (target : String) (values : Dict AnnotationValue)
    (e : String × AnnotationValue) : Dict AnnotationValue :=
  setWithAliases (s.declarationOf target).name (s.declarationOf target).attributes values e.1 e.2

theorem localTarget?_eq_some_iff {declared : AnnotationAttribute} {declaration other : String} :
    declared.localTarget? declaration = some other ↔ ∃ meaning, declared.aliasFor = some meaning ∧
      (meaning.owner = none ∨ meaning.owner = some declaration) ∧ meaning.target = some other := by
  obtain ⟨name, _ | ⟨_ | owner, other'⟩⟩ := declared
  · simp [AnnotationAttribute.localTarget?]
  · simp [AnnotationAttribute.localTarget?]
  · by_cases h : owner = declaration <;> simp [AnnotationAttribute.localTarget?, h]

theorem localAlias?_eq_some_iff {other : String} :
    s.localAlias? target key = some other ↔ s.LocalAlias target key other := by
  rw [localAlias?, aliasIn, declarationOf, LocalAlias]
  cases hd : s.declaredAnnotation? target with
  | none => simp
  | some t =>
    simp only [Option.getD_some, Option.bind_eq_some_iff, localTarget?_eq_some_iff]
    constructor
    · rintro ⟨declared, hdeclared, meaning, h⟩
      exact ⟨t, declared, meaning, rfl, hdeclared, h⟩
    · rintro ⟨_, declared, meaning, heq, hdeclared, h⟩
      obtain rfl := Option.some.inj heq
      exact ⟨declared, hdeclared, meaning, h⟩

theorem leadsTo_localAlias? :
    LeadsTo (s.localAlias? target) = Relation.ReflTransGen (s.LocalAlias target) := by
  rw [LeadsTo]
  simp only [localAlias?_eq_some_iff]

theorem resolveAnnotation_eq : s.resolveAnnotation annotations target =
    if (s.collectAnnotations annotations).any (·.name == target) ||
        !((s.collectAnnotations annotations).flatMap (s.contributions target)).isEmpty then
      some ⟨target, ((s.collectAnnotations annotations).flatMap (s.contributions target)).foldl
        (s.setValue target) []⟩
    else none := by
  have hset : s.setValue target = fun values e => setWithAliases (s.declarationOf target).name
      (s.declarationOf target).attributes values e.1 e.2 := rfl
  rw [hset, declarationOf, resolveAnnotation]
  cases s.declaredAnnotation? target <;> rfl

open Classical in
theorem get?_foldl_setValue (given : List (String × AnnotationValue)) :
    (given.foldl (s.setValue target) []).get? wanted =
      (given.find? fun e => Relation.ReflTransGen (s.LocalAlias target) e.1 wanted).map (·.2) := by
  rw [← leadsTo_localAlias?]
  exact get?_foldl_setWithAliases given fun _ _ ha => by cases ha

theorem gives_iff {e : WrittenEntry} : s.Gives target wanted e ↔
    ∃ c, s.contribution? target e = some c ∧
      Relation.ReflTransGen (s.LocalAlias target) c.1 wanted := by
  constructor
  · rintro ⟨key, hfor, hleads⟩
    exact ⟨(key, e.2.2), contribution?_eq_some_iff.2 ⟨hfor, rfl⟩, hleads⟩
  · rintro ⟨c, hc, hleads⟩
    exact ⟨c.1, (contribution?_eq_some_iff.1 hc).1, hleads⟩

open Classical in
/-- The first contribution to an attribute is what the first entry that gives it contributes. -/
theorem find?_contributions (annotations : List Annotation) :
    ((annotations.flatMap (s.contributions target)).find? fun e =>
        Relation.ReflTransGen (s.LocalAlias target) e.1 wanted).map (·.2) =
      s.firstGiven target wanted annotations := by
  rw [flatMap_contributions, List.find?_filterMap, firstGiven]
  have hgives (e : WrittenEntry) : (s.contribution? target e).any
      (fun c => decide (Relation.ReflTransGen (s.LocalAlias target) c.1 wanted)) =
        decide (s.Gives target wanted e) := by
    rw [Bool.eq_iff_iff, Option.any_eq_true]
    simp [gives_iff]
  simp only [hgives]
  cases hfind : (entriesOf annotations).find? fun e => decide (s.Gives target wanted e) with
  | none => rfl
  | some e =>
    have hgiven : s.Gives target wanted e := by
      simpa using List.find?_some hfind
    obtain ⟨c, hc, _⟩ := gives_iff.1 hgiven
    rw [Option.bind_some, hc, Option.map_some, Option.map_some,
      (contribution?_eq_some_iff.1 hc).2]

/-! ### The pass over the annotations -/

/-- What the pass has in hand: whether the target was met, or an attribute that stands for one of
its own, and the values so far. -/
structure Resolving where
  met : Bool
  values : Dict AnnotationValue

/-- Takes in the entries of one annotation, each by setting what it contributes. -/
def takeIn (s : SymbolTable) (target : String)
    (set : Dict AnnotationValue → String × AnnotationValue → Option (Dict AnnotationValue))
    (g : Resolving) (a : Annotation) : Option Resolving :=
  a.values.foldlM (fun g e => match s.contribution? target (a, e) with
    | none => some g
    | some c => (set g.values c).map fun values => ⟨true, values⟩)
    { g with met := g.met || a.name == target }

/-- The resolution as a recursion with no more than so many nested calls. -/
def resolveWithin (s : SymbolTable) (calls : Nat) (annotations : List Annotation)
    (target : String) : Option (Option ResolvedAnnotation) := do
  let all ← s.collectWithin calls annotations ⟨[], []⟩
  let given ← all.found.foldlM (s.takeIn target fun values e =>
    setWithin (s.localAlias? target) calls values e.1 e.2) ⟨false, []⟩
  pure (if given.met then some ⟨target, given.values⟩ else none)

variable {set : Dict AnnotationValue → String × AnnotationValue → Option (Dict AnnotationValue)}

theorem takeIn_eq (hset : ∀ values e, set values e = some (s.setValue target values e))
    (g : Resolving) (a : Annotation) : s.takeIn target set g a =
      some ⟨(g.met || a.name == target) || !(s.contributions target a).isEmpty,
        (s.contributions target a).foldl (s.setValue target) g.values⟩ := by
  rw [takeIn, contributions_eq]
  generalize (g.met || a.name == target) = met
  obtain ⟨_, values⟩ := g
  dsimp only
  induction a.values generalizing met values with
  | nil => simp
  | cons e es ih =>
    rw [List.foldlM_cons]
    cases hc : s.contribution? target (a, e) with
    | none => simpa [hc] using ih met values
    | some c => simpa [hc, hset] using ih true (s.setValue target values c)

theorem foldlM_takeIn (hset : ∀ values e, set values e = some (s.setValue target values e))
    (g : Resolving) (all : List Annotation) : all.foldlM (s.takeIn target set) g =
      some ⟨g.met ||
          (all.any (·.name == target) || !(all.flatMap (s.contributions target)).isEmpty),
        (all.flatMap (s.contributions target)).foldl (s.setValue target) g.values⟩ := by
  induction all generalizing g with
  | nil => simp
  | cons a all ih =>
    rw [List.foldlM_cons, takeIn_eq hset, Option.bind_eq_bind, Option.bind_some, ih,
      List.flatMap_cons, List.foldl_append]
    cases s.contributions target a <;> simp [Bool.or_assoc]

/-- As many calls as the resolution can need: one for each name that can be opened and for each
attribute of the target, and one more. -/
def callsFor (s : SymbolTable) (target : String) : Nat :=
  s.openAnnotationNames.length + (s.declarationOf target).attributes.length + 1

theorem resolveWithin_eq (s : SymbolTable) (annotations : List Annotation) (target : String)
    (more : Nat) : s.resolveWithin (s.callsFor target + more) annotations target =
      some (s.resolveAnnotation annotations target) := by
  obtain ⟨visited, hcollect⟩ :=
    collectWithin_eq s annotations ((s.declarationOf target).attributes.length + more)
  have hcalls : s.openAnnotationNames.length + 1 +
      ((s.declarationOf target).attributes.length + more) = s.callsFor target + more := by
    rw [callsFor]
    omega
  have hset : ∀ values e, setWithin (s.localAlias? target) (s.callsFor target + more) values e.1
      e.2 = some (s.setValue target values e) := by
    intro values e
    apply setWithin_eq fun _ _ => rfl
    rw [callsFor]
    omega
  rw [hcalls] at hcollect
  rw [resolveWithin, hcollect, Option.bind_eq_bind, Option.bind_some, foldlM_takeIn hset,
    resolveAnnotation_eq]
  rfl

/-! ### What is resolved -/

theorem contributions_eq_nil_iff {all : List Annotation} :
    all.flatMap (s.contributions target) = [] ↔
      ∀ e ∈ entriesOf all, ∀ key, ¬s.StandsFor target e.1 e.2.1 key := by
  rw [flatMap_contributions, List.filterMap_eq_nil_iff]
  refine forall₂_congr fun e _ => ?_
  rw [Option.eq_none_iff_forall_not_mem]
  constructor
  · intro h key hfor
    exact h (key, e.2.2) (contribution?_eq_some_iff.2 ⟨hfor, rfl⟩)
  · intro h c hc
    exact h c.1 (contribution?_eq_some_iff.1 hc).1

theorem resolveAnnotation_eq_none_iff : s.resolveAnnotation annotations target = none ↔
    (∀ a ∈ s.collectAnnotations annotations, a.name ≠ target) ∧
      ∀ e ∈ entriesOf (s.collectAnnotations annotations), ∀ key,
        ¬s.StandsFor target e.1 e.2.1 key := by
  rw [← contributions_eq_nil_iff, resolveAnnotation_eq]
  simp

theorem resolveAnnotation_bind_get? :
    (s.resolveAnnotation annotations target).bind (·.values.get? wanted) =
      s.firstGiven target wanted (s.collectAnnotations annotations) := by
  rw [← find?_contributions, resolveAnnotation_eq]
  split
  · exact get?_foldl_setValue _
  · rename_i h
    rw [Bool.or_eq_true, not_or, Bool.not_eq_true', Bool.not_eq_false, List.isEmpty_iff] at h
    rw [h.2]
    rfl

theorem exists_firstGiven_iff {all : List Annotation} :
    (∃ value, s.firstGiven target wanted all = some value) ↔
      ∃ e ∈ entriesOf all, s.Gives target wanted e := by
  rw [← Option.isSome_iff_exists, firstGiven, Option.isSome_map, List.find?_isSome]
  simp

/-- A target is resolved exactly if it is among the annotations that are collected or one of these
has an entry that stands for an attribute of it. Then an attribute has a value exactly if it is reached
along the local aliases from that of some entry, and the value is that of the first such entry. The
resolution ends, whatever chains and cycles the aliases form. -/
theorem resolveAnnotation_eq_first (s : SymbolTable) (annotations : List Annotation)
    (target : String) :
    (s.resolveAnnotation annotations target = none ↔
      (∀ a ∈ s.collectAnnotations annotations, a.name ≠ target) ∧
        ∀ e ∈ entriesOf (s.collectAnnotations annotations), ∀ key,
          ¬s.StandsFor target e.1 e.2.1 key) ∧
    (∀ wanted, (∃ value,
        (s.resolveAnnotation annotations target).bind (·.values.get? wanted) = some value) ↔
      ∃ e ∈ entriesOf (s.collectAnnotations annotations), s.Gives target wanted e) ∧
    (∀ wanted, (s.resolveAnnotation annotations target).bind (·.values.get? wanted) =
      s.firstGiven target wanted (s.collectAnnotations annotations)) ∧
    ∀ more, s.resolveWithin (s.callsFor target + more) annotations target =
      some (s.resolveAnnotation annotations target) := by
  refine ⟨resolveAnnotation_eq_none_iff, fun wanted => ?_,
    fun wanted => resolveAnnotation_bind_get?, resolveWithin_eq s annotations target⟩
  rw [resolveAnnotation_bind_get?]
  exact exists_firstGiven_iff

end ClientBindings.SymbolTable
