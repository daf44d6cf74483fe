import Mathlib.Logic.Relation
import ClientBindings.Symbol.Aliasing
import ClientBindings.Proofs.Dict

/-! Setting a value of an annotation together with those of the attributes that its attribute stands
for. It goes along the aliases up to an attribute that is set, and need not go on from there, because
between two settings the attributes that are set are closed under aliases. So each attribute has the
first of the values whose attribute leads to it, whatever chains and cycles the aliases form. -/
namespace ClientBindings

/-- Goes from an attribute along the aliases to another one, in any number of steps. -/
abbrev LeadsTo (next : String → Option String) : String → String → Prop :=
  Relation.ReflTransGen fun a b => next a = some b

/-- Every alias of an attribute that is set is set. -/
def AliasClosed (next : String → Option String) (values : Dict AnnotationValue) : Prop :=
  ∀ a b, values.contains a = true → next a = some b → values.contains b = true

/-- Every alias of an attribute that is set is set, or it is the one to be set next. -/
def ClosedUpTo (next : String → Option String) (values : Dict AnnotationValue) (key : String) :
    Prop :=
  ∀ a b, values.contains a = true → next a = some b → values.contains b = true ∨ b = key

/-- Sets a value, then that of the attribute that comes next, as long as it meets attributes without
one, in so many calls. -/
def setWithin (next : String → Option String) :
    Nat → Dict AnnotationValue → String → AnnotationValue → Option (Dict AnnotationValue)
  | 0, _, _, _ => none
  | calls + 1, values, key, value =>
    if values.contains key then some values
    else match next key with
      | none => some (values.insert key value)
      | some other => setWithin next calls (values.insert key value) other value

section setting

variable {next : String → Option String} {values values' : Dict AnnotationValue} {key k : String}
  {value : AnnotationValue}

theorem leadsTo_iff_of_none (h : next key = none) : LeadsTo next key k ↔ k = key := by
  constructor
  · intro hk
    rcases Relation.ReflTransGen.cases_head hk with rfl | ⟨other, hother, _⟩
    · rfl
    · simp [h] at hother
  · rintro rfl
    exact .refl

theorem leadsTo_iff_of_some {other : String} (h : next key = some other) :
    LeadsTo next key k ↔ k = key ∨ LeadsTo next other k := by
  constructor
  · intro hk
    rcases Relation.ReflTransGen.cases_head hk with rfl | ⟨other', hother, hk⟩
    · exact .inl rfl
    · obtain rfl := Option.some.inj (h.symm.trans hother)
      exact .inr hk
  · rintro (rfl | hk)
    · exact .refl
    · exact .head h hk

theorem AliasClosed.contains_of_leadsTo (hclosed : AliasClosed next values)
    (hkey : values.contains key = true) (h : LeadsTo next key k) : values.contains k = true := by
  induction h with
  | refl => exact hkey
  | tail _ hab ih => exact hclosed _ _ ih hab

theorem AliasClosed.upTo (h : AliasClosed next values) (key : String) :
    ClosedUpTo next values key :=
  fun a b ha hab => .inl (h a b ha hab)

theorem ClosedUpTo.closed (h : ClosedUpTo next values key) (hkey : values.contains key = true) :
    AliasClosed next values := by
  intro a b ha hab
  rcases h a b ha hab with hb | rfl
  · exact hb
  · exact hkey

/-- Once the attribute is set, all that led to it is settled, and only its own alias can be
missing. -/
theorem ClosedUpTo.insert (h : ClosedUpTo next values key) {a b : String}
    (ha : (values.insert key value).contains a = true) (hab : next a = some b) :
    (values.insert key value).contains b = true ∨ next key = some b := by
  rw [Dict.contains_insert] at ha ⊢
  rcases ha with rfl | ha
  · exact .inr hab
  · exact .inl (h a b ha hab).symm

open Classical in
/-- Setting a value gives it to all attributes without one that the attribute leads to, and to no
other. -/
theorem get?_of_setWithin {calls : Nat} (hopen : ClosedUpTo next values key)
    (h : setWithin next calls values key value = some values') :
    AliasClosed next values' ∧ ∀ k, values'.get? k =
      (values.get? k).or (if LeadsTo next key k then some value else none) := by
  induction calls generalizing values key with
  | zero => cases h
  | succ calls ih =>
    rw [setWithin] at h
    by_cases hkey : values.contains key = true
    · -- the attribute is set, and by closure all that it leads to
      rw [if_pos hkey] at h
      obtain rfl := Option.some.inj h
      refine ⟨hopen.closed hkey, fun k => ?_⟩
      by_cases hk : LeadsTo next key k
      · have hset := (hopen.closed hkey).contains_of_leadsTo hkey hk
        obtain ⟨v, hv⟩ := Option.ne_none_iff_exists'.1 (Dict.contains_iff_get?_ne_none.1 hset)
        simp [hv]
      · simp [hk]
    have hnone : values.get? key = none := by
      rw [Dict.contains_iff_get?_ne_none, ne_eq, not_not] at hkey
      exact hkey
    rw [if_neg hkey] at h
    cases hnext : next key with
    | none =>
      rw [hnext] at h
      obtain rfl := Option.some.inj h
      refine ⟨fun a b ha hab => (hopen.insert ha hab).resolve_right (by simp [hnext]), fun k => ?_⟩
      rw [Dict.get?_insert, leadsTo_iff_of_none hnext]
      by_cases hk : k = key <;> simp [hk, hnone]
    | some other =>
      rw [hnext] at h
      have hopen' : ClosedUpTo next (values.insert key value) other := by
        intro a b ha hab
        refine (hopen.insert ha hab).imp_right fun heq => ?_
        exact Option.some.inj (heq.symm.trans hnext)
      obtain ⟨hclosed, hvalues⟩ := ih hopen' h
      refine ⟨hclosed, fun k => ?_⟩
      rw [hvalues, Dict.get?_insert, leadsTo_iff_of_some hnext]
      by_cases hk : k = key <;> simp [hk, hnone]

variable {declaration : String} {attributes rest : List AnnotationAttribute}

/-- The attribute that the first attribute of that name stands for. -/
def aliasIn (declaration : String) (attributes : List AnnotationAttribute) (key : String) :
    Option String :=
  (attributes.find? (·.name == key)).bind (·.localTarget? declaration)

theorem setWithAliases_of_end (hkey : ¬values.contains key = true)
    (hnext : aliasIn declaration rest key = none) :
    setWithAliases declaration rest values key value = values.insert key value := by
  rw [setWithAliases, if_neg hkey]
  split
  · rfl
  · rename_i a hfind
    rw [aliasIn, hfind, Option.bind_some] at hnext
    rw [hnext]

theorem setWithAliases_of_alias {other : String} (hkey : ¬values.contains key = true)
    (hnext : aliasIn declaration rest key = some other) :
    setWithAliases declaration rest values key value =
      setWithAliases declaration (attributesExcept key rest) (values.insert key value) other
        value := by
  rw [setWithAliases, if_neg hkey]
  split
  · rename_i hfind
    simp [aliasIn, hfind] at hnext
  · rename_i a hfind
    rw [aliasIn, hfind, Option.bind_some] at hnext
    rw [hnext]

theorem length_attributesExcept_of_alias {other : String}
    (hnext : aliasIn declaration rest key = some other) :
    (attributesExcept key rest).length < rest.length := by
  obtain ⟨a, hfind, _⟩ := Option.bind_eq_some_iff.1 hnext
  exact length_attributesExcept_lt hfind

theorem find?_attributesExcept (h : k ≠ key) :
    (attributesExcept key rest).find? (·.name == k) = rest.find? (·.name == k) := by
  induction rest with
  | nil => rfl
  | cons a rest ih =>
    rw [attributesExcept] at ih ⊢
    by_cases hkey : a.name = key
    · simpa [hkey, Ne.symm h] using ih
    · by_cases hk : a.name = k
      · simp [hk, h]
      · simpa [hkey, hk] using ih

/-- An attribute that has been followed has a value, so it makes no difference that it is left out
from then on: as many calls are enough as there are attributes, and one more. -/
theorem setWithin_eq {calls : Nat} (hrest : ∀ k, values.contains k = false →
      rest.find? (·.name == k) = attributes.find? (·.name == k)) (h : rest.length < calls) :
    setWithin (aliasIn declaration attributes) calls values key value =
      some (setWithAliases declaration rest values key value) := by
  induction calls generalizing rest values key with
  | zero => omega
  | succ calls ih =>
    rw [setWithin]
    by_cases hkey : values.contains key = true
    · rw [if_pos hkey, setWithAliases, if_pos hkey]
    rw [if_neg hkey]
    have hsame : aliasIn declaration attributes key = aliasIn declaration rest key := by
      rw [aliasIn, aliasIn, hrest key (by simpa using hkey)]
    cases hnext : aliasIn declaration rest key with
    | none => rw [hsame, hnext, setWithAliases_of_end hkey hnext]
    | some other =>
      rw [hsame, hnext, setWithAliases_of_alias hkey hnext]
      have hfewer := length_attributesExcept_of_alias hnext
      apply ih
      · intro k hk
        have hset : ¬(k = key ∨ values.contains k = true) := by
          intro hor
          have htrue : (values.insert key value).contains k = true := Dict.contains_insert.2 hor
          simp [hk] at htrue
        rw [not_or] at hset
        rw [find?_attributesExcept hset.1, hrest k (by simpa using hset.2)]
      · omega

open Classical in
theorem get?_setWithAliases (key : String) (value : AnnotationValue)
    (hclosed : AliasClosed (aliasIn declaration attributes) values) :
    AliasClosed (aliasIn declaration attributes)
        (setWithAliases declaration attributes values key value) ∧
      ∀ k, (setWithAliases declaration attributes values key value).get? k =
        (values.get? k).or
          (if LeadsTo (aliasIn declaration attributes) key k then some value else none) :=
  get?_of_setWithin (hclosed.upTo key)
    (setWithin_eq (fun _ _ => rfl) (Nat.lt_succ_self attributes.length))

open Classical in
/-- Each attribute has the first of the values whose attributes lead to it. -/
theorem get?_foldl_setWithAliases (given : List (String × AnnotationValue))
    (hclosed : AliasClosed (aliasIn declaration attributes) values) :
    (given.foldl (fun values e => setWithAliases declaration attributes values e.1 e.2) values).get?
        k = (values.get? k).or
      ((given.find? fun e => LeadsTo (aliasIn declaration attributes) e.1 k).map (·.2)) := by
  induction given generalizing values with
  | nil => simp
  | cons e given ih =>
    obtain ⟨hclosed', hvalues⟩ := get?_setWithAliases e.1 e.2 hclosed
    rw [List.foldl_cons, ih hclosed', hvalues, Option.or_assoc, List.find?_cons]
    by_cases hk : LeadsTo (aliasIn declaration attributes) e.1 k <;> simp [hk]

end setting

end ClientBindings
