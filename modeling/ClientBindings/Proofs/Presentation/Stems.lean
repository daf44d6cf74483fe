import Mathlib.Data.List.ReduceOption
import ClientBindings.Proofs.Presentation.Success
import ClientBindings.Proofs.Symbol.Arity

/-! With how many arguments types are used. An instance of a declared type has the arguments that a
reference passes, those apart that lead to a variable without a slot. -/
namespace ClientBindings

open BuildContext TypeGraph

/-- It holds of the instance and of its arguments, at any depth. -/
inductive NamedInstance.All (P : NamedInstance → Prop) : NamedInstance → Prop
  | mk {name : String} {as : List NamedInstance} (h : P (.mk name as)) (has : ∀ a ∈ as, All P a) :
      All P (.mk name as)

namespace BuildContext

variable {cx : BuildContext} {g : TypeGraph} {t : DeclaredType} {r : TypeRef} {name : String}

theorem isSome_predefined?_builtin {b : TypeDefinition} (hb : b ∈ Builtin.all) :
    (cx.predefined? b.fullName).isSome = true := by
  obtain ⟨d, hd, hname⟩ := exists_mem_predefined_of_builtin cx.settings hb
  exact List.find?_isSome.2 ⟨d, hd, beq_iff_eq.2 hname⟩

theorem denoted_eq_or_predefined (cx : BuildContext) (name : String) :
    cx.denoted name = name ∨ (cx.predefined? (cx.denoted name)).isSome = true := by
  have hbuiltin {b : TypeDefinition} (hb : b ∈ Builtin.all) :
      (cx.predefined? b.fullName).isSome = true := isSome_predefined?_builtin hb
  unfold denoted
  split
  · exact .inr (hbuiltin (b := Builtin.any) (by simp [Builtin.all]))
  · split
    · exact .inl rfl
    · split
      · exact .inr (hbuiltin (b := Builtin.collection) (by simp [Builtin.all]))
      · split
        · exact .inr (hbuiltin (b := Builtin.map) (by simp [Builtin.all]))
        · split
          · exact .inl rfl
          · exact .inr (hbuiltin (b := Builtin.any) (by simp [Builtin.all]))

/-- A name that stands for a type that is not predefined stands for the type of that name. -/
theorem denoted_eq_of_free (h : cx.predefined? (cx.denoted name) = none) : cx.denoted name = name :=
  (cx.denoted_eq_or_predefined name).resolve_right fun hsome => by
    rw [h] at hsome
    cases hsome

/-- The variable has a slot in the type that it belongs to. Variables of methods need none. -/
def HasSlot (cx : BuildContext) : String × GenericOwner → Prop
  | (name, .type owner) => (cx.slot? (cx.denoted owner) name).isSome = true
  | (_, .method ..) => True

instance : DecidablePred cx.HasSlot
  | (name, .type owner) => inferInstanceAs (Decidable ((cx.slot? (cx.denoted owner) name).isSome = true))
  | (_, .method ..) => inferInstanceAs (Decidable True)

/-- Every variable in the export has a slot. -/
def Slotted (cx : BuildContext) : Prop :=
  ∀ t ∈ cx.symbols.types, ∀ r ∈ t.references, ∀ v ∈ r.vars, cx.HasSlot v

instance : Decidable cx.Slotted :=
  inferInstanceAs (Decidable (∀ t ∈ cx.symbols.types, ∀ r ∈ t.references, ∀ v ∈ r.vars, cx.HasSlot v))

/-- An instance of a declared type, if it is one, stems from a reference that names the type, and has the
arguments that the reference passes. -/
def Stems (cx : BuildContext) : NamedInstance → Prop
  | .mk name as => ∀ t, cx.Defined t → kindOf t.kind = .interfaceType → t.name = name →
      ∃ r, cx.symbols.Derived r ∧ r.name? = some name ∧ cx.translateAll? r.arguments = some as

theorem stems_builtin {b : TypeDefinition} (hb : b ∈ Builtin.all) (as : List NamedInstance) :
    cx.Stems (.mk b.fullName as) := by
  intro t ht _ hname
  have hsome : (cx.predefined? b.fullName).isSome = true := isSome_predefined?_builtin hb
  rw [← hname, ht.2] at hsome
  cases hsome

theorem all_stems_any : (NamedInstance.mk Builtin.any.fullName []).All cx.Stems :=
  .mk (stems_builtin (b := Builtin.any) (by simp [Builtin.all]) _) fun _ ha => nomatch ha

theorem derived_of_bound {declaringType method : String} {overload : Nat} {p : TypeParameter}
    (hp : cx.symbols.typeParameter? (.method declaringType method overload) name = some p)
    (hb : p.bounds = [r]) : cx.symbols.Derived r := by
  obtain ⟨t, ht, hr⟩ := SymbolTable.mem_references_of_soleBound? (SymbolTable.soleBound?_method hp hb)
  exact .written ht hr

/-- A reference that leads to a variable without a slot. -/
inductive Vacant (cx : BuildContext) : TypeRef → Prop
  | slot {name owner : String} (h : ¬cx.HasSlot (name, .type owner)) :
      Vacant cx (.typeVar name (.type owner))
  | bound {name declaringType method : String} {overload : Nat} {p : TypeParameter} {b : TypeRef}
      (hp : cx.symbols.typeParameter? (.method declaringType method overload) name = some p)
      (hb : p.bounds = [b]) (h : Vacant cx b) :
      Vacant cx (.typeVar name (.method declaringType method overload))
  | upper {b : TypeRef} {lower : Option TypeRef} (h : Vacant cx b) : Vacant cx (.wildcard (some b) lower)

/-- The references that stand for nothing. -/
theorem eq_none_iff_vacant {o : Option NamedInstance} (h : cx.translate? r = some o) :
    o = none ↔ cx.Vacant r := by
  refine translate?_induction (motive := fun r o => o = none ↔ cx.Vacant r) ?primitive ?plain ?applied
    ?slot ?bound ?free ?unbounded ?upper ?array h
  case slot =>
    intro name owner
    rw [Option.map_eq_none_iff, ← Option.not_isSome_iff_eq_none]
    exact ⟨.slot, fun | .slot h => h⟩
  case bound =>
    intro name declaringType method overload p b o hp hb ih
    rw [ih]
    refine ⟨.bound hp hb, fun hvacant => ?_⟩
    cases hvacant with
    | bound hp' hb' h =>
      obtain rfl := Option.some.inj (hp.symm.trans hp')
      rw [hb, List.singleton_inj] at hb'
      exact hb' ▸ h
  case free =>
    intro name declaringType method overload p hp hb
    refine iff_of_false (fun h => nomatch h) fun hvacant => ?_
    cases hvacant with
    | bound hp' hb' _ =>
      obtain rfl := Option.some.inj (hp.symm.trans hp')
      exact hb _ hb'
  case upper =>
    intro b lower o ih
    rw [ih]
    exact ⟨.upper, fun | .upper h => h⟩
  case primitive => exact fun _ => iff_of_false (fun h => nomatch h) fun h => nomatch h
  case plain => exact fun _ _ _ => iff_of_false (fun h => nomatch h) fun h => nomatch h
  case applied => exact fun _ _ _ _ _ => iff_of_false (fun h => nomatch h) fun h => nomatch h
  case unbounded => exact fun _ => iff_of_false (fun h => nomatch h) fun h => nomatch h
  case array => exact fun _ _ _ => iff_of_false (fun h => nomatch h) fun h => nomatch h

/-- Where every variable of the export has a slot, no derived reference leads to one without. -/
theorem Slotted.not_vacant (hslots : cx.Slotted) (hr : cx.symbols.Derived r) : ¬cx.Vacant r := by
  intro hvacant
  induction hvacant with
  | @slot name owner h =>
    obtain ⟨t, ht, r₀, hr₀, hv⟩ := hr.exists_var (v := (name, .type owner)) (List.mem_singleton_self _)
    exact h (hslots t ht r₀ hr₀ _ hv)
  | bound hp hb _ ih => exact ih (derived_of_bound hp hb)
  | upper _ ih => exact ih hr.upper

/-- Whatever a derived reference stands for, its instances of declared types stem from derived
references. -/
theorem all_stems_of_translate? (hs : cx.symbols.Tidy) {n : NamedInstance}
    (h : cx.translate? r = some (some n)) (hr : cx.symbols.Derived r) : n.All cx.Stems := by
  refine translate?_induction
    (motive := fun r o => cx.symbols.Derived r → ∀ n ∈ o, n.All cx.Stems) ?primitive ?plain
    ?applied ?slot ?bound ?free ?unbounded ?upper ?array h hr n rfl
  case primitive =>
    rintro name hr _ ⟨⟩
    refine .mk (fun t ht _ hname => ?_) fun a ha => nomatch ha
    have hown : cx.denoted name = name := denoted_eq_of_free (hname ▸ ht.2)
    exact ⟨_, hr, congrArg some hown.symm, rfl⟩
  case plain =>
    rintro name args hkind - _ ⟨⟩
    refine .mk (fun t ht ht' hname => ?_) fun a ha => nomatch ha
    rw [← hname, kindNamed?, ht.2, ht.1.2.2.2, Option.map_none, Option.none_or, Option.map_some, ht'] at hkind
    cases hkind
  case applied =>
    rintro name args os hos hargs hr _ ⟨⟩
    refine .mk (fun t ht _ hname => ?_) fun a ha => ?_
    · have hown : cx.denoted name = name := denoted_eq_of_free (hname ▸ ht.2)
      exact ⟨_, hr, congrArg some hown.symm, by rw [TypeRef.arguments, translateAll?, hos]; rfl⟩
    · obtain ⟨b, hb, hmotive⟩ := exists_of_forall₂ hargs (List.reduceOption_mem_iff.1 ha)
      exact hmotive (hr.argument hb) a rfl
  case slot =>
    intro name owner _ m hm
    obtain ⟨full, hfull, rfl⟩ := Option.map_eq_some_iff.1 hm
    refine .mk (fun t ht _ hname => ?_) fun a ha => nomatch ha
    have hplaceholder : full = placeholderName (cx.denoted owner) name := by
      unfold slot? at hfull
      split at hfull
      · split at hfull
        · exact (Option.some.inj hfull).symm
        · cases hfull
      · cases hfull
    have hname' : Unreserved t.name := (hs t ht.mem_types).1
    exact absurd (hname.trans hplaceholder ▸ hname') (not_unreserved_placeholderName _ _)
  case bound => exact fun _ _ _ _ _ _ _ hp hb ih _ => ih (derived_of_bound hp hb)
  case free =>
    rintro name declaringType method overload p - - - _ ⟨⟩
    exact all_stems_any
  case unbounded =>
    rintro lower - _ ⟨⟩
    exact all_stems_any
  case upper => exact fun _ _ _ ih hr => ih hr.upper
  case array =>
    rintro c o ih hr _ ⟨⟩
    refine .mk (stems_builtin (b := Builtin.collection) (by simp [Builtin.all]) _) fun a ha => ?_
    exact ih hr.component a (Option.mem_toList.1 ha)

/-- References in order are fewer once translated exactly if one of them stands for nothing. -/
theorem length_of_translateAll? {rs : List TypeRef} {ns : List NamedInstance}
    (h : cx.translateAll? rs = some ns) : ns.length ≤ rs.length ∧
      (ns.length = rs.length ↔ ∀ r ∈ rs, ¬cx.Vacant r) := by
  obtain ⟨os, hos, rfl⟩ := Option.map_eq_some_iff.1 h
  have hrs := forall₂_of_mapM_eq_some hos
  rw [hrs.length_eq, List.reduceOption_length_eq_iff]
  refine ⟨List.reduceOption_length_le os, fun hsome r hr hvacant => ?_, fun hrest o ho => ?_⟩
  · obtain ⟨o, ho, htranslated⟩ := exists_mem_of_mapM_eq_some hos hr
    have hnone : o = none := (eq_none_iff_vacant htranslated).2 hvacant
    have h := hsome o ho
    rw [hnone] at h
    cases h
  · obtain ⟨r, hr, htranslated⟩ := exists_of_forall₂ hrs ho
    rw [Option.isSome_iff_ne_none]
    exact fun hnone => hrest r hr ((eq_none_iff_vacant htranslated).1 hnone)

theorem all_stems_of_translateAll? (hs : cx.symbols.Tidy) {rs : List TypeRef}
    {ns : List NamedInstance} (h : cx.translateAll? rs = some ns)
    (hrs : ∀ r ∈ rs, cx.symbols.Derived r) : ∀ n ∈ ns, n.All cx.Stems := by
  obtain ⟨os, hos, rfl⟩ := Option.map_eq_some_iff.1 h
  intro n hn
  obtain ⟨r, hr, hn⟩ := exists_of_forall₂ (forall₂_of_mapM_eq_some hos) (List.reduceOption_mem_iff.1 hn)
  exact all_stems_of_translate? hs hn (hrs r hr)

/-- Where a reference that stands for nothing is of any type. -/
theorem all_stems_getD (hs : cx.symbols.Tidy) {o : Option NamedInstance}
    (h : cx.translate? r = some o) (hr : cx.symbols.Derived r) :
    (o.getD (.mk Builtin.any.fullName [])).All cx.Stems := by
  cases o with
  | none => exact all_stems_any
  | some n => exact all_stems_of_translate? hs h hr

end BuildContext

end ClientBindings
