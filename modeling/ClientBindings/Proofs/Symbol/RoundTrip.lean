import ClientBindings.Proofs.Document.Decoding
import ClientBindings.Symbol.Encoding

/-! What is read from the document of an export is the export. References leave out what is empty or absent,
and come back with it; each record has one lemma, from those of its fields. -/
namespace ClientBindings

open Document

/-! Values that come back from their documents: words are in their range, and no attribute value is a
float. -/

def GenericOwner.fits : GenericOwner → Bool
  | .type _ => true
  | .method _ _ overload => Word.fitsUnsigned 64 overload

mutual

def TypeRef.fits : TypeRef → Bool
  | .primitive _ => true
  | .declared _ args => TypeRef.fitsAll args
  | .typeVar _ owner => owner.fits
  | .wildcard upper lower => TypeRef.fitsOption upper && TypeRef.fitsOption lower
  | .array component => TypeRef.fits component

def TypeRef.fitsAll : List TypeRef → Bool
  | [] => true
  | r :: rs => TypeRef.fits r && TypeRef.fitsAll rs

def TypeRef.fitsOption : Option TypeRef → Bool
  | none => true
  | some r => TypeRef.fits r

end

mutual

def AnnotationValue.fits : AnnotationValue → Bool
  | .bool _ => true
  | .int n => Word.fitsSigned 63 n
  | .float _ => false
  | .text _ => true
  | .list items => AnnotationValue.fitsAll items

def AnnotationValue.fitsAll : List AnnotationValue → Bool
  | [] => true
  | v :: vs => AnnotationValue.fits v && AnnotationValue.fitsAll vs

end

def Annotation.fits (a : Annotation) : Bool := a.values.all (·.2.fits)

def AnnotationType.fits (t : AnnotationType) : Bool := t.annotations.all (·.fits)

def TypeParameter.fits (p : TypeParameter) : Bool := p.bounds.all (·.fits)

def Field.fits (f : Field) : Bool := f.type.fits && f.annotations.all (·.fits)

def Parameter.fits (p : Parameter) : Bool := p.type.fits && p.annotations.all (·.fits)

def Method.fits (m : Method) : Bool :=
  m.annotations.all (·.fits) && m.typeParameters.all (·.fits) && m.parameters.all (·.fits) &&
    m.returnType.all (·.fits)

def RecordComponent.fits (c : RecordComponent) : Bool := c.type.fits && c.annotations.all (·.fits)

def DeclaredType.fits (t : DeclaredType) : Bool :=
  t.annotations.all (·.fits) && t.typeParameters.all (·.fits) && t.superclass.all (·.fits) &&
    t.interfaces.all (·.fits) && t.fields.all (·.fits) && t.methods.all (·.fits) &&
    t.recordComponents.all (·.fits)

def Export.fits (e : Export) : Bool := e.types.all (·.fits) && e.annotationTypes.all (·.fits)

/-- An annotation is as its values are written in their order. -/
theorem Annotation.written_values (a : Annotation) : written a.name a.values = a := by
  obtain ⟨name, values, sorted⟩ := a
  simp only [written, Dict.ofEntries_of_sorted sorted]

/-! References. -/

namespace Encode

/-- A bound of a wildcard, if there is one. -/
def bound (key : String) : Option TypeRef → List (String × Document)
  | none => []
  | some r => [(key, typeRef r)]

theorem typeRef_wildcard (upper lower : Option TypeRef) : typeRef (.wildcard upper lower) =
    .map (("kind", .text "wildcard") :: (bound "extends" upper ++ bound "super" lower)) := by
  cases upper <;> cases lower <;> rw [typeRef] <;> rfl

theorem given_typeRef (r : TypeRef) : (typeRef r).Given := by
  cases r with
  | declared name args => cases args <;> (rw [typeRef]; exact trivial)
  | wildcard upper lower => rw [typeRef_wildcard]; exact trivial
  | primitive | typeVar | array => rw [typeRef]; exact trivial

theorem settled_genericOwner (o : GenericOwner) : (genericOwner o).Settled := by
  cases o with
  | type name => rfl
  | method declaringType method overload =>
    have hcontent : (Document.map ([("declaring_type", .text declaringType), ("method", .text method)] ++
        if overload = 0 then [] else [("overload", .int overload)])).Settled := by
      refine settled_map ?_
      split
      · simp
      · simp [Settled, settle]
    exact settled_map (by simpa using hcontent)

mutual

theorem settled_typeRef (r : TypeRef) : (typeRef r).Settled := by
  cases r with
  | primitive name =>
    rw [typeRef]
    exact settled_map (by simp)
  | declared name args =>
    cases args with
    | nil =>
      rw [typeRef]
      exact settled_map (by simp)
    | cons r rs =>
      have hargs : (Document.list (typeRef r :: typeRefs rs)).Settled :=
        settled_list (settled_typeRefs (r :: rs))
      rw [typeRef]
      exact settled_map (by simpa using hargs)
  | typeVar name owner =>
    rw [typeRef]
    exact settled_map (by simpa using settled_genericOwner owner)
  | wildcard upper lower =>
    rw [typeRef_wildcard]
    cases upper with
    | none =>
      cases lower with
      | none => exact settled_map (by simp [bound])
      | some l => exact settled_map (by simpa [bound] using settled_typeRef l)
    | some u =>
      cases lower with
      | none => exact settled_map (by simpa [bound] using settled_typeRef u)
      | some l => exact settled_map (by simpa [bound] using ⟨settled_typeRef u, settled_typeRef l⟩)
  | array component =>
    rw [typeRef]
    exact settled_map (by simpa using settled_typeRef component)

theorem settled_typeRefs (rs : List TypeRef) : ∀ d ∈ typeRefs rs, d.Settled := by
  cases rs with
  | nil => nofun
  | cons r rs => exact List.forall_mem_cons.2 ⟨settled_typeRef r, settled_typeRefs rs⟩

end

end Encode

namespace Decode

/-- The kind of a reference is its first field. -/
theorem tagged?_kind (kind : String) {entries : List (String × Document)}
    (h : ∀ e ∈ entries, e.1 ≠ "kind") :
    tagged? (.map (("kind", .text kind) :: entries)) = some (kind, .map entries) := by
  have hkind : entries.filter (fun e => e.1 == "kind") = [] :=
    List.filter_eq_nil_iff.2 fun e he => by simpa using h e he
  have hrest : entries.filter (fun e => e.1 != "kind") = entries :=
    List.filter_eq_self.2 fun e he => by simpa using h e he
  simp [tagged?, hkind, hrest, text?]

theorem genericOwner_encode {o : GenericOwner} (h : o.fits = true) :
    genericOwner (Encode.genericOwner o) = some o := by
  cases o with
  | type name => rfl
  | method declaringType method overload =>
    have hoverload : natural? (.int overload) = some overload := natural?_of_fits h
    change (fields? _ _ >>= _) = _
    by_cases hzero : overload = 0
    · rw [if_pos hzero, hzero]
      refine bind_fields? (by decide) (by simp) ?_
      refine Fields.bind_required rfl rfl ?_
      refine Fields.bind_required rfl rfl ?_
      exact Fields.bind_withDefault_of_none rfl rfl
    · rw [if_neg hzero]
      refine bind_fields? (by decide) (by simp) ?_
      refine Fields.bind_required rfl rfl ?_
      refine Fields.bind_required rfl rfl ?_
      exact Fields.bind_withDefault rfl hoverload rfl

mutual

/-- A reference is read again as deep as its document nests. -/
theorem typeRefAt_encode (r : TypeRef) (hr : r.fits = true) {depth : Nat}
    (hdepth : (Encode.typeRef r).depth ≤ depth) : typeRefAt depth (Encode.typeRef r) = some r := by
  cases r with
  | primitive name =>
    rw [Encode.typeRef] at hdepth ⊢
    obtain ⟨depth, rfl, -⟩ := depth_map_le hdepth
    rw [typeRefAt, tagged?_kind "primitive" (by simp)]
    simp only [Option.bind_eq_bind, Option.bind_some, String.reduceEq, if_true, if_false]
    exact bind_fields? (by decide) (by simp) rfl
  | declared name args =>
    cases args with
    | nil =>
      rw [Encode.typeRef] at hdepth ⊢
      obtain ⟨depth, rfl, -⟩ := depth_map_le hdepth
      rw [typeRefAt, List.cons_append, tagged?_kind "declared" (by simp)]
      simp only [Option.bind_eq_bind, Option.bind_some, String.reduceEq, if_true, if_false]
      refine bind_fields? (by decide) (by simp) ?_
      refine Fields.bind_required rfl rfl ?_
      exact Fields.bind_withDefault_of_none rfl rfl
    | cons r rs =>
      rw [Encode.typeRef] at hdepth ⊢
      obtain ⟨depth, rfl, hentries⟩ := depth_map_le hdepth
      have hargs : decodeAll (typeRefAt depth) (Encode.typeRefs (r :: rs)) = some (r :: rs) :=
        decodeAll_typeRefs (r :: rs) hr fun d hd => depth_list_le
          (hentries ("args", .list (Encode.typeRefs (r :: rs))) (by simp [Encode.typeRefs])) hd
      rw [typeRefAt, List.cons_append, tagged?_kind "declared" (by simp)]
      simp only [Option.bind_eq_bind, Option.bind_some, String.reduceEq, if_true, if_false]
      refine bind_fields? (by decide) (by simp) ?_
      refine Fields.bind_required rfl rfl ?_
      exact Fields.bind_withDefault rfl hargs rfl
  | typeVar name owner =>
    rw [Encode.typeRef] at hdepth ⊢
    obtain ⟨depth, rfl, -⟩ := depth_map_le hdepth
    rw [typeRefAt, tagged?_kind "type_var" (by simp)]
    simp only [Option.bind_eq_bind, Option.bind_some, String.reduceEq, if_true, if_false]
    refine bind_fields? (by decide) (by simp) ?_
    refine Fields.bind_required rfl rfl ?_
    exact Fields.bind_required rfl (genericOwner_encode hr) rfl
  | wildcard upper lower =>
    obtain ⟨hupper, hlower⟩ := Bool.and_eq_true_iff.1 hr
    rw [Encode.typeRef_wildcard] at hdepth ⊢
    obtain ⟨depth, rfl, hentries⟩ := depth_map_le hdepth
    rw [typeRefAt, tagged?_kind "wildcard" (by cases upper <;> cases lower <;> simp [Encode.bound])]
    simp only [Option.bind_eq_bind, Option.bind_some, String.reduceEq, if_true, if_false]
    refine bind_fields? (by decide) (by cases upper <;> cases lower <;> simp [Encode.bound]) ?_
    -- each bound that is there is the one reference of its entry
    cases upper with
    | none =>
      cases lower with
      | none => exact Fields.bind_withDefault_of_none rfl (Fields.bind_withDefault_of_none rfl rfl)
      | some l =>
        have hl := typeRefAt_encode l hlower (hentries ("super", _) (by simp [Encode.bound]))
        exact Fields.bind_withDefault_of_none rfl
          (Fields.bind_withDefault rfl (optionOf_some (Encode.given_typeRef l) hl) rfl)
    | some u =>
      have hu := typeRefAt_encode u hupper (hentries ("extends", _) (by simp [Encode.bound]))
      refine Fields.bind_withDefault rfl (optionOf_some (Encode.given_typeRef u) hu) ?_
      cases lower with
      | none => exact Fields.bind_withDefault_of_none rfl rfl
      | some l =>
        have hl := typeRefAt_encode l hlower (hentries ("super", _) (by simp [Encode.bound]))
        exact Fields.bind_withDefault rfl (optionOf_some (Encode.given_typeRef l) hl) rfl
  | array component =>
    rw [Encode.typeRef] at hdepth ⊢
    obtain ⟨depth, rfl, hentries⟩ := depth_map_le hdepth
    have hcomponent := typeRefAt_encode component hr (hentries ("component", _) (by simp))
    rw [typeRefAt, tagged?_kind "array" (by simp)]
    simp only [Option.bind_eq_bind, Option.bind_some, String.reduceEq, if_true, if_false]
    refine bind_fields? (by decide) (by simp) ?_
    exact congrArg (Option.map TypeRef.array) hcomponent

theorem decodeAll_typeRefs (rs : List TypeRef) (hrs : TypeRef.fitsAll rs = true) {depth : Nat}
    (hdepth : ∀ d ∈ Encode.typeRefs rs, d.depth ≤ depth) :
    decodeAll (typeRefAt depth) (Encode.typeRefs rs) = some rs := by
  cases rs with
  | nil => rfl
  | cons r rs =>
    obtain ⟨hr, hrs⟩ := Bool.and_eq_true_iff.1 hrs
    rw [Encode.typeRefs] at hdepth ⊢
    rw [decodeAll, typeRefAt_encode r hr (hdepth _ (List.mem_cons_self ..)),
      decodeAll_typeRefs rs hrs fun d hd => hdepth d (List.mem_cons_of_mem _ hd)]

end

theorem typeRef_encode {r : TypeRef} (h : r.fits = true) : typeRef (Encode.typeRef r) = some r := by
  rw [typeRef, Encode.settled_typeRef r]
  exact typeRefAt_encode r h (Nat.le_refl _)

theorem optionOf_typeRef {r? : Option TypeRef} (h : r?.all (·.fits) = true) :
    optionOf typeRef (ofOption Encode.typeRef r?) = some r? :=
  optionOf_ofOption Encode.given_typeRef fun r hr => typeRef_encode (by rwa [hr] at h)

end Decode

/-! Annotations. -/

mutual

theorem Encode.settled_annotationValue (v : AnnotationValue) : (annotationValue v).Settled := by
  cases v with
  | bool | int | float | text => rw [annotationValue]; rfl
  | list items =>
    rw [annotationValue]
    exact settled_list (Encode.settled_annotationValues items)

theorem Encode.settled_annotationValues (vs : List AnnotationValue) :
    ∀ d ∈ annotationValues vs, d.Settled := by
  cases vs with
  | nil => nofun
  | cons v vs =>
    exact List.forall_mem_cons.2
      ⟨Encode.settled_annotationValue v, Encode.settled_annotationValues vs⟩

end

namespace Decode

mutual

theorem settledValue_encode (v : AnnotationValue) (h : v.fits = true) :
    settledValue (Encode.annotationValue v) = some v := by
  cases v with
  | bool | text => rw [Encode.annotationValue]; rfl
  | int n =>
    have hword : Word.fitsSigned 63 n = true := h
    rw [Encode.annotationValue, settledValue, if_pos hword]
  | float d => cases h
  | list items =>
    rw [Encode.annotationValue, settledValue, settledValues_encode items h]
    rfl

theorem settledValues_encode (vs : List AnnotationValue) (h : AnnotationValue.fitsAll vs = true) :
    settledValues (Encode.annotationValues vs) = some vs := by
  cases vs with
  | nil => rfl
  | cons v vs =>
    obtain ⟨hv, hvs⟩ := Bool.and_eq_true_iff.1 h
    rw [Encode.annotationValues, settledValues, settledValue_encode v hv, settledValues_encode vs hvs]

end

theorem annotationValue_encode {v : AnnotationValue} (h : v.fits = true) :
    annotationValue (Encode.annotationValue v) = some v := by
  rw [annotationValue, Encode.settled_annotationValue v]
  exact settledValue_encode v h

theorem annotationValues_encode {values : Dict AnnotationValue}
    (hfits : values.all (·.2.fits) = true) :
    annotationValues (.map (values.map fun (key, v) => (key, Encode.annotationValue v))) =
      some values := by
  have hkeys : (values.map fun (key, v) => (key, Encode.annotationValue v)).map (·.1) =
      values.map (·.1) := by simp
  have hdocuments : (values.map fun (key, v) => (key, Encode.annotationValue v)).map (·.2) =
      (values.map (·.2)).map Encode.annotationValue := by simp
  have hvalues : decodeAll (fun e => annotationValue e) ((values.map (·.2)).map Encode.annotationValue) =
      some (values.map (·.2)) := by
    refine decodeAll_map fun v hv => ?_
    obtain ⟨e, he, rfl⟩ := List.mem_map.1 hv
    exact annotationValue_encode (List.all_eq_true.1 hfits e he)
  have hentries : (values.map (·.1)).zip (values.map (·.2)) = values := by
    rw [← List.unzip_fst, ← List.unzip_snd, List.zip_unzip]
  rw [annotationValues, entries?]
  change (decodeAll _ _).bind _ = _
  rw [hkeys, hdocuments, hvalues, Option.bind_some, hentries]
  rfl

theorem annotationUse_encode {a : Annotation} (h : a.fits = true) :
    annotationUse (Encode.annotationUse a) = some a := by
  have hwritten : Annotation.written a.name a.values = a := a.written_values
  obtain ⟨name, values, sorted⟩ := a
  have hvalues := annotationValues_encode h
  rw [Encode.annotationUse]
  cases values with
  | nil =>
    refine bind_fields? (by decide) (by simp) ?_
    refine Fields.bind_required rfl rfl ?_
    exact Fields.bind_withDefault_of_none rfl rfl
  | cons e values =>
    refine bind_fields? (by decide) (by simp) ?_
    refine Fields.bind_required rfl rfl ?_
    exact Fields.bind_withDefault rfl hvalues (congrArg some hwritten)

theorem aliasFor_encode (a : AliasFor) : aliasFor (Encode.aliasFor a) = some a := by
  refine bind_fields? (by decide) (List.Sublist.refl _) ?_
  refine Fields.bind_withDefault rfl (optionOf_text a.owner) ?_
  exact Fields.bind_withDefault rfl (optionOf_text a.target) rfl

theorem annotationAttribute_encode (a : AnnotationAttribute) :
    annotationAttribute (Encode.annotationAttribute a) = some a := by
  have hmeaning : optionOf aliasFor (ofOption Encode.aliasFor a.aliasFor) = some a.aliasFor :=
    optionOf_ofOption (fun _ => trivial) fun b _ => aliasFor_encode b
  refine bind_fields? (by decide) (List.Sublist.refl _) ?_
  refine Fields.bind_required rfl rfl ?_
  exact Fields.bind_withDefault rfl hmeaning rfl

theorem annotationType_encode {t : AnnotationType} (h : t.fits = true) :
    annotationType (Encode.annotationType t) = some t := by
  refine bind_fields? (by decide) (List.Sublist.refl _) ?_
  refine Fields.bind_required rfl rfl ?_
  refine Fields.bind_withDefault rfl (listOf_of_all annotationUse_encode h) ?_
  exact Fields.bind_withDefault rfl (listOf_map fun a _ => annotationAttribute_encode a) rfl

/-! Declarations. -/

theorem declaredKind_encode (k : DeclaredKind) : declaredKind (Encode.declaredKind k) = some k := by
  cases k <;> rfl

theorem typeParameter_encode {p : TypeParameter} (h : p.fits = true) :
    typeParameter (Encode.typeParameter p) = some p := by
  refine bind_fields? (by decide) (List.Sublist.refl _) ?_
  refine Fields.bind_required rfl rfl ?_
  exact Fields.bind_withDefault rfl (listOf_of_all typeRef_encode h) rfl

theorem field_encode {f : Field} (h : f.fits = true) : field (Encode.field f) = some f := by
  obtain ⟨htype, hannotations⟩ := Bool.and_eq_true_iff.1 h
  refine bind_fields? (by decide) (List.Sublist.refl _) ?_
  refine Fields.bind_required rfl rfl ?_
  refine Fields.bind_required rfl (typeRef_encode htype) ?_
  refine Fields.bind_withDefault rfl (listOf_texts f.modifiers) ?_
  exact Fields.bind_withDefault rfl (listOf_of_all annotationUse_encode hannotations) rfl

theorem parameter_encode {p : Parameter} (h : p.fits = true) :
    parameter (Encode.parameter p) = some p := by
  obtain ⟨htype, hannotations⟩ := Bool.and_eq_true_iff.1 h
  refine bind_fields? (by decide) (List.Sublist.refl _) ?_
  refine Fields.bind_required rfl rfl ?_
  refine Fields.bind_required rfl (typeRef_encode htype) ?_
  exact Fields.bind_withDefault rfl (listOf_of_all annotationUse_encode hannotations) rfl

theorem recordComponent_encode {c : RecordComponent} (h : c.fits = true) :
    recordComponent (Encode.recordComponent c) = some c := by
  obtain ⟨htype, hannotations⟩ := Bool.and_eq_true_iff.1 h
  refine bind_fields? (by decide) (List.Sublist.refl _) ?_
  refine Fields.bind_required rfl rfl ?_
  refine Fields.bind_required rfl (typeRef_encode htype) ?_
  exact Fields.bind_withDefault rfl (listOf_of_all annotationUse_encode hannotations) rfl

theorem method_encode {m : Method} (h : m.fits = true) : method (Encode.method m) = some m := by
  simp only [Method.fits, Bool.and_eq_true] at h
  obtain ⟨⟨⟨hannotations, htypeParameters⟩, hparameters⟩, hreturn⟩ := h
  refine bind_fields? (by decide) (List.Sublist.refl _) ?_
  refine Fields.bind_required rfl rfl ?_
  refine Fields.bind_withDefault rfl (listOf_texts m.modifiers) ?_
  refine Fields.bind_withDefault rfl (listOf_of_all annotationUse_encode hannotations) ?_
  refine Fields.bind_withDefault rfl (listOf_of_all typeParameter_encode htypeParameters) ?_
  refine Fields.bind_withDefault rfl (listOf_of_all parameter_encode hparameters) ?_
  exact Fields.bind_withDefault rfl (optionOf_typeRef hreturn) rfl

theorem declaredType_encode {t : DeclaredType} (h : t.fits = true) :
    declaredType (Encode.declaredType t) = some t := by
  simp only [DeclaredType.fits, Bool.and_eq_true] at h
  obtain ⟨⟨⟨⟨⟨⟨hannotations, htypeParameters⟩, hsuperclass⟩, hinterfaces⟩, hfields⟩, hmethods⟩,
    hcomponents⟩ := h
  refine bind_fields? (by decide) (List.Sublist.refl _) ?_
  refine Fields.bind_required rfl rfl ?_
  refine Fields.bind_withDefault rfl (optionOf_text t.explicitSimpleName) ?_
  refine Fields.bind_withDefault rfl (optionOf_text t.package) ?_
  refine Fields.bind_withDefault rfl (optionOf_text t.enclosingType) ?_
  refine Fields.bind_required rfl (declaredKind_encode t.kind) ?_
  refine Fields.bind_withDefault rfl (listOf_texts t.modifiers) ?_
  refine Fields.bind_withDefault rfl (listOf_of_all annotationUse_encode hannotations) ?_
  refine Fields.bind_withDefault rfl (listOf_of_all typeParameter_encode htypeParameters) ?_
  refine Fields.bind_withDefault rfl (optionOf_typeRef hsuperclass) ?_
  refine Fields.bind_withDefault rfl (listOf_of_all typeRef_encode hinterfaces) ?_
  refine Fields.bind_withDefault rfl (listOf_of_all field_encode hfields) ?_
  refine Fields.bind_withDefault rfl (listOf_of_all method_encode hmethods) ?_
  refine Fields.bind_withDefault rfl (listOf_of_all recordComponent_encode hcomponents) ?_
  exact Fields.bind_withDefault rfl (listOf_texts t.enumConstants) rfl

/-- An export that is written and read again is the same: what was left out as empty, absent or first
comes back as that. -/
theorem symbolExport_encode (e : Export) (h : e.fits = true) :
    symbolExport (Encode.symbolExport e) = some e := by
  obtain ⟨htypes, hannotationTypes⟩ := Bool.and_eq_true_iff.1 h
  refine bind_fields? (by decide) (List.Sublist.refl _) ?_
  refine Fields.bind_withDefault rfl (listOf_of_all declaredType_encode htypes) ?_
  exact Fields.bind_withDefault rfl (listOf_of_all annotationType_encode hannotationTypes) rfl

/-- A declared type with nested references, a variable of an overloaded method and nested attribute
values, and an annotation type with an attribute that stands for another. -/
def nestedExport : Export where
  types := [{
    name := "a.Api"
    explicitSimpleName := none
    package := some "a"
    enclosingType := none
    kind := .classType
    modifiers := ["public"]
    annotations := [.written "a.Marked" [("levels", .list [.int 1, .list [.bool true]]), ("value", .text "api")]]
    typeParameters := [⟨"T", [.declared "java.lang.Comparable" [.typeVar "T" (.type "a.Api")]]⟩]
    superclass := some (.declared "a.Base" [])
    interfaces := []
    fields := [⟨"names", .array (.primitive "char"), [], []⟩]
    methods := [{
      name := "get"
      modifiers := []
      annotations := [.written "a.Marked" []]
      typeParameters := []
      parameters := [⟨"key", .typeVar "K" (.method "a.Api" "get" 0), []⟩]
      returnType := some (.declared "java.util.Map" [
        .wildcard none (some (.typeVar "V" (.method "a.Api" "get" 2))), .wildcard none none]) }]
    recordComponents := []
    enumConstants := [] }]
  annotationTypes := [⟨"a.Marked", [], [⟨"value", some ⟨none, some "name"⟩⟩, ⟨"levels", none⟩]⟩]

theorem symbolExport_encode_nested : nestedExport.fits = true ∧
    symbolExport (Encode.symbolExport nestedExport) = some nestedExport :=
  have hfits : nestedExport.fits = true := by decide +kernel
  ⟨hfits, symbolExport_encode nestedExport hfits⟩

end Decode

end ClientBindings
