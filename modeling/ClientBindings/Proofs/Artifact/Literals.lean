import ClientBindings.Proofs.Artifact.Lines
import ClientBindings.Proofs.Artifact.Quotation

/-! The object literals of services, read field by field. Where no line ends in them, URL templates, names of
parameters and the names under which they travel have in a service the values that they have in the model. -/
namespace ClientBindings

theorem Text.toList_join_cons (sep s : String) (ss : List String) :
    (join sep (s :: ss)).toList = s.toList ++ ss.flatMap fun t => sep.toList ++ t.toList := by
  induction ss generalizing s with
  | nil => exact (List.append_nil _).symm
  | cons t ss ih =>
    have hjoin : join sep (s :: t :: ss) = s ++ sep ++ join sep (t :: ss) := rfl
    rw [hjoin, String.toList_append, String.toList_append, ih, List.flatMap_cons, List.append_assoc,
      List.append_assoc]

namespace Literal

/-- What a field has in the model: a text, or a word that is written as it is. -/
inductive Item where
  | text (s : String)
  | word (w : String)
  deriving DecidableEq, Repr

/-- What a field has in the generated code. -/
inductive Value where
  | text (units : List Nat)
  | word (cs : List Char)
  deriving DecidableEq, Repr

namespace Item

def written : Item → String
  | .text s => quote s
  | .word w => w

def value : Item → Value
  | .text s => .text (units s.toList)
  | .word w => .word w.toList

def Admitted (e : Edition) : Item → Prop
  | .text s => e.Admits s
  | .word _ => True

end Item

/-- An item under the name of its field. -/
abbrev NamedItem := String × Item

def fieldText (f : NamedItem) : String := f.1 ++ ": " ++ f.2.written

/-! ### Reading -/

def isWordChar (c : Char) : Bool := c.isAlphanum || c == '.'

def skipBlanks (cs : List Char) : List Char := cs.dropWhile (· == ' ')

/-- A literal, or else a word. -/
def value? (e : Edition) (cs : List Char) : Option (Value × List Char) :=
  match skipBlanks cs with
  | '\'' :: cs => (body? e cs).map fun r => (.text r.1, r.2)
  | cs =>
    let word := cs.takeWhile isWordChar
    if word.isEmpty then none else some (.word word, cs.dropWhile isWordChar)

/-- A field behind the mark that opens the object or that parts it from the field before. -/
def field? (e : Edition) (mark : Char) : List Char → Option ((List Char × Value) × List Char)
  | [] => none
  | c :: cs =>
    if c = mark then
      match skipBlanks ((skipBlanks cs).dropWhile isWordChar) with
      | ':' :: rest => (value? e rest).map fun r => (((skipBlanks cs).takeWhile isWordChar, r.1), r.2)
      | _ => none
    else none

/-- That many fields, the first of them behind the mark. -/
def fields? (e : Edition) (mark : Char) : Nat → List Char → Option (List (List Char × Value) × List Char)
  | 0, cs => some ([], cs)
  | n + 1, cs =>
    (field? e mark cs).bind fun f => (fields? e ',' n f.2).map fun r => (f.1 :: r.1, r.2)

/-- An object begins with these fields, each with the value that it has in the model, and goes on with the rest. -/
def Opens (e : Edition) (object : String) (fs : List NamedItem) (rest : String) : Prop :=
  fields? e '\x7b' fs.length object.toList =
    some (fs.map fun f => (f.1.toList, f.2.value), rest.toList)

/-! ### Fields that are written -/

variable {e : Edition} {mark : Char} {cs rest : List Char} {f : NamedItem} {fs : List NamedItem}
  {w : String}

/-- A text that is read as one word. -/
def IsWord (w : String) : Prop := w ≠ "" ∧ ∀ c ∈ w.toList, isWordChar c = true

instance : DecidablePred IsWord := fun w =>
  decidable_of_iff (w ≠ "" ∧ w.toList.all isWordChar = true) (by rw [IsWord, List.all_eq_true])

/-- A field with a word for its name, and with another one or with a text. -/
structure Readable (f : NamedItem) : Prop where
  name : IsWord f.1
  item : ∀ w, f.2 = .word w → IsWord w

/-- What follows does not go on with a word. -/
def Ends (cs : List Char) : Prop := ∀ c ∈ cs.head?, isWordChar c = false

theorem takeWhile_word (hw : IsWord w) (hcs : Ends cs) :
    (w.toList ++ cs).takeWhile isWordChar = w.toList := by
  rw [List.takeWhile_append_of_pos hw.2]
  cases cs with
  | nil => exact List.append_nil _
  | cons c cs => rw [List.takeWhile_cons_of_neg (by simpa using hcs c rfl), List.append_nil]

theorem dropWhile_word (hw : IsWord w) (hcs : Ends cs) : (w.toList ++ cs).dropWhile isWordChar = cs := by
  rw [List.dropWhile_append_of_pos hw.2]
  cases cs with
  | nil => rfl
  | cons c cs => rw [List.dropWhile_cons_of_neg (by simpa using hcs c rfl)]

/-- The first character of a word. -/
theorem exists_head (hw : IsWord w) : ∃ c cs, w.toList = c :: cs ∧ isWordChar c = true := by
  obtain ⟨c, cs, h⟩ := List.exists_cons_of_ne_nil fun hnil => hw.1 (String.toList_eq_nil_iff.1 hnil)
  exact ⟨c, cs, h, hw.2 c (by simp [h])⟩

theorem skipBlanks_word (hw : IsWord w) (cs : List Char) :
    skipBlanks (w.toList ++ cs) = w.toList ++ cs := by
  obtain ⟨c, ws, h, hc⟩ := exists_head hw
  have hblank : c ≠ ' ' := by
    rintro rfl
    exact absurd hc (by decide)
  rw [h, List.cons_append]
  exact List.dropWhile_cons_of_neg (by simpa using hblank)

theorem value?_word (e : Edition) (hw : IsWord w) (hcs : Ends cs) :
    value? e (w.toList ++ cs) = some (.word w.toList, cs) := by
  obtain ⟨c, ws, h, hc⟩ := exists_head hw
  have hquote : c ≠ '\'' := by
    rintro rfl
    exact absurd hc (by decide)
  have hempty : w.toList.isEmpty = false := by rw [h]; rfl
  unfold value?
  rw [skipBlanks_word hw]
  -- A word does not begin with a quote, which would open a literal.
  split
  · rename_i heq
    rw [h] at heq
    exact absurd (List.cons.inj heq).1 hquote
  · rw [takeWhile_word hw hcs, dropWhile_word hw hcs]
    dsimp only
    rw [hempty]
    rfl

theorem value?_quote (e : Edition) (s : String) (cs : List Char) :
    value? e ((quote s).toList ++ cs) =
      (body? e (s.toList.flatMap escapeChar ++ '\'' :: cs)).map fun r => (.text r.1, r.2) := by
  rw [toList_quote, List.cons_append, List.append_assoc]
  rfl

/-- What is written for an item is read as it, if no line ends in it. -/
theorem value?_of_admitted {i : Item} (hi : ∀ w, i = .word w → IsWord w) (hadmitted : i.Admitted e)
    (hcs : Ends cs) : value? e (i.written.toList ++ cs) = some (i.value, cs) := by
  cases i with
  | text s => rw [Item.written, value?_quote, body?_of_admitted hadmitted]; rfl
  | word w => exact value?_word e (hi w rfl) hcs

theorem value?_of_not_admitted {i : Item} (h : ¬i.Admitted e) (cs : List Char) :
    value? e (i.written.toList ++ cs) = none := by
  cases i with
  | text s =>
    obtain ⟨c, hc, hbars⟩ := exists_barred_of_not_admits h
    rw [Item.written, value?_quote, body?_of_barred hc hbars]
    rfl
  | word w => exact absurd trivial h

theorem field?_fieldText (e : Edition) (mark : Char) (hf : IsWord f.1) (cs : List Char) :
    field? e mark (mark :: ((fieldText f).toList ++ cs)) =
      (value? e (f.2.written.toList ++ cs)).map fun r => ((f.1.toList, r.1), r.2) := by
  have htext : (fieldText f).toList ++ cs = f.1.toList ++ (':' :: ' ' :: (f.2.written.toList ++ cs)) := by
    simp [fieldText]
  have hends : Ends (':' :: ' ' :: (f.2.written.toList ++ cs)) := by
    rintro c ⟨⟩
    rfl
  rw [field?, if_pos rfl, htext, skipBlanks_word hf, takeWhile_word hf hends, dropWhile_word hf hends]
  rfl

theorem field?_blank (e : Edition) (mark : Char) (cs : List Char) :
    field? e mark (mark :: ' ' :: cs) = field? e mark (mark :: cs) := rfl

/-- Fields behind the first one, each with the comma and the blank before it. -/
def following (fs : List NamedItem) : List Char := fs.flatMap fun f => ',' :: ' ' :: (fieldText f).toList

theorem toList_object (f : NamedItem) (fs : List NamedItem) (more : List String) :
    (object ((f :: fs).map fieldText ++ more)).toList = '\x7b' :: ((fieldText f).toList ++ (following fs ++
      ((more.flatMap fun t => ',' :: ' ' :: t.toList) ++ ['\x7d']))) := by
  have hbraces (s : String) : ("\x7b" ++ s ++ "\x7d").toList = '\x7b' :: (s.toList ++ ['\x7d']) := by
    simp
  rw [object, hbraces, List.map_cons, List.cons_append, Text.toList_join_cons, List.flatMap_append,
    List.flatMap_map, List.append_assoc, List.append_assoc]
  rfl

theorem ends_following (fs : List NamedItem) (hrest : Ends rest) : Ends (following fs ++ rest) := by
  cases fs with
  | nil => exact hrest
  | cons f fs =>
    rintro c ⟨⟩
    rfl

/-- Fields that are written behind a mark are read exactly if no line ends in the first and the others are
read. -/
theorem fields?_cons_iff (hf : Readable f) (hcs : Ends cs) (n : Nat)
    {vs : List (List Char × Value)} :
    fields? e mark (n + 1) (mark :: ((fieldText f).toList ++ cs)) =
        some ((f.1.toList, f.2.value) :: vs, rest) ↔
      f.2.Admitted e ∧ fields? e ',' n cs = some (vs, rest) := by
  rw [fields?, field?_fieldText e mark hf.name]
  by_cases h : f.2.Admitted e
  · rw [value?_of_admitted hf.item h hcs, Option.map_some, Option.bind_some, Option.map_eq_some_iff]
    constructor
    · rintro ⟨r, hr, ⟨⟩⟩
      exact ⟨h, hr⟩
    · rintro ⟨-, hr⟩
      exact ⟨_, hr, rfl⟩
  · rw [value?_of_not_admitted h]
    simp [h]

theorem fields?_following_iff (hfs : ∀ f ∈ fs, Readable f) (hrest : Ends rest) :
    fields? e ',' fs.length (following fs ++ rest) =
        some (fs.map fun f => (f.1.toList, f.2.value), rest) ↔ ∀ f ∈ fs, f.2.Admitted e := by
  induction fs with
  | nil => simp [fields?, following]
  | cons f fs ih =>
    rw [List.forall_mem_cons] at hfs ⊢
    -- The blank behind the comma does not count, so the field is read as behind a brace.
    have hblank : fields? e ',' (fs.length + 1) (following (f :: fs) ++ rest) =
        fields? e ',' (fs.length + 1) (',' :: ((fieldText f).toList ++ (following fs ++ rest))) := by
      rw [fields?, fields?, ← field?_blank e ',' ((fieldText f).toList ++ _), following, List.flatMap_cons,
        List.append_assoc]
      rfl
    rw [List.length_cons, hblank, List.map_cons, fields?_cons_iff hfs.1 (ends_following fs hrest),
      ih hfs.2]

/-- The fields of an object are read exactly if no line ends in them, whatever stands behind them. -/
theorem opens_object_iff (hf : Readable f) (hfs : ∀ f ∈ fs, Readable f) (more : List String)
    {rest : String}
    (hrest : rest.toList = (more.flatMap fun t => ',' :: ' ' :: t.toList) ++ ['\x7d']) :
    Opens e (object ((f :: fs).map fieldText ++ more)) (f :: fs) rest ↔
      ∀ g ∈ f :: fs, g.2.Admitted e := by
  have hends : Ends rest.toList := by
    rw [hrest]
    cases more <;> (rintro c ⟨⟩; rfl)
  rw [Opens, toList_object, ← hrest, List.length_cons, List.map_cons,
    fields?_cons_iff hf (ends_following fs hends), fields?_following_iff hfs hends, List.forall_mem_cons]

/-! ### The literals of a service -/

def mappingFields (m : Mapping) : List NamedItem :=
  [("urlTemplate", .text (m.urlTemplate.getD "")),
    ("method", .word (match m.verb with
      | some v => "RequestMethod." ++ v.label
      | none => "null"))]

/-- The name under which a parameter travels, unless it is the body. -/
def bindingFields (b : ParameterBinding) : List NamedItem :=
  match b.location with
  | .path => [("pathVariableName", .text b.name)]
  | .query => [("requestParameterName", .text b.name)]
  | .body => []

/-- The fields of a parameter before its argument, which is an expression of its own. -/
def parameterFields (p : MethodParameter) : List NamedItem :=
  ("paramName", .text p.name) :: ("isRequired", .word (truth p.binding.required)) ::
    (bindingFields p.binding ++ [("isRequestBody", .word (truth (p.binding.location == .body)))])

theorem isWord_truth (b : Bool) : IsWord (truth b) := by cases b <;> decide

theorem readable_text {key : String} (hkey : IsWord key) (s : String) : Readable (key, .text s) :=
  ⟨hkey, nofun⟩

theorem readable_word {key : String} (hkey : IsWord key) (hw : IsWord w) : Readable (key, .word w) :=
  ⟨hkey, by rintro _ ⟨⟩; exact hw⟩

theorem readable_bindingFields (b : ParameterBinding) : ∀ f ∈ bindingFields b, Readable f := by
  unfold bindingFields
  cases b.location with
  | path => exact List.forall_mem_singleton.2 (readable_text (by decide) _)
  | query => exact List.forall_mem_singleton.2 (readable_text (by decide) _)
  | body => nofun

theorem mapping_eq (m : Mapping) : mapping m = object ((mappingFields m).map fieldText ++ []) := by
  have hurl : "urlTemplate" ++ ": " = "urlTemplate: " := rfl
  have hmethod : "method" ++ ": " = "method: " := rfl
  simp only [mappingFields, List.map_cons, fieldText, hurl, hmethod]
  rfl

theorem parameter_eq (p : MethodParameter) :
    parameter p = object ((parameterFields p).map fieldText ++ ["value: " ++ p.name]) := by
  have hname : "paramName" ++ ": " = "paramName: " := rfl
  have hrequired : "isRequired" ++ ": " = "isRequired: " := rfl
  have hpath : "pathVariableName" ++ ": " = "pathVariableName: " := rfl
  have hquery : "requestParameterName" ++ ": " = "requestParameterName: " := rfl
  have hbody : "isRequestBody" ++ ": " = "isRequestBody: " := rfl
  obtain ⟨name, type, location, bound, required⟩ := p
  unfold parameter parameterFields bindingFields
  cases location <;>
    simp only [List.map_cons, List.map_append, fieldText, hname, hrequired, hpath, hquery, hbody] <;> rfl

theorem opens_mapping_iff (m : Mapping) :
    Opens e (mapping m) (mappingFields m) "\x7d" ↔ e.Admits (m.urlTemplate.getD "") := by
  have hmethod : IsWord (match m.verb with
      | some v => "RequestMethod." ++ v.label
      | none => "null") := by
    rcases m.verb with _ | v
    · decide
    · cases v <;> decide
  rw [mapping_eq, mappingFields, opens_object_iff (readable_text (by decide) _)
    (List.forall_mem_singleton.2 (readable_word (by decide) hmethod)) [] rfl]
  simp [Item.Admitted]

theorem opens_parameter_iff (p : MethodParameter) :
    Opens e (parameter p) (parameterFields p) (", value: " ++ p.name ++ "\x7d") ↔
      e.Admits p.name ∧ (p.binding.location ≠ .body → e.Admits p.binding.name) := by
  have hrest : (", value: " ++ p.name ++ "\x7d").toList =
      ["value: " ++ p.name].flatMap (fun t => ',' :: ' ' :: t.toList) ++ ['\x7d'] := by
    simp
  have hreadable : ∀ f ∈ ("isRequired", Item.word (truth p.binding.required)) ::
      (bindingFields p.binding ++ [("isRequestBody", Item.word (truth (p.binding.location == .body)))]),
      Readable f := by
    rw [List.forall_mem_cons, List.forall_mem_append, List.forall_mem_singleton]
    exact ⟨readable_word (by decide) (isWord_truth _), readable_bindingFields p.binding,
      readable_word (by decide) (isWord_truth _)⟩
  have hbinding : (∀ f ∈ bindingFields p.binding, f.2.Admitted e) ↔
      (p.binding.location ≠ .body → e.Admits p.binding.name) := by
    unfold bindingFields
    cases p.binding.location <;> simp [Item.Admitted]
  rw [parameter_eq, parameterFields,
    opens_object_iff (readable_text (by decide) _) hreadable _ hrest, List.forall_mem_cons,
    List.forall_mem_cons, List.forall_mem_append, List.forall_mem_singleton, hbinding]
  simp [Item.Admitted]

end Literal

namespace Artifact

variable {s : Settings} {m : EndpointMethod} {w : Workspace}

def mappingLine (s : Settings) (m : EndpointMethod) : String :=
  s.indent ++ s.indent ++ ("const mapping: HttpRequestMapping = " ++ Literal.mapping m.mapping ++ ";")

/-- The parameters of a method, each on a line of its own. -/
def parameterLines (s : Settings) (m : EndpointMethod) : List String :=
  commaLines (s.indent ++ s.indent ++ s.indent) (m.params.map Literal.parameter)

/-- Lines of a service with the literals of its endpoint: that of the default mapping, and for each method that
of its mapping and, one after the other, those of its parameters. -/
structure SpellsOut (s : Settings) (endpoint : Endpoint) (lines : List String) : Prop where
  base : s.indent ++ ("defaultRequestMapping: HttpRequestMapping | null = " ++
    Literal.optionalMapping endpoint.defaultMapping ++ ";") ∈ lines
  mapping : ∀ m ∈ endpoint.methods, mappingLine s m ∈ lines
  parameters : ∀ m ∈ endpoint.methods, parameterLines s m <:+: lines

theorem mappingLine_eq (s : Settings) (m : EndpointMethod) : mappingLine s m =
    line s.indent 2 ("const mapping: HttpRequestMapping = " ++ Literal.mapping m.mapping ++ ";") := by
  rw [line_succ, line_succ, line_zero, ← String.append_assoc]
  rfl

theorem parameterLines_eq (s : Settings) (m : EndpointMethod) : parameterLines s m =
    (separated (m.params.map Literal.parameter)).map (line s.indent 3) := by
  rw [parameterLines, ← map_separated]
  refine List.map_congr_left fun t _ => ?_
  rw [line_succ, line_succ, line_succ, line_zero, ← String.append_assoc, ← String.append_assoc]

theorem exists_methodLines (s : Settings) (m : EndpointMethod) (w : Workspace) :
    ∃ head empty opening closing tail, ((methodLines s m).run w).1 = head ++ [mappingLine s m] ++
      (if (separated (m.params.map Literal.parameter)).isEmpty then empty
        else opening ++ parameterLines s m ++ closing) ++ tail := by
  rw [mappingLine_eq, parameterLines_eq]
  obtain ⟨name, mapping, params, returnType⟩ := m
  cases returnType with
  | none => exact ⟨[_, _], _, _, _, _, rfl⟩
  | some r => exact ⟨[_, _], _, _, _, _, rfl⟩

theorem methodLines_spell (s : Settings) (m : EndpointMethod) (w : Workspace) :
    mappingLine s m ∈ ((methodLines s m).run w).1 ∧
      parameterLines s m <:+: ((methodLines s m).run w).1 := by
  obtain ⟨head, empty, opening, closing, tail, h⟩ := exists_methodLines s m w
  rw [h]
  refine ⟨by simp, ?_⟩
  split
  · rename_i hempty
    rw [parameterLines_eq, List.isEmpty_iff.1 hempty]
    exact List.nil_infix
  · exact (List.infix_append ..).trans
      ((List.suffix_append ..).isInfix.trans (List.prefix_append ..).isInfix)

theorem allMethodLines_spell {ms : List EndpointMethod} (hm : m ∈ ms) :
    mappingLine s m ∈ ((allMethodLines s ms).run w).1 ∧
      parameterLines s m <:+: ((allMethodLines s ms).run w).1 := by
  induction ms generalizing w with
  | nil => cases hm
  | cons first ms ih =>
    have hlines : ((allMethodLines s (first :: ms)).run w).1 = ((methodLines s first).run w).1 ++
      ((allMethodLines s ms).run ((methodLines s first).run w).2).1 := rfl
    rw [hlines]
    rcases List.mem_cons.1 hm with rfl | hm
    · obtain ⟨hmapping, hparameters⟩ := methodLines_spell s m w
      exact ⟨List.mem_append_left _ hmapping, hparameters.trans (List.prefix_append ..).isInfix⟩
    · obtain ⟨hmapping, hparameters⟩ := ih (w := ((methodLines s first).run w).2) hm
      exact ⟨List.mem_append_right _ hmapping, hparameters.trans (List.suffix_append ..).isInfix⟩

/-- The literals of an endpoint stand in the text of its service. -/
theorem exists_serviceText (s : Settings) (l : Layout) (endpoint : Endpoint) (w : Workspace) :
    ∃ lines, ((serviceText s l endpoint).run w).1 = "\n".intercalate lines ∧
      SpellsOut s endpoint lines := by
  refine ⟨_, document_eq_intercalate _, ?_, fun m hm => ?_, fun m hm => ?_⟩
  · simp [line_succ, line_zero]
  · exact List.mem_append_left _ (List.mem_append_right _ (allMethodLines_spell hm).1)
  · exact (allMethodLines_spell hm).2.trans
      ((List.suffix_append ..).isInfix.trans (List.prefix_append ..).isInfix)

end Artifact

namespace Literal

/-- A quoted text is one literal, of that text and no other, exactly if no line ends in it. So the URL template of
a mapping, and the name of a parameter and that under which it travels, have in the generated code the values of
the model exactly if no line ends in them; and what is written for them stands in the service of the endpoint. -/
theorem literals_denote_iff (e : Edition) :
    (∀ s t, Denotes e (quote s) t ↔ t = s ∧ e.Admits s) ∧
    (∀ m, Opens e (mapping m) (mappingFields m) "\x7d" ↔ e.Admits (m.urlTemplate.getD "")) ∧
    (∀ p, Opens e (parameter p) (parameterFields p) (", value: " ++ p.name ++ "\x7d") ↔
      e.Admits p.name ∧ (p.binding.location ≠ .body → e.Admits p.binding.name)) ∧
    ∀ s l endpoint w, ∃ lines, ((Artifact.serviceText s l endpoint).run w).1 = "\n".intercalate lines ∧
      Artifact.SpellsOut s endpoint lines :=
  ⟨fun _ _ => denotes_quote_iff, opens_mapping_iff, opens_parameter_iff, Artifact.exists_serviceText⟩

/-- The end of a line is left in the literal, which breaks off there. -/
theorem not_denotes_quote_newline :
    quote "a\nb" = "'a\nb'" ∧ ¬∃ (e : Edition) (t : String), Denotes e (quote "a\nb") t := by
  refine ⟨by decide +kernel, ?_⟩
  rintro ⟨e, t, h⟩
  have hbars : e.bars '\n' = false := (denotes_quote_iff.1 h).2 '\n' (by decide)
  cases e <;> exact absurd hbars (by decide)

end Literal

end ClientBindings
