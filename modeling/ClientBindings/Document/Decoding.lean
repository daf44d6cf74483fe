import ClientBindings.Document.Basic

/-! Reading domain values out of documents. A record is written as a map, or as a list of its
fields in order; keys that it does not have are skipped and keys that it has may stand once.
Scalars without quotes are texts where a text is wanted, and otherwise what they look like. -/
namespace ClientBindings.Document

/-- Spellings of an absent value. -/
def isNullWord (s : String) : Bool :=
  s == "" || s == "~" || s == "null" || s == "Null" || s == "NULL"

def boolWord? (s : String) : Option Bool :=
  if s == "true" || s == "True" || s == "TRUE" then some true
  else if s == "false" || s == "False" || s == "FALSE" then some false
  else none

def isNull : Document → Bool
  | .null => true
  | .plain s => isNullWord s
  | _ => false

def text? : Document → Option String
  | .text s => some s
  | .plain s => some s
  | .tagged _ d => d.text?
  | _ => none

def bool? : Document → Option Bool
  | .bool b => some b
  | .plain s => boolWord? s
  | _ => none

/-- A count that fits a word. -/
def natural? : Document → Option Nat
  | .int n => if Word.fitsUnsigned 64 n then some n.toNat else none
  | _ => none

/-- The items of a list; an absent plain value is the empty list. -/
def items? : Document → Option (List Document)
  | .list items => some items
  | .plain s => if isNullWord s then some [] else none
  | .tagged _ d => d.items?
  | _ => none

def decodeAll (decode : Document → Option α) : List Document → Option (List α)
  | [] => some []
  | d :: ds => match decode d, decodeAll decode ds with
    | some a, some as => some (a :: as)
    | _, _ => none

def listOf (decode : Document → Option α) (d : Document) : Option (List α) :=
  d.items?.bind (decodeAll decode)

/-- The tag of absent values. -/
def nullTag := "tag:yaml.org,2002:null"

/-- An absent value, or one that decodes. A tag makes any word a value, unless it is the tag of
absent values. -/
def optionOf (decode : Document → Option α) (d : Document) : Option (Option α) :=
  match d with
  | .tagged tag (.plain s) =>
    if tag == nullTag then if s != "" && isNullWord s then some none else none
    else if s == "" then some none
    else (decode d).map some
  | d => if d.isNull then some none else (decode d).map some

def texts? (d : Document) : Option (List String) := listOf text? d

/-- The entries of a free map. -/
def entries? : Document → Option (List (String × Document))
  | .map entries => some entries
  | .plain s => if isNullWord s then some [] else none
  | .tagged _ d => d.entries?
  | _ => none

/-- The fields of a record with the given field names. -/
structure Fields where
  entries : List (String × Document)

/-- Pairs the items of a list with field names; there may be fewer items but not more. -/
def pairUp : List String → List Document → Option (List (String × Document))
  | _, [] => some []
  | [], _ :: _ => none
  | name :: names, item :: items => (pairUp names items).map ((name, item) :: ·)

/-- No field of the record is given twice. -/
def noRepeats (names : List String) (entries : List (String × Document)) : Bool :=
  names.all fun name => ((entries.filter fun e => e.1 == name).length ≤ 1)

def fields? (names : List String) : Document → Option Fields
  | .map entries => if noRepeats names entries then some ⟨entries⟩ else none
  | .list items => (pairUp names items).map Fields.mk
  | .plain s => if isNullWord s then some ⟨[]⟩ else none
  | .tagged _ d => d.fields? names
  | _ => none

/-- A field that has to be there. -/
def Fields.required (f : Fields) (name : String) (decode : Document → Option α) : Option α :=
  (f.entries.lookup name).bind decode

/-- A field with a value that stands in for it when it is left out. -/
def Fields.withDefault (f : Fields) (name : String) (default : α) (decode : Document → Option α) :
    Option α :=
  match f.entries.lookup name with
  | none => some default
  | some d => decode d

def Fields.optional (f : Fields) (name : String) (decode : Document → Option α) :
    Option (Option α) :=
  f.withDefault name none (optionOf decode)

def Fields.list (f : Fields) (name : String) (decode : Document → Option α) : Option (List α) :=
  f.withDefault name [] (listOf decode)

/-- What follows the exclamation mark of a tag that is not one of the standard ones. -/
def ownTag? (tag : String) : Option String :=
  match tag.toList with
  | '!' :: name => some (String.ofList name)
  | _ => none

/-- The one value of an enumeration whose name is given: as a text, as the only key of a map without
a value, or as the tag of an absent value. -/
def enumOf (values : List (String × α)) (d : Document) : Option α :=
  match d with
  | .map [(name, .null)] => values.lookup name
  | .tagged tag content => match ownTag? tag, content with
    | some name, .plain s => if isNullWord s then values.lookup name else none
    | some _, _ => none
    | none, content => content.text?.bind fun name => values.lookup name
  | d => d.text?.bind fun name => values.lookup name

end ClientBindings.Document
