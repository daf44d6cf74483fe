import ClientBindings.Document.Scalar
import ClientBindings.Document.Json

/-! TOML text: keys, values of every kind, tables and arrays of tables. Statements are read first
and then put into one tree, where no key is defined twice. -/
namespace ClientBindings.Toml

/-- How a table came to be, which decides what may still be added to it. -/
inductive Origin where
  /-- Only named on the way to a table inside it. -/
  | implied
  | header
  | dotted
  deriving DecidableEq, Repr

inductive Node where
  | value (d : Document)
  | table (origin : Origin) (entries : List (String × Node))
  /-- An array of tables, the latest one first. -/
  | tables (items : List (List (String × Node)))
  deriving Repr, Inhabited

abbrev Entries := List (String × Node)

inductive Statement where
  | table (path : List String)
  | element (path : List String)
  | assign (path : List String) (value : Document)
  deriving Repr

/-- Replaces the entry of that key, or puts it at the end. -/
def setEntry (entries : Entries) (key : String) (node : Node) : Entries :=
  match entries with
  | [] => [(key, node)]
  | (k, old) :: rest =>
    if k = key then (key, node) :: rest else (k, old) :: setEntry rest key node

/-- Opens the table of a header. -/
def openTable : List String → Entries → Option Entries
  | [], _ => none
  | [key], entries => match entries.lookup key with
    | none => some (setEntry entries key (.table .header []))
    | some (.table .implied inner) => some (setEntry entries key (.table .header inner))
    | _ => none
  | key :: path, entries => match entries.lookup key with
    | none => (openTable path []).map fun inner => setEntry entries key (.table .implied inner)
    | some (.table origin inner) =>
      (openTable path inner).map fun inner => setEntry entries key (.table origin inner)
    | some (.tables (last :: before)) =>
      (openTable path last).map fun last => setEntry entries key (.tables (last :: before))
    | _ => none

/-- Adds an element to the array of tables of a header. -/
def openElement : List String → Entries → Option Entries
  | [], _ => none
  | [key], entries => match entries.lookup key with
    | none => some (setEntry entries key (.tables [[]]))
    | some (.tables items) => some (setEntry entries key (.tables ([] :: items)))
    | _ => none
  | key :: path, entries => match entries.lookup key with
    | none => (openElement path []).map fun inner => setEntry entries key (.table .implied inner)
    | some (.table origin inner) =>
      (openElement path inner).map fun inner => setEntry entries key (.table origin inner)
    | some (.tables (last :: before)) =>
      (openElement path last).map fun last => setEntry entries key (.tables (last :: before))
    | _ => none

/-- Assigns under a table; tables on the way are those of dotted keys. -/
def assignIn (value : Document) : List String → Entries → Option Entries
  | [], _ => none
  | [key], entries => match entries.lookup key with
    | none => some (setEntry entries key (.value value))
    | some _ => none
  | key :: path, entries => match entries.lookup key with
    | none => (assignIn value path []).map fun inner => setEntry entries key (.table .dotted inner)
    | some (.table .dotted inner) =>
      (assignIn value path inner).map fun inner => setEntry entries key (.table .dotted inner)
    | _ => none

/-- Assigns under the table that the latest header opened. -/
def assignUnder (path : List String) (value : Document) : List String → Entries → Option Entries
  | [], entries => assignIn value path entries
  | key :: current, entries => match entries.lookup key with
    | some (.table origin inner) =>
      (assignUnder path value current inner).map fun inner =>
        setEntry entries key (.table origin inner)
    | some (.tables (last :: before)) =>
      (assignUnder path value current last).map fun last =>
        setEntry entries key (.tables (last :: before))
    | _ => none

/-- Carries out statements; `current` is the path of the table in force. -/
def build : List Statement → List String → Entries → Option Entries
  | [], _, entries => some entries
  | .table path :: rest, _, entries => (openTable path entries).bind (build rest path)
  | .element path :: rest, _, entries => (openElement path entries).bind (build rest path)
  | .assign path value :: rest, current, entries =>
    (assignUnder path value current entries).bind (build rest current)

mutual

def Node.toDocument : Node → Document
  | .value d => d
  | .table _ entries => .map (toEntries entries)
  | .tables items => .list (toItems items).reverse

def toEntries : List (String × Node) → List (String × Document)
  | [] => []
  | (key, node) :: rest => (key, node.toDocument) :: toEntries rest

def toItems : List (List (String × Node)) → List Document
  | [] => []
  | entries :: rest => .map (toEntries entries) :: toItems rest

end

def isSpace (c : Char) : Bool := c == ' ' || c == '\t'

def skipSpace (cs : List Char) : List Char := cs.dropWhile isSpace

/-- Control characters other than the tab stand nowhere. -/
def isControl (c : Char) : Bool := (c.toNat < 32 && c != '\t') || c.toNat == 127

/-- What is left after a comment. -/
def skipComment : List Char → Option (List Char)
  | '#' :: rest =>
    let body := rest.takeWhile fun c => c != '\n'
    let body := match body.reverse with
      | '\r' :: before => before.reverse
      | _ => body
    if body.any isControl then none else some (rest.drop body.length)
  | cs => some cs

def lineBreak? : List Char → Option (List Char)
  | '\n' :: rest => some rest
  | '\r' :: '\n' :: rest => some rest
  | _ => none

/-- The end of a statement: white space, a comment, and a line break or the end. -/
def endOfLine? (cs : List Char) : Option (List Char) :=
  (skipComment (skipSpace cs)).bind fun cs => match cs with
    | [] => some []
    | cs => lineBreak? cs

/-- Skips white space, comments and line breaks. -/
def skipLines : Nat → List Char → Option (List Char)
  | 0, cs => some cs
  | n + 1, cs => (skipComment (skipSpace cs)).bind fun rest => match lineBreak? rest with
    | some rest => skipLines n rest
    | none => some rest

def isBareKeyChar (c : Char) : Bool := c.isAlphanum || c == '_' || c == '-'

def hexNumber? (cs : List Char) : Option Nat :=
  cs.foldlM (fun n c => (Json.hexValue? c).map fun d => n * 16 + d) 0

/-- The character that a backslash and these characters stand for, and what is left. -/
def escape? : List Char → Option (Char × List Char)
  | [] => none
  | e :: rest =>
    let hex (n : Nat) : Option (Char × List Char) :=
      if rest.length < n then none
      else (hexNumber? (rest.take n)).bind fun v =>
        if (0xD800 ≤ v ∧ v ≤ 0xDFFF) ∨ v > 0x10FFFF then none
        else some (Char.ofNat v, rest.drop n)
    match e with
    | 'b' => some ('\x08', rest)
    | 't' => some ('\t', rest)
    | 'n' => some ('\n', rest)
    | 'f' => some ('\x0c', rest)
    | 'r' => some ('\r', rest)
    | 'e' => some ('\x1b', rest)
    | '"' => some ('"', rest)
    | '\\' => some ('\\', rest)
    | 'x' => hex 2
    | 'u' => hex 4
    | 'U' => hex 8
    | _ => none

/-- The rest of a string on one line in double quotes. -/
def basicBody : Nat → List Char → List Char → Option (List Char × List Char)
  | 0, _, _ => none
  | n + 1, acc, cs => match cs with
    | [] => none
    | '"' :: rest => some (acc.reverse, rest)
    | '\\' :: rest => (escape? rest).bind fun (c, rest) => basicBody n (c :: acc) rest
    | c :: rest => if isControl c then none else basicBody n (c :: acc) rest

/-- The rest of a string on one line in single quotes. -/
def literalBody (cs : List Char) : Option (List Char × List Char) :=
  let body := cs.takeWhile (· != '\'')
  if body.length = cs.length || body.any isControl then none
  else some (body, cs.drop (body.length + 1))

/-- Up to two quotes may stand before the three that close a string of several lines. -/
def closing? (quote : Char) (cs : List Char) : Option (List Char × List Char) :=
  let quotes := (cs.takeWhile (· == quote)).length
  if quotes < 3 then none
  else
    let extra := min (quotes - 3) 2
    some (List.replicate extra quote, cs.drop (3 + extra))

/-- Whether only white space stands between here and the end of the line. -/
def trimsLine (cs : List Char) : Bool := (lineBreak? (skipSpace cs)).isSome

def skipWhite : Nat → List Char → List Char
  | 0, cs => cs
  | n + 1, cs =>
    let cs := skipSpace cs
    match lineBreak? cs with
    | some rest => skipWhite n rest
    | none => cs

/-- The rest of a string of several lines; a backslash at the end of a line joins it to the next
text. -/
def longBody (quote : Char) (escapes : Bool) :
    Nat → List Char → List Char → Option (List Char × List Char)
  | 0, _, _ => none
  | n + 1, acc, cs => match closing? quote cs with
    | some (extra, rest) => some (acc.reverse ++ extra, rest)
    | none => match cs with
      | [] => none
      | '\n' :: rest => longBody quote escapes n ('\n' :: acc) rest
      | '\r' :: '\n' :: rest => longBody quote escapes n ('\n' :: '\r' :: acc) rest
      | '\\' :: rest =>
        if !escapes then longBody quote escapes n ('\\' :: acc) rest
        else if trimsLine rest then longBody quote escapes n acc (skipWhite n rest)
        else (escape? rest).bind fun (c, rest) => longBody quote escapes n (c :: acc) rest
      | c :: rest => if isControl c then none else longBody quote escapes n (c :: acc) rest

/-- A line break right after the opening quotes is dropped. -/
def dropFirstBreak (cs : List Char) : List Char := (lineBreak? cs).getD cs

/-- A dotted key. -/
def keyPath? : Nat → List Char → Option (List String × List Char)
  | 0, _ => none
  | n + 1, cs =>
    let part : Option (List Char × List Char) := match cs with
      | '"' :: rest => basicBody (rest.length + 1) [] rest
      | '\'' :: rest => literalBody rest
      | cs =>
        let body := cs.takeWhile isBareKeyChar
        if body.isEmpty then none else some (body, cs.drop body.length)
    part.bind fun (key, rest) =>
      match skipSpace rest with
      | '.' :: more => (keyPath? n (skipSpace more)).map fun (path, rest) =>
        (String.ofList key :: path, rest)
      | rest => some ([String.ofList key], rest)

/-- Digits with single underscores between them. -/
def plainDigits? (ok : Char → Bool) : List Char → Option (List Char)
  | [] => none
  | [c] => if ok c then some [c] else none
  | c :: '_' :: rest => if ok c then (plainDigits? ok rest).map (c :: ·) else none
  | c :: rest => if ok c then (plainDigits? ok rest).map (c :: ·) else none

def isHexDigit (c : Char) : Bool := (Json.hexValue? c).isSome

/-- An integer that fits two words, with or without a sign. -/
def integer? (cs : List Char) : Option Document :=
  let bounded (n : Int) : Option Document :=
    if Word.fitsSigned 127 n || Word.fitsUnsigned 128 n then some (.int n) else none
  let decimal (negative : Bool) (ds : List Char) : Option Document :=
    match plainDigits? Char.isDigit ds with
    | none => none
    | some ds =>
      if ds.head? == some '0' && ds.length > 1 then none
      else (Document.naturalIn? 10 ds).bind fun n => bounded (if negative then -(n : Int) else n)
  match cs with
  | '0' :: 'x' :: ds => (plainDigits? isHexDigit ds).bind fun ds =>
    (Document.naturalIn? 16 ds).bind fun n => bounded n
  | '0' :: 'o' :: ds => (plainDigits? (fun c => '0' ≤ c && c ≤ '7') ds).bind fun ds =>
    (Document.naturalIn? 8 ds).bind fun n => bounded n
  | '0' :: 'b' :: ds => (plainDigits? (fun c => c == '0' || c == '1') ds).bind fun ds =>
    (Document.naturalIn? 2 ds).bind fun n => bounded n
  | '-' :: ds => decimal true ds
  | '+' :: ds => decimal false ds
  | ds => decimal false ds

/-- A number with a point or an exponent, an infinity or no number. Digits that stand for more than
the largest number are refused. -/
def float? (cs : List Char) : Option Document :=
  let body := match cs with
    | '+' :: rest => rest
    | '-' :: rest => rest
    | _ => cs
  let negative := cs.head? == some '-'
  let signed (f : Float) : Document := .float (Double.ofFloat (if negative then -f else f))
  if body == "inf".toList then some (signed (1.0 / 0.0))
  else if body == "nan".toList then some (signed (0.0 / 0.0))
  else
    let isDigitChar (c : Char) : Bool := c.isDigit || c == '_'
    let whole := body.takeWhile isDigitChar
    let rest := body.drop whole.length
    let (part, rest, pointed) := match rest with
      | '.' :: rest =>
        let part := rest.takeWhile isDigitChar
        (part, rest.drop part.length, true)
      | _ => ([], rest, false)
    let exponent : Option (List Char) := match rest with
      | [] => if pointed then some [] else none
      | e :: rest =>
        if e == 'e' || e == 'E' then match rest with
          | '+' :: ds => (plainDigits? Char.isDigit ds).map fun ds => 'e' :: ds
          | '-' :: ds => (plainDigits? Char.isDigit ds).map fun ds => 'e' :: '-' :: ds
          | ds => (plainDigits? Char.isDigit ds).map fun ds => 'e' :: ds
        else none
    match plainDigits? Char.isDigit whole, exponent with
    | some whole, some exponent =>
      if whole.head? == some '0' && whole.length > 1 then none
      else
        let part := if pointed then (plainDigits? Char.isDigit part).map ('.' :: ·) else some []
        part.bind fun part => ((Document.decimal? (whole ++ part ++ exponent)).filter
          fun d => d.isFinite).map fun d => signed d.toFloat
    | _, _ => none

def twoDigits? (limit : Nat) : List Char → Option (List Char)
  | a :: b :: rest =>
    if a.isDigit && b.isDigit && (a.toNat - 48) * 10 + (b.toNat - 48) ≤ limit then some rest
    else none
  | _ => none

/-- A time of day: hours, minutes, and seconds that may be left out. -/
def timeOfDay? (cs : List Char) : Option (List Char) :=
  (twoDigits? 23 cs).bind fun rest => match rest with
    | ':' :: rest => (twoDigits? 59 rest).bind fun rest => match rest with
      | ':' :: rest => (twoDigits? 60 rest).bind fun rest => match rest with
        | '.' :: ds =>
          let digits := ds.takeWhile Char.isDigit
          if digits.isEmpty then none else some (ds.drop digits.length)
        | rest => some rest
      | rest => some rest
    | _ => none

def date? : List Char → Option (List Char)
  | a :: b :: c :: d :: '-' :: rest =>
    if [a, b, c, d].all Char.isDigit then
      (twoDigits? 12 rest).bind fun rest => match rest with
        | '-' :: rest => twoDigits? 31 rest
        | _ => none
    else none
  | _ => none

def offset? : List Char → Bool
  | [] => true
  | ['Z'] => true
  | ['z'] => true
  | '+' :: rest => (timeOfDay? rest) == some []
  | '-' :: rest => (timeOfDay? rest) == some []
  | _ => false

/-- Whether the characters are a date, a time or both. -/
def isDateTime (cs : List Char) : Bool :=
  match date? cs with
  | some [] => true
  | some (t :: rest) =>
    (t == 'T' || t == 't' || t == ' ') && ((timeOfDay? rest).map offset?).getD false
  | none => timeOfDay? cs == some []

/-- A date or time reads as a map, which is no text. -/
def dateTime (cs : List Char) : Document := .map [("datetime", .text (String.ofList cs))]

/-- The characters of a value that is not in quotes or brackets. -/
def bareValue (cs : List Char) : List Char :=
  let isValueChar (c : Char) : Bool := c.isAlphanum || c == '_' || c == '-' || c == '+' ||
    c == '.' || c == ':'
  let first := cs.takeWhile isValueChar
  match cs.drop first.length with
  | ' ' :: d :: rest =>
    if (date? first) == some [] && d.isDigit then
      first ++ ' ' :: (d :: rest).takeWhile isValueChar
    else first
  | _ => first

def bare? (cs : List Char) : Option Document :=
  if cs == "true".toList then some (.bool true)
  else if cs == "false".toList then some (.bool false)
  else match integer? cs with
    | some d => some d
    | none => match float? cs with
      | some d => some d
      | none => if isDateTime cs then some (dateTime cs) else none

/-- Puts the assignments of an inline table together. -/
def inlineTable (assignments : List (List String × Document)) : Option Document :=
  (assignments.foldlM (fun entries a => assignIn a.2 a.1 entries) []).map fun entries =>
    .map (toEntries entries)

mutual

def value? : Nat → List Char → Option (Document × List Char)
  | 0, _ => none
  | n + 1, cs => match cs with
    | '"' :: '"' :: '"' :: rest =>
      (longBody '"' true (rest.length + 1) [] (dropFirstBreak rest)).map fun (s, rest) =>
        (.text (String.ofList s), rest)
    | '\'' :: '\'' :: '\'' :: rest =>
      (longBody '\'' false (rest.length + 1) [] (dropFirstBreak rest)).map fun (s, rest) =>
        (.text (String.ofList s), rest)
    | '"' :: rest => (basicBody (rest.length + 1) [] rest).map fun (s, rest) =>
      (.text (String.ofList s), rest)
    | '\'' :: rest => (literalBody rest).map fun (s, rest) => (.text (String.ofList s), rest)
    | '[' :: rest => (items? n rest).map fun (items, rest) => (.list items, rest)
    | '\x7b' :: rest => (pairs? n rest).bind fun (pairs, rest) =>
      (inlineTable pairs).map fun d => (d, rest)
    | cs =>
      let token := bareValue cs
      (bare? token).map fun d => (d, cs.drop token.length)

/-- The items of an array after its bracket or a comma. -/
def items? : Nat → List Char → Option (List Document × List Char)
  | 0, _ => none
  | n + 1, cs => (skipLines (cs.length + 1) cs).bind fun cs => match cs with
    | ']' :: rest => some ([], rest)
    | cs => (value? n cs).bind fun (item, rest) =>
      (skipLines (rest.length + 1) rest).bind fun rest => match rest with
        | ',' :: rest => (items? n rest).map fun (items, rest) => (item :: items, rest)
        | ']' :: rest => some ([item], rest)
        | _ => none

/-- The assignments of an inline table after its brace or a comma. -/
def pairs? : Nat → List Char → Option (List (List String × Document) × List Char)
  | 0, _ => none
  | n + 1, cs => (skipLines (cs.length + 1) cs).bind fun cs => match cs with
    | '\x7d' :: rest => some ([], rest)
    | cs => (keyPath? (cs.length + 1) cs).bind fun (path, rest) => match skipSpace rest with
      | '=' :: rest => (value? n (skipSpace rest)).bind fun (d, rest) =>
        (skipLines (rest.length + 1) rest).bind fun rest => match rest with
          | ',' :: rest => (pairs? n rest).map fun (pairs, rest) => ((path, d) :: pairs, rest)
          | '\x7d' :: rest => some ([(path, d)], rest)
          | _ => none
      | _ => none

end

/-- Reads the statements of a text. -/
def statements? : Nat → List Char → Option (List Statement)
  | 0, _ => none
  | n + 1, cs => (skipLines (cs.length + 1) cs).bind fun cs => match cs with
    | [] => some []
    | '[' :: '[' :: rest => (keyPath? (rest.length + 1) (skipSpace rest)).bind fun (path, rest) =>
      match skipSpace rest with
      | ']' :: ']' :: rest => (endOfLine? rest).bind fun rest =>
        (statements? n rest).map (.element path :: ·)
      | _ => none
    | '[' :: rest => (keyPath? (rest.length + 1) (skipSpace rest)).bind fun (path, rest) =>
      match skipSpace rest with
      | ']' :: rest => (endOfLine? rest).bind fun rest =>
        (statements? n rest).map (.table path :: ·)
      | _ => none
    | cs => (keyPath? (cs.length + 1) cs).bind fun (path, rest) => match skipSpace rest with
      | '=' :: rest => (value? (rest.length + 1) (skipSpace rest)).bind fun (d, rest) =>
        (endOfLine? rest).bind fun rest => (statements? n rest).map (.assign path d :: ·)
      | _ => none

/-- Reads a text as one map. -/
def read? (s : String) : Option Document :=
  let cs := match s.toList with
    | '\ufeff' :: rest => rest
    | cs => cs
  (statements? (cs.length + 1) cs).bind fun statements =>
    (build statements [] []).map fun entries => .map (toEntries entries)

end ClientBindings.Toml
