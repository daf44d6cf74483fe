import ClientBindings.Document.Basic

/-! JSON text: a reader for the whole grammar and two writers, one compact and one with an
indentation of two spaces. A document written compactly reads back. -/
namespace ClientBindings.Json

/-- Nesting from which on a text is refused. -/
def maxDepth : Nat := 128

def isSpace (c : Char) : Bool := c == ' ' || c == '\n' || c == '\t' || c == '\r'

def skipSpace (cs : List Char) : List Char := cs.dropWhile isSpace

def digitValue (c : Char) : Nat := c.toNat - 48

def hexValue? (c : Char) : Option Nat :=
  if c.isDigit then some (c.toNat - 48)
  else if 'a' ≤ c && c ≤ 'f' then some (c.toNat - 87)
  else if 'A' ≤ c && c ≤ 'F' then some (c.toNat - 55)
  else none

def hexUnit? : List Char → Option (Nat × List Char)
  | a :: b :: c :: d :: rest => do
    let a ← hexValue? a
    let b ← hexValue? b
    let c ← hexValue? c
    let d ← hexValue? d
    pure (a * 4096 + b * 256 + c * 16 + d, rest)
  | _ => none

/-- The character after a backslash and `u`; two escapes when the first is a leading surrogate. -/
def escapedUnit? (cs : List Char) : Option (Char × List Char) := do
  let (u, rest) ← hexUnit? cs
  if 0xDC00 ≤ u && u ≤ 0xDFFF then none
  else if 0xD800 ≤ u && u ≤ 0xDBFF then
    match rest with
    | '\\' :: 'u' :: rest => do
      let (v, rest) ← hexUnit? rest
      if 0xDC00 ≤ v && v ≤ 0xDFFF then
        pure (Char.ofNat (0x10000 + (u - 0xD800) * 1024 + (v - 0xDC00)), rest)
      else none
    | _ => none
  else pure (Char.ofNat u, rest)

def simpleEscape? : Char → Option Char
  | '"' => some '"'
  | '\\' => some '\\'
  | '/' => some '/'
  | 'b' => some '\x08'
  | 'f' => some '\x0c'
  | 'n' => some '\n'
  | 'r' => some '\r'
  | 't' => some '\t'
  | _ => none

/-- The rest of a string after its opening quote; `n` bounds the characters looked at. -/
def stringBody : Nat → List Char → List Char → Option (String × List Char)
  | 0, _, _ => none
  | n + 1, acc, cs => match cs with
    | [] => none
    | '"' :: rest => some (String.ofList acc.reverse, rest)
    | '\\' :: 'u' :: rest => match escapedUnit? rest with
      | some (c, rest) => stringBody n (c :: acc) rest
      | none => none
    | '\\' :: e :: rest => match simpleEscape? e with
      | some c => stringBody n (c :: acc) rest
      | none => none
    | c :: rest => if c.toNat < 32 then none else stringBody n (c :: acc) rest

def maxWord : Nat := Word.count 64 - 1

/-- A number under construction: its significand as far as it fits a word, and its scale. -/
structure Scaled where
  significand : Nat
  exponent : Int

/-- Takes digits before the point: those that no longer fit only raise the scale. -/
def Scaled.whole (s : Scaled) (full : Bool) : List Char → Scaled × Bool
  | [] => (s, full)
  | d :: ds =>
    let next := s.significand * 10 + digitValue d
    if full || next > maxWord then Scaled.whole ⟨s.significand, s.exponent + 1⟩ true ds
    else Scaled.whole ⟨next, s.exponent⟩ false ds

/-- Takes digits after the point: those from the first that does not fit on are dropped. -/
def Scaled.decimals (s : Scaled) : List Char → Scaled
  | [] => s
  | d :: ds =>
    let next := s.significand * 10 + digitValue d
    if next > maxWord then s else Scaled.decimals ⟨next, s.exponent - 1⟩ ds

def powerOfTen (n : Nat) : Float := Float.ofScientific 1 false n

/-- The scaled value by one multiplication or by divisions; none when it is too large. -/
def Scaled.toFloat? (s : Scaled) : Option Float :=
  let f := Float.ofNat s.significand
  if s.exponent ≥ 0 then
    if s.significand = 0 then some f
    else if s.exponent > 308 then none
    else
      let v := f * powerOfTen s.exponent.toNat
      if v.isInf then none else some v
  else
    let n := (-s.exponent).toNat
    let rec down (fuel n : Nat) (f : Float) : Float :=
      match fuel with
      | 0 => f / powerOfTen (min n 308)
      | fuel + 1 =>
        if n ≤ 308 then f / powerOfTen n
        else if f == 0 then f
        else down fuel (n - 308) (f / powerOfTen 308)
    some (down (n / 308 + 1) n f)

/-- A number: an integer when it has neither point nor exponent and fits a word. -/
def number? (cs : List Char) : Option (Document × List Char) := do
  let (negative, cs) := match cs with
    | '-' :: rest => (true, rest)
    | _ => (false, cs)
  let digits := cs.takeWhile Char.isDigit
  let rest := cs.dropWhile Char.isDigit
  if digits.isEmpty || (digits.head? == some '0' && digits.length > 1) then none
  let (whole, full) := Scaled.whole ⟨0, 0⟩ false digits
  let signed (f : Float) : Document := .float (Double.ofFloat (if negative then -f else f))
  let (scaled, rest, fractional) ← match rest with
    | '.' :: rest =>
      let decimals := rest.takeWhile Char.isDigit
      if decimals.isEmpty then none
      else
        some (whole.decimals decimals, rest.dropWhile Char.isDigit, true)
    | _ => some (whole, rest, full)
  match rest with
  | e :: rest =>
    if e == 'e' || e == 'E' then
      let (down, rest) := match rest with
        | '+' :: rest => (false, rest)
        | '-' :: rest => (true, rest)
        | _ => (false, rest)
      let digits := rest.takeWhile Char.isDigit
      if digits.isEmpty then none
      else
        let size := digits.foldl (fun n d => n * 10 + digitValue d) 0
        let rest := rest.dropWhile Char.isDigit
        if scaled.significand = 0 then pure (signed 0.0, rest)
        else if down && size > 10000 then pure (signed 0.0, rest)
        else do
          let f ← Scaled.toFloat? ⟨scaled.significand,
            if down then scaled.exponent - size else scaled.exponent + size⟩
          pure (signed f, rest)
    else finish negative fractional scaled signed (e :: rest)
  | [] => finish negative fractional scaled signed []
where
  finish (negative fractional : Bool) (scaled : Scaled) (signed : Float → Document)
      (rest : List Char) : Option (Document × List Char) :=
    if fractional then do
      let f ← scaled.toFloat?
      pure (signed f, rest)
    else if negative then
      if scaled.significand = 0 || scaled.significand > Word.count 63 then
        some (signed (Float.ofNat scaled.significand), rest)
      else some (.int (-(scaled.significand : Int)), rest)
    else some (.int scaled.significand, rest)

def keyword? (word : String) (value : Document) (cs : List Char) : Option (Document × List Char) :=
  if word.toList.isPrefixOf cs then some (value, cs.drop word.length) else none

mutual

/-- Reads a value; `n` bounds the work and `depth` is the nesting that is still allowed. -/
def value? : Nat → Nat → List Char → Option (Document × List Char)
  | 0, _, _ => none
  | n + 1, depth, cs => match skipSpace cs with
    | '"' :: rest => (stringBody (rest.length + 1) [] rest).map fun (s, rest) => (.text s, rest)
    | '[' :: rest => match depth with
      | 0 | 1 => none
      | depth + 1 => match skipSpace rest with
        | ']' :: rest => some (.list [], rest)
        | _ => (items? n depth rest).map fun (items, rest) => (.list items, rest)
    | '\x7b' :: rest => match depth with
      | 0 | 1 => none
      | depth + 1 => match skipSpace rest with
        | '\x7d' :: rest => some (.map [], rest)
        | _ => (members? n depth rest).map fun (entries, rest) => (.map entries, rest)
    | 't' :: rest => keyword? "rue" (.bool true) rest
    | 'f' :: rest => keyword? "alse" (.bool false) rest
    | 'n' :: rest => keyword? "ull" .null rest
    | c :: rest => if c == '-' || c.isDigit then number? (c :: rest) else none
    | [] => none

def items? : Nat → Nat → List Char → Option (List Document × List Char)
  | 0, _, _ => none
  | n + 1, depth, cs => match value? n depth cs with
    | none => none
    | some (item, rest) => match skipSpace rest with
      | ']' :: rest => some ([item], rest)
      | ',' :: rest => (items? n depth rest).map fun (items, rest) => (item :: items, rest)
      | _ => none

def members? : Nat → Nat → List Char → Option (List (String × Document) × List Char)
  | 0, _, _ => none
  | n + 1, depth, cs => match skipSpace cs with
    | '"' :: rest => match stringBody (rest.length + 1) [] rest with
      | none => none
      | some (key, rest) => match skipSpace rest with
        | ':' :: rest => match value? n depth rest with
          | none => none
          | some (value, rest) => match skipSpace rest with
            | '\x7d' :: rest => some ([(key, value)], rest)
            | ',' :: rest =>
              (members? n depth rest).map fun (entries, rest) => ((key, value) :: entries, rest)
            | _ => none
        | _ => none
    | _ => none

end

/-- Reads a text that holds one value and nothing else. -/
def read? (s : String) : Option Document := do
  let cs := s.toList
  let (value, rest) ← value? (2 * cs.length + 2) maxDepth cs
  if (skipSpace rest).isEmpty then pure value else none

def hexDigit (n : Nat) : Char := (Nat.toDigits 16 n).headD '0'

def escapeChar (c : Char) : List Char :=
  match c with
  | '"' => ['\\', '"']
  | '\\' => ['\\', '\\']
  | '\x08' => ['\\', 'b']
  | '\x0c' => ['\\', 'f']
  | '\n' => ['\\', 'n']
  | '\r' => ['\\', 'r']
  | '\t' => ['\\', 't']
  | c =>
    if c.toNat < 32 then
      ['\\', 'u', '0', '0', hexDigit (c.toNat / 16), hexDigit (c.toNat % 16)]
    else [c]

def quoted (s : String) : String := "\"" ++ String.ofList (s.toList.flatMap escapeChar) ++ "\""

mutual

/-- The compact text. -/
def write : Document → String
  | .null => "null"
  | .bool b => if b then "true" else "false"
  | .int n => toString n
  | .float d => d.toText?.getD "null"
  | .text s => quoted s
  | .plain s => quoted s
  | .tagged _ d => write d
  | .unreadable => "null"
  | .list items => "[" ++ writeItems items ++ "]"
  | .map entries => "\x7b" ++ writeEntries entries ++ "\x7d"

def writeItems : List Document → String
  | [] => ""
  | [item] => write item
  | item :: items => write item ++ "," ++ writeItems items

def writeEntries : List (String × Document) → String
  | [] => ""
  | [(key, value)] => quoted key ++ ":" ++ write value
  | (key, value) :: entries => quoted key ++ ":" ++ write value ++ "," ++ writeEntries entries

end

def indentation (depth : Nat) : String := String.ofList (List.replicate (2 * depth) ' ')

mutual

/-- The indented text of a value that stands `depth` levels deep. -/
def pretty (depth : Nat) : Document → String
  | .list [] => "[]"
  | .map [] => "\x7b\x7d"
  | .list items => "[\n" ++ prettyItems (depth + 1) items ++ "\n" ++ indentation depth ++ "]"
  | .map entries =>
    "\x7b\n" ++ prettyEntries (depth + 1) entries ++ "\n" ++ indentation depth ++ "\x7d"
  | .null => "null"
  | .bool b => if b then "true" else "false"
  | .int n => toString n
  | .float d => d.toText?.getD "null"
  | .text s => quoted s
  | .plain s => quoted s
  | .tagged _ d => pretty depth d
  | .unreadable => "null"

def prettyItems (depth : Nat) : List Document → String
  | [] => ""
  | [item] => indentation depth ++ pretty depth item
  | item :: items => indentation depth ++ pretty depth item ++ ",\n" ++ prettyItems depth items

def prettyEntries (depth : Nat) : List (String × Document) → String
  | [] => ""
  | [(key, value)] => indentation depth ++ quoted key ++ ": " ++ pretty depth value
  | (key, value) :: entries =>
    indentation depth ++ quoted key ++ ": " ++ pretty depth value ++ ",\n" ++
      prettyEntries depth entries

end

end ClientBindings.Json
