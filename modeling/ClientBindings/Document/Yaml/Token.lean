import ClientBindings.Document.Yaml.Scalar

/-! The tokens of a YAML text. Indentation becomes tokens that open and close block collections, and
a word turns out to be a key when a colon follows it on its line. -/
namespace ClientBindings.Yaml

inductive Token where
  | versionDirective (major minor : Nat)
  | tagDirective (handle start : List Char)
  | documentStart
  | documentEnd
  | blockSequence
  | blockMapping
  | blockEnd
  | flowSequence
  | flowSequenceEnd
  | flowMapping
  | flowMappingEnd
  | blockEntry
  | flowEntry
  | key
  | value
  | anchor (name : List Char)
  | reference (name : List Char)
  | tag (handle suffix : List Char)
  /-- A scalar, with or without quotes; blocks count as quoted. -/
  | scalar (text : List Char) (quoted : Bool)
  deriving DecidableEq

/-- A place where a key may have begun: the number of tokens before it, and whether only a key can
stand there. -/
structure PossibleKey where
  position : Cursor
  number : Nat
  isRequired : Bool

/-- Whether a key that began at a place would be too long, or cross lines. -/
def PossibleKey.isStale (k : PossibleKey) (c : Cursor) : Bool :=
  k.position.line < c.line || k.position.index + 1024 < c.index

/-- Drops possible keys that are too long by now; none when one of them was required. -/
def dropStale? (c : Cursor) : List (Option PossibleKey) → Option (List (Option PossibleKey))
  | [] => some []
  | key :: keys => match dropStale? c keys with
    | none => none
    | some keys => match key with
      | none => some (none :: keys)
      | some k =>
        if k.isStale c then if k.isRequired then none else some (none :: keys)
        else some (some k :: keys)

/-- What is known halfway through a text. -/
structure Scanner where
  cursor : Cursor
  /-- The latest first. -/
  tokens : List Token
  count : Nat
  /-- The column of the innermost block collection, or -1. -/
  indent : Int
  outerIndents : List Int
  /-- The possible key outside brackets and one for each open bracket, the innermost first. -/
  keys : List (Option PossibleKey)
  keyAllowed : Bool

namespace Scanner

def start (text : List Char) : Scanner := ⟨.start text, [], 0, -1, [], [none], true⟩

def inFlow (s : Scanner) : Bool := s.keys.length > 1

def push (s : Scanner) (t : Token) : Scanner :=
  { s with tokens := t :: s.tokens, count := s.count + 1 }

/-- Inserts a token behind the first `number` tokens. -/
def insertAt (s : Scanner) (number : Nat) (t : Token) : Scanner :=
  let later := s.count - number
  { s with tokens := s.tokens.take later ++ t :: s.tokens.drop later, count := s.count + 1 }

/-- Opens a block collection at a column that lies deeper than the innermost one. -/
def openBlock (s : Scanner) (column : Nat) (number : Nat) (t : Token) : Scanner :=
  if s.inFlow || (column : Int) ≤ s.indent then s
  else
    let s := s.insertAt number t
    { s with indent := column, outerIndents := s.indent :: s.outerIndents }

/-- Closes the block collections that lie deeper than a column. -/
def closeBlocks (s : Scanner) (column : Int) : Scanner :=
  if s.inFlow then s else close s.outerIndents s
where
  close : List Int → Scanner → Scanner
    | [], s => s
    | outer :: rest, s =>
      if column < s.indent then
        close rest { s.push .blockEnd with indent := outer, outerIndents := rest }
      else s

/-- Gives up the innermost possible key; none when it was required. -/
def dropKey? (s : Scanner) : Option Scanner :=
  match s.keys with
  | [] => some s
  | key :: keys =>
    if (key.map (·.isRequired)).getD false then none else some { s with keys := none :: keys }

/-- Remembers that a key may begin here. -/
def saveKey? (s : Scanner) : Option Scanner :=
  if !s.keyAllowed then some s
  else s.dropKey?.map fun s =>
    let isRequired := !s.inFlow && s.indent == (s.cursor.column : Int)
    { s with keys := some ⟨s.cursor, s.count, isRequired⟩ :: s.keys.drop 1 }

/-- Moves over white space, comments and line breaks. In a block a new line may begin with a key,
and no tab may stand where a key may begin. -/
def toNextToken : Nat → Scanner → Scanner
  | 0, s => s
  | n + 1, s =>
    let c := s.cursor
    let c := if c.column == 0 && c.rest.head? == some '\ufeff' then c.next else c
    let c := c.skipWhile fun ch => ch == ' ' || (ch == '\t' && (s.inFlow || !s.keyAllowed))
    let c := match c.rest with
      | '#' :: _ => c.skipWhile fun ch => !isBreak ch
      | _ => c
    match c.rest with
    | ch :: _ =>
      if isBreak ch then
        toNextToken n { s with cursor := c.next, keyAllowed := s.keyAllowed || !s.inFlow }
      else { s with cursor := c }
    | [] => { s with cursor := c }

/-- Takes some characters as a token that says everything by itself. -/
def take (s : Scanner) (width : Nat) (t : Token) : Scanner :=
  { s.push t with cursor := s.cursor.skip width }

/-- Digits of a version number. -/
def versionNumber? (c : Cursor) : Option (Nat × Cursor) :=
  let (digits, after) := c.span Char.isDigit
  if digits.isEmpty || digits.length > 9 then none
  else some (digits.foldl (fun n d => n * 10 + (d.toNat - 48)) 0, after)

/-- The handle of a tag: an exclamation mark, and a word with another one. -/
def tagHandle (c : Cursor) : List Char × Cursor :=
  let (word, after) := c.next.span isWordChar
  match after.rest with
  | '!' :: _ => ('!' :: word ++ ['!'], after.next)
  | _ => ('!' :: word, after)

def isTagChar (verbatim : Bool) (c : Char) : Bool :=
  isWordChar c || ";/?:@&=+$.!~*'()".toList.contains c ||
    (verbatim && (c == ',' || c == '[' || c == ']'))

/-- The value of a byte written as a percent sign and two hexadecimal digits. -/
def percentByte? : List Char → Option Nat
  | '%' :: a :: b :: _ => hexNumber? [a, b]
  | _ => none

/-- The bytes that continue a character written in percent signs. -/
def percentTail? : Nat → Nat → Cursor → Option (Nat × Cursor)
  | 0, v, c => some (v, c)
  | n + 1, v, c => (percentByte? c.rest).bind fun b =>
    if 0x80 ≤ b && b < 0xC0 then percentTail? n (v * 64 + (b - 0x80)) (c.skip 3) else none

def percentChar? (c : Cursor) : Option (Char × Cursor) := do
  let b ← percentByte? c.rest
  let after := c.skip 3
  let (v, after) ←
    if b < 0x80 then some (b, after)
    else if 0xC0 ≤ b && b < 0xE0 then percentTail? 1 (b - 0xC0) after
    else if 0xE0 ≤ b && b < 0xF0 then percentTail? 2 (b - 0xE0) after
    else if 0xF0 ≤ b && b < 0xF8 then percentTail? 3 (b - 0xF0) after
    else none
  pure (Char.ofNat v, after)

/-- The characters of a tag from here on; `text` is what has been read, reversed. -/
def tagText? (verbatim : Bool) : Nat → Cursor → List Char → Option (List Char × Cursor)
  | 0, _, _ => none
  | n + 1, c, text => match c.rest with
    | '%' :: _ => match percentChar? c with
      | none => none
      | some (ch, after) => tagText? verbatim n after (ch :: text)
    | ch :: _ =>
      if isTagChar verbatim ch then tagText? verbatim n c.next (ch :: text)
      else some (text.reverse, c)
    | [] => some (text.reverse, c)

/-- A directive at the beginning of a line. -/
def directive? (s : Scanner) : Option Scanner := do
  let (name, c) := s.cursor.next.span isWordChar
  if name.isEmpty || !endsWord c.rest then none
  else
    let c := c.skipWhile isSpaceOrTab
    if name = "YAML".toList then
      let (major, c) ← versionNumber? c
      if c.rest.head? ≠ some '.' then none
      else
        let (minor, c) ← versionNumber? c.next
        let c ← c.restOfLine?
        pure { s.push (.versionDirective major minor) with cursor := c }
    else if name = "TAG".toList then
      if c.rest.head? ≠ some '!' then none
      else
        let (handle, c) := tagHandle c
        if (handle.length > 1 && handle.getLast? ≠ some '!') ||
            !(c.rest.head?.map isSpaceOrTab).getD false then none
        else
          let c := c.skipWhile isSpaceOrTab
          let (start, c) ← tagText? true (c.rest.length + 1) c []
          if start.isEmpty || !endsWord c.rest then none
          else
            let c ← c.restOfLine?
            pure { s.push (.tagDirective handle start) with cursor := c }
    else none

/-- A tag: in angle brackets, or a handle and a suffix. A single exclamation mark has no handle. -/
def tag? (s : Scanner) : Option Scanner := do
  let (t, c) ← match s.cursor.rest with
    | '!' :: '<' :: _ => do
      let c := s.cursor.skip 2
      let (text, c) ← tagText? true (c.rest.length + 1) c []
      if text.isEmpty || c.rest.head? ≠ some '>' then none
      else some (Token.tag [] text, c.next)
    | _ => do
      let (handle, c) := tagHandle s.cursor
      if handle.length > 1 && handle.getLast? = some '!' then do
        let (suffix, c) ← tagText? false (c.rest.length + 1) c []
        if suffix.isEmpty then none else some (Token.tag handle suffix, c)
      else do
        let (suffix, c) ← tagText? false (c.rest.length + 1) c (handle.drop 1).reverse
        some (if suffix.isEmpty then Token.tag [] ['!'] else Token.tag ['!'] suffix, c)
  let ended := endsWord c.rest || (s.inFlow && c.rest.head? == some ',')
  if ended then pure { s.push t with cursor := c } else none

/-- The name of an anchor or of a reference to one. -/
def anchor? (s : Scanner) (t : List Char → Token) : Option Scanner :=
  let (name, c) := s.cursor.next.span isWordChar
  let ended := endsWord c.rest || match c.rest with
    | ch :: _ => "?:,]\x7d%@\x60".toList.contains ch
    | [] => true
  if name.isEmpty || !ended then none else some { s.push (t name) with cursor := c }

/-- A dash before an item of a block. -/
def blockEntry? (s : Scanner) : Option Scanner :=
  if !s.inFlow && !s.keyAllowed then none
  else
    let s := s.openBlock s.cursor.column s.count .blockSequence
    s.dropKey?.map fun s => { s.take 1 .blockEntry with keyAllowed := true }

/-- A question mark before a key. -/
def key? (s : Scanner) : Option Scanner :=
  if !s.inFlow && !s.keyAllowed then none
  else
    let s := s.openBlock s.cursor.column s.count .blockMapping
    s.dropKey?.map fun s => { s.take 1 .key with keyAllowed := !s.inFlow }

/-- A colon: what may have been a key is one, or else the colon follows a marked key. -/
def value? (s : Scanner) : Option Scanner :=
  match dropStale? s.cursor (s.keys.take 1) with
  | none => none
  | some [some k] =>
    let s := s.insertAt k.number .key
    let s := s.openBlock k.position.column k.number .blockMapping
    let s := { s with keys := none :: s.keys.drop 1, keyAllowed := false }
    some (s.take 1 .value)
  | some _ =>
    let s := { s with keys := none :: s.keys.drop 1 }
    if s.inFlow then some ({ s with keyAllowed := false }.take 1 .value)
    else if !s.keyAllowed then none
    else some ((s.openBlock s.cursor.column s.count .blockMapping).take 1 .value)

def openFlow? (s : Scanner) (t : Token) : Option Scanner :=
  s.saveKey?.map fun s => { s.take 1 t with keys := none :: s.keys, keyAllowed := true }

def closeFlow? (s : Scanner) (t : Token) : Option Scanner :=
  s.dropKey?.map fun s =>
    let keys := if s.inFlow then s.keys.drop 1 else s.keys
    { s.take 1 t with keys, keyAllowed := false }

/-- Takes a scalar that has been read. -/
def takeScalar (s : Scanner) (scanned : Scanned) (quoted : Bool) : Scanner :=
  { s.push (.scalar scanned.text quoted) with
    cursor := scanned.cursor, keyAllowed := s.keyAllowed || scanned.crossed }

def block? (s : Scanner) (folds : Bool) : Option Scanner :=
  s.dropKey?.bind fun s =>
    (blockScalar? folds s.indent s.cursor.next).map fun scanned => s.takeScalar scanned true

def quoted? (s : Scanner) (double : Bool) : Option Scanner :=
  s.saveKey?.bind fun s =>
    (quotedScalar? double (s.cursor.rest.length + 1) s.cursor.next []).map fun scanned =>
      { s with keyAllowed := false }.takeScalar scanned true

def plain? (s : Scanner) : Option Scanner :=
  s.saveKey?.bind fun s =>
    (plainScalar? s.inFlow (s.indent + 1).toNat (s.cursor.rest.length + 1) s.cursor [] ⟨[], []⟩).map
      fun scanned => { s with keyAllowed := false }.takeScalar scanned false

/-- Characters that begin no scalar without quotes. -/
def isIndicator (c : Char) : Bool := isGap c || "-?:,[]\x7b\x7d#&*!|>'\"%@\x60".toList.contains c

def startsPlain (flow : Bool) : List Char → Bool
  | [] => false
  | c :: rest =>
    !isIndicator c || (c == '-' && !(rest.head?.map isSpaceOrTab).getD false) ||
      (!flow && (c == '?' || c == ':') && !endsWord rest)

/-- Leaves all block collections before a directive or a document mark. -/
def leave? (s : Scanner) : Option Scanner :=
  (s.closeBlocks (-1)).dropKey?.map fun s => { s with keyAllowed := false }

/-- Reads the token at the cursor. -/
def token? (s : Scanner) (ch : Char) (rest : List Char) : Option Scanner :=
  if s.cursor.column == 0 && ch == '%' then s.leave?.bind directive?
  else if s.cursor.isMark '-' then s.leave?.map (·.take 3 .documentStart)
  else if s.cursor.isMark '.' then s.leave?.map (·.take 3 .documentEnd)
  else if ch == '[' then s.openFlow? .flowSequence
  else if ch == '\x7b' then s.openFlow? .flowMapping
  else if ch == ']' then s.closeFlow? .flowSequenceEnd
  else if ch == '\x7d' then s.closeFlow? .flowMappingEnd
  else if ch == ',' then s.dropKey?.map fun s => { s.take 1 .flowEntry with keyAllowed := true }
  else if ch == '-' && endsWord rest then s.blockEntry?
  else if ch == '?' && (s.inFlow || endsWord rest) then s.key?
  else if ch == ':' && (s.inFlow || endsWord rest) then s.value?
  else if ch == '*' then s.saveKey?.bind fun s => { s with keyAllowed := false }.anchor? .reference
  else if ch == '&' then s.saveKey?.bind fun s => { s with keyAllowed := false }.anchor? .anchor
  else if ch == '!' then s.saveKey?.bind fun s => { s with keyAllowed := false }.tag?
  else if ch == '|' && !s.inFlow then s.block? false
  else if ch == '>' && !s.inFlow then s.block? true
  else if ch == '\'' then s.quoted? false
  else if ch == '"' then s.quoted? true
  else if startsPlain s.inFlow (ch :: rest) then s.plain?
  else none

/-- Reads tokens to the end of the text; `n` bounds their number. -/
def run? : Nat → Scanner → Option Scanner
  | 0, _ => none
  | n + 1, s =>
    let s := toNextToken (s.cursor.rest.length + 1) s
    let s := s.closeBlocks s.cursor.column
    match s.cursor.rest with
    | [] => s.leave?
    | ch :: rest => match s.token? ch rest with
      | none => none
      | some s => match dropStale? s.cursor s.keys with
        | none => none
        | some keys => run? n { s with keys }

end Scanner

/-- All tokens of a text. -/
def tokens? (text : List Char) : Option (List Token) :=
  (Scanner.run? (text.length + 1) (.start text)).map fun s => s.tokens.reverse

end ClientBindings.Yaml
