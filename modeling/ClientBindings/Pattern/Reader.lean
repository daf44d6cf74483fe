import ClientBindings.Pattern.Basic
import ClientBindings.Text.Basic
import ClientBindings.Word

/-! Reading patterns. Malformed patterns, back references, look-around and unknown escapes, flags,
classes and properties are refused. -/
namespace ClientBindings

namespace Pattern

/-- What flags say about the part of a pattern that follows. -/
structure Flags where
  ignoreCase : Bool
  multiLine : Bool
  dotNewline : Bool
  verbose : Bool
  unicode : Bool

def Flags.initial : Flags := ⟨false, false, false, false, true⟩

def Flags.set? (f : Flags) (name : Char) (on : Bool) : Option Flags :=
  match name with
  | 'i' => some { f with ignoreCase := on }
  | 'm' => some { f with multiLine := on }
  | 's' => some { f with dotNewline := on }
  | 'x' => some { f with verbose := on }
  | 'u' => some { f with unicode := on }
  | 'U' => some f
  | 'R' => some f
  | _ => none

/-- Reads flags up to a colon or a closing parenthesis. Each flag stands once, and a minus sign is
followed by a flag. -/
def readFlags (f : Flags) (seen : List Char) (negated dangling : Bool) :
    List Char → Option (Flags × Bool × List Char)
  | [] => none
  | ':' :: rest => if dangling then none else some (f, true, rest)
  | ')' :: rest => if dangling || seen.isEmpty then none else some (f, false, rest)
  | '-' :: rest => if negated then none else readFlags f seen true true rest
  | c :: rest =>
    if seen.contains c then none
    else match f.set? c (!negated) with
      | some f => readFlags f (c :: seen) negated false rest
      | none => none

def folding (f : Flags) (s : CharSet) : CharSet := if f.ignoreCase then .folded s else s

def literal (f : Flags) (c : Char) : Pattern := .char (folding f (.single c))

def sequence : List Pattern → Pattern
  | [] => .empty
  | [p] => p
  | p :: ps => .seq p (sequence ps)

def alternatives : List Pattern → Pattern
  | [] => .empty
  | [p] => p
  | p :: ps => .alt p (alternatives ps)

def wordSet (f : Flags) : CharSet := if f.unicode then .word else (CharSet.ascii "word").getD .none
def digitSet (f : Flags) : CharSet := if f.unicode then .digit else .range 48 57
def blankSet (f : Flags) : CharSet :=
  if f.unicode then .blank else (CharSet.ascii "space").getD .none

def isMeta (c : Char) : Bool := "\\.+*?()|[]\x7b\x7d^$#&-~".toList.contains c

/-- Characters other than letters, digits and angle brackets may be escaped. -/
def isEscapable (c : Char) : Bool :=
  isMeta c || (c.toNat < 128 && !c.isAlphanum && c != '<' && c != '>')

def hexValue? (c : Char) : Option Nat :=
  if c.isDigit then some (c.toNat - 48)
  else if 'a' ≤ c && c ≤ 'f' then some (c.toNat - 87)
  else if 'A' ≤ c && c ≤ 'F' then some (c.toNat - 55)
  else none

def scalarOf? (cs : List Char) : Option Char := do
  if cs.isEmpty || cs.length > 8 then none
  let n ← cs.foldlM (fun n c => (hexValue? c).map fun d => n * 16 + d) 0
  if n > 0x10FFFF || (0xD800 ≤ n && n ≤ 0xDFFF) then none else pure (Char.ofNat n)

/-- The digits of a numeric escape: in braces, or as many as the escape has. -/
def hexEscape? (digits : Nat) : List Char → Option (Char × List Char)
  | '\x7b' :: rest =>
    let body := rest.takeWhile (· != '\x7d')
    if body.length = rest.length then none
    else (scalarOf? body).map fun c => (c, rest.drop (body.length + 1))
  | cs => if cs.length < digits then none
    else (scalarOf? (cs.take digits)).map fun c => (c, cs.drop digits)

/-- A property after `p`: one letter, or what stands in braces. -/
def propertySet? : List Char → Option (CharSet × List Char)
  | '\x7b' :: rest =>
    let body := rest.takeWhile (· != '\x7d')
    if body.length = rest.length then none
    else (CharSet.ofProperty? body).map fun s => (s, rest.drop (body.length + 1))
  | c :: rest => (CharSet.ofName? [c]).map fun s => (s, rest)
  | [] => none

/-- What an escape denotes inside and outside of brackets. -/
inductive Escape where
  | char (c : Char)
  | set (s : CharSet)
  | assertion (p : Pattern)

def controlEscape? : Char → Option Char
  | 'a' => some '\x07'
  | 'f' => some '\x0c'
  | 't' => some '\t'
  | 'n' => some '\n'
  | 'r' => some '\r'
  | 'v' => some '\x0b'
  | _ => none

/-- A named word boundary in braces. -/
def namedBoundary? (words : CharSet) (cs : List Char) : Option (Pattern × List Char) :=
  let body := cs.takeWhile (· != '\x7d')
  let rest := cs.drop (body.length + 1)
  let name := String.ofList body
  if name == "start" then some (.wordStart words, rest)
  else if name == "end" then some (.wordEnd words, rest)
  else if name == "start-half" then some (.alt (.wordStart words) (.noBoundary words), rest)
  else if name == "end-half" then some (.alt (.wordEnd words) (.noBoundary words), rest)
  else none

/-- Reads what follows a backslash. -/
def escape? (f : Flags) : List Char → Option (Escape × List Char)
  | [] => none
  | 'x' :: rest => (hexEscape? 2 rest).map fun (c, rest) => (.char c, rest)
  | 'u' :: rest => (hexEscape? 4 rest).map fun (c, rest) => (.char c, rest)
  | 'U' :: rest => (hexEscape? 8 rest).map fun (c, rest) => (.char c, rest)
  | 'p' :: rest => if !f.unicode then none
    else (propertySet? rest).map fun (s, rest) => (.set (folding f s), rest)
  | 'P' :: rest => if !f.unicode then none
    else (propertySet? rest).map fun (s, rest) => (.set (.complement (folding f s)), rest)
  | 'd' :: rest => some (.set (digitSet f), rest)
  | 's' :: rest => some (.set (blankSet f), rest)
  | 'w' :: rest => some (.set (wordSet f), rest)
  | 'D' :: rest => if f.unicode then some (.set (.complement (digitSet f)), rest) else none
  | 'S' :: rest => if f.unicode then some (.set (.complement (blankSet f)), rest) else none
  | 'W' :: rest => if f.unicode then some (.set (.complement (wordSet f)), rest) else none
  | 'A' :: rest => some (.assertion .textStart, rest)
  | 'z' :: rest => some (.assertion .textEnd, rest)
  | 'b' :: rest => match rest with
    | '\x7b' :: body => match body with
      | c :: _ =>
        if c.isAlpha || c == '-' then
          (namedBoundary? (wordSet f) body).map fun (p, rest) => (.assertion p, rest)
        else some (.assertion (.boundary (wordSet f)), rest)
      | [] => some (.assertion (.boundary (wordSet f)), rest)
    | _ => some (.assertion (.boundary (wordSet f)), rest)
  | 'B' :: rest => if f.unicode then some (.assertion (.noBoundary (wordSet f)), rest) else none
  | '<' :: rest => some (.assertion (.wordStart (wordSet f)), rest)
  | '>' :: rest => some (.assertion (.wordEnd (wordSet f)), rest)
  | c :: rest =>
    if isEscapable c then some (.char c, rest)
    else (controlEscape? c).map fun d => (.char d, rest)

/-- Drops white space and comments where they do not count. -/
def skipVerbose (f : Flags) : Nat → List Char → List Char
  | 0, cs => cs
  | n + 1, cs =>
    if !f.verbose then cs
    else match cs with
      | '#' :: rest => skipVerbose f n (rest.dropWhile (· != '\n'))
      | c :: rest => if Text.isBlank c then skipVerbose f n rest else c :: rest
      | [] => []

/-- A named ASCII class such as `[:alpha:]`, after its opening bracket. -/
def asciiClass? : List Char → Option (CharSet × List Char)
  | ':' :: rest =>
    let (negated, rest) := match rest with
      | '^' :: rest => (true, rest)
      | _ => (false, rest)
    let name := rest.takeWhile (· != ':')
    match rest.drop name.length with
    | ':' :: ']' :: after =>
      (CharSet.ascii (String.ofList name)).map fun s =>
        (if negated then .complement s else s, after)
    | _ => none
  | _ => none

/-- One side of a range, or a set that cannot bound a range. -/
inductive ClassItem where
  | char (c : Char)
  | set (s : CharSet)

def ClassItem.toSet (f : Flags) : ClassItem → CharSet
  | .char c => folding f (.single c)
  | .set s => s

/-- What joins the operands read so far with the one that comes next. -/
inductive ClassOperator where
  | inter | difference | symmetric

def ClassOperator.apply (op : Option ClassOperator) (a b : CharSet) : CharSet :=
  match op with
  | none => b
  | some .inter => .inter a b
  | some .difference => .difference a b
  | some .symmetric => .union (.difference a b) (.difference b a)

def classOperator? : List Char → Option (ClassOperator × List Char)
  | '&' :: '&' :: rest => some (.inter, rest)
  | '-' :: '-' :: rest => some (.difference, rest)
  | '~' :: '~' :: rest => some (.symmetric, rest)
  | _ => none

mutual

/-- A class after its opening bracket. -/
def bracket (f : Flags) : Nat → List Char → Option (CharSet × List Char)
  | 0, _ => none
  | n + 1, cs => do
    let cs := skipVerbose f n cs
    let (negated, cs) := match cs with
      | '^' :: rest => (true, skipVerbose f n rest)
      | _ => (false, cs)
    let dashes := cs.takeWhile (· == '-')
    let cs := cs.drop dashes.length
    let first := if dashes.isEmpty then CharSet.none else folding f (.single '-')
    let (first, cs) := match cs with
      | ']' :: rest =>
        if dashes.isEmpty then (folding f (.single ']'), rest) else (first, cs)
      | _ => (first, cs)
    let (s, rest) ← classItems f n none .none first cs
    if negated && !f.unicode then none
    pure (if negated then .complement s else s, rest)

/-- The items of a class up to its closing bracket: `left op` and the union of what is read. -/
def classItems (f : Flags) : Nat → Option ClassOperator → CharSet → CharSet → List Char →
    Option (CharSet × List Char)
  | 0, _, _, _, _ => none
  | n + 1, op, left, current, cs =>
    let cs := skipVerbose f n cs
    match cs with
    | [] => none
    | ']' :: rest => some (ClassOperator.apply op left current, rest)
    | _ =>
      match classOperator? cs with
      | some (next, rest) =>
        classItems f n (some next) (ClassOperator.apply op left current) .none rest
      | none => do
        let (item, rest) ← classItem f n cs
        match rangeEnd f n rest with
        | none => classItems f n op left (.union (item.toSet f) current) rest
        | some rest => do
          let (last, rest) ← classItem f n rest
          match item, last with
          | .char a, .char b =>
            if a ≤ b then
              classItems f n op left (.union (folding f (.range a.toNat b.toNat)) current) rest
            else none
          | _, _ => none

/-- Whether a hyphen makes a range: not before the end of the class or another hyphen. -/
def rangeEnd (f : Flags) : Nat → List Char → Option (List Char)
  | 0, _ => none
  | n + 1, cs => match skipVerbose f n cs with
    | '-' :: rest => match skipVerbose f n rest with
      | ']' :: _ => none
      | '-' :: _ => none
      | [] => none
      | rest => some rest
    | _ => none

def classItem (f : Flags) : Nat → List Char → Option (ClassItem × List Char)
  | 0, _ => none
  | n + 1, cs => match cs with
    | [] => none
    | '[' :: rest => match asciiClass? rest with
      | some (s, rest) => some (.set (folding f s), rest)
      | none => (bracket f n rest).map fun (s, rest) => (.set s, rest)
    | '\\' :: rest => match escape? f rest with
      | some (.char c, rest) => some (.char c, rest)
      | some (.set s, rest) => some (.set s, rest)
      | _ => none
    | c :: rest => some (.char c, rest)

end

/-- The bounds of a counted repetition after its opening brace. -/
def counts? (cs : List Char) : Option (Nat × Option Nat × List Char) := do
  let body := cs.takeWhile (· != '\x7d')
  if body.length = cs.length then none
  let rest := cs.drop (body.length + 1)
  let number (ds : List Char) : Option Nat :=
    let ds := Text.trimChars ds
    if ds.isEmpty || !ds.all Char.isDigit then none
    else
      let n := ds.foldl (fun n d => n * 10 + (d.toNat - 48)) 0
      if n < Word.count 32 then some n else none
  let least := body.takeWhile (· != ',')
  if least.length = body.length then
    let n ← number least
    pure (n, some n, rest)
  else
    let m ← number least
    let upper := body.drop (least.length + 1)
    if (Text.trimChars upper).isEmpty then pure (m, none, rest)
    else
      let n ← number upper
      if m ≤ n then pure (m, some n, rest) else none

/-- The repetition operators that follow an item. -/
def repetitions (f : Flags) : Nat → Pattern → List Char → Option (Pattern × List Char)
  | 0, _, _ => none
  | n + 1, p, cs =>
    let lazily (cs : List Char) : List Char := match cs with
      | '?' :: rest => rest
      | _ => cs
    match skipVerbose f n cs with
    | '*' :: rest => repetitions f n (.repeated 0 none p) (lazily rest)
    | '+' :: rest => repetitions f n (.repeated 1 none p) (lazily rest)
    | '?' :: rest => repetitions f n (.repeated 0 (some 1) p) (lazily rest)
    | '\x7b' :: rest => match counts? rest with
      | some (least, most, rest) => repetitions f n (.repeated least most p) (lazily rest)
      | none => none
    | cs => some (p, cs)

def isNameStart (c : Char) : Bool := c == '_' || CharSet.mem .alphabetic c

def isNameChar (c : Char) : Bool :=
  isNameStart c || c == '.' || c == '[' || c == ']' || Text.isDigit c

/-- A group name up to its closing bracket; names are not used twice. -/
def groupName? (names : List String) (cs : List Char) : Option (String × List Char) :=
  let name := cs.takeWhile (· != '>')
  match cs.drop name.length with
  | '>' :: rest =>
    let valid := match name with
      | c :: more => isNameStart c && more.all isNameChar
      | [] => false
    if valid && !names.contains (String.ofList name) then some (String.ofList name, rest) else none
  | _ => none

/-- The state of reading a group: its finished alternatives, the items of the current one, the
flags in force and the group names used. -/
structure GroupState where
  done : List Pattern
  items : List Pattern
  flags : Flags
  names : List String

def GroupState.push (g : GroupState) (p : Pattern) : GroupState :=
  { g with items := g.items ++ [p] }

def GroupState.toPattern (g : GroupState) : Pattern :=
  alternatives (g.done ++ [sequence g.items])

mutual

/-- Reads a group up to the parenthesis that closes it, or the whole pattern up to its end. -/
def group (top : Bool) : Nat → GroupState → List Char → Option (Pattern × List String × List Char)
  | 0, _, _ => none
  | n + 1, g, cs =>
    let f := g.flags
    match skipVerbose f n cs with
    | [] => if top then some (g.toPattern, g.names, []) else none
    | ')' :: rest => if top then none else some (g.toPattern, g.names, rest)
    | '|' :: rest => group top n { g with done := g.done ++ [sequence g.items], items := [] } rest
    | '*' :: _ => none
    | '+' :: _ => none
    | '?' :: _ => none
    | '\x7b' :: _ => none
    | '(' :: '?' :: rest => match special n g rest with
      | some (.inl (flags, rest)) => match skipVerbose flags n rest with
        | '*' :: _ => none
        | '+' :: _ => none
        | '?' :: _ => none
        | '\x7b' :: _ => none
        | rest => group top n { g with flags := flags } rest
      | some (.inr (p, names, rest)) => after top n { g with names := names } p rest
      | none => none
    | '(' :: rest => match group false n ⟨[], [], f, g.names⟩ rest with
      | some (p, names, rest) => after top n { g with names := names } p rest
      | none => none
    | '[' :: rest => match bracket f n rest with
      | some (s, rest) => after top n g (.char s) rest
      | none => none
    | '\\' :: rest => match escape? f rest with
      | some (.char c, rest) => after top n g (literal f c) rest
      | some (.set s, rest) => after top n g (.char s) rest
      | some (.assertion p, rest) => after top n g p rest
      | none => none
    | '.' :: rest =>
      if !f.unicode then none
      else
        let s := if f.dotNewline then CharSet.all else .complement (.single '\n')
        after top n g (.char s) rest
    | '^' :: rest => after top n g (if f.multiLine then .lineStart else .textStart) rest
    | '$' :: rest => after top n g (if f.multiLine then .lineEnd else .textEnd) rest
    | c :: rest => after top n g (literal f c) rest

/-- Goes on after an item, which may be repeated. -/
def after (top : Bool) : Nat → GroupState → Pattern → List Char →
    Option (Pattern × List String × List Char)
  | 0, _, _, _ => none
  | n + 1, g, p, cs => match repetitions g.flags n p cs with
    | some (p, rest) => group top n (g.push p) rest
    | none => none

/-- What follows `(?`: flags for the rest of the group, a group with flags, or a named group. -/
def special : Nat → GroupState → List Char →
    Option (Sum (Flags × List Char) (Pattern × List String × List Char))
  | 0, _, _ => none
  | n + 1, g, cs => match cs with
    | '=' :: _ => none
    | '!' :: _ => none
    | '<' :: '=' :: _ => none
    | '<' :: '!' :: _ => none
    | '<' :: rest => named n g rest
    | 'P' :: '<' :: rest => named n g rest
    | cs => match readFlags g.flags [] false false cs with
      | some (f, true, rest) => (group false n ⟨[], [], f, g.names⟩ rest).map .inr
      | some (f, false, rest) => some (.inl (f, rest))
      | none => none

def named : Nat → GroupState → List Char →
    Option (Sum (Flags × List Char) (Pattern × List String × List Char))
  | 0, _, _ => none
  | n + 1, g, cs => match groupName? g.names cs with
    | some (name, rest) => (group false n ⟨[], [], g.flags, name :: g.names⟩ rest).map .inr
    | none => none

end

/-- An estimate of the room that a set takes once it is spelled out in bytes. -/
def setWeight : CharSet → Nat
  | .range first last => if last < 128 then 24 else if first = last then 72 else 200
  | .category _ _ => 8000
  | .word => 16000
  | .alphabetic => 16000
  | .digit => 1600
  | .blank => 300
  | .uppercase => 8000
  | .lowercase => 8000
  | .union a b => setWeight a + setWeight b
  | .inter a b => max (setWeight a) (setWeight b)
  | .difference a b => max (setWeight a) (setWeight b)
  | .complement a => 400 + setWeight a
  | .folded a => setWeight a

/-- An estimate of the room that a pattern takes with its repetitions spelled out. -/
def weight : Pattern → Nat
  | .char set => setWeight set
  | .seq a b => weight a + weight b
  | .alt a b => 40 + weight a + weight b
  | .repeated least most a => 40 + (match most with
    | some most => least * weight a + (most - least) * (weight a + 40)
    | none => (max least 1) * weight a)
  | _ => 24

/-- Patterns that take more room than this are refused. -/
def maxWeight : Nat := 10 * Word.count 20

/-- Reads a whole pattern. -/
def read? (s : String) : Option Pattern :=
  let cs := s.toList
  match group true (4 * cs.length + 8) ⟨[], [], .initial, []⟩ cs with
  | some (p, _, _) => if p.weight ≤ maxWeight then some p else none
  | none => none

end Pattern

/-- What reads patterns: of a well-formed one it knows the texts that have a match. -/
structure PatternReader where
  read? : String → Option (String → Bool)

namespace PatternReader

instance : Repr PatternReader := ⟨fun _ _ => "patterns"⟩

/-- The patterns that are read here, of which properties other than some categories and scripts are
refused. -/
def standard : PatternReader := ⟨fun s => (Pattern.read? s).map Pattern.matchesText⟩

end PatternReader

end ClientBindings
