/-! Places in a YAML text. Line breaks are unified beforehand: carriage returns and next-line
characters have become newlines, and only the two separators of Unicode break lines beside them. -/
namespace ClientBindings.Yaml

/-- The text that is left, and where it starts. -/
structure Cursor where
  rest : List Char
  index : Nat
  line : Nat
  column : Nat

def isBreak (c : Char) : Bool := c == '\n' || c == '\u2028' || c == '\u2029'

def isSpaceOrTab (c : Char) : Bool := c == ' ' || c == '\t'

def isGap (c : Char) : Bool := isSpaceOrTab c || isBreak c

/-- White space, a line break or the end. -/
def endsWord : List Char → Bool
  | [] => true
  | c :: _ => isGap c

/-- Letters, digits, hyphens and underscores. -/
def isWordChar (c : Char) : Bool := c.isAlphanum || c == '-' || c == '_'

def isFlowMark (c : Char) : Bool := c == ',' || c == '[' || c == ']' || c == '\x7b' || c == '\x7d'

namespace Cursor

def start (text : List Char) : Cursor := ⟨text, 0, 0, 0⟩

def next (c : Cursor) : Cursor :=
  match c.rest with
  | [] => c
  | ch :: rest =>
    if isBreak ch then ⟨rest, c.index + 1, c.line + 1, 0⟩
    else ⟨rest, c.index + 1, c.line, c.column + 1⟩

def skip (c : Cursor) : Nat → Cursor
  | 0 => c
  | n + 1 => c.next.skip n

/-- What the longest run of accepted characters is, and the place behind it. -/
def span (c : Cursor) (accept : Char → Bool) : List Char × Cursor :=
  let run := c.rest.takeWhile accept
  (run, c.skip run.length)

def skipWhile (c : Cursor) (accept : Char → Bool) : Cursor := (c.span accept).2

/-- To the end of the line if nothing but white space and a comment is left of it. -/
def restOfLine? (c : Cursor) : Option Cursor :=
  let c := c.skipWhile isSpaceOrTab
  let c := match c.rest with
    | '#' :: _ => c.skipWhile fun ch => !isBreak ch
    | _ => c
  match c.rest with
  | [] => some c
  | ch :: _ => if isBreak ch then some c.next else none

/-- Three equal characters that stand alone at the beginning of a line. -/
def isMark (c : Cursor) (mark : Char) : Bool :=
  c.column == 0 && match c.rest with
    | x :: y :: z :: rest => x == mark && y == mark && z == mark && endsWord rest
    | _ => false

/-- The beginning or the end of a document. -/
def isDocumentMark (c : Cursor) : Bool := c.isMark '-' || c.isMark '.'

end Cursor

end ClientBindings.Yaml
