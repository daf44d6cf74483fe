import ClientBindings.Document.Yaml.Cursor
import ClientBindings.Document.Json

/-! The five styles of YAML scalars: without quotes, in single or double quotes, and literal or
folded blocks. In all but literal blocks a line break between words is a space. -/
namespace ClientBindings.Yaml

/-- White space between words: what stands before the first line break, and the breaks. -/
structure Gap where
  blanks : List Char
  breaks : List Char

/-- One newline becomes a space, and of several the first is dropped. -/
def foldBreaks : List Char → List Char
  | ['\n'] => [' ']
  | '\n' :: breaks => breaks
  | breaks => breaks

def Gap.text (g : Gap) : List Char := if g.breaks.isEmpty then g.blanks else foldBreaks g.breaks

/-- White space from here on. Behind a line break no tab may stand before the column `indent`. -/
def scanGap (indent : Nat) : Nat → Cursor → Gap → Option (Gap × Cursor)
  | 0, _, _ => none
  | n + 1, c, g => match c.rest with
    | [] => some (g, c)
    | ch :: _ =>
      if isBreak ch then scanGap indent n c.next { g with breaks := g.breaks ++ [ch] }
      else if isSpaceOrTab ch then
        if g.breaks.isEmpty then scanGap indent n c.next { g with blanks := g.blanks ++ [ch] }
        else if ch == '\t' && c.column < indent then none
        else scanGap indent n c.next g
      else some (g, c)

/-- What a scalar says and where it ends; whether white space behind it crosses lines. -/
structure Scanned where
  text : List Char
  cursor : Cursor
  crossed : Bool

/-- The characters up to a gap or to what ends a scalar without quotes. -/
def plainRun (flow : Bool) : List Char → List Char
  | [] => []
  | c :: rest =>
    if isGap c || (c == ':' && endsWord rest) || (flow && isFlowMark c) then []
    else c :: plainRun flow rest

/-- Inside brackets a colon that ends a word has to be followed by white space. -/
def hidesColon (run rest : List Char) : Bool :=
  match run.reverse.head?, rest with
  | some ':', c :: _ => isFlowMark c
  | _, _ => false

/-- Inside brackets no colon may stand before a question mark or a bracket. -/
def misplacedColon : List Char → Bool
  | ':' :: c :: rest => c == '?' || isFlowMark c || misplacedColon (c :: rest)
  | _ :: rest => misplacedColon rest
  | [] => false

/-- The rest of a scalar without quotes, whose lines stand at the column `indent` or behind it. -/
def plainScalar? (flow : Bool) (indent : Nat) : Nat → Cursor → List Char → Gap → Option Scanned
  | 0, _, _, _ => none
  | n + 1, c, text, gap =>
    let crossed := !gap.breaks.isEmpty
    if c.isDocumentMark || c.rest.head? == some '#' then some ⟨text, c, crossed⟩
    else
      let run := plainRun flow c.rest
      let after := c.skip run.length
      if flow && (misplacedColon run || hidesColon run after.rest) then none
      else
        let text := if run.isEmpty then text else text ++ gap.text ++ run
        let crossed := if run.isEmpty then crossed else false
        match after.rest with
        | [] => some ⟨text, after, crossed⟩
        | ch :: _ =>
          if !isGap ch then some ⟨text, after, crossed⟩
          else match scanGap indent (after.rest.length + 1) after ⟨[], []⟩ with
            | none => none
            | some (gap, after) =>
              if !flow && after.column < indent then some ⟨text, after, !gap.breaks.isEmpty⟩
              else plainScalar? flow indent n after text gap

def hexNumber? (digits : List Char) : Option Nat :=
  digits.foldlM (fun n c => (Json.hexValue? c).map fun d => n * 16 + d) 0

/-- A character by its number in so many hexadecimal digits. -/
def numbered? (width : Nat) (cs : List Char) : Option (Char × Nat) :=
  if cs.length < width then none
  else (hexNumber? (cs.take width)).bind fun v =>
    if (0xD800 ≤ v && v ≤ 0xDFFF) || v > 0x10FFFF then none else some (Char.ofNat v, width + 1)

/-- The character that a backslash and these characters stand for, and how many they are. -/
def escape? : List Char → Option (Char × Nat)
  | [] => none
  | '0' :: _ => some ('\x00', 1)
  | 'a' :: _ => some ('\x07', 1)
  | 'b' :: _ => some ('\x08', 1)
  | 't' :: _ => some ('\t', 1)
  | '\t' :: _ => some ('\t', 1)
  | 'n' :: _ => some ('\n', 1)
  | 'v' :: _ => some ('\x0b', 1)
  | 'f' :: _ => some ('\x0c', 1)
  | 'r' :: _ => some ('\r', 1)
  | 'e' :: _ => some ('\x1b', 1)
  | ' ' :: _ => some (' ', 1)
  | '"' :: _ => some ('"', 1)
  | '/' :: _ => some ('/', 1)
  | '\\' :: _ => some ('\\', 1)
  | 'N' :: _ => some ('\u0085', 1)
  | '_' :: _ => some ('\u00a0', 1)
  | 'L' :: _ => some ('\u2028', 1)
  | 'P' :: _ => some ('\u2029', 1)
  | 'x' :: rest => numbered? 2 rest
  | 'u' :: rest => numbered? 4 rest
  | 'U' :: rest => numbered? 8 rest
  | _ => none

/-- The rest of a scalar in quotes; `text` is reversed. -/
def quotedScalar? (double : Bool) : Nat → Cursor → List Char → Option Scanned
  | 0, _, _ => none
  | n + 1, c, text => match c.rest with
    | [] => none
    | ch :: rest =>
      if isGap ch then match scanGap 0 (c.rest.length + 1) c ⟨[], []⟩ with
        | none => none
        | some (gap, after) =>
          if after.isDocumentMark then none
          else quotedScalar? double n after (gap.text.reverse ++ text)
      else if double then
        if ch == '"' then some ⟨text.reverse, c.next, false⟩
        else if ch == '\\' then
          if (rest.head?.map isBreak).getD false then
            match scanGap 0 (c.rest.length + 1) (c.skip 2) ⟨[], []⟩ with
            | none => none
            | some (gap, after) =>
              if after.isDocumentMark then none
              else quotedScalar? double n after (gap.breaks.reverse ++ text)
          else match escape? rest with
            | some (escaped, width) => quotedScalar? double n (c.skip (width + 1)) (escaped :: text)
            | none => none
        else quotedScalar? double n c.next (ch :: text)
      else if ch == '\'' then
        if rest.head? == some '\'' then quotedScalar? double n (c.skip 2) ('\'' :: text)
        else some ⟨text.reverse, c.next, false⟩
      else quotedScalar? double n c.next (ch :: text)

/-- What happens to the line breaks at the end of a block. -/
inductive Chomping where
  | strip | clip | keep
  deriving DecidableEq

def chomping? : Char → Option Chomping
  | '+' => some .keep
  | '-' => some .strip
  | _ => none

structure BlockHeader where
  chomping : Chomping
  /-- How much deeper than their surroundings the lines of the block stand. -/
  increment : Option Nat

/-- The indicators behind the first character of a block, in either order. -/
def blockHeader? : List Char → Option (BlockHeader × Nat)
  | a :: b :: _ =>
    match chomping? a, chomping? b with
    | some chomping, _ =>
      if b == '0' then none
      else if b.isDigit then some (⟨chomping, some (b.toNat - 48)⟩, 2)
      else some (⟨chomping, none⟩, 1)
    | none, second =>
      if a == '0' then none
      else if a.isDigit then match second with
        | some chomping => some (⟨chomping, some (a.toNat - 48)⟩, 2)
        | none => some (⟨.clip, some (a.toNat - 48)⟩, 1)
      else some (⟨.clip, none⟩, 0)
  | [a] => match chomping? a with
    | some chomping => some (⟨chomping, none⟩, 1)
    | none =>
      if a == '0' then none
      else if a.isDigit then some (⟨.clip, some (a.toNat - 48)⟩, 1)
      else some (⟨.clip, none⟩, 0)
  | [] => some (⟨.clip, none⟩, 0)

/-- Empty lines of a block, up to the column `limit` of its content, if that is known: their breaks,
the place behind them and the widest column on the way. Tabs do not indent. -/
def emptyLines? (limit : Option Nat) : Nat → Cursor → List Char → Nat →
    Option (List Char × Cursor × Nat)
  | 0, _, _, _ => none
  | n + 1, c, breaks, widest =>
    let outside (c : Cursor) : Bool := match limit with
      | none => true
      | some column => c.column < column
    match c.rest with
    | ch :: _ =>
      if ch == ' ' && outside c then emptyLines? limit n c.next breaks widest
      else
        let widest := max widest c.column
        if ch == '\t' && outside c then none
        else if isBreak ch then emptyLines? limit n c.next (breaks ++ [ch]) widest
        else some (breaks, c, widest)
    | [] => some (breaks, c, max widest c.column)

/-- The lines of a block from the cursor on, which stand at the column `indent`. `pending` is the
break of the line before and whether that line began with white space; `breaks` are those since. -/
def blockLines? (folds : Bool) (chomping : Chomping) (indent : Nat) :
    Nat → Cursor → List Char → List Char × Bool → List Char → Option Scanned
  | 0, _, _, _, _ => none
  | n + 1, c, text, pending, breaks =>
    match c.rest with
    | ch :: _ =>
      if c.column ≠ indent then finish c text pending breaks
      else
        let blank := isSpaceOrTab ch
        let joint := if folds && pending.1.head? == some '\n' && !pending.2 && !blank then
            if breaks.isEmpty then [' '] else []
          else pending.1
        let (line, after) := c.span fun ch => !isBreak ch
        match emptyLines? (some indent) (after.rest.length + 1) after.next [] 0 with
        | none => none
        | some (breaks', next, _) =>
          blockLines? folds chomping indent n next (text ++ joint ++ breaks ++ line)
            (after.rest.take 1, blank) breaks'
    | [] => finish c text pending breaks
where
  finish (c : Cursor) (text : List Char) (pending : List Char × Bool) (breaks : List Char) :
      Option Scanned :=
    let tail := match chomping with
      | .strip => []
      | .clip => pending.1
      | .keep => pending.1 ++ breaks
    some ⟨text ++ tail, c, true⟩

/-- A block behind its first character; `parent` is the column of its surroundings, or -1. -/
def blockScalar? (folds : Bool) (parent : Int) (c : Cursor) : Option Scanned := do
  let (header, width) ← blockHeader? c.rest
  let first ← (c.skip width).restOfLine?
  let limit := header.increment.map fun n => (max parent 0).toNat + n
  let (breaks, content, widest) ← emptyLines? limit (first.rest.length + 1) first [] 0
  let indent := limit.getD (max (max widest (parent + 1).toNat) 1)
  blockLines? folds header.chomping indent (content.rest.length + 1) content [] ([], false) breaks

end ClientBindings.Yaml
