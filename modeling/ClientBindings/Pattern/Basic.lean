import ClientBindings.Pattern.CharSet

/-! Patterns over texts. A pattern is read as the relation between the positions of a text where a
match can begin and where it can end; greed and groups do not matter for it. -/
namespace ClientBindings

inductive Pattern where
  | empty
  | char (set : CharSet)
  | textStart
  | textEnd
  | lineStart
  | lineEnd
  /-- Between a word character and another; the sets tell which are word characters. -/
  | boundary (words : CharSet)
  | noBoundary (words : CharSet)
  | wordStart (words : CharSet)
  | wordEnd (words : CharSet)
  | seq (a b : Pattern)
  | alt (a b : Pattern)
  /-- At least `least` and at most `most` times, if there is a bound. -/
  | repeated (least : Nat) (most : Option Nat) (a : Pattern)
  deriving Repr, Inhabited

namespace Pattern

/-- Adds the positions of `more` that are not there yet. -/
def merge (positions more : List Nat) : List Nat :=
  more.foldl (fun ps p => if ps.contains p then ps else ps ++ [p]) positions

/-- The positions that one step from each of `positions` leads to. -/
def stepAll (step : Nat → List Nat) (positions : List Nat) : List Nat :=
  positions.foldl (fun ps p => merge ps (step p)) []

/-- Applies a step a fixed number of times. -/
def iterate (step : Nat → List Nat) : Nat → List Nat → List Nat
  | 0, ps => ps
  | n + 1, ps => iterate step n (stepAll step ps)

/-- Applies a step at most that many times and keeps every position on the way. -/
def upTo (step : Nat → List Nat) : Nat → List Nat → List Nat
  | 0, ps => ps
  | n + 1, ps =>
    let next := merge ps (stepAll step ps)
    if next.length = ps.length then ps else upTo step n next

def isMember (set : CharSet) (c : Option Char) : Bool := (c.map fun c => set.mem c).getD false

/-- The positions where a match that begins at `i` can end. -/
def ends (text : Array Char) : Pattern → Nat → List Nat
  | .empty, i => [i]
  | .char set, i => if isMember set text[i]? then [i + 1] else []
  | .textStart, i => if i = 0 then [i] else []
  | .textEnd, i => if i = text.size then [i] else []
  | .lineStart, i => if i = 0 ∨ text[i - 1]? = some '\n' then [i] else []
  | .lineEnd, i => if i = text.size ∨ text[i]? = some '\n' then [i] else []
  | .boundary words, i => if before text words i != isMember words text[i]? then [i] else []
  | .noBoundary words, i => if before text words i == isMember words text[i]? then [i] else []
  | .wordStart words, i => if !before text words i && isMember words text[i]? then [i] else []
  | .wordEnd words, i => if before text words i && !isMember words text[i]? then [i] else []
  | .seq a b, i => stepAll (ends text b) (ends text a i)
  | .alt a b, i => merge (ends text a i) (ends text b i)
  | .repeated least most a, i =>
    let start := iterate (ends text a) least [i]
    upTo (ends text a) ((most.map (· - least)).getD (text.size + 1)) start
where
  before (text : Array Char) (words : CharSet) (i : Nat) : Bool :=
    i != 0 && isMember words text[i - 1]?

/-- Whether a match begins at some position of the text. -/
def matchesText (p : Pattern) (s : String) : Bool :=
  let text := s.toList.toArray
  (List.range (text.size + 1)).any fun i => !(ends text p i).isEmpty

end Pattern

end ClientBindings
