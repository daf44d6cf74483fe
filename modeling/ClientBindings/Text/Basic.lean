import ClientBindings.Text.Category

/-! Elementary operations on texts, stated on lists of characters. -/
namespace ClientBindings.Text

/-- Drops white space at both ends. -/
def trimChars (cs : List Char) : List Char :=
  ((cs.dropWhile isBlank).reverse.dropWhile isBlank).reverse

def trim (s : String) : String := String.ofList (trimChars s.toList)

/-- Nothing but white space. -/
def isBlankText (s : String) : Bool := s.toList.all isBlank

/-- The pieces between the characters that `sep` accepts: one more than there are separators. -/
def splitChars (sep : Char → Bool) : List Char → List (List Char)
  | [] => [[]]
  | c :: cs =>
    if sep c then [] :: splitChars sep cs
    else match splitChars sep cs with
      | [] => [[c]]
      | piece :: pieces => (c :: piece) :: pieces

def split (sep : Char → Bool) (s : String) : List String :=
  (splitChars sep s.toList).map String.ofList

/-- The part after the last separator, or all of it. -/
def afterLast (sep : Char → Bool) (s : String) : String :=
  String.ofList (s.toList.reverse.takeWhile fun c => !sep c).reverse

/-- The part before the last separator, if there is one. -/
def beforeLast? (sep : Char → Bool) (s : String) : Option String :=
  match s.toList.reverse.dropWhile fun c => !sep c with
  | [] => none
  | _ :: rest => some (String.ofList rest.reverse)

/-- What is left of `cs` after `start`, if it begins so. -/
def stripStart? : List Char → List Char → Option (List Char)
  | [], cs => some cs
  | _ :: _, [] => none
  | a :: start, c :: cs => if a = c then stripStart? start cs else none

def startsWith (start s : String) : Bool := (stripStart? start.toList s.toList).isSome

def endsWith (tail s : String) : Bool :=
  (stripStart? tail.toList.reverse s.toList.reverse).isSome

/-- What is left of `s` before `tail`, if it ends so. -/
def stripEnd? (tail s : String) : Option String :=
  (stripStart? tail.toList.reverse s.toList.reverse).map fun r => String.ofList r.reverse

/-- Appends `tail` unless the text ends with it already. -/
def endingWith (s tail : String) : String := if endsWith tail s then s else s ++ tail

def join (sep : String) : List String → String
  | [] => ""
  | [s] => s
  | s :: rest => s ++ sep ++ join sep rest

end ClientBindings.Text
