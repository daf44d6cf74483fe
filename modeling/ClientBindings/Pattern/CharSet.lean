import ClientBindings.Text.Category
import ClientBindings.Text.Case

/-! Sets of characters as patterns denote them. -/
namespace ClientBindings

inductive CharSet where
  /-- The characters from `first` to `last`. -/
  | range (first last : Nat)
  | category (major : Char) (minor : Option Char)
  | word
  | digit
  | blank
  | alphabetic
  | uppercase
  | lowercase
  | union (a b : CharSet)
  | inter (a b : CharSet)
  | difference (a b : CharSet)
  | complement (a : CharSet)
  /-- With every character also those that differ from it in case only. -/
  | folded (a : CharSet)
  deriving Repr, Inhabited

namespace CharSet

def none : CharSet := .range 1 0
def all : CharSet := .range 0 0x10FFFF
def single (c : Char) : CharSet := .range c.toNat c.toNat
def ofRanges (rs : List (Nat × Nat)) : CharSet :=
  rs.foldr (fun r s => .union (.range r.1 r.2) s) none

/-- Characters that share their case folding with a letter although no mapping leads to them. -/
def foldExtras : List Nat := [0xB5, 0x17F, 0x345, 0x3C2, 0x3D0, 0x3D1, 0x3D5, 0x3D6, 0x3F0, 0x3F1,
  0x3F4, 0x3F5, 0x1C80, 0x1C81, 0x1C82, 0x1C83, 0x1C84, 0x1C85, 0x1C86, 0x1C87, 0x1C88, 0x1E9B,
  0x1E9E, 0x1FBE, 0x2126, 0x212A, 0x212B]

/-- A character and those that differ from it in case only. -/
def caseVariants (c : Char) : List Char :=
  let candidates := Text.lower c ++ Text.upper c ++ (Text.upper (Text.foldCase c)) ++
    foldExtras.map Char.ofNat
  c :: candidates.filter fun d => Text.foldCase d == Text.foldCase c

def mem : CharSet → Char → Bool
  | .range first last, c => decide (first ≤ c.toNat) && decide (c.toNat ≤ last)
  | .category major minor, c =>
    let k := Text.category c
    k.major == major && (match minor with
      | Option.none => true
      | some m => k.minor == m)
  | .word, c => Text.isWord c
  | .digit, c => Text.isDigit c
  | .blank, c => Text.isBlank c
  | .alphabetic, c =>
    if c.toNat < 128 then c.isAlpha
    else
      let k := Text.category c
      k.major == 'L' || k == ⟨'N', 'l'⟩ || Text.isEnclosedLetter c
  | .uppercase, c => Text.isUpper c || (0x2160 ≤ c.toNat && c.toNat ≤ 0x216F)
  | .lowercase, c =>
    if c.toNat < 128 then c.isLower
    else
      let k := Text.category c
      k == ⟨'L', 'l'⟩ || c.toNat == 0xAA || c.toNat == 0xBA ||
        (0x2170 ≤ c.toNat && c.toNat ≤ 0x217F)
  | .union a b, c => mem a c || mem b c
  | .inter a b, c => mem a c && mem b c
  | .difference a b, c => mem a c && !mem b c
  | .complement a, c => !mem a c
  | .folded a, c => (caseVariants c).any (mem a)

/-- The ASCII classes, by their names. -/
def asciiClasses : List (String × List (Nat × Nat)) := [
  ("alnum", [(48, 57), (65, 90), (97, 122)]),
  ("alpha", [(65, 90), (97, 122)]),
  ("ascii", [(0, 127)]),
  ("blank", [(9, 9), (32, 32)]),
  ("cntrl", [(0, 31), (127, 127)]),
  ("digit", [(48, 57)]),
  ("graph", [(33, 126)]),
  ("lower", [(97, 122)]),
  ("print", [(32, 126)]),
  ("punct", [(33, 47), (58, 64), (91, 96), (123, 126)]),
  ("space", [(9, 13), (32, 32)]),
  ("upper", [(65, 90)]),
  ("word", [(48, 57), (65, 90), (95, 95), (97, 122)]),
  ("xdigit", [(48, 57), (65, 70), (97, 102)])]

def ascii (name : String) : Option CharSet := (asciiClasses.lookup name).map ofRanges

/-- General categories by their long names. -/
def categoryNames : List (String × Char × Option Char) := [
  ("letter", 'L', Option.none), ("uppercaseletter", 'L', some 'u'),
  ("lowercaseletter", 'L', some 'l'), ("titlecaseletter", 'L', some 't'),
  ("modifierletter", 'L', some 'm'), ("otherletter", 'L', some 'o'),
  ("mark", 'M', Option.none), ("nonspacingmark", 'M', some 'n'),
  ("spacingmark", 'M', some 'c'), ("enclosingmark", 'M', some 'e'),
  ("number", 'N', Option.none), ("decimalnumber", 'N', some 'd'), ("digit", 'N', some 'd'),
  ("letternumber", 'N', some 'l'), ("othernumber", 'N', some 'o'),
  ("punctuation", 'P', Option.none), ("punct", 'P', Option.none),
  ("connectorpunctuation", 'P', some 'c'), ("dashpunctuation", 'P', some 'd'),
  ("openpunctuation", 'P', some 's'), ("closepunctuation", 'P', some 'e'),
  ("initialpunctuation", 'P', some 'i'), ("finalpunctuation", 'P', some 'f'),
  ("otherpunctuation", 'P', some 'o'), ("symbol", 'S', Option.none),
  ("mathsymbol", 'S', some 'm'), ("currencysymbol", 'S', some 'c'),
  ("modifiersymbol", 'S', some 'k'), ("othersymbol", 'S', some 'o'),
  ("separator", 'Z', Option.none), ("spaceseparator", 'Z', some 's'),
  ("lineseparator", 'Z', some 'l'), ("paragraphseparator", 'Z', some 'p'),
  ("other", 'C', Option.none), ("control", 'C', some 'c'), ("cntrl", 'C', some 'c'),
  ("format", 'C', some 'f'), ("surrogate", 'C', some 's'), ("privateuse", 'C', some 'o'),
  ("unassigned", 'C', some 'n')]

def categoryCodes : List (Char × List Char) := [
  ('L', ['u', 'l', 't', 'm', 'o']), ('M', ['n', 'c', 'e']), ('N', ['d', 'l', 'o']),
  ('P', ['c', 'd', 's', 'e', 'i', 'f', 'o']), ('S', ['m', 'c', 'k', 'o']),
  ('Z', ['s', 'l', 'p']), ('C', ['c', 'f', 's', 'o', 'n'])]

/-- Some scripts. -/
def scripts : List (String × List (Nat × Nat)) := [
  ("greek", [(880, 883), (885, 887), (890, 893), (895, 895), (900, 900), (902, 902), (904, 906),
    (908, 908), (910, 929), (931, 993), (1008, 1023), (7462, 7466), (7517, 7521), (7526, 7530),
    (7615, 7615), (7936, 8190), (8486, 8486), (43877, 43877), (65856, 65934), (65952, 65952),
    (119296, 119365)]),
  ("cyrillic", [(1024, 1156), (1159, 1327), (7296, 7306), (7467, 7467), (7544, 7544),
    (11744, 11775), (42560, 42655), (65070, 65071), (122928, 122989), (123023, 123023)]),
  ("latin", [(65, 90), (97, 122), (170, 170), (186, 186), (192, 214), (216, 246), (248, 696),
    (736, 740), (7424, 7461), (7468, 7516), (7522, 7525), (7531, 7543), (7545, 7614),
    (7680, 7935), (8305, 8305), (8319, 8319), (8336, 8348), (8490, 8491), (8498, 8498),
    (8526, 8526), (8544, 8584), (11360, 11391), (42786, 42887), (42891, 42972), (42994, 43007),
    (43824, 43866), (43868, 43876), (43878, 43881), (64256, 64262), (65313, 65338),
    (65345, 65370), (67456, 67514), (122624, 122654), (122661, 122666)]),
  ("han", [(11904, 12019), (12032, 12245), (12293, 12293), (12295, 12295), (12321, 12329),
    (12344, 12347), (13312, 19903), (19968, 40959), (63744, 64109), (64112, 64217),
    (94178, 94179), (94192, 94193), (131072, 173791), (173824, 205743)]),
  ("hiragana", [(12353, 12438), (12445, 12447), (110593, 110879)]),
  ("katakana", [(12449, 12538), (12541, 12543), (12784, 12799), (13008, 13054), (13056, 13143),
    (65382, 65391), (65393, 65437)])]

/-- A property name without an initial `is`, in lower case, and without spaces, hyphens and underscores. -/
def looseName (name : List Char) : List Char :=
  let plain := match name with
    | i :: s :: rest => if i.toLower == 'i' && s.toLower == 's' then rest else name
    | _ => name
  (plain.filter fun c => c.toNat < 128 && !(c == ' ' || c == '_' || c == '-')).map Char.toLower

/-- The set of a general category, by its code or its name. -/
def ofCategory? : List Char → Option CharSet
  | [m] => (categoryCodes.find? fun e => e.1.toLower == m).map fun e => .category e.1 Option.none
  | ['l', 'c'] => some (.union (.category 'L' (some 'u'))
      (.union (.category 'L' (some 'l')) (.category 'L' (some 't'))))
  | [m, s] => (categoryCodes.find? fun e => e.1.toLower == m && e.2.contains s).map fun e =>
      .category e.1 (some s)
  | name =>
    let key := String.ofList name
    if key == "any" then some all
    else if key == "ascii" then some (.range 0 127)
    else if key == "assigned" then some (.complement (.category 'C' (some 'n')))
    else (categoryNames.lookup key).map fun e => .category e.1 e.2

def ofScript? (name : List Char) : Option CharSet :=
  (scripts.lookup (String.ofList name)).map ofRanges

/-- Properties that a character has or has not. -/
def plainProperties : List (String × CharSet) := [
  ("alphabetic", .alphabetic), ("alpha", .alphabetic), ("uppercase", .uppercase),
  ("upper", .uppercase), ("lowercase", .lowercase), ("lower", .lowercase),
  ("whitespace", .blank), ("wspace", .blank), ("space", .blank)]

/-- The set of a name by itself. -/
def ofName? (name : List Char) : Option CharSet :=
  let loose := looseName name
  (plainProperties.lookup (String.ofList loose)).or ((ofCategory? loose).or (ofScript? loose))

/-- The set of a property that has values; of these the categories and the scripts are known. -/
def ofValue? (key value : List Char) : Option CharSet :=
  let name := String.ofList (looseName key)
  if name == "gc" || name == "generalcategory" then ofCategory? (looseName value)
  else if name == "sc" || name == "script" then ofScript? (looseName value)
  else Option.none

/-- The set of a property, which is a name, or a key with the value that it has or, after an exclamation
mark, has not. -/
def ofProperty? (property : List Char) : Option CharSet :=
  let key := property.takeWhile fun c => c != '=' && c != ':'
  match property.drop key.length with
  | [] => ofName? property
  | separator :: value =>
    if separator == '=' && key.getLast? == some '!' then (ofValue? key.dropLast value).map .complement
    else ofValue? key value

end CharSet

end ClientBindings
