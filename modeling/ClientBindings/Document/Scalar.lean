import ClientBindings.Document.Decoding

/-! The type of a scalar written without quotes: absent, truth value, integer, number, or else
text. Digits that begin with a superfluous zero stay text. -/
namespace ClientBindings.Document

def digitOf? (c : Char) : Option Nat :=
  if c.isDigit then some (c.toNat - 48)
  else if 'a' ≤ c && c ≤ 'z' then some (c.toNat - 87)
  else if 'A' ≤ c && c ≤ 'Z' then some (c.toNat - 55)
  else none

/-- Digits of a base, at least one. -/
def naturalIn? (base : Nat) (cs : List Char) : Option Nat :=
  if cs.isEmpty then none
  else cs.foldlM (fun n c => match digitOf? c with
    | some d => if d < base then some (n * base + d) else none
    | none => none) 0

def naturalWithSign? (base : Nat) : List Char → Option Nat
  | '+' :: cs => naturalIn? base cs
  | cs => naturalIn? base cs

def dropSign : List Char → List Char
  | '+' :: cs => cs
  | '-' :: cs => cs
  | cs => cs

/-- Several digits of which the first is a zero. -/
def isPaddedNumber (cs : List Char) : Bool :=
  match dropSign cs with
  | '0' :: d :: ds => (d :: ds).all Char.isDigit
  | _ => false

/-- An integer in base ten, or in the base that `0x`, `0o` or `0b` announces. -/
def integer? (cs : List Char) : Option Int :=
  let (negative, body) := match cs with
    | '-' :: rest => (true, rest)
    | '+' :: rest => (false, rest)
    | _ => (false, cs)
  let magnitude : Option Nat := match body with
    | '0' :: 'x' :: rest => naturalIn? 16 rest
    | '0' :: 'o' :: rest => naturalIn? 8 rest
    | '0' :: 'b' :: rest => naturalIn? 2 rest
    | _ => if isPaddedNumber cs then none else naturalIn? 10 body
  magnitude.map fun n => if negative then -(n : Int) else n

/-- Decimal digits with an optional point and exponent, rounded to the nearest number. -/
def decimal? (cs : List Char) : Option Double :=
  let (negative, body) := match cs with
    | '-' :: rest => (true, rest)
    | '+' :: rest => (false, rest)
    | _ => (false, cs)
  let whole := body.takeWhile Char.isDigit
  let rest := body.dropWhile Char.isDigit
  let (part, rest) := match rest with
    | '.' :: rest => (rest.takeWhile Char.isDigit, rest.dropWhile Char.isDigit)
    | _ => ([], rest)
  if whole.isEmpty && part.isEmpty then none
  else
    let exponent : Option Int := match rest with
      | [] => some 0
      | e :: rest => if e == 'e' || e == 'E' then match rest with
          | '-' :: ds => (naturalIn? 10 ds).map fun n => -(n : Int)
          | '+' :: ds => (naturalIn? 10 ds).map fun n => (n : Int)
          | ds => (naturalIn? 10 ds).map fun n => (n : Int)
        else none
    exponent.map fun e =>
      let digits := (naturalIn? 10 (whole ++ part)).getD 0
      let scale := e - (part.length : Int)
      let f : Float :=
        if digits = 0 then 0
        else if scale > 400 then 1.0 / 0.0
        else if scale < -(whole.length + part.length + 400 : Int) then 0
        else if 0 ≤ scale then Float.ofScientific digits false scale.toNat
        else Float.ofScientific digits true (-scale).toNat
      Double.ofFloat (if negative then -f else f)

def numberWord? (cs : List Char) : Option Double :=
  let s := String.ofList cs
  let unsigned := match cs with
    | '+' :: rest => String.ofList rest
    | _ => s
  if unsigned == ".inf" || unsigned == ".Inf" || unsigned == ".INF" then
    some (Double.ofFloat (1.0 / 0.0))
  else if s == "-.inf" || s == "-.Inf" || s == "-.INF" then some (Double.ofFloat (-1.0 / 0.0))
  else if s == ".nan" || s == ".NaN" || s == ".NAN" then some (Double.ofFloat (0.0 / 0.0))
  else match decimal? cs with
    | some d => if d.isFinite then some d else none
    | none => none

/-- What a scalar without quotes stands for; integers of two words have no value. -/
def settleScalar (s : String) : Option Document :=
  if isNullWord s then some .null
  else match boolWord? s with
    | some b => some (.bool b)
    | none => match integer? s.toList with
      | some n =>
        if Word.fitsSigned 63 n || Word.fitsUnsigned 64 n then some (.int n)
        else if Word.fitsSigned 127 n || Word.fitsUnsigned 128 n then none
        else some (settleNumber s)
      | none => some (settleNumber s)
where
  settleNumber (s : String) : Document :=
    if isPaddedNumber s.toList then .text s
    else match numberWord? s.toList with
      | some d => .float d
      | none => .text s

/-- What a scalar with a standard tag stands for. -/
def settleTagged (tag s : String) : Option Document :=
  if tag == "tag:yaml.org,2002:bool" then (boolWord? s).map .bool
  else if tag == "tag:yaml.org,2002:int" then (integer? s.toList).bind fun n =>
    if Word.fitsSigned 63 n || Word.fitsUnsigned 64 n then some (.int n) else none
  else if tag == "tag:yaml.org,2002:float" then (numberWord? s.toList).map .float
  else if tag == nullTag then if s != "" && isNullWord s then some .null else none
  else some (.text s)

mutual

/-- Settles every scalar of a document. A value with a tag of its own has no place in it. -/
def settle : Document → Option Document
  | .tagged tag (.plain s) => if (ownTag? tag).isSome then none else settleTagged tag s
  | .tagged tag (.text s) => if (ownTag? tag).isSome then none else settleTagged tag s
  | .tagged tag d => if (ownTag? tag).isSome then none else settle d
  | .unreadable => none
  | .plain s => settleScalar s
  | .list items => (settleItems items).map .list
  | .map entries => (settleEntries entries).map .map
  | .null => some .null
  | .bool b => some (.bool b)
  | .int n => some (.int n)
  | .float d => some (.float d)
  | .text s => some (.text s)

def settleItems : List Document → Option (List Document)
  | [] => some []
  | d :: ds => match settle d, settleItems ds with
    | some d, some ds => some (d :: ds)
    | _, _ => none

def settleEntries : List (String × Document) → Option (List (String × Document))
  | [] => some []
  | (key, d) :: entries => match settle d, settleEntries entries with
    | some d, some entries => some ((key, d) :: entries)
    | _, _ => none

end

end ClientBindings.Document
