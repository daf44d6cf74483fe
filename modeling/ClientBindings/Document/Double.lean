import ClientBindings.Word

/-! Double precision numbers as their bit patterns, with the shortest decimal that reads back. A
pattern is compared exactly, so a value equals itself even when it is not a number. -/
namespace ClientBindings

/-- An IEEE 754 double, by its bits. -/
structure Double where
  bits : UInt64
  deriving DecidableEq, Repr, Inhabited

namespace Double

def ofFloat (f : Float) : Double := ⟨f.toBits⟩
def toFloat (d : Double) : Float := Float.ofBits d.bits

def isNegative (d : Double) : Bool := d.bits >>> 63 == 1
def exponentField (d : Double) : Nat := ((d.bits >>> 52) &&& 0x7ff).toNat
def fraction (d : Double) : Nat := (d.bits &&& 0xfffffffffffff).toNat
def isFinite (d : Double) : Bool := d.exponentField != 0x7ff

/-- The magnitude `m * 2 ^ q` of a finite pattern. -/
def decode (d : Double) : Nat × Int :=
  if d.exponentField = 0 then (d.fraction, -1074)
  else (d.fraction + Word.count 52, (d.exponentField : Int) - 1075)

/-- A fraction `num / den` with a positive denominator. -/
structure Ratio where
  num : Nat
  den : Nat

def Ratio.ofScaled (m : Nat) (q : Int) : Ratio :=
  if 0 ≤ q then ⟨m * Nat.pow 2 q.toNat, 1⟩ else ⟨m, Nat.pow 2 (-q).toNat⟩

/-- `num / den` over `10 ^ e`. -/
def Ratio.shifted (r : Ratio) (e : Int) : Ratio :=
  if 0 ≤ e then ⟨r.num, r.den * Nat.pow 10 e.toNat⟩ else ⟨r.num * Nat.pow 10 (-e).toNat, r.den⟩

def Ratio.le (a b : Ratio) : Bool := decide (a.num * b.den ≤ b.num * a.den)
def Ratio.lt (a b : Ratio) : Bool := decide (a.num * b.den < b.num * a.den)

/-- The end points of the numbers that round to `m * 2 ^ q`, as quarters of a unit. -/
def interval (m : Nat) (q : Int) : Ratio × Ratio :=
  let lower := if m = Word.count 52 ∧ q > -1074 then 4 * m - 1 else 4 * m - 2
  (Ratio.ofScaled lower (q - 2), Ratio.ofScaled (4 * m + 2) (q - 2))

/-- The end points belong to the interval exactly when the significand is even. -/
def within (m : Nat) (q : Int) (x : Ratio) : Bool :=
  let (lo, hi) := interval m q
  if m % 2 = 0 then lo.le x && x.le hi else lo.lt x && x.lt hi

/-- The power of ten of the leading digit of `m * 2 ^ q`. -/
def leading (m : Nat) (q : Int) : Int :=
  let r := Ratio.ofScaled m q
  let guess : Int := if 0 ≤ q then ((r.num.log2 : Int) * 30103) / 100000
    else (((m.log2 : Int) + q) * 30103) / 100000
  ([guess + 2, guess + 1, guess, guess - 1, guess - 2].find? fun e =>
    let s := r.shifted e
    decide (s.den ≤ s.num)).getD (guess - 3)

/-- A decimal of `n` digits in the interval nearest to the value, as `c * 10 ^ e`. -/
def candidate? (m : Nat) (q : Int) (n : Nat) : Option (Nat × Int) :=
  let e := leading m q - (n : Int) + 1
  let r := (Ratio.ofScaled m q).shifted e
  let down := r.num / r.den
  let value (c : Nat) : Ratio :=
    if 0 ≤ e then ⟨c * Nat.pow 10 e.toNat, 1⟩ else ⟨c, Nat.pow 10 (-e).toNat⟩
  let near := if 2 * (r.num - down * r.den) < r.den then [down, down + 1]
    else if 2 * (r.num - down * r.den) > r.den then [down + 1, down]
    else if down % 2 = 0 then [down, down + 1] else [down + 1, down]
  (near.find? fun c => c != 0 && within m q (value c)).map fun c => (c, e)

/-- The fewest digits that read back, and of these the nearest. -/
def shortest (m : Nat) (q : Int) : Nat × Int :=
  ((List.range 17).findSome? fun k => candidate? m q (k + 1)).getD (m, q)

/-- Drops zeros at the end of a decimal significand. -/
def stripZeros : Nat → Nat → Int → Nat × Int
  | 0, c, e => (c, e)
  | n + 1, c, e => if c ≠ 0 ∧ c % 10 = 0 then stripZeros n (c / 10) (e + 1) else (c, e)

/-- Positional notation for leading digits from `10 ^ -5` up to `10 ^ 15`, else an exponent. -/
def layout (c : Nat) (e : Int) : String :=
  let digits := (Nat.repr c).toList
  let count : Int := digits.length
  let point := count + e
  let zeros (n : Int) : List Char := List.replicate n.toNat '0'
  if 0 ≤ e ∧ point ≤ 16 then String.ofList (digits ++ zeros e) ++ ".0"
  else if 0 < point ∧ point ≤ 16 then
    String.ofList (digits.take point.toNat) ++ "." ++ String.ofList (digits.drop point.toNat)
  else if -5 < point ∧ point ≤ 0 then "0." ++ String.ofList (zeros (-point) ++ digits)
  else
    let mantissa := match digits with
      | [] => ""
      | [d] => String.ofList [d]
      | d :: rest => String.ofList (d :: '.' :: rest)
    mantissa ++ "e" ++ toString (point - 1)

/-- The shortest text of a finite number; none for infinities and patterns that are no number. -/
def toText? (d : Double) : Option String :=
  if !d.isFinite then none
  else
    let (m, q) := d.decode
    let sign := if d.isNegative then "-" else ""
    if m = 0 then some (sign ++ "0.0")
    else
      let (c, e) := shortest m q
      let (c, e) := stripZeros 400 c e
      some (sign ++ layout c e)

end Double

end ClientBindings
