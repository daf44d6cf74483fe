import ClientBindings.Document.Yaml.Node

/-! YAML text: one document, in block and flow style. -/
namespace ClientBindings.Yaml

/-- Characters that a text may hold. -/
def isPrintable (c : Char) : Bool :=
  let n := c.toNat
  n == 9 || n == 10 || n == 13 || (32 ≤ n && n ≤ 126) || n == 133 || (160 ≤ n && n ≤ 0xFFFD) ||
    0x10000 ≤ n

/-- Carriage returns and next-line characters become newlines. -/
def unifyBreaks : List Char → List Char
  | [] => []
  | '\r' :: '\n' :: rest => '\n' :: unifyBreaks rest
  | '\r' :: rest => '\n' :: unifyBreaks rest
  | '\u0085' :: rest => '\n' :: unifyBreaks rest
  | c :: rest => c :: unifyBreaks rest

/-- Drops the mark that may stand before a text. -/
def dropByteMark : List Char → List Char
  | '\ufeff' :: rest => rest
  | cs => cs

/-- Reads a text with one document. -/
def read? (s : String) : Option Document :=
  if s.toList.all isPrintable then (tokens? (unifyBreaks (dropByteMark s.toList))).bind document?
  else none

end ClientBindings.Yaml
