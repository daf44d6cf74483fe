import ClientBindings.Artifact.Literal
import ClientBindings.Document.Json

/-! String literals in single quotes, read by the grammar of the generated code. A text that is quoted reads
back as itself unless it has the end of a line in it, which the quoting leaves as it is. -/
namespace ClientBindings.Literal

/-! ### Values -/

/-- The code units of a code point: one, or a leading and a trailing surrogate. -/
def pointUnits (n : Nat) : List Nat :=
  if n < 0x10000 then [n] else [0xD800 + (n - 0x10000) / 0x400, 0xDC00 + (n - 0x10000) % 0x400]

/-- The code units of a text. -/
def units (cs : List Char) : List Nat := cs.flatMap fun c => pointUnits c.toNat

/-- Characters are no surrogates, so the first of the units tells whether there are two. -/
theorem pointUnits_append_inj {c d : Char} {us vs : List Nat}
    (h : pointUnits c.toNat ++ us = pointUnits d.toNat ++ vs) : c = d ∧ us = vs := by
  have hvalid (c : Char) : c.toNat < 0xD800 ∨ 0xDFFF < c.toNat ∧ c.toNat < 0x110000 := c.valid
  have hc := hvalid c
  have hd := hvalid d
  unfold pointUnits at h
  split at h <;> split at h <;>
    simp only [List.cons_append, List.nil_append, List.cons.injEq] at h
  · exact ⟨Char.toNat_inj.1 h.1, h.2⟩
  · omega
  · omega
  · obtain ⟨hhigh, hlow, hrest⟩ := h
    exact ⟨Char.toNat_inj.1 (by omega), hrest⟩

theorem pointUnits_ne_nil (n : Nat) : pointUnits n ≠ [] := by
  unfold pointUnits
  split <;> simp

/-- What is written character by character can be taken apart again, if the front shows which is first. -/
theorem eq_of_flatMap_eq {α : Type} {f : Char → List α} (hne : ∀ c, f c ≠ [])
    (hinj : ∀ {c d us vs}, f c ++ us = f d ++ vs → c = d ∧ us = vs) {cs ds : List Char}
    (h : cs.flatMap f = ds.flatMap f) : cs = ds := by
  induction cs generalizing ds with
  | nil =>
    cases ds with
    | nil => rfl
    | cons d ds => exact absurd (List.append_eq_nil_iff.1 h.symm).1 (hne d)
  | cons c cs ih =>
    cases ds with
    | nil => exact absurd (List.append_eq_nil_iff.1 h).1 (hne c)
    | cons d ds =>
      obtain ⟨rfl, hrest⟩ := hinj h
      rw [ih hrest]

/-- The units of a text say which text it is. -/
theorem units_inj {cs ds : List Char} : units cs = units ds ↔ cs = ds :=
  ⟨eq_of_flatMap_eq (fun c => pointUnits_ne_nil c.toNat) pointUnits_append_inj, congrArg units⟩

/-! ### The grammar -/

def endsLine (c : Char) : Bool := c == '\n' || c == '\r' || c == '\u2028' || c == '\u2029'

/-- Editions of the grammar. In the early one the line and the paragraph separator end a line in literals
as they do elsewhere. -/
inductive Edition where
  | early | late
  deriving DecidableEq, Repr

/-- The characters that end a literal before its closing quote. -/
def Edition.bars : Edition → Char → Bool
  | .early, c => endsLine c
  | .late, c => c == '\n' || c == '\r'

/-- A text without the end of a line. -/
def Edition.Admits (e : Edition) (s : String) : Prop := ∀ c ∈ s.toList, e.bars c = false

def isHex (c : Char) : Bool := (Json.hexValue? c).isSome

/-- The character that an escape of one character stands for, most often that one itself. -/
def escaped : Char → Char
  | 'b' => '\x08'
  | 't' => '\t'
  | 'n' => '\n'
  | 'v' => '\x0b'
  | 'f' => '\x0c'
  | 'r' => '\r'
  | c => c

/-- Two hexadecimal digits. -/
def hexPair? : List Char → Option (List Nat × List Char)
  | a :: b :: rest => do
    let a ← Json.hexValue? a
    let b ← Json.hexValue? b
    pure ([a * 16 + b], rest)
  | _ => none

/-- Hexadecimal digits up to a brace. -/
def hexPoint? (cs : List Char) : Option (List Nat × List Char) :=
  let digits := cs.takeWhile isHex
  let n := digits.foldl (fun n c => n * 16 + (Json.hexValue? c).getD 0) 0
  match cs.dropWhile isHex with
  | '\x7d' :: rest => if digits.isEmpty || n > 0x10FFFF then none else some (pointUnits n, rest)
  | _ => none

/-- What stands behind a backslash. The end of a line stands for nothing there, and an octal escape for
nothing that is allowed. -/
def escape? : List Char → Option (List Nat × List Char)
  | [] => none
  | '\r' :: '\n' :: rest => some ([], rest)
  | 'x' :: rest => hexPair? rest
  | 'u' :: '\x7b' :: rest => hexPoint? rest
  | 'u' :: rest => (Json.hexUnit? rest).map fun r => ([r.1], r.2)
  | '0' :: rest => if rest.head?.any Char.isDigit then none else some ([0], rest)
  | c :: rest =>
    if endsLine c then some ([], rest)
    else if c.isDigit then none
    else some (pointUnits (escaped c).toNat, rest)

theorem length_hexPair?_le {cs rest : List Char} {us : List Nat} (h : hexPair? cs = some (us, rest)) :
    rest.length ≤ cs.length := by
  unfold hexPair? at h
  split at h
  · simp only [Option.bind_eq_bind, Option.bind_eq_some_iff] at h
    obtain ⟨_, -, _, -, h⟩ := h
    cases h
    simp only [List.length_cons]
    omega
  · cases h

theorem length_hexPoint?_le {cs rest : List Char} {us : List Nat} (h : hexPoint? cs = some (us, rest)) :
    rest.length ≤ cs.length := by
  unfold hexPoint? at h
  dsimp only at h
  split at h
  · rename_i rest' hrest
    have hlength : (cs.dropWhile isHex).length ≤ cs.length := (List.dropWhile_sublist _).length_le
    rw [hrest, List.length_cons] at hlength
    split at h
    · cases h
    · cases h
      omega
  · cases h

theorem length_hexUnit?_le {cs rest : List Char} {u : Nat} (h : Json.hexUnit? cs = some (u, rest)) :
    rest.length ≤ cs.length := by
  unfold Json.hexUnit? at h
  split at h
  · simp only [Option.bind_eq_bind, Option.bind_eq_some_iff] at h
    obtain ⟨_, -, _, -, _, -, _, -, h⟩ := h
    cases h
    simp only [List.length_cons]
    omega
  · cases h

theorem length_escape?_le {cs rest : List Char} {us : List Nat} (h : escape? cs = some (us, rest)) :
    rest.length ≤ cs.length := by
  unfold escape? at h
  split at h
  · cases h
  · cases h
    simp only [List.length_cons]
    omega
  · exact Nat.le_succ_of_le (length_hexPair?_le h)
  · exact Nat.le_succ_of_le (Nat.le_succ_of_le (length_hexPoint?_le h))
  · obtain ⟨⟨u, rest'⟩, hunit, ⟨⟩⟩ := Option.map_eq_some_iff.1 h
    exact Nat.le_succ_of_le (length_hexUnit?_le hunit)
  · split at h
    · cases h
    · cases h
      exact Nat.le_succ _
  · split at h
    · cases h
      exact Nat.le_succ _
    · split at h
      · cases h
      · cases h
        exact Nat.le_succ _

/-- The units of a literal from behind its opening quote to the closing one, with what follows that. -/
def body? (e : Edition) : List Char → Option (List Nat × List Char)
  | [] => none
  | '\'' :: rest => some ([], rest)
  | '\\' :: rest =>
    match _h : escape? rest with
    | none => none
    | some (us, after) => (body? e after).map fun r => (us ++ r.1, r.2)
  | c :: rest => if e.bars c then none else (body? e rest).map fun r => (pointUnits c.toNat ++ r.1, r.2)
  termination_by cs => cs.length
  decreasing_by
  · exact Nat.lt_succ_of_le (length_escape?_le _h)
  · exact Nat.lt_succ_self _

/-- A text is a literal of the value `s`, and nothing follows it. -/
def Denotes (e : Edition) (text s : String) : Prop :=
  ∃ cs, text.toList = '\'' :: cs ∧ body? e cs = some (units s.toList, [])

example : body? .late ("it\\'s \\x41\\u{1f600}\\\n\\t' + 1").toList =
    some (units "it's A😀\t".toList, " + 1".toList) := by
  decide +kernel

/-! ### Quoted texts -/

variable {e : Edition} {c : Char} {cs rest : List Char} {s t : String}

theorem bars_backslash (e : Edition) : e.bars '\\' = false := by cases e <;> rfl

theorem bars_quote (e : Edition) : e.bars '\'' = false := by cases e <;> rfl

theorem body?_quote (e : Edition) (rest : List Char) : body? e ('\'' :: rest) = some ([], rest) := by
  rw [body?]

theorem body?_backslash (e : Edition) (hc : escape? (c :: rest) = some (pointUnits c.toNat, rest)) :
    body? e ('\\' :: c :: rest) = (body? e rest).map fun r => (pointUnits c.toNat ++ r.1, r.2) := by
  rw [body?]
  split
  · rename_i h
    rw [hc] at h
    cases h
  · rename_i h
    rw [hc] at h
    cases h
    rfl

/-- What a character is written as is read as that character, unless it ends the line. -/
theorem body?_escapeChar (e : Edition) (c : Char) (rest : List Char) :
    body? e (escapeChar c ++ rest) =
      if e.bars c then none else (body? e rest).map fun r => (pointUnits c.toNat ++ r.1, r.2) := by
  unfold escapeChar
  -- The backslash and the quote are escaped, and neither ends a line. Any other character is itself.
  by_cases hbackslash : c = '\\'
  · subst hbackslash
    rw [if_pos rfl, bars_backslash, if_neg Bool.false_ne_true]
    exact body?_backslash e rfl
  · by_cases hquote : c = '\''
    · subst hquote
      rw [if_neg hbackslash, if_pos rfl, bars_quote, if_neg Bool.false_ne_true]
      exact body?_backslash e rfl
    · rw [if_neg hbackslash, if_neg hquote, List.singleton_append, body?]
      · exact hquote
      · exact hbackslash

theorem body?_of_admitted (h : ∀ c ∈ cs, e.bars c = false) (rest : List Char) :
    body? e (cs.flatMap escapeChar ++ '\'' :: rest) = some (units cs, rest) := by
  induction cs with
  | nil => exact body?_quote e rest
  | cons c cs ih =>
    rw [List.forall_mem_cons] at h
    rw [List.flatMap_cons, List.append_assoc, body?_escapeChar, h.1, if_neg Bool.false_ne_true, ih h.2]
    rfl

/-- A literal breaks off at the end of a line. -/
theorem body?_of_barred (hc : c ∈ cs) (h : e.bars c = true) (rest : List Char) :
    body? e (cs.flatMap escapeChar ++ rest) = none := by
  induction cs with
  | nil => cases hc
  | cons d cs ih =>
    rw [List.flatMap_cons, List.append_assoc, body?_escapeChar]
    rcases List.mem_cons.1 hc with rfl | hc
    · rw [if_pos h]
    · rw [ih hc, Option.map_none, ite_self]

theorem toList_quote (s : String) : (quote s).toList = '\'' :: (s.toList.flatMap escapeChar ++ ['\'']) := by
  simp only [quote, String.toList_append, String.toList_ofList]
  rfl

theorem exists_barred_of_not_admits (h : ¬e.Admits s) : ∃ c ∈ s.toList, e.bars c = true := by
  simpa [Edition.Admits] using h

theorem escapeChar_append_inj {c d : Char} {cs ds : List Char}
    (h : escapeChar c ++ cs = escapeChar d ++ ds) : c = d ∧ cs = ds := by
  unfold escapeChar at h
  grind

theorem escapeChar_ne_nil (c : Char) : escapeChar c ≠ [] := by
  unfold escapeChar
  grind

/-- Texts are told apart by their literals, also those that the literals do not denote. -/
theorem quote_inj : quote s = quote t ↔ s = t := by
  refine ⟨fun h => ?_, congrArg quote⟩
  have hchars : s.toList.flatMap escapeChar ++ ['\''] = t.toList.flatMap escapeChar ++ ['\''] := by
    rw [← List.cons_inj_right '\'', ← toList_quote, ← toList_quote, h]
  exact String.toList_inj.1
    (eq_of_flatMap_eq escapeChar_ne_nil escapeChar_append_inj (List.append_cancel_right hchars))

/-- The escaping takes one pass. Two come to the same, the first over the backslashes, the other over the
quotes. -/
theorem flatMap_escapeChar (cs : List Char) :
    cs.flatMap escapeChar =
      (cs.flatMap fun c => if c = '\\' then ['\\', '\\'] else [c]).flatMap fun c =>
        if c = '\'' then ['\\', '\''] else [c] := by
  rw [List.flatMap_assoc]
  congr 1
  funext c
  unfold escapeChar
  split
  · rfl
  · simp

/-- A quoted text denotes itself and nothing else, and does exactly if no line ends in it. -/
theorem denotes_quote_iff : Denotes e (quote s) t ↔ t = s ∧ e.Admits s := by
  have hbody : Denotes e (quote s) t ↔
      body? e (s.toList.flatMap escapeChar ++ ['\'']) = some (units t.toList, []) := by
    simp [Denotes, toList_quote]
  rw [hbody]
  by_cases h : e.Admits s
  · rw [body?_of_admitted h, Option.some.injEq, Prod.mk.injEq, units_inj, String.toList_inj]
    exact ⟨fun h' => ⟨h'.1.symm, h⟩, fun h' => ⟨h'.1.symm, rfl⟩⟩
  · obtain ⟨c, hc, hbars⟩ := exists_barred_of_not_admits h
    rw [body?_of_barred hc hbars]
    simp [h]

end ClientBindings.Literal
