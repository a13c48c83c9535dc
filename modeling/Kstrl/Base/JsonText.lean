import Kstrl.Base.Json
import Mathlib.Data.List.DropRight
import Mathlib.Data.List.TakeWhile
import Mathlib.Data.Nat.Digits.Lemmas

/-!
# JSON as text

`json.dumps(value, indent=2)` and `json.loads` on lists of characters.

The writer escapes everything outside printable ASCII, a character beyond the basic plane as the two
halves of its surrogate pair; the reader decodes the escapes to code units and joins the halves.  A text
here has no lone surrogate, so a document with one is refused.

* `units?_escapeChar` and `number?_intText` read back what is written of a character and of a number; a `float`
  is a literal and comes back as that literal.
-/

namespace Json

/-! ## Strings -/

/-- A digit of a `\u` escape. -/
def hexDigit (n : ℕ) : Char := Nat.digitChar n

/-- A code unit as a `\u` escape. -/
def unitEscape (u : ℕ) : List Char :=
  ['\\', 'u', hexDigit (u / 4096), hexDigit (u / 256 % 16), hexDigit (u / 16 % 16), hexDigit (u % 16)]

/-- One character inside a string. -/
def escapeChar (c : Char) : List Char :=
  if c = '"' then ['\\', '"']
  else if c = '\\' then ['\\', '\\']
  else if c = '\n' then ['\\', 'n']
  else if c = '\r' then ['\\', 'r']
  else if c = '\t' then ['\\', 't']
  else if c = '\x0c' then ['\\', 'f']
  else if c = '\x08' then ['\\', 'b']
  else if 32 ≤ c.toNat ∧ c.toNat ≤ 126 then [c]
  else if c.toNat < 0x10000 then unitEscape c.toNat
  else unitEscape (0xD800 + (c.toNat - 0x10000) / 0x400) ++
    unitEscape (0xDC00 + (c.toNat - 0x10000) % 0x400)

/-- A string literal. -/
def quote (s : String) : List Char := '"' :: (s.toList.flatMap escapeChar ++ ['"'])

/-- The value of a digit of a `\u` escape. -/
def hexValue? (c : Char) : Option ℕ :=
  if '0' ≤ c ∧ c ≤ '9' then some (c.toNat - 48)
  else if 'a' ≤ c ∧ c ≤ 'f' then some (c.toNat - 87)
  else if 'A' ≤ c ∧ c ≤ 'F' then some (c.toNat - 55)
  else none

/-- The code unit of four digits. -/
def unit? (a b c d : Char) : Option ℕ := do
  let a ← hexValue? a
  let b ← hexValue? b
  let c ← hexValue? c
  let d ← hexValue? d
  some (a * 4096 + b * 256 + c * 16 + d)

/-- The character of a short escape. -/
def shortEscape? (c : Char) : Option Char :=
  if c = '"' ∨ c = '\\' ∨ c = '/' then some c
  else if c = 'n' then some '\n'
  else if c = 'r' then some '\r'
  else if c = 't' then some '\t'
  else if c = 'f' then some '\x0c'
  else if c = 'b' then some '\x08'
  else none

/-- The code units of a string behind its opening quote, and what follows the closing one. -/
def units? : List Char → Option (List ℕ × List Char)
  | [] => none
  | '"' :: rest => some ([], rest)
  | '\\' :: 'u' :: a :: b :: c :: d :: rest => do
      let u ← unit? a b c d
      let (us, rest) ← units? rest
      some (u :: us, rest)
  | '\\' :: c :: rest => do
      let c ← shortEscape? c
      let (us, rest) ← units? rest
      some (c.toNat :: us, rest)
  | c :: rest =>
      -- a control character stands in no string
      if c.toNat < 32 then none
      else do
        let (us, rest) ← units? rest
        some (c.toNat :: us, rest)

def isHigh (u : ℕ) : Bool := 0xD800 ≤ u && u < 0xDC00

def isLow (u : ℕ) : Bool := 0xDC00 ≤ u && u < 0xE000

/-- The characters of code units, each pair of halves joined. -/
def joinUnits : List ℕ → Option (List Char)
  | [] => some []
  | [u] => if isHigh u || isLow u then none else some [Char.ofNat u]
  | u :: v :: rest =>
      if isHigh u && isLow v then
        (joinUnits rest).map (Char.ofNat (0x10000 + (u - 0xD800) * 0x400 + (v - 0xDC00)) :: ·)
      else if isHigh u || isLow u then none
      else (joinUnits (v :: rest)).map (Char.ofNat u :: ·)

/-- A string literal behind its opening quote. -/
def unquote? (text : List Char) : Option (String × List Char) := do
  let (us, rest) ← units? text
  let cs ← joinUnits us
  some (String.ofList cs, rest)

/-- The code units of a character. -/
def unitsOf (c : Char) : List ℕ :=
  if c.toNat < 0x10000 then [c.toNat]
  else [0xD800 + (c.toNat - 0x10000) / 0x400, 0xDC00 + (c.toNat - 0x10000) % 0x400]

lemma hexValue?_hexDigit {n : ℕ} (h : n < 16) : hexValue? (hexDigit n) = some n := by
  have hall : ∀ n < 16, hexValue? (hexDigit n) = some n := by decide
  exact hall n h

lemma unit?_unitEscape {u : ℕ} (h : u < 0x10000) :
    unit? (hexDigit (u / 4096)) (hexDigit (u / 256 % 16)) (hexDigit (u / 16 % 16)) (hexDigit (u % 16))
      = some u := by
  unfold unit?
  rw [hexValue?_hexDigit (by omega), hexValue?_hexDigit (by omega), hexValue?_hexDigit (by omega),
    hexValue?_hexDigit (by omega)]
  show some _ = some u
  congr 1
  omega

lemma units?_unitEscape {u : ℕ} (h : u < 0x10000) (rest : List Char) :
    units? (unitEscape u ++ rest) = (units? rest).map fun p => (u :: p.1, p.2) := by
  unfold unitEscape
  simp only [List.cons_append, List.nil_append]
  rw [units?, unit?_unitEscape h]
  cases units? rest <;> rfl

/-- A short escape. -/
lemma units?_short {c d : Char} (hd : shortEscape? d = some c) (hu : d ≠ 'u') (rest : List Char) :
    units? ('\\' :: d :: rest) = (units? rest).map fun p => (c.toNat :: p.1, p.2) := by
  rw [units?.eq_4 _ _ (by rintro _ _ _ _ _ rfl; exact absurd rfl hu), hd]
  cases units? rest <;> rfl

/-- A character as it is. -/
lemma units?_raw {c : Char} (hquote : c ≠ '"') (hslash : c ≠ '\\') (h : 32 ≤ c.toNat) (rest : List Char) :
    units? (c :: rest) = (units? rest).map fun p => (c.toNat :: p.1, p.2) := by
  rw [units?.eq_5 _ _ hquote (by rintro _ _ _ _ _ rfl; exact absurd rfl hslash)
    (by rintro _ _ rfl; exact absurd rfl hslash), if_neg (by omega)]
  cases units? rest <;> rfl

lemma unitsOf_of_small {c : Char} (h : c.toNat < 0x10000) : unitsOf c = [c.toNat] := if_pos h

/-- An escaped character reads as its code units. -/
lemma units?_escapeChar (c : Char) (rest : List Char) :
    units? (escapeChar c ++ rest) = (units? rest).map fun p => (unitsOf c ++ p.1, p.2) := by
  have hshort : ∀ d : Char, shortEscape? d = some c → d ≠ 'u' → c.toNat < 0x10000 →
      units? (['\\', d] ++ rest) = (units? rest).map fun p => (unitsOf c ++ p.1, p.2) := by
    intro d hd hu hsmall
    rw [unitsOf_of_small hsmall]
    exact units?_short hd hu rest
  unfold escapeChar
  split_ifs with h1 h2 h3 h4 h5 h6 h7 h8 h9
  · exact hshort '"' (by rw [h1]; rfl) (by decide) (by rw [h1]; decide)
  · exact hshort '\\' (by rw [h2]; rfl) (by decide) (by rw [h2]; decide)
  · exact hshort 'n' (by rw [h3]; rfl) (by decide) (by rw [h3]; decide)
  · exact hshort 'r' (by rw [h4]; rfl) (by decide) (by rw [h4]; decide)
  · exact hshort 't' (by rw [h5]; rfl) (by decide) (by rw [h5]; decide)
  · exact hshort 'f' (by rw [h6]; rfl) (by decide) (by rw [h6]; decide)
  · exact hshort 'b' (by rw [h7]; rfl) (by decide) (by rw [h7]; decide)
  · rw [unitsOf_of_small (by omega)]
    exact units?_raw h1 h2 h8.1 rest
  · rw [units?_unitEscape h9, unitsOf_of_small h9]
    rfl
  · have hmax : c.toNat < 0x110000 := by
      have := c.valid
      rcases this with h | h
      · exact lt_trans h (by decide)
      · exact h.2
    rw [List.append_assoc, units?_unitEscape (by omega), units?_unitEscape (by omega), unitsOf, if_neg h9]
    cases units? rest <;> rfl

lemma not_surrogate (c : Char) : ¬ (0xD800 ≤ c.toNat ∧ c.toNat < 0xE000) := by
  rintro ⟨hlo, hhi⟩
  rcases c.valid with h | h
  · exact absurd h (not_lt.mpr hlo)
  · exact absurd h.1 (not_lt.mpr (Nat.le_of_lt_succ hhi))

/-- A character's own code point is no half. -/
lemma joinUnits_toNat (c : Char) (us : List ℕ) : joinUnits (c.toNat :: us) = (joinUnits us).map (c :: ·) := by
  have hsurrogate := not_surrogate c
  have hhigh : isHigh c.toNat = false := by
    simp only [isHigh, Bool.and_eq_false_iff, decide_eq_false_iff_not]
    omega
  have hlow : isLow c.toNat = false := by
    simp only [isLow, Bool.and_eq_false_iff, decide_eq_false_iff_not]
    omega
  cases us with
  | nil => simp [joinUnits, hhigh, hlow, Char.ofNat_toNat]
  | cons v rest => simp [joinUnits, hhigh, hlow, Char.ofNat_toNat]

/-- The code units of a character join to it. -/
lemma joinUnits_unitsOf (c : Char) (us : List ℕ) :
    joinUnits (unitsOf c ++ us) = (joinUnits us).map (c :: ·) := by
  unfold unitsOf
  split_ifs with h
  · exact joinUnits_toNat c us
  · have hmax : c.toNat < 0x110000 := by
      rcases c.valid with h | h
      · exact lt_trans h (by decide)
      · exact h.2
    have hhigh : isHigh (0xD800 + (c.toNat - 0x10000) / 0x400) = true := by
      simp only [isHigh, Bool.and_eq_true, decide_eq_true_eq]
      omega
    have hlow : isLow (0xDC00 + (c.toNat - 0x10000) % 0x400) = true := by
      simp only [isLow, Bool.and_eq_true, decide_eq_true_eq]
      omega
    have hvalue : 0x10000 + (0xD800 + (c.toNat - 0x10000) / 0x400 - 0xD800) * 0x400
        + (0xDC00 + (c.toNat - 0x10000) % 0x400 - 0xDC00) = c.toNat := by omega
    show joinUnits (_ :: _ :: us) = _
    rw [joinUnits, hhigh, hlow, hvalue, Char.ofNat_toNat]
    rfl

/-! ## Numbers -/

/-- The decimal digits of a number. -/
def natText (n : ℕ) : List Char := if n = 0 then ['0'] else (Nat.digits 10 n).reverse.map Nat.digitChar

/-- `int.__repr__`. -/
def intText (n : ℤ) : List Char := if n < 0 then '-' :: natText n.natAbs else natText n.natAbs

/-- The number of decimal digits. -/
def natValue (digits : List Char) : ℕ := Nat.ofDigits 10 (digits.reverse.map fun c => c.toNat - 48)

/-- The characters a number is made of. -/
def isNumberChar (c : Char) : Bool := c.isDigit || c ∈ ['-', '+', '.', 'e', 'E']

def isExponent : List Char → Bool
  | e :: '+' :: digits => (e = 'e' || e = 'E') && digits ≠ [] && digits.all Char.isDigit
  | e :: '-' :: digits => (e = 'e' || e = 'E') && digits ≠ [] && digits.all Char.isDigit
  | e :: digits => (e = 'e' || e = 'E') && digits ≠ [] && digits.all Char.isDigit
  | [] => false

/-- What makes a number a `float`: a fraction, an exponent or both. -/
def isFraction : List Char → Bool
  | '.' :: rest =>
      rest.takeWhile Char.isDigit ≠ [] &&
        (rest.dropWhile Char.isDigit = [] || isExponent (rest.dropWhile Char.isDigit))
  | rest => isExponent rest

/-- A number behind its sign. -/
def unsigned? (run body : List Char) (sign : ℤ) : Option Json :=
  let whole := body.takeWhile Char.isDigit
  let rest := body.dropWhile Char.isDigit
  if whole = [] ∨ (whole.head? = some '0' ∧ 1 < whole.length) then none
  else if rest = [] then some (.int (sign * natValue whole))
  else if isFraction rest then some (.float (String.ofList run))
  else none

/-- The value of a run of number characters.  What follows a value in a document is no number character,
so the longest run is the number. -/
def number? (run : List Char) : Option Json :=
  match run with
  | '-' :: body => unsigned? run body (-1)
  | body => unsigned? run body 1

lemma digitChar_toNat {n : ℕ} (h : n < 10) : (Nat.digitChar n).toNat - 48 = n := by
  have hall : ∀ n < 10, (Nat.digitChar n).toNat - 48 = n := by decide
  exact hall n h

lemma digitChar_isDigit {n : ℕ} (h : n < 10) : (Nat.digitChar n).isDigit = true := by
  have hall : ∀ n < 10, (Nat.digitChar n).isDigit = true := by decide
  exact hall n h

lemma natText_isDigit (n : ℕ) : ∀ c ∈ natText n, c.isDigit = true := by
  intro c hc
  unfold natText at hc
  split_ifs at hc with h
  · rw [List.mem_singleton.mp hc]
    decide
  · obtain ⟨d, hd, rfl⟩ := List.mem_map.mp hc
    exact digitChar_isDigit (Nat.digits_lt_base (by decide) (List.mem_reverse.mp hd))

lemma natText_ne_nil (n : ℕ) : natText n ≠ [] := by
  unfold natText
  split_ifs with h
  · exact List.cons_ne_nil _ _
  · simpa [Nat.digits_ne_nil_iff_ne_zero] using h

/-- No number but zero starts with a zero. -/
lemma natText_head (n : ℕ) : ¬ ((natText n).head? = some '0' ∧ 1 < (natText n).length) := by
  unfold natText
  split_ifs with h
  · simp
  · rintro ⟨hzero, -⟩
    have hne : Nat.digits 10 n ≠ [] := Nat.digits_ne_nil_iff_ne_zero.mpr h
    have hlast := Nat.getLast_digit_ne_zero 10 h
    rw [List.head?_map, List.head?_reverse, List.getLast?_eq_some_getLast hne, Option.map_some] at hzero
    have hlt : (Nat.digits 10 n).getLast hne < 10 :=
      Nat.digits_lt_base (by decide) (List.getLast_mem hne)
    have hall : ∀ d < 10, Nat.digitChar d = '0' → d = 0 := by decide
    exact hlast (hall _ hlt (Option.some.inj hzero))

lemma natValue_natText (n : ℕ) : natValue (natText n) = n := by
  unfold natValue natText
  split_ifs with h
  · rw [h]
    rfl
  · rw [← List.map_reverse, List.reverse_reverse, List.map_map]
    have hdigits : (Nat.digits 10 n).map ((fun c : Char => c.toNat - 48) ∘ Nat.digitChar)
        = Nat.digits 10 n := by
      conv_rhs => rw [← List.map_id (Nat.digits 10 n)]
      refine List.map_congr_left fun d hd => ?_
      exact digitChar_toNat (Nat.digits_lt_base (by decide) hd)
    rw [hdigits, Nat.ofDigits_digits]

lemma unsigned?_natText (run : List Char) (n : ℕ) (sign : ℤ) :
    unsigned? run (natText n) sign = some (.int (sign * n)) := by
  have htake : (natText n).takeWhile Char.isDigit = natText n :=
    List.takeWhile_eq_self_iff.mpr (natText_isDigit n)
  have hdrop : (natText n).dropWhile Char.isDigit = [] :=
    List.dropWhile_eq_nil_iff.mpr (natText_isDigit n)
  unfold unsigned?
  simp only [htake, hdrop, if_true]
  rw [if_neg, natValue_natText]
  rintro (h | h)
  · exact natText_ne_nil n h
  · exact natText_head n h

/-- **An integer reads back.** -/
lemma number?_intText (n : ℤ) : number? (intText n) = some (.int n) := by
  unfold intText
  split_ifs with h
  · rw [number?, unsigned?_natText]
    congr 2
    omega
  · have hfirst : ∀ body, natText n.natAbs ≠ '-' :: body := by
      intro body he
      have := natText_isDigit n.natAbs '-' (he ▸ List.mem_cons_self)
      exact absurd this (by decide)
    rw [number?.eq_2 _ hfirst, unsigned?_natText]
    congr 2
    omega

lemma intText_isNumberChar (n : ℤ) : ∀ c ∈ intText n, isNumberChar c = true := by
  intro c hc
  unfold intText at hc
  split_ifs at hc with h
  · rcases List.mem_cons.mp hc with rfl | hc
    · decide
    · simp [isNumberChar, natText_isDigit _ c hc]
  · simp [isNumberChar, natText_isDigit _ c hc]

lemma intText_ne_nil (n : ℤ) : intText n ≠ [] := by
  unfold intText
  split_ifs
  · exact List.cons_ne_nil _ _
  · exact natText_ne_nil _

/-- The texts of the numbers that are not finite, and the words. -/
def literals : List (List Char × Json) :=
  [("null".toList, .null), ("true".toList, .bool true), ("false".toList, .bool false),
    ("NaN".toList, .float "NaN"), ("Infinity".toList, .float "Infinity"),
    ("-Infinity".toList, .float "-Infinity")]

/-- A value that is a word or a number. -/
def atom? (text : List Char) : Option (Json × List Char) :=
  match literals.find? fun word => word.1.isPrefixOf text with
  | some word => some (word.2, text.drop word.1.length)
  | none => (number? (text.takeWhile isNumberChar)).map fun v => (v, text.dropWhile isNumberChar)

/-- What stands behind a number in a document. -/
def EndsNumber (rest : List Char) : Prop := ∀ c ∈ rest.head?, isNumberChar c = false

lemma takeWhile_isNumberChar {run rest : List Char} (hrun : ∀ c ∈ run, isNumberChar c = true)
    (hrest : EndsNumber rest) : (run ++ rest).takeWhile isNumberChar = run ∧
      (run ++ rest).dropWhile isNumberChar = rest := by
  rw [List.takeWhile_append_of_pos hrun, List.dropWhile_append_of_pos hrun]
  cases rest with
  | nil => simp
  | cons c rest => simp [hrest c rfl]

/-- A number starts with a digit, or with a sign and a digit. -/
lemma number?_head {run : List Char} {v : Json} (h : number? run = some v) :
    ∃ c rest, (run = c :: rest ∨ run = '-' :: c :: rest) ∧ c.isDigit = true := by
  have hbody : ∀ run body sign, unsigned? run body sign = some v → ∃ c rest, body = c :: rest ∧
      c.isDigit = true := by
    intro run body sign hv
    cases body with
    | nil => simp [unsigned?] at hv
    | cons c rest =>
        refine ⟨c, rest, rfl, ?_⟩
        by_contra hc
        simp [unsigned?, hc] at hv
  unfold number? at h
  split at h
  · next body =>
      obtain ⟨c, rest, hrun, hc⟩ := hbody _ _ _ h
      exact ⟨c, rest, Or.inr (by rw [hrun]), hc⟩
  · obtain ⟨c, rest, hrun, hc⟩ := hbody _ _ _ h
    exact ⟨c, rest, Or.inl hrun, hc⟩

/-- **A number reads back.** -/
lemma atom?_number {run rest : List Char} {v : Json} (hrun : ∀ c ∈ run, isNumberChar c = true)
    (hv : number? run = some v) (hrest : EndsNumber rest) : atom? (run ++ rest) = some (v, rest) := by
  have hfind : (literals.find? fun word => word.1.isPrefixOf (run ++ rest)) = none := by
    obtain ⟨c, tail, hc, hdigit⟩ := number?_head hv
    have hne : ∀ d ∈ ['n', 't', 'f', 'N', 'I', '-'], (d == c) = false := by
      intro d hd
      have hall : ∀ d ∈ ['n', 't', 'f', 'N', 'I', '-'], Char.isDigit d = false := by decide
      rw [beq_eq_false_iff_ne]
      rintro rfl
      rw [hall d hd] at hdigit
      cases hdigit
    rcases hc with rfl | rfl <;> simp [literals, List.isPrefixOf, hne]
  rw [atom?, hfind, (takeWhile_isNumberChar hrun hrest).1, (takeWhile_isNumberChar hrun hrest).2]
  show (number? run).map _ = _
  rw [hv]
  rfl

/-! ## Documents -/

/-- A line break and the indentation of a depth. -/
def newline (depth : ℕ) : List Char := '\n' :: List.replicate (2 * depth) ' '

mutual

/-- `json.dumps` of a value, at a depth. -/
def print (depth : ℕ) : Json → List Char
  | .null => "null".toList
  | .bool true => "true".toList
  | .bool false => "false".toList
  | .int n => intText n
  | .float text => text.toList
  | .str s => quote s
  | .arr [] => ['[', ']']
  | .arr (j :: js) =>
      '[' :: (newline (depth + 1) ++ print (depth + 1) j ++ printEntries (depth + 1) js ++
        newline depth ++ [']'])
  | .obj [] => ['\x7b', '\x7d']
  | .obj ((key, j) :: fields) =>
      '\x7b' :: (newline (depth + 1) ++ quote key ++ [':', ' '] ++ print (depth + 1) j ++
        printFields (depth + 1) fields ++ newline depth ++ ['\x7d'])

/-- The entries behind the first one. -/
def printEntries (depth : ℕ) : List Json → List Char
  | [] => []
  | j :: js => ',' :: (newline depth ++ print depth j ++ printEntries depth js)

/-- The fields behind the first one. -/
def printFields (depth : ℕ) : List (String × Json) → List Char
  | [] => []
  | (key, j) :: fields =>
      ',' :: (newline depth ++ quote key ++ [':', ' '] ++ print depth j ++ printFields depth fields)

end

/-- `json.dumps(value, indent=2)`. -/
def dumps (j : Json) : String := String.ofList (print 0 j)

def isBlank (c : Char) : Bool := c ∈ [' ', '\t', '\n', '\r']

/-- The text without the white space in front of it. -/
def skipBlank (text : List Char) : List Char := text.dropWhile isBlank

/-- `d[key] = value`. -/
def setField (key : String) (j : Json) : List (String × Json) → List (String × Json)
  | [] => [(key, j)]
  | (k, v) :: rest => if k = key then (k, j) :: rest else (k, v) :: setField key j rest

/-- The dictionary of the fields of a document. -/
def dictOf (fields : List (String × Json)) : List (String × Json) :=
  fields.foldl (fun d field => setField field.1 field.2 d) []

mutual

/-- A value; the number bounds how deep and how far the text is read. -/
def value? : ℕ → List Char → Option (Json × List Char)
  | 0, _ => none
  | n + 1, text =>
      match skipBlank text with
      | [] => none
      | c :: rest =>
          if c = '"' then (unquote? rest).map fun p => (.str p.1, p.2)
          else if c = '[' then
            match skipBlank rest with
            | [] => none
            | d :: rest =>
                if d = ']' then some (.arr [], rest)
                else do
                  let (j, rest) ← value? n (d :: rest)
                  let (js, rest) ← entries? n rest
                  some (.arr (j :: js), rest)
          else if c = '\x7b' then
            match skipBlank rest with
            | [] => none
            | d :: rest =>
                if d = '\x7d' then some (.obj [], rest)
                else do
                  let (field, rest) ← field? n (d :: rest)
                  let (fields, rest) ← fields? n rest
                  some (.obj (dictOf (field :: fields)), rest)
          else atom? (c :: rest)

/-- The entries of a list behind the first one. -/
def entries? : ℕ → List Char → Option (List Json × List Char)
  | 0, _ => none
  | n + 1, text =>
      match skipBlank text with
      | [] => none
      | c :: rest =>
          if c = ']' then some ([], rest)
          else if c = ',' then do
            let (j, rest) ← value? n rest
            let (js, rest) ← entries? n rest
            some (j :: js, rest)
          else none

/-- A field of an object. -/
def field? : ℕ → List Char → Option ((String × Json) × List Char)
  | 0, _ => none
  | n + 1, text =>
      match skipBlank text with
      | [] => none
      | c :: rest =>
          if c = '"' then do
            let (key, rest) ← unquote? rest
            match skipBlank rest with
            | [] => none
            | d :: rest =>
                if d = ':' then do
                  let (j, rest) ← value? n rest
                  some ((key, j), rest)
                else none
          else none

/-- The fields of an object behind the first one. -/
def fields? : ℕ → List Char → Option (List (String × Json) × List Char)
  | 0, _ => none
  | n + 1, text =>
      match skipBlank text with
      | [] => none
      | c :: rest =>
          if c = '\x7d' then some ([], rest)
          else if c = ',' then do
            let (field, rest) ← field? n rest
            let (fields, rest) ← fields? n rest
            some (field :: fields, rest)
          else none

end

/-- `json.loads`. -/
def loads (text : String) : Option Json :=
  match value? (text.toList.length + 1) text.toList with
  | some (j, rest) => if skipBlank rest = [] then some j else none
  | none => none

/-! ## The round trip -/

/-- Whether a value is the `float` of a text. -/
def isFloat (text : String) : Option Json → Bool
  | some (.float t) => t = text
  | _ => false

/-- The text of a `float`, as `json.dumps` writes one. -/
def FloatText (text : String) : Prop :=
  text ∈ ["NaN", "Infinity", "-Infinity"] ∨
    ((∀ c ∈ text.toList, isNumberChar c = true) ∧ isFloat text (number? text.toList) = true)

instance (text : String) : Decidable (FloatText text) := inferInstanceAs (Decidable (_ ∨ _ ∧ _))

mutual

/-- A value Python's own dictionaries, lists and numbers make. -/
def WellFormed : Json → Prop
  | .float text => FloatText text
  | .arr js => AllWellFormed js
  | .obj fields => (fields.map Prod.fst).Nodup ∧ FieldsWellFormed fields
  | _ => True

def AllWellFormed : List Json → Prop
  | [] => True
  | j :: js => WellFormed j ∧ AllWellFormed js

def FieldsWellFormed : List (String × Json) → Prop
  | [] => True
  | field :: fields => WellFormed field.2 ∧ FieldsWellFormed fields

end

lemma allWellFormed_map {α : Type*} {document : α → Json} (h : ∀ a, (document a).WellFormed) (l : List α) :
    AllWellFormed (l.map document) := by
  induction l with
  | nil => trivial
  | cons a l ih => exact ⟨h a, ih⟩

lemma strings_wellFormed (l : List String) : AllWellFormed (l.map .str) :=
  allWellFormed_map (fun s => show (str s).WellFormed from trivial) l

lemma eq_of_isFloat {text : String} {v : Option Json} (h : isFloat text v = true) :
    v = some (.float text) := by
  unfold isFloat at h
  split at h
  · next t => rw [of_decide_eq_true h]
  · cases h

end Json
