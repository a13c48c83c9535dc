import Kstrl.Base.PyText
import Mathlib.Data.List.DropRight

/-!
# Texts with bytes that are not UTF-8

A program that decodes with `surrogateescape` has texts of characters and of bytes that are not UTF-8.  This
file has the operations on them and the codecs: UTF-8, Latin-1 and `unicode_escape`.

`unicode_escape` is a machine that reads one byte at a time (`Escape.step`).  Its table of the characters'
names is a parameter.
-/

namespace PyCodec

/-- A character, or a byte that is not UTF-8. -/
inductive PyChar where
  | char (c : Char)
  | byte (b : UInt8)
  deriving DecidableEq, Repr

abbrev PyStr := List PyChar

instance : LawfulBEq PyStr := inferInstance

/-- A text of characters. -/
def ofChars (chars : List Char) : PyStr := chars.map .char

def lit (s : String) : PyStr := ofChars s.toList

/-- The code point; a byte that is not UTF-8 has its own. -/
def PyChar.code : PyChar → ℕ
  | .char c => c.toNat
  | .byte b => 0xDC00 + b.toNat

/-- `str.isspace` of one character. -/
def isSpace : PyChar → Bool
  | .char c => PyText.isSpace c
  | .byte _ => false

/-- `s.rstrip()`. -/
def rstrip (s : PyStr) : PyStr := s.rdropWhile isSpace

/-- `s.strip()`. -/
def strip (s : PyStr) : PyStr := (rstrip s).dropWhile isSpace

/-- `s.removesuffix(c)`. -/
def removeLast (s : PyStr) (c : PyChar) : PyStr := if s.getLast? = some c then s.dropLast else s

/-! ## UTF-8 and Latin-1 -/

/-- `s.encode("utf-8")`. -/
def encodeUtf8 : PyStr → Option (List UInt8)
  | [] => some []
  | .char c :: rest => (encodeUtf8 rest).map (String.utf8EncodeChar c ++ ·)
  | .byte _ :: _ => none

/-- `data.decode("utf-8")`. -/
def decodeUtf8 (data : List UInt8) : Option (List Char) := data.toByteArray.utf8Decode?.map Array.toList

/-- `s.encode("latin-1")`, from the code points. -/
def encodeLatin1 (codes : List ℕ) : Option (List UInt8) :=
  if ∀ n ∈ codes, n < 256 then some (codes.map UInt8.ofNat) else none

lemma encodeUtf8_ofChars (chars : List Char) :
    encodeUtf8 (ofChars chars) = some (chars.flatMap String.utf8EncodeChar) := by
  induction chars with
  | nil => rfl
  | cons c rest ih =>
      show (encodeUtf8 (ofChars rest)).map _ = _
      rw [ih]
      rfl

lemma decodeUtf8_encode (chars : List Char) :
    decodeUtf8 (chars.flatMap String.utf8EncodeChar) = some chars := by
  have hdecode := List.utf8Decode?_utf8Encode (l := chars)
  unfold List.utf8Encode at hdecode
  rw [decodeUtf8, hdecode]
  simp

lemma encodeLatin1_bytes (data : List UInt8) : encodeLatin1 (data.map UInt8.toNat) = some data := by
  have hsmall : ∀ n ∈ data.map UInt8.toNat, n < 256 := by
    intro n hn
    obtain ⟨b, -, rfl⟩ := List.mem_map.mp hn
    exact b.toNat_lt
  rw [encodeLatin1, if_pos hsmall, List.map_map]
  congr 1
  exact List.map_id'' (fun b => by simp) data

/-! ## `unicode_escape` -/

/-- What is open between two bytes. -/
inductive Escape where
  | plain
  | slash
  | octal (value digits : ℕ)
  | hex (value owed : ℕ)
  | name (opened : Bool) (read : List UInt8)
  deriving DecidableEq, Repr

/-- The value of a hexadecimal digit. -/
def hexDigit? (b : UInt8) : Option ℕ :=
  let n := b.toNat
  if 48 ≤ n ∧ n ≤ 57 then some (n - 48)
  else if 65 ≤ n ∧ n ≤ 70 then some (n - 55)
  else if 97 ≤ n ∧ n ≤ 102 then some (n - 87)
  else none

/-- The value of an octal digit. -/
def octalDigit? (b : UInt8) : Option ℕ := if 48 ≤ b.toNat ∧ b.toNat ≤ 55 then some (b.toNat - 48) else none

/-- The escapes of one letter, by the letter's byte. -/
def letters : List (ℕ × List ℕ) :=
  [(10, []), (92, [92]), (39, [39]), (34, [34]), (98, [8]), (102, [12]), (116, [9]), (110, [10]), (114, [13]),
    (118, [11]), (97, [7])]

/-- The escapes with digits, by the letter's byte. -/
def digitEscapes : List (ℕ × Escape) :=
  [(120, .hex 0 2), (117, .hex 0 4), (85, .hex 0 8), (78, .name false [])]

/-- A byte outside an escape. -/
def stepPlain (b : UInt8) : List ℕ × Escape := if b.toNat = 92 then ([], .slash) else ([b.toNat], .plain)

variable (charNamed : List UInt8 → Option ℕ)

/-- One byte: what it adds, and what is open behind it; `none` where the codec raises. -/
def Escape.step : Escape → UInt8 → Option (List ℕ × Escape)
  | .plain, b => some (stepPlain b)
  | .slash, b =>
      match letters.lookup b.toNat, digitEscapes.lookup b.toNat, octalDigit? b with
      | some codes, _, _ => some (codes, .plain)
      | _, some escape, _ => some ([], escape)
      | _, _, some digit => some ([], .octal digit 1)
      -- an unknown escape stands for itself
      | _, _, _ => some ([92, b.toNat], .plain)
  | .octal value digits, b =>
      match octalDigit? b with
      | some digit =>
          if digits = 2 then some ([value * 8 + digit], .plain)
          else some ([], .octal (value * 8 + digit) (digits + 1))
      | none => some (value :: (stepPlain b).1, (stepPlain b).2)
  | .hex value owed, b =>
      (hexDigit? b).bind fun digit =>
        if owed = 1 then
          if value * 16 + digit ≤ 0x10FFFF then some ([value * 16 + digit], .plain) else none
        else some ([], .hex (value * 16 + digit) (owed - 1))
  | .name false _, b => if b.toNat = 123 then some ([], .name true []) else none
  | .name true read, b =>
      if b.toNat = 125 then (charNamed read).map fun code => ([code], .plain)
      else some ([], .name true (read ++ [b]))

/-- What the end of the data adds. -/
def Escape.finish : Escape → Option (List ℕ)
  | .plain => some []
  | .octal value _ => some [value]
  | _ => none

/-- `data.decode("unicode_escape")` from an open escape on, as code points. -/
def Escape.run : Escape → List UInt8 → Option (List ℕ)
  | e, [] => e.finish
  | e, b :: rest => (e.step charNamed b).bind fun next => (next.2.run rest).map (next.1 ++ ·)

/-- `data.decode("unicode_escape")`. -/
def unicodeEscape (data : List UInt8) : Option (List ℕ) := Escape.plain.run charNamed data

variable {charNamed}

lemma run_step {e e' : Escape} {b : UInt8} {out : List ℕ} (h : e.step charNamed b = some (out, e'))
    (rest : List UInt8) : e.run charNamed (b :: rest) = (e'.run charNamed rest).map (out ++ ·) := by
  rw [Escape.run, h]
  rfl

/-- A byte that is no backslash stands for itself. -/
lemma run_plain {b : UInt8} (hb : b.toNat ≠ 92) (rest : List UInt8) :
    Escape.plain.run charNamed (b :: rest) = (Escape.plain.run charNamed rest).map (b.toNat :: ·) := by
  have hstep : Escape.plain.step charNamed b = some ([b.toNat], .plain) := by
    rw [Escape.step, stepPlain, if_neg hb]
  exact run_step hstep rest

end PyCodec
