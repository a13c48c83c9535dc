import Kstrl.Base.JsonLimits
import Kstrl.Base.PyText
import Mathlib.Data.Nat.Digits.Defs

/-!
# The cells of a line

`line.split(None, n)` and `int(cell)`, the way a program reads a table of columns.

* **`splitCells_cell`**: a cell behind blanks, with a blank after it, is the first cell.
-/

namespace PyText

/-! ## Cells -/

/-- `text.split(None, n)`: at most `n` cells without white space, and what is left behind blanks. -/
def splitCells : ℕ → List Char → List (List Char)
  | 0, text =>
      let rest := text.dropWhile isSpace
      if rest = [] then [] else [rest]
  | n + 1, text =>
      let rest := text.dropWhile isSpace
      if rest = [] then []
      else rest.takeWhile (fun c => !isSpace c) :: splitCells n (rest.dropWhile fun c => !isSpace c)

/-- A cell of a table: it has characters, and none is white space. -/
structure Cell where
  text : List Char
  ne_nil : text ≠ []
  solid : ∀ c ∈ text, isSpace c = false

lemma dropWhile_isSpace_blanks (n : ℕ) (rest : List Char) :
    (List.replicate n ' ' ++ rest).dropWhile isSpace = rest.dropWhile isSpace := by
  induction n with
  | zero => rfl
  | succ n ih => rw [List.replicate_succ, List.cons_append, List.dropWhile_cons_of_pos (by decide), ih]

lemma Cell.dropWhile_isSpace (cell : Cell) (rest : List Char) :
    (cell.text ++ rest).dropWhile isSpace = cell.text ++ rest := by
  obtain ⟨text, hne, hsolid⟩ := cell
  cases text with
  | nil => exact absurd rfl hne
  | cons c text =>
      rw [List.cons_append, List.dropWhile_cons_of_neg (by rw [hsolid c List.mem_cons_self]; decide)]

/-- **The first cell** of a line. -/
theorem splitCells_cell (n blanks : ℕ) (cell : Cell) {rest : List Char} (hrest : ∀ c ∈ rest.head?, isSpace c = true) :
    splitCells (n + 1) (List.replicate blanks ' ' ++ (cell.text ++ rest)) = cell.text :: splitCells n rest := by
  have hsolid : ∀ c ∈ cell.text, (!isSpace c) = true := fun c hc => by rw [cell.solid c hc]; rfl
  have hend : rest.takeWhile (fun c => !isSpace c) = [] ∧ rest.dropWhile (fun c => !isSpace c) = rest := by
    cases rest with
    | nil => exact ⟨rfl, rfl⟩
    | cons c rest =>
        have hc : isSpace c = true := hrest c rfl
        simp [hc]
  have hne : cell.text ++ rest ≠ [] := by simp [cell.ne_nil]
  rw [splitCells]
  simp only [dropWhile_isSpace_blanks, cell.dropWhile_isSpace, if_neg hne]
  rw [List.takeWhile_append_of_pos hsolid, List.dropWhile_append_of_pos hsolid, hend.1, hend.2, List.append_nil]

/-! ## Numbers -/

/-- The zeros of the scripts whose digits `int` reads. -/
def decimalZeros : List ℕ :=
  [0x30, 0x660, 0x6F0, 0x7C0, 0x966, 0x9E6, 0xA66, 0xAE6, 0xB66, 0xBE6, 0xC66, 0xCE6, 0xD66, 0xDE6, 0xE50, 0xED0,
   0xF20, 0x1040, 0x1090, 0x17E0, 0x1810, 0x1946, 0x19D0, 0x1A80, 0x1A90, 0x1B50, 0x1BB0, 0x1C40, 0x1C50, 0xA620,
   0xA8D0, 0xA900, 0xA9D0, 0xA9F0, 0xAA50, 0xABF0, 0xFF10, 0x104A0, 0x10D30, 0x11066, 0x110F0, 0x11136, 0x111D0,
   0x112F0, 0x11450, 0x114D0, 0x11650, 0x116C0, 0x11730, 0x118E0, 0x11950, 0x11C50, 0x11D50, 0x11DA0, 0x11F50,
   0x16A60, 0x16AC0, 0x16B50, 0x1D7CE, 0x1D7D8, 0x1D7E2, 0x1D7EC, 0x1D7F6, 0x1E140, 0x1E2F0, 0x1E4D0, 0x1E950,
   0x1FBF0]

/-- The value of a decimal digit of any script. -/
def decimalValue (c : Char) : Option ℕ :=
  (decimalZeros.find? fun first => first ≤ c.toNat ∧ c.toNat < first + 10).map (c.toNat - ·)

/-- Digits, with single underscores between them. -/
def decimals? : List Char → Option (List ℕ)
  | [] => none
  | [c] => (decimalValue c).map ([·])
  | c :: '_' :: rest => do
      let d ← decimalValue c
      let ds ← decimals? rest
      some (d :: ds)
  | c :: rest => do
      let d ← decimalValue c
      let ds ← decimals? rest
      some (d :: ds)

/-- `int` of digits; too many of them raise. -/
def natOf (text : List Char) : Option ℕ :=
  (decimals? text).bind fun ds =>
    if Json.maxStrDigits < ds.length then none else some (Nat.ofDigits 10 ds.reverse)

/-- `int(cell)` of a cell without white space, `none` where it raises `ValueError`. -/
def int : List Char → Option ℤ
  | '-' :: text => (natOf text).map fun n => -(n : ℤ)
  | '+' :: text => (natOf text).map fun n => (n : ℤ)
  | text => (natOf text).map fun n => (n : ℤ)

example : int ['0', '_', '7'] = some 7 ∧ int ['+', '٧'] = some 7 ∧ int ['_', '7'] = none := by decide +kernel

end PyText
