import Mathlib.Data.Int.Notation
import Mathlib.Data.List.Infix
import Mathlib.Data.Nat.Notation
import Mathlib.Tactic.Common

/-!
# Python's text operations

The few operations of `str` a program of this kind relies on, on lists of characters, with
Python's own idea of white space.
-/

namespace PyText

/-! ## Deciding a statement about the characters of a text -/

section Decide

variable {α : Type*} (p : α → Prop) [DecidablePred p]

-- Along the text: the instances for a single character would go through all of Unicode.
instance (priority := 1100) decidableForallMem (l : List α) : Decidable (∀ x, x ∈ l → p x) :=
  List.decidableBAll p l

instance (priority := 1100) decidableExistsMem (l : List α) : Decidable (∃ x, x ∈ l ∧ p x) :=
  List.decidableBEx p l

instance (priority := 1100) decidableForallSome (o : Option α) : Decidable (∀ x, x ∈ o → p x) :=
  Option.decidableForallMem o

end Decide

/-! ## The operations -/

/-- `str.isspace` of one character. -/
def isSpace (c : Char) : Bool :=
  let n := c.toNat
  (9 ≤ n && n ≤ 13) || (28 ≤ n && n ≤ 32) || n = 0x85 || n = 0xA0 || n = 0x1680 ||
    (0x2000 ≤ n && n ≤ 0x200A) || n = 0x2028 || n = 0x2029 || n = 0x202F || n = 0x205F ||
    n = 0x3000

/-- `not s.strip()`: the text has nothing but white space. -/
def isBlank (s : String) : Bool := s.toList.all isSpace

/-- `s.rstrip()`. -/
def rstrip (s : String) : String := String.ofList (s.toList.reverse.dropWhile isSpace).reverse

/-- `s.strip()`. -/
def strip (s : String) : String := String.ofList ((rstrip s).toList.dropWhile isSpace)

/-- `s[:1].isspace()`. -/
def startsWithSpace (s : String) : Bool :=
  match s.toList with
  | c :: _ => isSpace c
  | [] => false

/-- `needle in hay`. -/
def isInfix (needle hay : List Char) : Bool := hay.tails.any fun t => needle.isPrefixOf t

/-- `needle in hay` for texts. -/
def contains (hay needle : String) : Bool := isInfix needle.toList hay.toList

/-- A text between two characters that are no white space. -/
lemma strip_eq {text head tail : List Char} {c d : Char} (hfirst : text = c :: tail) (hlast : text = head ++ [d])
    (hc : isSpace c = false) (hd : isSpace d = false) : strip (String.ofList text) = String.ofList text := by
  have hright : rstrip (String.ofList text) = String.ofList text := by
    rw [rstrip, String.toList_ofList, hlast, List.reverse_append, List.reverse_singleton, List.singleton_append,
      List.dropWhile_cons_of_neg (by simp [hd]), List.reverse_cons, List.reverse_reverse]
  rw [strip, hright, String.toList_ofList, hfirst, List.dropWhile_cons_of_neg (by simp [hc])]

lemma isInfix_iff (needle hay : List Char) : isInfix needle hay = true ↔ needle <:+: hay := by
  simp only [isInfix, List.any_eq_true, List.mem_tails, List.isPrefixOf_iff_prefix]
  constructor
  · rintro ⟨t, ht, hp⟩
    exact hp.isInfix.trans ht.isInfix
  · rintro ⟨s, t, rfl⟩
    exact ⟨needle ++ t, by rw [List.append_assoc]; exact List.suffix_append _ _,
      List.prefix_append _ _⟩

/-- `str.lower` of an ASCII text. -/
def lower (s : String) : String := String.ofList (s.toList.map Char.toLower)

/-- `repr` of a string without quotes or escapes. -/
def repr (s : String) : String := "'" ++ s ++ "'"

/-! ## Numbers as text -/

lemma natText_injective {m n : ℕ} (h : m.repr = n.repr) : m = n := by
  have h := congrArg String.toList h
  rw [Nat.toList_repr, Nat.toList_repr] at h
  rw [← Nat.ofDigitChars_toDigits (b := 10) (n := m) (by omega) (by omega), h,
    Nat.ofDigitChars_toDigits (by omega) (by omega)]

lemma dash_not_mem_natText (n : ℕ) : '-' ∉ n.repr.toList := by
  rw [Nat.toList_repr]
  intro h
  have hdigit := Nat.isDigit_of_mem_toDigits (b := 10) (by omega) (by omega) h
  exact absurd hdigit (by decide)

/-- Two numbers are not written alike. -/
theorem intText_injective {a b : ℤ} (h : toString a = toString b) : a = b := by
  rw [Int.toString_eq_repr, Int.toString_eq_repr] at h
  have hsign : ∀ m n : ℕ, m.repr ≠ "-" ++ n.repr := by
    intro m n h
    refine dash_not_mem_natText m ?_
    rw [h, String.toList_append]
    simp
  cases a with
  | ofNat m =>
      cases b with
      | ofNat n => exact congrArg Int.ofNat (natText_injective h)
      | negSucc n => exact absurd h (hsign m (n + 1))
  | negSucc m =>
      cases b with
      | ofNat n => exact absurd h.symm (hsign n (m + 1))
      | negSucc n =>
          have h : "-" ++ (m + 1).repr = "-" ++ (n + 1).repr := h
          have hnat := natText_injective ((String.append_right_inj _).mp h)
          omega

end PyText
