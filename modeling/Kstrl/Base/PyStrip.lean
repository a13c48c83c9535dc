import Kstrl.Base.PyText
import Mathlib.Data.List.DropRight
import Mathlib.Data.List.TakeWhile

/-!
# White space around a text

`str.strip` and `str.rstrip` on lists of characters.

* **`stripped_append`**: a part with no white space at its ends stays when the text around it is stripped.
* **`stripped_ends`**: what is left of a text has no white space at its ends.
-/

namespace PyText

/-- `text.strip()` -/
def stripped (text : List Char) : List Char := (strip (String.ofList text)).toList

lemma dropWhile_append_stop {p : Char → Bool} {a b : List Char} (h : ∀ c ∈ b.head?, p c = false) :
    (a ++ b).dropWhile p = a.dropWhile p ++ b := by
  rw [List.dropWhile_append]
  split_ifs with hempty
  · rw [List.isEmpty_iff.mp hempty, List.nil_append]
    cases b with
    | nil => rfl
    | cons c b => rw [List.dropWhile_cons_of_neg (by rw [h c rfl]; decide)]
  · rfl

/-- A text without the white space at its end. -/
def trimEnd (text : List Char) : List Char := (text.reverse.dropWhile isSpace).reverse

lemma trimEnd_append_stop {a b : List Char} (h : ∀ c ∈ a.getLast?, isSpace c = false) : trimEnd (a ++ b) = a ++ trimEnd b := by
  have hhead : ∀ c ∈ a.reverse.head?, isSpace c = false := by rwa [List.head?_reverse]
  rw [trimEnd, List.reverse_append, dropWhile_append_stop hhead, List.reverse_append, List.reverse_reverse, trimEnd]

lemma stripped_eq (text : List Char) : stripped text = (trimEnd text).dropWhile isSpace := by
  rw [stripped, strip, rstrip, String.toList_ofList, String.toList_ofList, String.toList_ofList, trimEnd]

/-- A part with no white space at its ends stays when the text around it is stripped. -/
lemma stripped_append {before core after : List Char} (hhead : ∀ c ∈ core.head?, isSpace c = false)
    (hlast : ∀ c ∈ core.getLast?, isSpace c = false) (hne : core ≠ []) :
    stripped (before ++ (core ++ after)) = before.dropWhile isSpace ++ (core ++ trimEnd after) := by
  have hlast' : ∀ c ∈ (before ++ core).getLast?, isSpace c = false := by
    rwa [List.getLast?_append_of_ne_nil _ hne]
  have hhead' : ∀ c ∈ (core ++ trimEnd after).head?, isSpace c = false := by
    rwa [List.head?_append_of_ne_nil _ hne]
  rw [stripped_eq, ← List.append_assoc, trimEnd_append_stop hlast', List.append_assoc, dropWhile_append_stop hhead']

lemma dropWhile_eq_nil_of_blank {text : List Char} (h : ∀ c ∈ text, isSpace c = true) :
    text.dropWhile isSpace = [] := List.dropWhile_eq_nil_iff.mpr h

lemma trimEnd_eq_nil_iff {text : List Char} : trimEnd text = [] ↔ ∀ c ∈ text, isSpace c = true := by
  rw [trimEnd, List.reverse_eq_nil_iff, List.dropWhile_eq_nil_iff]
  simp only [List.mem_reverse]

/-- What is left of an end ends with no white space. -/
lemma isSpace_getLast_trimEnd (text : List Char) : ∀ c ∈ (trimEnd text).getLast?, isSpace c = false := by
  intro c hc
  rw [trimEnd, List.getLast?_reverse] at hc
  have hstop := List.head?_dropWhile_not isSpace text.reverse
  rw [Option.mem_def.mp hc] at hstop
  exact hstop

lemma isSpace_head_dropWhile (text : List Char) : ∀ c ∈ (text.dropWhile isSpace).head?, isSpace c = false := by
  intro c hc
  have hstop := List.head?_dropWhile_not isSpace text
  rw [Option.mem_def.mp hc] at hstop
  exact hstop

lemma trimEnd_prefix (text : List Char) : trimEnd text <+: text := by
  rw [trimEnd, ← List.reverse_suffix, List.reverse_reverse]
  exact List.dropWhile_suffix _

lemma trimEnd_head {text : List Char} (h : ∀ c ∈ text.head?, isSpace c = false) (hne : text ≠ []) :
    (trimEnd text).head? = text.head? := by
  cases text with
  | nil => exact absurd rfl hne
  | cons c text =>
      have hkeep : trimEnd ([c] ++ text) = [c] ++ trimEnd text := trimEnd_append_stop fun d hd => h d hd
      rw [List.singleton_append, List.singleton_append] at hkeep
      rw [hkeep, List.head?_cons, List.head?_cons]

/-- A text that begins with no white space is stripped at its end. -/
lemma stripped_of_head {text : List Char} (h : ∀ c ∈ text.head?, isSpace c = false) : stripped text = trimEnd text := by
  by_cases hne : text = []
  · subst hne
    rw [stripped_eq]
    rfl
  · have hhead := trimEnd_head h hne
    rw [stripped_eq]
    cases htrim : trimEnd text with
    | nil => rfl
    | cons c rest => exact List.dropWhile_cons_of_neg (by rw [h c (by rw [← hhead, htrim]; rfl)]; decide)

/-- A text without white space at its ends. -/
structure Trimmed (text : List Char) : Prop where
  head : ∀ c ∈ text.head?, isSpace c = false
  last : ∀ c ∈ text.getLast?, isSpace c = false

/-- **What is left of a text** has no white space at its ends. -/
theorem stripped_ends (text : List Char) : Trimmed (stripped text) where
  head := by
    rw [stripped_eq]
    exact isSpace_head_dropWhile _
  last := by
    rw [stripped_eq]
    intro c hc
    refine isSpace_getLast_trimEnd text c ?_
    have hsuffix := List.dropWhile_suffix (l := trimEnd text) isSpace
    cases hdrop : (trimEnd text).dropWhile isSpace with
    | nil => rw [hdrop] at hc; cases hc
    | cons d rest =>
        obtain ⟨front, hfront⟩ := hsuffix
        rw [← hfront, List.getLast?_append_of_ne_nil _ (by rw [hdrop]; exact List.cons_ne_nil _ _)]
        exact hc

lemma Trimmed.trimEnd_eq {text : List Char} (h : Trimmed text) : trimEnd text = text := by
  have hkeep : trimEnd (text ++ []) = text ++ trimEnd [] := trimEnd_append_stop h.last
  simpa [trimEnd] using hkeep

end PyText
