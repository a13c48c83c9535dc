import Kstrl.Base.PyText
import Kstrl.Base.SortedSet

/-!
# Failure signatures

`kstrl/verify/failure_signatures.py`: the signature of a failed check, its name and a slug of its message with a colon
between, and the splitting of a signature at its last colon.

* **`splitSignature_signatureForError`**: a signature splits into the name and the slug it was made of, also where the
  name has colons.
-/

namespace Kstrl

namespace Verify

/-! ## Slugs -/

/-- `[a-z0-9]` -/
def isSlugChar (c : Char) : Bool := 'a' ≤ c ∧ c ≤ 'z' ∨ '0' ≤ c ∧ c ≤ '9'

/-- `re.sub(r"[^a-z0-9]+", "-", text)`, after a character that was replaced or not. -/
def dashRuns (replaced : Bool) : List Char → List Char
  | [] => []
  | c :: text =>
      if isSlugChar c then c :: dashRuns false text
      else if replaced then dashRuns true text
      else '-' :: dashRuns true text

/-- `.strip("-")` -/
def stripDashes (text : List Char) : List Char :=
  ((text.dropWhile (· = '-')).reverse.dropWhile (· = '-')).reverse

/-- `text.strip().split("\n")[0].strip()` -/
def firstLine (text : String) : String :=
  PyText.strip (String.ofList ((PyText.strip text).toList.takeWhile (· ≠ '\n')))

section

-- what the patterns for paths, line numbers, quoted names and counts leave of a text, and the lower case of one
variable (stripped lower : String → String)

/-- The slug of a failure's message. -/
def signatureSlug (text : String) : String :=
  if text = "" then ""
  else String.ofList ((stripDashes (dashRuns false (lower (firstLine (stripped text))).toList)).take 60)

/-- `slug or "failed"` -/
def signatureCode (error : String) : String :=
  if signatureSlug stripped lower error = "" then "failed" else signatureSlug stripped lower error

/-- `check_name or "unknown"` -/
def signatureName (checkName : String) : String := if checkName = "" then "unknown" else checkName

/-- The signature of a failure: its check name and a slug of its message. -/
def signatureForError (checkName error : String) : String :=
  signatureName checkName ++ ":" ++ signatureCode stripped lower error

end

/-! ## Splitting -/

/-- `text.rpartition(":")`, if there is one. -/
def rpartition? (text : List Char) : Option (List Char × List Char) :=
  match text.reverse.dropWhile (· ≠ ':') with
  | [] => none
  | _ :: before => some (before.reverse, (text.reverse.takeWhile (· ≠ ':')).reverse)

/-- Split `check:code` at the last colon. -/
def splitSignature (signature : String) : String × String :=
  match rpartition? signature.toList with
  | none => ("unknown", signature)
  | some (check, code) =>
      (if check = [] then "unknown" else String.ofList check, if code = [] then "failed" else String.ofList code)

lemma mem_stripDashes {c : Char} {text : List Char} (h : c ∈ stripDashes text) : c ∈ text := by
  have hinner := List.mem_reverse.mp ((List.dropWhile_sublist _).subset (List.mem_reverse.mp h))
  exact (List.dropWhile_sublist _).subset hinner

lemma colon_notMem_dashRuns (replaced : Bool) (text : List Char) : ':' ∉ dashRuns replaced text := by
  induction text generalizing replaced with
  | nil => exact List.not_mem_nil
  | cons c text ih =>
      rw [dashRuns]
      split_ifs with hc
      · have hne : ':' ≠ c := by
          rintro rfl
          exact absurd hc (by decide)
        exact List.not_mem_cons_of_ne_of_not_mem hne (ih false)
      · exact ih true
      · exact List.not_mem_cons_of_ne_of_not_mem (by decide) (ih true)

/-- **A slug has no colon.** -/
lemma colon_notMem_signatureSlug (stripped lower : String → String) (text : String) :
    ':' ∉ (signatureSlug stripped lower text).toList := by
  rw [signatureSlug]
  split_ifs
  · exact List.not_mem_nil
  · rw [String.toList_ofList]
    exact fun h => colon_notMem_dashRuns _ _ (mem_stripDashes (List.mem_of_mem_take h))

/-- The last colon is before a code without one. -/
lemma rpartition?_append {check code : List Char} (h : ':' ∉ code) :
    rpartition? (check ++ ':' :: code) = some (check, code) := by
  have hall : ∀ c ∈ code.reverse, decide (c ≠ ':') = true := fun c hc =>
    decide_eq_true fun he => h (he ▸ List.mem_reverse.mp hc)
  have hreverse : (check ++ ':' :: code).reverse = code.reverse ++ ':' :: check.reverse := by simp
  rw [rpartition?, hreverse, List.dropWhile_append_of_pos hall, List.takeWhile_append_of_pos hall]
  simp

lemma signatureName_ne_empty (checkName : String) : signatureName checkName ≠ "" := by
  rw [signatureName]
  split_ifs with h
  · decide
  · exact h

lemma signatureCode_ne_empty (stripped lower : String → String) (error : String) :
    signatureCode stripped lower error ≠ "" := by
  rw [signatureCode]
  split_ifs with h
  · decide
  · exact h

lemma colon_notMem_signatureCode (stripped lower : String → String) (error : String) :
    ':' ∉ (signatureCode stripped lower error).toList := by
  rw [signatureCode]
  split_ifs
  · decide
  · exact colon_notMem_signatureSlug stripped lower error

/-- **A signature splits into the name and the code it was made of.** -/
theorem splitSignature_signatureForError (stripped lower : String → String) (checkName error : String) :
    splitSignature (signatureForError stripped lower checkName error)
      = (signatureName checkName, signatureCode stripped lower error) := by
  have htext : (signatureForError stripped lower checkName error).toList
      = (signatureName checkName).toList ++ ':' :: (signatureCode stripped lower error).toList := by
    rw [signatureForError, String.toList_append, String.toList_append, List.append_assoc]
    rfl
  have hname : (signatureName checkName).toList ≠ [] := fun h =>
    signatureName_ne_empty checkName (String.toList_eq_nil_iff.mp h)
  have hcode : (signatureCode stripped lower error).toList ≠ [] := fun h =>
    signatureCode_ne_empty stripped lower error (String.toList_eq_nil_iff.mp h)
  rw [splitSignature, htext, rpartition?_append (colon_notMem_signatureCode stripped lower error)]
  simp only [hname, hcode, if_false, String.ofList_toList]

lemma signatureForError_ne_empty (stripped lower : String → String) (checkName error : String) :
    signatureForError stripped lower checkName error ≠ "" := by
  intro h
  have hlist := congrArg String.toList h
  rw [signatureForError, String.toList_append, String.toList_append] at hlist
  simp at hlist

end Verify

end Kstrl
