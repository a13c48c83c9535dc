import Kstrl.Acceptance.Replay

/-!
# Disputes of a visible check

The dispute lines of a progress log (`read_dispute` and `_refusal` of `kstrl/acceptance/acceptance_record.py`), read
from its latest entry (`latest_entry` of `kstrl/verify/verify.py`).

What the patterns need of Unicode is a parameter: which characters are part of a word, which are digits, and `repr`.

* **`accepted_visible`**: a dispute that is taken names a visible check that did not pass.
-/

namespace Kstrl.Acceptance

/-- What the patterns need of Unicode. -/
structure CharTables where
  isWord : Char → Bool
  isDigit : Char → Bool
  repr : String → String

/-- Whether a character matches a letter of a pattern when case is ignored. -/
def foldsTo (letter c : Char) : Bool :=
  c = letter || c = letter.toUpper || (letter = 'i' && (c = '\u0130' || c = '\u0131')) ||
    (letter = 's' && c = '\u017f')

/-- What follows a word at the start of a text, case ignored. -/
def dropWord : List Char → List Char → Option (List Char)
  | [], text => some text
  | _ :: _, [] => none
  | letter :: word, c :: text => if foldsTo letter c then dropWord word text else none

section Patterns

variable (u : CharTables)

/-- `\b` behind a word character. -/
def endsWord : List Char → Bool
  | [] => true
  | c :: _ => !u.isWord c

/-- `_DISPUTE_WORD` -/
def disputeWord (line : List Char) : Bool :=
  match dropWord "dispute".toList (line.dropWhile fun c => PyText.isSpace c || c ∈ ['#', '*', '>', '-']) with
  | some rest => endsWord u rest
  | none => false

/-- `\d{4}-\d{2}-\d{2}` -/
def startsWithDate : List Char → Bool
  | a :: b :: c :: d :: '-' :: e :: f :: '-' :: g :: h :: _ => [a, b, c, d, e, f, g, h].all u.isDigit
  | _ => false

def startsWithBracketedDate : List Char → Bool
  | '[' :: rest => startsWithDate u rest
  | text => startsWithDate u text

def startsWithIteration (text : List Char) : Bool :=
  match dropWord "iteration".toList text with
  | some rest => endsWord u rest
  | none => false

/-- `_ITERATION_HEADING_RE` -/
def isIterationHeading : List Char → Bool
  | '#' :: '#' :: c :: rest =>
      PyText.isSpace c &&
        let text := rest.dropWhile PyText.isSpace
        startsWithBracketedDate u text || startsWithIteration u text
  | _ => false

/-- `latest_entry` -/
def latestEntry (lines : List (List Char)) : Option ℕ :=
  (lines.reverse.findIdx? (isIterationHeading u)).map fun i => lines.length - 1 - i

end Patterns

/-- The id and the cause of a line behind `Dispute: `. -/
def disputeParts (text : List Char) : Option (String × String) :=
  let isIdChar := fun c => !PyText.isSpace c && c ≠ ':'
  match text.takeWhile isIdChar, text.dropWhile isIdChar with
  | c :: id, ':' :: ' ' :: d :: cause =>
      if PyText.isSpace d then none else some (String.ofList (c :: id), String.ofList (d :: cause))
  | _, _ => none

/-- What follows a literal at the start of a text. -/
def afterLiteral (literal : String) (text : List Char) : Option (List Char) :=
  if literal.toList.isPrefixOf text then some (text.drop literal.toList.length) else none

/-- `_DISPUTE`: the id and the cause of a line in the form. -/
def disputeOf (line : List Char) : Option (String × String) :=
  ((afterLiteral "Dispute: " line).orElse fun _ => afterLiteral "- Dispute: " line).bind disputeParts

def disputeForm : String := "Dispute: <check-id>: <cause>"

/-- A progress log as it was read. -/
inductive ProgressRead where
  | missing
  | unreadable (exc : String)
  | text (s : String)

structure Progress where
  path : String
  name : String
  read : ProgressRead

structure Accepted where
  id : String
  cause : String
  deriving DecidableEq, Repr

/-- The disputes of an entry: the ones taken, and why the others were not. -/
structure Dispute where
  accepted : List Accepted := []
  rejected : List String := []
  deriving DecidableEq, Repr

section Read

variable (u : CharTables) (checks : List Check) (failing : List String)

/-- `_refusal` -/
def refusal (line : String) (found : Option (String × String)) (taken : List String) : String :=
  match found with
  | none => u.repr line ++ " is not in the form " ++ disputeForm
  | some (name, _) =>
      match checks.find? fun check => check.id = name with
      | none => name ++ " is not an acceptance check of this component"
      | some check =>
          if check.heldOut then name ++ " is held out, and only a check the engineer can see can be disputed"
          else if name ∉ failing then name ++ " passed on this head, so there is nothing to dispute"
          else if name ∈ taken then name ++ " is disputed on an earlier line"
          else ""

/-- One line of the entry. -/
def readLine (fileName : String) (d : Dispute) (numbered : List Char × ℕ) : Dispute :=
  let (line, number) := numbered
  if !disputeWord u line then d
  else
    let stripped := PyText.strip (String.ofList line)
    let found := disputeOf stripped.toList
    let reason := refusal u checks failing stripped found (d.accepted.map Accepted.id)
    if reason ≠ "" then
      { d with rejected := d.rejected ++ ["line " ++ toString number ++ " of " ++ fileName ++ ": " ++ reason] }
    else match found with
      | some (id, cause) => { d with accepted := d.accepted ++ [⟨id, PyText.strip cause⟩] }
      | none => d

/-- `read_dispute` -/
def readDispute (progress : Option Progress) : Dispute :=
  match progress with
  | none => {}
  | some progress =>
      match progress.read with
      | .missing => {}
      | .unreadable exc =>
          { rejected := ["the progress log " ++ progress.path ++ " cannot be read: " ++ exc] }
      | .text s =>
          let lines := TextLines.splitlines s.toList
          let start := (latestEntry u lines).getD 0
          ((lines.drop start).zipIdx (start + 1)).foldl (readLine u checks failing progress.name) {}

end Read

/-! ## What is taken -/

section Accepted

variable {u : CharTables} {checks : List Check} {failing : List String}

lemma refusal_eq_empty {line : String} {found : Option (String × String)} {taken : List String}
    (h : refusal u checks failing line found taken = "") :
    ∃ name cause check, found = some (name, cause) ∧ check ∈ checks ∧ check.id = name ∧ check.heldOut = false ∧
      name ∈ failing := by
  unfold refusal at h
  split at h
  · exact absurd h (append_ne_empty' (by decide))
  · rename_i name cause
    split at h
    · exact absurd h (append_ne_empty' (by decide))
    · rename_i check hfind
      split_ifs at h with hheld hfailing htaken
      · exact absurd h (append_ne_empty' (by decide))
      · exact absurd h (append_ne_empty' (by decide))
      · have hid := List.find?_some hfind
        exact ⟨name, cause, check, rfl, List.mem_of_find?_eq_some hfind, of_decide_eq_true hid,
          Bool.eq_false_iff.mpr hheld, hfailing⟩
      · exact absurd h (append_ne_empty' (by decide))

/-- A dispute that is taken names a visible check that did not pass. -/
def Dispute.Visible (checks : List Check) (failing : List String) (d : Dispute) : Prop :=
  ∀ entry ∈ d.accepted, entry.id ∈ failing ∧ ∃ check ∈ checks, check.id = entry.id ∧ check.heldOut = false

lemma readLine_visible {fileName : String} {d : Dispute} (hd : d.Visible checks failing) (numbered : List Char × ℕ) :
    (readLine u checks failing fileName d numbered).Visible checks failing := by
  unfold readLine
  dsimp only
  split_ifs with hword hreason
  · exact hd
  · exact hd
  · obtain ⟨name, cause, check, hfound, hcheck, hid, hheld, hfailing⟩ := refusal_eq_empty (not_not.mp hreason)
    rw [hfound]
    refine List.forall_mem_append.mpr ⟨hd, ?_⟩
    rintro entry hentry
    rw [List.mem_singleton.mp hentry]
    exact ⟨hfailing, check, hcheck, hid, hheld⟩

/-- **A dispute that is taken names a visible check of the component that did not pass on this head.** -/
theorem accepted_visible (progress : Option Progress) : (readDispute u checks failing progress).Visible checks failing := by
  have hnone : ∀ rejected, Dispute.Visible checks failing ⟨[], rejected⟩ := fun _ _ hentry => nomatch hentry
  unfold readDispute
  split
  · exact hnone []
  · split
    · exact hnone []
    · exact hnone _
    · exact List.foldlRecOn _ _ (hnone []) fun d hd numbered _ => readLine_visible hd numbered

end Accepted

end Kstrl.Acceptance
