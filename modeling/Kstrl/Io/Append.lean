import Kstrl.Base.TornLines
import Mathlib.Data.Nat.Notation

/-!
# The terminated append

`append_terminated` of `kstrl/io/appendio.py`, which every record file is written with, and what a crash in the
middle of its one write leaves.

* **`append_lines`**: after any sequence of appends, each cut off anywhere, the lines of the file are what each
  append left of its repair row and of its record, in order.
* `repair_cut_off` is a tear that no repair row tells of.
-/

namespace Kstrl

namespace Io

open TornLines

abbrev Bytes := List UInt8

def newline : UInt8 := 10

/-- `handle_ends_without_newline`. -/
def endsWithoutNewline (file : Bytes) : Bool :=
  match file.getLast? with
  | none => false
  | some b => b ≠ newline

/-- `text.endswith("\n")` of an encoded text. -/
def endsWithNewline (text : Bytes) : Bool := text.getLast? = some newline

/-- `append_terminated`: what it writes, and whether it repaired a tear. -/
def appendTerminated (file payload repair : Bytes) : Except String (Bytes × Bool) :=
  if payload ≠ [] ∧ ¬ endsWithNewline payload then .error "append_terminated payload must end in a newline"
  else if repair ≠ [] ∧ ¬ endsWithNewline repair then .error "append_terminated repair must end in a newline"
  else if payload = [] then .ok ([], false)
  else
    let repaired := endsWithoutNewline file
    .ok ((if repaired then newline :: (repair ++ payload) else payload), repaired)

/-- One append of some records, with a repair row or a bare pad, cut off after `cut` bytes. -/
structure AppendCall where
  records : List Bytes
  repair : Option Bytes
  cut : ℕ

namespace AppendCall

variable (c : AppendCall)

/-- The file after the call. -/
def apply (file : Bytes) : Except String Bytes :=
  (appendTerminated file (encodeRows newline c.records) (encodeRows newline c.repair.toList)).map fun written =>
    file ++ written.1.take c.cut

/-- The write of the call. -/
def write : Write UInt8 := { rows := c.records, repair := c.repair.toList, cut := c.cut }

/-- There is a record, and no record and no repair row has a newline. -/
structure Clean : Prop where
  records : c.records ≠ []
  rows : ∀ row ∈ c.repair.toList ++ c.records, newline ∉ row

/-- What a call leaves of its repair row; it writes the row only behind a torn tail, whose terminator comes first. -/
def repairLeft (torn : Bool) : List Bytes := if torn then cutRows (c.cut - 1) c.repair.toList else []

/-- What a call leaves of its records. -/
def recordsLeft (torn : Bool) : List Bytes :=
  cutRows (if torn then c.cut - 1 - (encodeRows newline c.repair.toList).length else c.cut) c.records

end AppendCall

/-- The file after a sequence of calls. -/
def runCalls (file : Bytes) (calls : List AppendCall) : Except String Bytes :=
  calls.foldlM (fun file c => c.apply file) file

/-- Each call, with whether it finds a torn tail. -/
def findings : Bytes → List AppendCall → List (AppendCall × Bool)
  | _, [] => []
  | file, c :: rest => (c, endsWithoutNewline file) :: findings (c.write.apply newline file) rest

/-- The tears: a call writes something and leaves the file with a torn tail. -/
def tears : Bytes → List AppendCall → ℕ
  | _, [] => 0
  | file, c :: rest =>
      let after := c.write.apply newline file
      (if 0 < c.cut ∧ endsWithoutNewline after then 1 else 0) + tears after rest

/-! ## The lines of the file -/

lemma endsWithoutNewline_eq (file : Bytes) : endsWithoutNewline file = torn newline file := by
  unfold endsWithoutNewline torn
  cases file.getLast? <;> rfl

lemma endsWithNewline_encodeRows {rows : List Bytes} (h : rows ≠ []) :
    endsWithNewline (encodeRows newline rows) = true := by
  obtain ⟨init, last, rfl⟩ := List.eq_nil_or_concat' rows |>.resolve_left h
  simp [endsWithNewline, encodeRows]

/-- A call with records is a write to a file of rows. -/
lemma apply_eq {c : AppendCall} (h : c.records ≠ []) (file : Bytes) :
    c.apply file = .ok (c.write.apply newline file) := by
  have hpayload : ¬ (encodeRows newline c.records ≠ [] ∧ ¬ endsWithNewline (encodeRows newline c.records)) :=
    fun hbad => hbad.2 (endsWithNewline_encodeRows h)
  have hrepair : ¬ (encodeRows newline c.repair.toList ≠ [] ∧
      ¬ endsWithNewline (encodeRows newline c.repair.toList)) := by
    rintro ⟨hne, hend⟩
    refine hend (endsWithNewline_encodeRows fun hnone => hne ?_)
    rw [hnone, encodeRows_nil]
  have hne : encodeRows newline c.records ≠ [] := by
    intro hnone
    have hend := endsWithNewline_encodeRows h
    rw [hnone] at hend
    cases hend
  rw [AppendCall.apply, appendTerminated, if_neg hpayload, if_neg hrepair, if_neg hne, Write.apply, Write.payload,
    endsWithoutNewline_eq]
  simp only [Except.map, AppendCall.write, encodeRows, List.flatMap_append]

lemma write_clean {c : AppendCall} (h : c.Clean) : c.write.Clean newline := h.rows

/-- What a call leaves: of its repair row, then of its records. -/
lemma write_left (c : AppendCall) (torn : Bool) : c.write.left torn = c.repairLeft torn ++ c.recordsLeft torn := by
  unfold Write.left AppendCall.repairLeft AppendCall.recordsLeft
  cases torn with
  | false => rfl
  | true => exact cutRows_append newline _ _ _

lemma leftAll_eq (file : Bytes) (calls : List AppendCall) :
    leftAll newline file (calls.map AppendCall.write) =
      (findings file calls).flatMap fun found => found.1.repairLeft found.2 ++ found.1.recordsLeft found.2 := by
  induction calls generalizing file with
  | nil => rfl
  | cons c rest ih =>
      rw [List.map_cons, leftAll, findings, List.flatMap_cons, ih, write_left, endsWithoutNewline_eq]

lemma runCalls_eq {calls : List AppendCall} (h : ∀ c ∈ calls, c.Clean) (file : Bytes) :
    runCalls file calls = .ok (run newline file (calls.map AppendCall.write)) := by
  induction calls generalizing file with
  | nil => rfl
  | cons c rest ih =>
      rw [runCalls, List.foldlM_cons, apply_eq (h c List.mem_cons_self).records]
      exact ih (fun d hd => h d (List.mem_cons_of_mem _ hd)) _

/-! ## The repair rows -/

lemma repairLeft_length_le (c : AppendCall) (torn : Bool) :
    (c.repairLeft torn).length ≤ if torn ∧ 0 < c.cut then 1 else 0 := by
  unfold AppendCall.repairLeft
  cases torn with
  | false => simp
  | true =>
      cases hcut : c.cut with
      | zero => simp
      | succ k =>
          cases c.repair with
          | none => simp [cutRows]
          | some row => by_cases hzero : k = 0 <;> simp [cutRows, hzero]

/-- A repair row is written for a tear, and no two for one. -/
lemma repairs_le_tears (file : Bytes) (calls : List AppendCall) :
    ((findings file calls).flatMap fun found => found.1.repairLeft found.2).length ≤
      (if endsWithoutNewline file then 1 else 0) + tears file calls := by
  induction calls generalizing file with
  | nil => simp [findings]
  | cons c rest ih =>
      rw [findings, List.flatMap_cons, List.length_append, tears]
      have hrest := ih (c.write.apply newline file)
      have hrow := repairLeft_length_le c (endsWithoutNewline file)
      by_cases hcut : 0 < c.cut
      · simp only [hcut, and_true, true_and] at hrow ⊢
        omega
      · have hsame : c.write.apply newline file = file := by
          rw [Write.apply, show c.write.cut = 0 from Nat.eq_zero_of_not_pos hcut, List.take_zero, List.append_nil]
        simp only [hcut, and_false, false_and, if_false] at hrow ⊢
        rw [hsame] at hrest ⊢
        omega

/-- **The lines of a record file.**  After any sequence of appends, each cut off anywhere, they are the lines that
were there, and behind them, call by call, what the call left of its repair row and of its records; and there are
no more repair rows than tears. -/
theorem append_lines {calls : List AppendCall} (h : ∀ c ∈ calls, c.Clean) (file : Bytes) :
    ∃ after, runCalls file calls = .ok after ∧
      lines newline after = lines newline file ++
        (findings file calls).flatMap (fun found => found.1.repairLeft found.2 ++ found.1.recordsLeft found.2) ∧
      ((findings file calls).flatMap fun found => found.1.repairLeft found.2).length ≤
        (if endsWithoutNewline file then 1 else 0) + tears file calls := by
  refine ⟨_, runCalls_eq h file, ?_, repairs_le_tears file calls⟩
  rw [← leftAll_eq]
  refine lines_run ?_ file
  simp only [List.mem_map]
  rintro _ ⟨c, hc, rfl⟩
  exact write_clean (h c hc)

/-- Three appends of a two-byte record: the first is cut off after one byte, the second after the terminator it
closes that tear with, and the third is whole. -/
def cutOffRepair : List AppendCall :=
  [{ records := [[97, 98]], repair := some [82], cut := 1 },
   { records := [[99, 100]], repair := some [82], cut := 1 },
   { records := [[101, 102]], repair := some [82], cut := 3 }]

lemma cutOffRepair_clean : ∀ c ∈ cutOffRepair, c.Clean := by
  intro c hc
  simp only [cutOffRepair, List.mem_cons, List.not_mem_nil, or_false] at hc
  rcases hc with rfl | rfl | rfl <;> exact ⟨by decide, by decide⟩

/-- The first append is torn, and no repair row is on its tear. -/
theorem append_lines_cutOffRepair :
    (∀ c ∈ cutOffRepair, c.Clean) ∧
    ∃ after, runCalls [] cutOffRepair = .ok after ∧
      lines newline after = lines newline [] ++
        (findings [] cutOffRepair).flatMap (fun found => found.1.repairLeft found.2 ++ found.1.recordsLeft found.2) ∧
      ((findings [] cutOffRepair).flatMap fun found => found.1.repairLeft found.2).length ≤
        (if endsWithoutNewline [] then 1 else 0) + tears [] cutOffRepair :=
  ⟨cutOffRepair_clean, append_lines cutOffRepair_clean []⟩

/-- **A tear without its repair row**: the append that was writing the row is cut off in front of it, and the next
one finds the tail closed. -/
theorem repair_cut_off :
    (∀ c ∈ cutOffRepair, c.Clean ∧ c.repair = some [82]) ∧ tears [] cutOffRepair = 1 ∧
      runCalls [] cutOffRepair = .ok [97, 10, 101, 102, 10] ∧
      lines newline [97, 10, 101, 102, 10] = [[97], [101, 102]] := by
  refine ⟨fun c hc => ⟨cutOffRepair_clean c hc, ?_⟩, by decide, by rfl, by decide⟩
  simp only [cutOffRepair, List.mem_cons, List.not_mem_nil, or_false] at hc
  rcases hc with rfl | rfl | rfl <;> rfl

end Io

end Kstrl
