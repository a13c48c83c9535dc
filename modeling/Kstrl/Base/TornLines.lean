import Mathlib.Data.List.Basic
import Mathlib.Tactic.Common

/-!
# Lines that a crash can tear

A file of rows, each followed by a terminator `nl`, over any type of bytes.  An append is one write, and a crash
cuts it off anywhere.  An append that finds a tail without its terminator writes the terminator first, and rows
of its own (`repair`) in front of what it was asked to write.

* **`lines`** are the pieces between terminators; nothing stands behind the last one.
* **`cutRows`** is what a write leaves: whole rows, and of the row the cut fell in what was written of it.
* **`lines_append`**: an append leaves the lines that are there, and puts what it left of its rows behind them.
* **`lines_run`** says so of every sequence of appends.
* **`splitOn_take`** is a row of fields that was cut off: the fields in front of the cut, and what was written of the
  one the cut fell in.
-/

namespace TornLines

variable {α : Type*} [DecidableEq α] (nl : α)

/-- The pieces between the terminators; the last one counts where it is not empty. -/
def lines (file : List α) : List (List α) :=
  let parts := file.splitOn nl
  if parts.getLast? = some [] then parts.dropLast else parts

/-- The file has a tail without its terminator. -/
def torn (file : List α) : Bool := file.getLast?.any fun b => b ≠ nl

/-- Rows, each with its terminator. -/
def encodeRows (rows : List (List α)) : List α := rows.flatMap fun row => row ++ [nl]

/-- A write: the rows, the rows of the repair, and how many bytes are written before the crash. -/
structure Write (α : Type*) where
  rows : List (List α)
  repair : List (List α)
  cut : ℕ

namespace Write

variable (a : Write α) (file : List α)

/-- What the append writes. -/
def payload : List α :=
  if torn nl file then nl :: encodeRows nl (a.repair ++ a.rows) else encodeRows nl a.rows

/-- The file after it. -/
def apply : List α := file ++ (a.payload nl file).take a.cut

/-- No row and no row of the repair has a terminator in it. -/
def Clean : Prop := ∀ row ∈ a.repair ++ a.rows, nl ∉ row

end Write

/-- The file after a sequence of appends. -/
def run (file : List α) (appends : List (Write α)) : List α :=
  appends.foldl (fun file a => a.apply nl file) file

/-! ## Lines -/

variable {nl} {file : List α}

@[simp] lemma lines_nil : lines nl ([] : List α) = [] := rfl

/-- A row, and the rows behind it. -/
lemma lines_row {row : List α} (h : nl ∉ row) (rest : List α) : lines nl (row ++ nl :: rest) = row :: lines nl rest := by
  unfold lines
  dsimp only
  rw [List.splitOn_append_cons_self_of_not_mem h]
  obtain ⟨part, parts, hparts⟩ := List.exists_cons_of_ne_nil (List.splitOn_ne_nil nl rest)
  rw [hparts, List.getLast?_cons_cons]
  by_cases hlast : (part :: parts).getLast? = some []
  · rw [if_pos hlast, if_pos hlast]
    rfl
  · rw [if_neg hlast, if_neg hlast]

/-- A tail that is not empty. -/
lemma lines_tail {row : List α} (h : nl ∉ row) (hne : row ≠ []) : lines nl row = [row] := by
  unfold lines
  dsimp only
  rw [List.splitOn_eq_singleton h, if_neg]
  simpa using hne

variable (nl) in
/-- Every file is a tail without terminators, or a row with a file behind it. -/
lemma rows_induction {P : List α → Prop} (tail : ∀ row, nl ∉ row → P row)
    (cons : ∀ row rest, nl ∉ row → P rest → P (row ++ nl :: rest)) : ∀ file, P file := by
  intro file
  induction hn : file.length using Nat.strongRecOn generalizing file with
  | ind n ih =>
      by_cases hmem : nl ∈ file
      · obtain ⟨row, rest, rfl, hrow⟩ := List.eq_append_cons_of_mem hmem
        refine cons row rest hrow (ih rest.length ?_ rest rfl)
        rw [← hn, List.length_append, List.length_cons]
        omega
      · exact tail file hmem

@[simp] lemma torn_nil : torn nl ([] : List α) = false := rfl

lemma torn_row (row rest : List α) : torn nl (row ++ nl :: rest) = torn nl rest := by
  unfold torn
  rw [List.getLast?_append_of_ne_nil _ (List.cons_ne_nil _ _)]
  cases rest with
  | nil => simp
  | cons b rest => rw [List.getLast?_cons_cons]

lemma torn_tail {row : List α} (h : nl ∉ row) : torn nl row = true ↔ row ≠ [] := by
  unfold torn
  cases hlast : row.getLast? with
  | none => simpa using hlast
  | some b =>
      have hb : b ∈ row := List.mem_of_getLast? hlast
      have hne : b ≠ nl := fun hsame => h (hsame ▸ hb)
      simpa [hne] using List.ne_nil_of_mem hb

/-- **A file whose tail has its terminator**, or is empty, takes more rows behind it. -/
lemma lines_append_of_not_torn (h : torn nl file = false) (rest : List α) :
    lines nl (file ++ rest) = lines nl file ++ lines nl rest := by
  induction file using rows_induction nl with
  | tail row hrow =>
      have hempty : row = [] := by
        by_contra hne
        rw [(torn_tail hrow).mpr hne] at h
        cases h
      rw [hempty]
      rfl
  | cons row file hrow ih =>
      rw [torn_row] at h
      rw [List.append_assoc, List.cons_append, lines_row hrow, lines_row hrow, ih h, List.cons_append]

/-- **A terminator closes the tail** of a file. -/
lemma lines_close (h : torn nl file = true) (rest : List α) :
    lines nl (file ++ nl :: rest) = lines nl file ++ lines nl rest := by
  induction file using rows_induction nl with
  | tail row hrow => rw [lines_row hrow, lines_tail hrow ((torn_tail hrow).mp h), List.singleton_append]
  | cons row file hrow ih =>
      rw [torn_row] at h
      rw [List.append_assoc, List.cons_append, lines_row hrow, lines_row hrow, ih h, List.cons_append]

/-! ## What a write leaves -/

/-- What the first `k` bytes of a write leave of its rows: of every row that a byte was written of, its terminator
counted, what was written of it. -/
def cutRows : ℕ → List (List α) → List (List α)
  | _, [] => []
  | k, row :: rest => if k = 0 then [] else row.take k :: cutRows (k - (row.length + 1)) rest

omit [DecidableEq α] in
@[simp] lemma cutRows_zero (rows : List (List α)) : cutRows 0 rows = [] := by
  cases rows <;> rfl

omit [DecidableEq α] in
@[simp] lemma encodeRows_nil : encodeRows nl ([] : List (List α)) = [] := rfl

omit [DecidableEq α] in
lemma encodeRows_cons (row : List α) (rows : List (List α)) :
    encodeRows nl (row :: rows) = row ++ nl :: encodeRows nl rows := by
  simp [encodeRows]

lemma lines_take_encodeRows {rows : List (List α)} (h : ∀ row ∈ rows, nl ∉ row) (k : ℕ) :
    lines nl ((encodeRows nl rows).take k) = cutRows k rows := by
  induction rows generalizing k with
  | nil => simp [cutRows]
  | cons row rest ih =>
      have hrow : nl ∉ row := h row List.mem_cons_self
      rw [encodeRows_cons, cutRows]
      by_cases hzero : k = 0
      · rw [if_pos hzero, hzero, List.take_zero, lines_nil]
      rw [if_neg hzero]
      by_cases hshort : k ≤ row.length
      · have hrest : k - (row.length + 1) = 0 := by omega
        rw [List.take_append_of_le_length hshort, hrest, cutRows_zero]
        refine lines_tail (fun hmem => hrow (List.mem_of_mem_take hmem)) ?_
        rw [ne_eq, List.take_eq_nil_iff]
        rintro (hk | rfl)
        · exact hzero hk
        · exact hzero (Nat.le_zero.mp hshort)
      · obtain ⟨j, rfl⟩ : ∃ j, k = row.length + (j + 1) := ⟨k - row.length - 1, by omega⟩
        have hrest : row.length + (j + 1) - (row.length + 1) = j := by omega
        rw [List.take_length_add_append, List.take_succ_cons, lines_row hrow,
          ih (fun r hr => h r (List.mem_cons_of_mem _ hr)), hrest, List.take_of_length_le (by omega)]

omit [DecidableEq α] in
/-- A write of two groups of rows. -/
lemma cutRows_append (nl : α) (k : ℕ) (rows rest : List (List α)) :
    cutRows k (rows ++ rest) = cutRows k rows ++ cutRows (k - (encodeRows nl rows).length) rest := by
  induction rows generalizing k with
  | nil => simp [cutRows]
  | cons row rows ih =>
      rw [List.cons_append, cutRows, cutRows, encodeRows_cons]
      by_cases hzero : k = 0
      · simp [hzero]
      · rw [if_neg hzero, if_neg hzero, ih, List.cons_append, Nat.sub_sub]
        congr 3
        simp
        omega

/-- What an append leaves of its rows, with the rows of the repair in front where there is a torn tail; the
first byte closes the tail. -/
def Write.left (a : Write α) (tail : Bool) : List (List α) :=
  if tail then cutRows (a.cut - 1) (a.repair ++ a.rows) else cutRows a.cut a.rows

/-- **One append.** -/
theorem lines_append {a : Write α} (h : a.Clean nl) (file : List α) :
    lines nl (a.apply nl file) = lines nl file ++ a.left (torn nl file) := by
  unfold Write.apply Write.payload Write.left
  cases htorn : torn nl file with
  | false =>
      rw [if_neg Bool.false_ne_true, if_neg Bool.false_ne_true, lines_append_of_not_torn htorn,
        lines_take_encodeRows fun row hrow => h row (List.mem_append_right _ hrow)]
  | true =>
      rw [if_pos rfl, if_pos rfl]
      cases hcut : a.cut with
      | zero => rw [List.take_zero, Nat.zero_sub, cutRows_zero, List.append_nil, List.append_nil]
      | succ k => rw [List.take_succ_cons, lines_close htorn, lines_take_encodeRows h, Nat.add_sub_cancel]

variable (nl) in
/-- What a sequence of appends leaves of their rows. -/
def leftAll : List α → List (Write α) → List (List α)
  | _, [] => []
  | file, a :: rest => a.left (torn nl file) ++ leftAll (a.apply nl file) rest

/-- **Every sequence of appends**, each cut off anywhere. -/
theorem lines_run {appends : List (Write α)} (h : ∀ a ∈ appends, a.Clean nl) (file : List α) :
    lines nl (run nl file appends) = lines nl file ++ leftAll nl file appends := by
  induction appends generalizing file with
  | nil => exact (List.append_nil _).symm
  | cons a rest ih =>
      rw [run, List.foldl_cons, leftAll, ← List.append_assoc, ← lines_append (h a List.mem_cons_self)]
      exact ih (fun b hb => h b (List.mem_cons_of_mem _ hb)) _

/-! ## Fields -/

/-- What the first `k` characters of a row leave of its fields, with one separator between two of them. -/
def cutFields : ℕ → List (List α) → List (List α)
  | _, [] => [[]]
  | k, [field] => [field.take k]
  | k, field :: next :: rest =>
      if k ≤ field.length then [field.take k] else field :: cutFields (k - (field.length + 1)) (next :: rest)

/-- **A row of fields that was cut off.** -/
theorem splitOn_take {sep : α} {fields : List (List α)} (h : ∀ field ∈ fields, sep ∉ field) (k : ℕ) :
    (([sep].intercalate fields).take k).splitOn sep = cutFields k fields := by
  have hone : ∀ (field : List α) (k : ℕ), sep ∉ field → (field.take k).splitOn sep = [field.take k] :=
    fun field k hfield => List.splitOn_eq_singleton fun hmem => hfield (List.mem_of_mem_take hmem)
  induction k, fields using cutFields.induct with
  | case1 k => simp [cutFields]
  | case2 k field =>
      rw [List.intercalate_singleton, cutFields]
      exact hone field k (h field (List.mem_singleton_self _))
  | case3 k field next rest hshort =>
      rw [cutFields, if_pos hshort, List.intercalate_cons_cons, List.append_assoc,
        List.take_append_of_le_length hshort]
      exact hone field k (h field List.mem_cons_self)
  | case4 k field next rest hlong ih =>
      obtain ⟨j, rfl⟩ : ∃ j, k = field.length + (j + 1) := ⟨k - field.length - 1, by omega⟩
      have hj : field.length + (j + 1) - (field.length + 1) = j := by omega
      rw [hj] at ih
      rw [cutFields, if_neg hlong, hj, List.intercalate_cons_cons, List.append_assoc, List.singleton_append,
        List.take_length_add_append, List.take_succ_cons,
        List.splitOn_append_cons_self_of_not_mem (h field List.mem_cons_self),
        ih fun f hf => h f (List.mem_cons_of_mem _ hf)]

omit [DecidableEq α] in
/-- Nothing was cut off. -/
lemma cutFields_of_length_le {sep : α} {fields : List (List α)} (hne : fields ≠ []) {k : ℕ}
    (h : ([sep].intercalate fields).length ≤ k) : cutFields k fields = fields := by
  induction k, fields using cutFields.induct with
  | case1 k => exact absurd rfl hne
  | case2 k field =>
      rw [List.intercalate_singleton] at h
      rw [cutFields, List.take_of_length_le h]
  | case3 k field next rest hshort =>
      simp only [List.intercalate_cons_cons, List.length_append, List.length_singleton] at h
      omega
  | case4 k field next rest hlong ih =>
      simp only [List.intercalate_cons_cons, List.length_append, List.length_singleton] at h
      rw [cutFields, if_neg hlong, ih (List.cons_ne_nil _ _) (by omega)]

omit [DecidableEq α] in
lemma length_cutFields_le {fields : List (List α)} (hne : fields ≠ []) (k : ℕ) :
    (cutFields k fields).length ≤ fields.length := by
  induction k, fields using cutFields.induct with
  | case1 k => exact absurd rfl hne
  | case2 k field => simp [cutFields]
  | case3 k field next rest hshort => simp [cutFields, hshort]
  | case4 k field next rest hlong ih =>
      rw [cutFields, if_neg hlong, List.length_cons, List.length_cons]
      exact Nat.succ_le_succ (ih (List.cons_ne_nil _ _))

omit [DecidableEq α] in
/-- A field of what is left is one of the row, cut off or not. -/
lemma exists_of_mem_cutFields {fields : List (List α)} (hne : fields ≠ []) {k : ℕ} {left : List α}
    (h : left ∈ cutFields k fields) : ∃ field ∈ fields, left <+: field := by
  induction k, fields using cutFields.induct with
  | case1 k => exact absurd rfl hne
  | case2 k field =>
      rw [cutFields, List.mem_singleton] at h
      exact ⟨field, List.mem_singleton_self _, h ▸ List.take_prefix _ _⟩
  | case3 k field next rest hshort =>
      rw [cutFields, if_pos hshort, List.mem_singleton] at h
      exact ⟨field, List.mem_cons_self, h ▸ List.take_prefix _ _⟩
  | case4 k field next rest hlong ih =>
      rw [cutFields, if_neg hlong, List.mem_cons] at h
      rcases h with rfl | h
      · exact ⟨left, List.mem_cons_self, List.prefix_rfl⟩
      · obtain ⟨f, hf, hfront⟩ := ih (List.cons_ne_nil _ _) h
        exact ⟨f, List.mem_cons_of_mem _ hf, hfront⟩

omit [DecidableEq α] in
lemma cutFields_ne_nil (k : ℕ) (fields : List (List α)) : cutFields k fields ≠ [] := by
  induction k, fields using cutFields.induct with
  | case1 k => simp [cutFields]
  | case2 k field => simp [cutFields]
  | case3 k field next rest hshort => simp [cutFields, hshort]
  | case4 k field next rest hlong ih => simp [cutFields, hlong]

omit [DecidableEq α] in
/-- The cut fell in the last field, or behind it. -/
lemma length_cutFields_eq_iff (sep : α) {fields : List (List α)} (htwo : 2 ≤ fields.length) (k : ℕ) :
    (cutFields k fields).length = fields.length ↔ ([sep].intercalate fields.dropLast).length + 1 ≤ k := by
  induction k, fields using cutFields.induct with
  | case1 k => simp at htwo
  | case2 k field => simp at htwo
  | case3 k field next rest hshort =>
      have hlead : field.length ≤ ([sep].intercalate (field :: next :: rest).dropLast).length := by
        rw [List.dropLast_cons_of_ne_nil (List.cons_ne_nil _ _)]
        cases (next :: rest).dropLast with
        | nil => exact Nat.le_of_eq (congrArg _ List.intercalate_singleton.symm)
        | cons f more =>
            rw [List.intercalate_cons_cons, List.length_append, List.length_append]
            omega
      rw [cutFields, if_pos hshort, List.length_singleton, List.length_cons, List.length_cons]
      omega
  | case4 k field next rest hlong ih =>
      rw [cutFields, if_neg hlong, List.length_cons, List.length_cons, Nat.add_right_cancel_iff,
        List.dropLast_cons_of_ne_nil (List.cons_ne_nil _ _)]
      cases rest with
      | nil =>
          rw [List.dropLast_singleton, List.intercalate_singleton, cutFields]
          exact iff_of_true rfl (by omega)
      | cons f more =>
          rw [ih (by simp), List.dropLast_cons_of_ne_nil (List.cons_ne_nil _ _), List.intercalate_cons_cons,
            List.length_append, List.length_append, List.length_singleton]
          omega

omit [DecidableEq α] in
/-- Every field in front of the one the cut fell in is whole. -/
lemma dropLast_cutFields_front (fields : List (List α)) (k : ℕ) : (cutFields k fields).dropLast <+: fields := by
  induction k, fields using cutFields.induct with
  | case1 k => simp [cutFields]
  | case2 k field => simp [cutFields]
  | case3 k field next rest hshort => simp [cutFields, hshort]
  | case4 k field next rest hlong ih =>
      rw [cutFields, if_neg hlong, List.dropLast_cons_of_ne_nil (cutFields_ne_nil _ _), List.cons_prefix_cons]
      exact ⟨rfl, ih⟩

end TornLines
