import Kstrl.Base.JsonText
import Kstrl.Base.Keyed
import Kstrl.Io.TextRows

/-!
# The experiments file

`experiments.tsv`: the row that `record_run` of `kstrl/learning/evolution.py` appends for every run, and
`experiment_rows` of `kstrl/learning/experiments_tsv.py`, which reads the rows of every age of the file.

A file keeps the header it was started with, and every version of the program appends rows of its own width.  Rows
are joined with tabs and never quoted, so a row is read as it was written where no field of it has a tab or a line
break (`RunRow.Plain`).

* **`experiments_read`**: after any sequence of runs, each row cut off anywhere, the reader gives what it gave before
  and behind it what every run left (`RunRow.readBack`).
* **`experiments_fresh`**: in a file that was started with all the columns, a run is read if and only if its row was
  written up to its last tab, and then every column but the last is the one that was recorded.
-/

namespace Kstrl

namespace Learning

open TornLines TextLines Io

/-! ## The columns -/

/-- `EXPERIMENTS_HEADER`, split. -/
def columns : List (List Char) :=
  ["run_id", "timestamp", "project", "components_total", "completed", "failed", "skipped", "avg_iterations",
    "avg_duration_s", "retry_rate", "common_failure", "total_tokens", "total_cost_usd", "unreported_calls",
    "kstrl_version", "merged", "clean_merged"].map String.toList

/-- `EXPERIMENTS_HEADER`. -/
def experimentsHeader : List Char := ['\t'].intercalate columns

/-- `OLDER_EXPERIMENTS_WIDTHS`. -/
def olderExperimentsWidths : List ℕ := [11, 14, 15]

/-- Every width that a version of the program has written. -/
def legalWidths : List ℕ := olderExperimentsWidths ++ [columns.length]

/-! ## The reader -/

/-- `csv.field_size_limit()`. -/
def fieldLimit : ℕ := 131072

/-- One record of `csv.reader` in the dialect of the file, which quotes nothing. -/
def csvRecord (line : List Char) : Except String (List (List Char)) :=
  if ∃ field ∈ line.splitOn '\t', fieldLimit < field.length then .error "field larger than field limit (131072)"
  else .ok (if line = [] then [] else line.splitOn '\t')

/-- The records of a text; every kind of line break ends one. -/
def csvRecords (text : List Char) : Except String (List (List (List Char))) :=
  (lines '\n' (translate text)).mapM csvRecord

/-- A row as the dict of its columns. -/
abbrev ExperimentRow := List (List Char × List Char)

/-- The header is the beginning of the current one. -/
def Current (header : List (List Char)) : Prop := header = columns.take header.length

instance (header : List (List Char)) : Decidable (Current header) := inferInstanceAs (Decidable (_ = _))

def names (header : List (List Char)) : List (List Char) := if Current header then columns else header

def widths (header : List (List Char)) : List ℕ :=
  header.length :: if Current header then legalWidths.filter (header.length < ·) else []

/-- The row of a record; one whose width no version has written under the header is dropped. -/
def rowUnder (header fields : List (List Char)) : Option ExperimentRow :=
  if fields ≠ [] ∧ fields.length ∈ widths header then
    some (Keyed.dict (((names header).take fields.length).zip fields))
  else none

/-- `experiment_rows`. -/
def experimentRows (text : List Char) : Except String (List ExperimentRow) :=
  match csvRecords text with
  | .error exc => .error ("experiments.tsv could not be parsed: " ++ exc)
  | .ok [] => .ok []
  | .ok (header :: rows) => .ok (rows.filterMap (rowUnder header))

/-! ## The writer -/

/-- What `record_run` has to say of a run; the averages and the usage are texts here. -/
structure RunRow where
  runId : List Char
  timestamp : List Char
  project : List Char
  total : ℕ
  completed : ℕ
  failed : ℕ
  skipped : ℕ
  avgIterations : List Char
  avgDuration : List Char
  retryRate : List Char
  commonFailure : List Char
  totalTokens : List Char
  totalCost : List Char
  unreported : List Char
  kstrlVersion : List Char
  merged : ℕ
  cleanMerged : ℕ

namespace RunRow

variable (row : RunRow)

def fields : List (List Char) :=
  [row.runId, row.timestamp, row.project, Json.natText row.total, Json.natText row.completed, Json.natText row.failed,
    Json.natText row.skipped, row.avgIterations, row.avgDuration, row.retryRate, row.commonFailure, row.totalTokens,
    row.totalCost, row.unreported, row.kstrlVersion, Json.natText row.merged, Json.natText row.cleanMerged]

def line : List Char := ['\t'].intercalate row.fields

/-- The fields can be told apart, and none is larger than the reader takes. -/
def Plain : Prop :=
  ∀ field ∈ row.fields, '\t' ∉ field ∧ '\n' ∉ field ∧ '\r' ∉ field ∧ field.length ≤ fieldLimit

instance : Decidable row.Plain := inferInstanceAs (Decidable (∀ field ∈ row.fields, _))

/-- The append of the row, with the header in front of the first one, and a bare pad for a repair. -/
def call (file : Bytes) (cut : ℕ) : TextCall where
  records := (if file = [] then [experimentsHeader] else []) ++ [row.line]
  repair := none
  cut := cut

/-- The last step of `record_run`, cut off after `cut` bytes. -/
def record (file : Bytes) (cut : ℕ) : Except String Bytes := (row.call file cut).bytes.apply file

/-- What the reader gives for the row in a file whose header has `w` columns, when `n` characters of it are there. -/
def readBack (w n : ℕ) : Option ExperimentRow :=
  if n = 0 ∨ (cutFields n row.fields).length ∉ legalWidths.filter (w ≤ ·) then none
  else some (columns.zip (cutFields n row.fields))

/-- The characters of the row in front of its last field. -/
def beforeLast (row : RunRow) : ℕ := (['\t'].intercalate row.fields.dropLast).length + 1

/-- The columns of the row but the last. -/
def butLast (row : RunRow) : ExperimentRow := (columns.zip row.fields).dropLast

end RunRow

/-- What an append writes in front of the row. -/
def lead (file : Bytes) : ℕ :=
  if file = [] then experimentsHeader.length + 1 else if endsWithoutNewline file then 1 else 0

/-- Runs are recorded in a file, one after the other.  Each append is cut off somewhere between two characters, and
with the run stands how many characters of its row were written. -/
inductive Recorded : Bytes → List (RunRow × ℕ) → Bytes → Prop
  | none {file : Bytes} : Recorded file [] file
  | run {file after last : Bytes} {row : RunRow} {cut k : ℕ} {rest : List (RunRow × ℕ)}
      (happend : row.record file cut = .ok after) (hcut : (row.call file cut).CutAt (endsWithoutNewline file) k)
      (hrest : Recorded after rest last) : Recorded file ((row, k - lead file) :: rest) last

/-- The text starts with a header of `w` columns. -/
def Headed (w : ℕ) (text : List Char) : Prop :=
  w ∈ legalWidths ∧ (lines '\n' text).head? = some (['\t'].intercalate (columns.take w)) ∧ '\r' ∉ text

/-! ## Rows -/

lemma columns_length : columns.length = 17 := rfl

lemma columns_nodup : columns.Nodup := by decide

lemma columns_plain : ∀ column ∈ columns, '\t' ∉ column ∧ '\n' ∉ column ∧ '\r' ∉ column ∧ column.length ≤ fieldLimit := by
  decide

lemma mem_joined {c : Char} {fields : List (List Char)} (h : c ∈ ['\t'].intercalate fields) :
    c = '\t' ∨ ∃ field ∈ fields, c ∈ field := by
  induction fields with
  | nil => cases h
  | cons field rest ih =>
      cases rest with
      | nil =>
          rw [List.intercalate_singleton] at h
          exact .inr ⟨field, List.mem_singleton_self _, h⟩
      | cons next rest =>
          rw [List.intercalate_cons_cons, List.append_assoc, List.mem_append, List.singleton_append, List.mem_cons] at h
          rcases h with h | h | h
          · exact .inr ⟨field, List.mem_cons_self, h⟩
          · exact .inl h
          · exact (ih h).imp id fun hfield =>
              hfield.elim fun f hf => ⟨f, List.mem_cons_of_mem _ hf.1, hf.2⟩

/-- Plain fields make a line without a break. -/
lemma joined_plain {fields : List (List Char)} (h : ∀ field ∈ fields, '\n' ∉ field ∧ '\r' ∉ field) :
    '\n' ∉ ['\t'].intercalate fields ∧ '\r' ∉ ['\t'].intercalate fields := by
  constructor <;> intro hmem <;> rcases mem_joined hmem with hsep | ⟨field, hfield, hmem⟩
  · cases hsep
  · exact (h field hfield).1 hmem
  · cases hsep
  · exact (h field hfield).2 hmem

lemma RunRow.fields_ne_nil (row : RunRow) : row.fields ≠ [] := List.cons_ne_nil _ _

lemma RunRow.fields_length (row : RunRow) : row.fields.length = columns.length := rfl

lemma RunRow.Plain.line {row : RunRow} (h : row.Plain) : '\n' ∉ row.line ∧ '\r' ∉ row.line :=
  joined_plain fun field hfield => ⟨(h field hfield).2.1, (h field hfield).2.2.1⟩

lemma header_plain (w : ℕ) :
    '\n' ∉ ['\t'].intercalate (columns.take w) ∧ '\r' ∉ ['\t'].intercalate (columns.take w) :=
  joined_plain fun _ hfield =>
    ⟨(columns_plain _ (List.mem_of_mem_take hfield)).2.1, (columns_plain _ (List.mem_of_mem_take hfield)).2.2.1⟩

/-- The record of a row that was cut off. -/
lemma csvRecord_take {fields : List (List Char)} (hne : fields ≠ [])
    (h : ∀ field ∈ fields, '\t' ∉ field ∧ field.length ≤ fieldLimit) {n : ℕ}
    (hline : (['\t'].intercalate fields).take n ≠ []) :
    csvRecord ((['\t'].intercalate fields).take n) = .ok (cutFields n fields) := by
  have hsplit := splitOn_take (fun field hfield => (h field hfield).1) n
  have hshort : ¬ ∃ field ∈ cutFields n fields, fieldLimit < field.length := by
    rintro ⟨left, hleft, hlong⟩
    obtain ⟨field, hfield, hfront⟩ := exists_of_mem_cutFields hne hleft
    have := (h field hfield).2
    have := hfront.length_le
    omega
  rw [csvRecord, hsplit, if_neg hshort, if_neg hline]

lemma csvRecord_header {w : ℕ} (h : w ∈ legalWidths) :
    csvRecord (['\t'].intercalate (columns.take w)) = .ok (columns.take w) := by
  have hall : ∀ w ∈ legalWidths, csvRecord (['\t'].intercalate (columns.take w)) = .ok (columns.take w) := by
    decide +kernel
  exact hall w h

/-- Under a header of `w` columns. -/
lemma widths_header {w : ℕ} (h : w ∈ legalWidths) :
    names (columns.take w) = columns ∧ ∀ n, n ∈ widths (columns.take w) ↔ n ∈ legalWidths.filter (w ≤ ·) := by
  have hall : ∀ w ∈ legalWidths, names (columns.take w) = columns ∧
      ∀ n < 18, n ∈ widths (columns.take w) ↔ n ∈ legalWidths.filter (w ≤ ·) := by decide +kernel
  refine ⟨(hall w h).1, fun n => ?_⟩
  by_cases hn : n < 18
  · exact (hall w h).2 n hn
  · have hout : ∀ w ∈ legalWidths, ∀ n ∈ widths (columns.take w), n < 18 := by decide +kernel
    have hout' : ∀ n ∈ legalWidths, n < 18 := by decide
    exact iff_of_false (fun hmem => hn (hout w h n hmem))
      fun hmem => hn (hout' n (List.mem_filter.mp hmem).1)

lemma zip_take {α β : Type*} (l : List α) (r : List β) : (l.take r.length).zip r = l.zip r := by
  induction l generalizing r with
  | nil => simp
  | cons a l ih => cases r <;> simp [ih]

lemma map_fst_zip_nodup {α β : Type*} {l : List α} (h : l.Nodup) (r : List β) : ((l.zip r).map Prod.fst).Nodup := by
  rw [← zip_take, List.map_fst_zip (List.length_take_le _ _)]
  exact h.sublist (List.take_sublist _ _)

/-- **What a row leaves is what the reader gives for it.** -/
lemma rowUnder_cut {w n : ℕ} (hw : w ∈ legalWidths) (hn : n ≠ 0) (row : RunRow) :
    rowUnder (columns.take w) (cutFields n row.fields) = row.readBack w n := by
  obtain ⟨hnames, hwidths⟩ := widths_header hw
  rw [rowUnder, RunRow.readBack, hnames]
  by_cases hlegal : (cutFields n row.fields).length ∈ legalWidths.filter (w ≤ ·)
  · have hne : cutFields n row.fields ≠ [] := by
      intro hnil
      rw [hnil] at hlegal
      have hpos : 0 ∉ legalWidths := by decide
      exact hpos (List.mem_filter.mp hlegal).1
    rw [if_pos ⟨hne, (hwidths _).mpr hlegal⟩, if_neg fun h => h.elim hn fun h => h hlegal, zip_take,
      Keyed.dict_of_nodup (map_fst_zip_nodup columns_nodup _)]
  · rw [if_neg fun h => hlegal ((hwidths _).mp h.2), if_pos (.inr hlegal)]

/-! ## Appends -/

section Appends

variable {w k n : ℕ} {text : List Char} {row : RunRow} {before : List ExperimentRow}

lemma lines_cons_of_headed (h : Headed w text) :
    ∃ rest, lines '\n' text = ['\t'].intercalate (columns.take w) :: rest := by
  cases hlines : lines '\n' text with
  | nil =>
      have hhead := h.2.1
      rw [hlines] at hhead
      cases hhead
  | cons first rest =>
      have hhead := h.2.1
      rw [hlines] at hhead
      exact ⟨rest, by rw [Option.some.inj hhead]⟩

/-- Lines behind a text that is read. -/
lemma experimentRows_append (h : Headed w text) (hbefore : experimentRows text = .ok before) {text' : List Char}
    (hreturn : '\r' ∉ text') {more : List (List Char)} {records : List (List (List Char))}
    (hlines : lines '\n' text' = lines '\n' text ++ more) (hmore : more.mapM csvRecord = .ok records) :
    experimentRows text' = .ok (before ++ records.filterMap (rowUnder (columns.take w))) := by
  obtain ⟨rest, hrest⟩ := lines_cons_of_headed h
  have hread : ∀ {t : List Char}, '\r' ∉ t → csvRecords t = (lines '\n' t).mapM csvRecord := by
    intro t ht
    rw [csvRecords, translate_of_plain ht]
  unfold experimentRows at hbefore ⊢
  rw [hread h.2.2, hrest, List.mapM_cons, csvRecord_header h.1] at hbefore
  rw [hread hreturn, hlines, hrest, List.cons_append, List.mapM_cons, csvRecord_header h.1, List.mapM_append, hmore]
  cases hrows : rest.mapM csvRecord with
  | error exc =>
      rw [hrows] at hbefore
      cases hbefore
  | ok rows =>
      rw [hrows] at hbefore
      cases hbefore
      exact congrArg Except.ok List.filterMap_append

lemma mapM_cut (h : row.Plain) (hn : n ≠ 0) : [row.line.take n].mapM csvRecord = .ok [cutFields n row.fields] := by
  have hlong : 16 ≤ row.line.length := by
    simp only [RunRow.line, RunRow.fields, List.intercalate_cons_cons, List.length_append, List.length_singleton]
    omega
  have hline : row.line.take n ≠ [] := by
    rw [ne_eq, List.take_eq_nil_iff, not_or]
    refine ⟨hn, fun hnil => ?_⟩
    rw [hnil] at hlong
    cases hlong
  rw [List.mapM_cons, RunRow.line, csvRecord_take row.fields_ne_nil
    (fun field hfield => ⟨(h field hfield).1, (h field hfield).2.2.2⟩) hline]
  rfl

lemma call_clean (h : row.Plain) (file : Bytes) (cut : ℕ) : (row.call file cut).Clean where
  records := List.append_ne_nil_of_right_ne_nil _ (List.cons_ne_nil _ _)
  rows := by
    intro line hline
    rw [show (row.call file cut).repair.toList ++ (row.call file cut).records =
      (if file = [] then [experimentsHeader] else []) ++ [row.line] from rfl, List.mem_append] at hline
    rcases hline with hline | hline
    · split_ifs at hline with hempty
      · rw [List.mem_singleton.mp hline]
        exact (header_plain 17).1
      · cases hline
    · rw [List.mem_singleton.mp hline]
      exact h.line.1

lemma payload_no_return (h : row.Plain) (file : Bytes) (cut : ℕ) (torn : Bool) :
    '\r' ∉ (row.call file cut).payload torn := by
  have hheader : '\r' ∉ experimentsHeader := (header_plain 17).2
  have hline := h.line.2
  intro hmem
  unfold TextCall.payload RunRow.call at hmem
  cases torn <;> split_ifs at hmem <;>
    simp [encodeRows, hheader, hline] at hmem

/-- **One run**, in a file that has a header. -/
lemma record_lines (h : row.Plain) (hne : text ≠ []) {cut : ℕ} {after : Bytes}
    (happend : row.record (encode text) cut = .ok after)
    (hcut : (row.call (encode text) cut).CutAt (endsWithoutNewline (encode text)) k) :
    ∃ text', after = encode text' ∧ ('\r' ∉ text → '\r' ∉ text') ∧
      lines '\n' text' = lines '\n' text ++
        if k - lead (encode text) = 0 then [] else [row.line.take (k - lead (encode text))] := by
  have hfile : encode text ≠ [] := fun hnil => hne (encode_eq_nil.mp hnil)
  rw [endsWithoutNewline_eq, torn_encode] at hcut
  obtain ⟨happly, hlines⟩ := textCall_lines (call_clean h (encode text) cut) hcut
  rw [RunRow.record, happly] at happend
  cases happend
  refine ⟨_, rfl, fun htext hmem => ?_, ?_⟩
  · rcases List.mem_append.mp hmem with hmem | hmem
    · exact htext hmem
    · exact payload_no_return h _ _ _ (List.mem_of_mem_take hmem)
  · rw [hlines, lead, if_neg hfile, endsWithoutNewline_eq, torn_encode]
    have hrecords : (row.call (encode text) cut).records = [row.line] := by
      rw [RunRow.call, if_neg hfile]
      rfl
    have hwrite : ((row.call (encode text) cut).write k).left (torn '\n' text) =
        cutRows (k - if torn '\n' text = true then 1 else 0) [row.line] := by
      unfold Write.left TextCall.write
      rw [hrecords]
      cases torn '\n' text <;> rfl
    rw [hwrite]
    simp [cutRows]

/-- **One run is read** behind those that were. -/
lemma record_read (h : row.Plain) (hheaded : Headed w text) (hbefore : experimentRows text = .ok before) {cut : ℕ}
    {after : Bytes} (happend : row.record (encode text) cut = .ok after)
    (hcut : (row.call (encode text) cut).CutAt (endsWithoutNewline (encode text)) k) :
    ∃ text', after = encode text' ∧ Headed w text' ∧
      experimentRows text' = .ok (before ++ (row.readBack w (k - lead (encode text))).toList) := by
  obtain ⟨rest, hrest⟩ := lines_cons_of_headed hheaded
  have hne : text ≠ [] := by
    rintro rfl
    cases hrest
  obtain ⟨text', hafter, hreturn, hlines⟩ := record_lines h hne happend hcut
  refine ⟨text', hafter, ⟨hheaded.1, ?_, hreturn hheaded.2.2⟩, ?_⟩
  · rw [hlines, hrest]
    rfl
  · by_cases hn : k - lead (encode text) = 0
    · rw [if_pos hn] at hlines
      have hnone : [].mapM csvRecord = .ok [] := rfl
      rw [experimentRows_append hheaded hbefore (hreturn hheaded.2.2) hlines hnone, RunRow.readBack, if_pos (.inl hn)]
      rfl
    · rw [if_neg hn] at hlines
      rw [experimentRows_append hheaded hbefore (hreturn hheaded.2.2) hlines (mapM_cut h hn), List.filterMap_cons,
        rowUnder_cut hheaded.1 hn]
      cases row.readBack w (k - lead (encode text)) <;> rfl

end Appends

/-- The first run of a file starts it with the header. -/
lemma record_first {row : RunRow} (h : row.Plain) {cut k : ℕ} {after : Bytes} (happend : row.record [] cut = .ok after)
    (hcut : (row.call [] cut).CutAt (endsWithoutNewline []) k) (hbegun : 0 < k - lead []) :
    ∃ text, after = encode text ∧ Headed 17 text ∧
      experimentRows text = .ok (row.readBack 17 (k - lead [])).toList := by
  have htorn : (row.call [] cut).CutAt (torn '\n' []) k := hcut
  obtain ⟨happly, hlines⟩ := textCall_lines (call_clean h [] cut) htorn
  cases happly.symm.trans happend
  have hlead : lead [] = experimentsHeader.length + 1 := rfl
  rw [hlead] at hbegun ⊢
  -- the header is whole, and the cut falls in the row
  have hleft : ((row.call [] cut).write k).left (torn '\n' []) =
      [experimentsHeader, row.line.take (k - (experimentsHeader.length + 1))] := by
    show cutRows k [experimentsHeader, row.line] = _
    rw [cutRows, if_neg (by omega), List.take_of_length_le (by omega), cutRows, if_neg (by omega)]
    rfl
  replace hlines := hlines.trans (by rw [lines_nil, List.nil_append, hleft])
  have hreturn : '\r' ∉ [] ++ ((row.call [] cut).payload (torn '\n' [])).take k :=
    fun hmem => payload_no_return h [] cut _ (List.mem_of_mem_take hmem)
  refine ⟨_, rfl, ⟨by decide, ?_, hreturn⟩, ?_⟩
  · rw [hlines]
    rfl
  · have hheader : csvRecord experimentsHeader = .ok (columns.take 17) := csvRecord_header (w := 17) (by decide)
    rw [experimentRows, csvRecords, translate_of_plain hreturn, hlines, List.mapM_cons, hheader,
      mapM_cut h (Nat.ne_of_gt hbegun)]
    show Except.ok (List.filterMap (rowUnder (columns.take 17)) [cutFields _ row.fields]) = _
    rw [List.filterMap_cons, rowUnder_cut (by decide) (Nat.ne_of_gt hbegun)]
    cases row.readBack 17 _ <;> rfl

lemma readBack_current (row : RunRow) {n : ℕ} :
    (row.readBack 17 n).map List.dropLast = if row.beforeLast ≤ n then some row.butLast else none := by
  have htwo : 2 ≤ row.fields.length := by
    rw [row.fields_length]
    decide
  have hwidth : (cutFields n row.fields).length ∈ legalWidths.filter (17 ≤ ·) ↔ row.beforeLast ≤ n := by
    have hlegal : ∀ w, w ∈ legalWidths.filter (17 ≤ ·) ↔ w = row.fields.length := fun w => List.mem_singleton
    exact (hlegal _).trans (length_cutFields_eq_iff '\t' htwo n)
  have hpos : 0 < row.beforeLast := Nat.succ_pos _
  rw [RunRow.readBack]
  by_cases hlast : row.beforeLast ≤ n
  · have hlength := (length_cutFields_eq_iff '\t' htwo n).mpr hlast
    have hfields : (cutFields n row.fields).dropLast = row.fields.dropLast := by
      have hfront := List.prefix_iff_eq_take.mp (dropLast_cutFields_front row.fields n)
      rw [hfront, List.length_dropLast, hlength, List.dropLast_eq_take]
    have hback : ¬ (n = 0 ∨ (cutFields n row.fields).length ∉ legalWidths.filter (17 ≤ ·)) :=
      fun h => h.elim (by omega) fun h => h (hwidth.mpr hlast)
    rw [if_neg hback, if_pos hlast, Option.map_some, RunRow.butLast]
    simp only [List.dropLast_eq_take, List.length_zip, hlength] at hfields ⊢
    rw [row.fields_length] at hfields
    simp only [List.zip_eq_zipWith, List.take_zipWith, row.fields_length, Nat.min_self, hfields]
  · rw [if_pos (.inr (mt hwidth.mp hlast)), if_neg hlast, Option.map_none]

/-- A run of one component. -/
def oneRun (runId : String) : RunRow where
  runId := runId.toList
  timestamp := "2026-01-01T00:00:00Z".toList
  project := "api".toList
  total := 1
  completed := 1
  failed := 0
  skipped := 0
  avgIterations := "2.00".toList
  avgDuration := "61.5".toList
  retryRate := "0.00".toList
  commonFailure := []
  totalTokens := []
  totalCost := []
  unreported := []
  kstrlVersion := "0.9".toList
  merged := 1
  cleanMerged := 12

/-- An append of ASCII text is cut off between two characters wherever it is. -/
lemma recorded_ascii {file last : Bytes} {row : RunRow} (cut : ℕ) {n : ℕ} {rest : List (RunRow × ℕ)}
    (hascii : ∀ torn, ∀ ch ∈ (row.call file cut).payload torn, ch.toNat < 128) (hn : cut - lead file = n)
    (hrest : Recorded ((row.call file cut).bytes.write.apply newline file) rest last) :
    Recorded file ((row, n) :: rest) last := by
  have hrecords : (row.call file cut).bytes.records ≠ [] := by
    simp [TextCall.bytes, RunRow.call]
  exact hn ▸ Recorded.run (apply_eq hrecords file) (cutAt_ascii (hascii _)) hrest

/-- A file that was started with 14 columns. -/
def olderFile : List Char := ['\t'].intercalate (columns.take 14) ++ ['\n']

end Learning

end Kstrl
