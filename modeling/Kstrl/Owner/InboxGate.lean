import Kstrl.Base.JsonPrefix
import Kstrl.Io.TextRows
import Kstrl.Owner.Decisions

/-!
# The inbox log as a file, and the gate that counts it

`Inbox.scan` reads the log as bytes; an append writes one row behind a bare pad, and a crash cuts it off anywhere.
`check_inbox_cap` of `kstrl/serve/serve_gates.py` admits work while the open items and the lines that do not parse
are below the cap.

* **`scan_run`** is what the scan gives after any run: the rows that are whole, and a skipped line for each torn one.
* **`trulyOpen_le`**: the gate's number is at least the number of open items, the torn rows read as if they were
  whole.
* **`inbox_sound`** puts the fold, the decisions, the counts and the gate together.
-/

namespace Kstrl

namespace Owner

open Io TextLines TornLines PyCodec LatestLog Runs

/-! ## The scan -/

/-- `InboxScan`. -/
structure InboxScan where
  records : List Json := []
  skippedLines : ℕ := 0
  unreadable : Bool := false

namespace InboxScan

variable (scan : InboxScan)

/-- `open_count`, at a time. -/
def openCount (fmt : IsoFormat) (clock : ℕ) : ℕ := (folded scan.records).countP (InboxItem.isOpen fmt clock)

/-- `unparseable_count`. -/
def unparseableCount : ℕ := scan.skippedLines + scan.records.countP fun record => (InboxItem.fromDict record).isNone

end InboxScan

/-- The file of the log, as the scan finds it. -/
inductive LogFile where
  | absent
  | unreadable
  | bytes (raw : Bytes)

/-- One line: nothing, a record, or a line that is skipped. -/
def scanLine (line : List Char) : List (Option Json) :=
  let text := PyText.strip (String.ofList line)
  if text = "" then []
  else match Json.loads text with
    | some (.obj fields) => [some (.obj fields)]
    | _ => [none]

/-- `scan`; `inTree` says that there is a log in the tree still. -/
def scan (file : LogFile) (inTree : Bool) : InboxScan :=
  match file with
  | .absent => { unreadable := inTree }
  | .unreadable => { unreadable := true }
  | .bytes raw =>
      match decodeUtf8 raw with
      | none => { unreadable := true }
      | some text =>
          let rows := (splitlines text).flatMap scanLine
          { records := rows.filterMap id, skippedLines := rows.countP Option.isNone, unreadable := inTree }

/-! ## The gate -/

/-- `Admission`. -/
structure Admission where
  allowed : Bool
  reason : String := ""
  pauseReason : String := ""
  resumeAfter : String := ""
  deriving DecidableEq, Repr

/-- The part of `[inbox]` the gate reads. -/
structure InboxConfig where
  enabled : Bool := true
  openItemCap : ℤ := 50

/-- `check_inbox_cap`, from the configuration or the error of reading it, and the scan. -/
def checkInboxCap (fmt : IsoFormat) (clock : ℕ) (config : Except String InboxConfig) (scan : InboxScan) : Admission :=
  match config with
  | .error exc =>
      { allowed := false
        reason := s!"[inbox] cannot be read, so the open-item cap cannot be evaluated: {exc}" }
  | .ok config =>
      if !config.enabled || config.openItemCap ≤ 0 then { allowed := true }
      else if scan.unreadable then
        { allowed := false
          reason := "inbox is unreadable (.kstrl/inbox.jsonl could not be " ++
            "read or decoded); refusing admission until the log is " ++
            "inspectable - the open-item cap fails closed, #190" }
      else
        let openCount := scan.openCount fmt clock
        let garbled := scan.unparseableCount
        if (openCount + garbled : ℕ) < config.openItemCap then { allowed := true }
        else
          let detail :=
            if garbled ≠ 0 then
              s!" ({garbled} unparseable inbox line(s) counted as open - the cap " ++
                "fails closed, #190; inspect .kstrl/inbox.jsonl to clear them)"
            else ""
          { allowed := false
            reason := s!"inbox has reached its open-item cap ({config.openItemCap}); " ++
              s!"triage before queueing more work{detail}" }

/-! ## Appends to the file -/

/-- The row of an item, as `_append_unlocked` makes it. -/
def inboxRow (item : InboxItem) : Json :=
  match item.toDict with
  | .obj fields => .obj (("schema_version", .int inboxSchemaVersion) :: fields)
  | other => other

/-- `json.dumps(payload, separators=(",", ":"))`. -/
def rowLine (item : InboxItem) : List Char := Json.Layout.compact.write 0 (inboxRow item)

/-- `_append_unlocked`, cut off after `cut` bytes. -/
def appendUnlocked (file : Bytes) (item : InboxItem) (cut : ℕ) : Except String Bytes :=
  (appendTerminated file (encode (rowLine item ++ ['\n'])) []).map fun written => file ++ written.1.take cut

structure InboxFile where
  file : Bytes
  clock : ℕ

/-- What a step reads of the log. -/
def InboxFile.read (s : InboxFile) : InboxState := ⟨(scan (.bytes s.file) false).records, s.clock⟩

/-- The evidence of an emission is a value of JSON. -/
def InboxAction.WellFormed : InboxAction → Prop
  | .add _ e => (Json.obj e.evidence).WellFormed
  | _ => True

/-- How many bytes of the row itself are written; the pad of a torn tail comes first. -/
def rowBytes (file : Bytes) (cut : ℕ) : ℕ := if endsWithoutNewline file then cut - 1 else cut

/-- A run over a log that was empty: the rows of which a byte was written, each with whether all of its bytes
were, and the file. -/
inductive FileRun (fmt : IsoFormat) (start : ℕ) : List (InboxItem × Bool) → InboxFile → Prop where
  | start : FileRun fmt start [] ⟨[], start⟩
  | silent {rows s} {a : InboxAction} (run : FileRun fmt start rows s) (fresh : a.Fresh s.read)
      (noRow : s.read.row? fmt a = none) : FileRun fmt start rows ⟨s.file, (s.read.next fmt a).clock⟩
  | append {rows s} {a : InboxAction} {row : InboxItem} {cut : ℕ} {file : Bytes}
      (run : FileRun fmt start rows s) (fresh : a.Fresh s.read) (form : a.WellFormed)
      (hrow : s.read.row? fmt a = some row) (happend : appendUnlocked s.file row cut = .ok file) :
      FileRun fmt start
        (rows ++ if rowBytes s.file cut = 0 then []
          else [(row, Decidable.decide ((encode (rowLine row)).length ≤ rowBytes s.file cut))])
        ⟨file, (s.read.next fmt a).clock⟩

/-- The items that are open, every row that was begun read as if it were whole. -/
def trulyOpen (fmt : IsoFormat) (clock : ℕ) (rows : List (InboxItem × Bool)) : ℕ :=
  (latest InboxItem.id (rows.map Prod.fst)).countP (InboxItem.isOpen fmt clock)

/-! ## What the scan makes of a row -/

variable {fmt : IsoFormat} {item row : InboxItem} {rows : List (InboxItem × Bool)} {s : InboxFile}

lemma append_eq (log : List Json) (item : InboxItem) : append log item = log ++ [inboxRow item] := rfl

lemma fromDict_inboxRow (h : item.id ≠ "") : InboxItem.fromDict (inboxRow item) = some item :=
  InboxItem.fromDict_schema item _ h

lemma inboxRow_wellFormed (h : (Json.obj item.evidence).WellFormed) : (inboxRow item).WellFormed := by
  simp [inboxRow, InboxItem.toDict, Json.WellFormed, Json.FieldsWellFormed] at h ⊢
  exact h

lemma rowLine_obj (item : InboxItem) : ∃ fields, rowLine item = Json.Layout.compact.write 0 (.obj fields) := ⟨_, rfl⟩

/-- What is written of a row, stripped, is still what is written of a row, and the whole row if and only if all of
it is written. -/
lemma strip_take (item : InboxItem) {k : ℕ} (hk : 0 < k) :
    ∃ text, text <+: rowLine item ∧ text ≠ [] ∧
      PyText.strip (String.ofList ((rowLine item).take k)) = String.ofList text ∧
      (text = rowLine item ↔ (rowLine item).length ≤ k) := by
  obtain ⟨fields, hfields⟩ := rowLine_obj item
  obtain ⟨tail, htail⟩ := Json.Layout.compact.write_obj 0 fields
  obtain ⟨init, hinit⟩ := Json.Layout.compact.write_obj_last 0 fields
  have htake : (rowLine item).take k = '\x7b' :: tail.take (k - 1) := by
    obtain ⟨k, rfl⟩ := Nat.exists_eq_add_one_of_ne_zero hk.ne'
    rw [hfields, htail, List.take_succ_cons, Nat.add_sub_cancel]
  set text := ((rowLine item).take k).rdropWhile PyText.isSpace with htext
  have hfront : text <+: (rowLine item).take k := List.rdropWhile_prefix _ _
  have hne : text ≠ [] := by
    rw [htext, ne_eq, List.rdropWhile_eq_nil_iff, htake]
    exact fun hall => absurd (hall _ List.mem_cons_self) (by decide)
  have hstrip : PyText.strip (String.ofList ((rowLine item).take k)) = String.ofList text := by
    obtain ⟨c, rest, hcons⟩ := List.exists_cons_of_ne_nil hne
    have hc : c = '\x7b' := by
      rw [hcons, htake] at hfront
      exact (List.cons_prefix_cons.mp hfront).1
    have hspace : PyText.isSpace c = false := by rw [hc]; decide
    have hrstrip : (PyText.rstrip (String.ofList ((rowLine item).take k))).toList = c :: rest := by
      rw [PyText.rstrip, String.toList_ofList, String.toList_ofList, ← hcons]
      rfl
    rw [PyText.strip, hrstrip, hcons, List.dropWhile_cons_of_neg (by rw [hspace]; decide)]
  refine ⟨text, hfront.trans (List.take_prefix _ _), hne, hstrip, fun hsame => ?_, fun hlen => ?_⟩
  · have := hfront.length_le
    rw [hsame, List.length_take] at this
    omega
  · rw [htext, List.take_of_length_le hlen, List.rdropWhile_eq_self_iff]
    intro hnil
    have hlast : (rowLine item).getLast hnil = '\x7d' := by
      simp only [hfields, hinit, List.getLast_append_singleton]
    rw [hlast]
    decide

/-- What the scan makes of a row that is cut off, and of a whole one. -/
lemma scanLine_take (h : (Json.obj item.evidence).WellFormed) {k : ℕ} (hk : 0 < k) :
    scanLine ((rowLine item).take k) = if (rowLine item).length ≤ k then [some (inboxRow item)] else [none] := by
  obtain ⟨text, hfront, hne, hstrip, hwhole⟩ := strip_take item hk
  have hnonempty : String.ofList text ≠ "" := by
    intro hempty
    have := congrArg String.toList hempty
    simp at this
    exact hne this
  rw [scanLine, hstrip]
  simp only [if_neg hnonempty]
  by_cases hk' : (rowLine item).length ≤ k
  · rw [if_pos hk', hwhole.mpr hk', rowLine, Json.Layout.loads_line _ _ (inboxRow_wellFormed h)]
    rfl
  · rw [if_neg hk', Json.Layout.loads_prefix _ (inboxRow_wellFormed h) hfront fun hsame => hk' (hwhole.mp hsame)]

/-! ## What an append makes of the scan -/

/-- The append of one row with a bare pad. -/
def rowCall (item : InboxItem) (cut : ℕ) : TextCall := { records := [rowLine item], repair := none, cut := cut }

lemma appendUnlocked_eq (file : Bytes) (item : InboxItem) (cut : ℕ) :
    appendUnlocked file item cut = (rowCall item cut).bytes.apply file := by
  have hrow : encode (rowLine item ++ ['\n']) = encodeRows newline [encode (rowLine item)] := by
    rw [encode_append, encodeRows_cons]
    rfl
  rw [appendUnlocked, AppendCall.apply, hrow]
  rfl

lemma rowLine_printable (h : (Json.obj item.evidence).WellFormed) : ∀ c ∈ rowLine item, Json.Printable c :=
  Json.Layout.write_forall Json.compact_characters _ (inboxRow_wellFormed h) 0

lemma rowCall_clean (h : (Json.obj item.evidence).WellFormed) (cut : ℕ) : (rowCall item cut).Clean where
  records := List.cons_ne_nil _ _
  rows := by
    intro row hrow
    rw [List.mem_singleton.mp hrow]
    exact fun hmem => absurd (rowLine_printable h _ hmem) (by decide)

/-- What an append writes is printable, line feeds apart. -/
lemma rowCall_payload (h : (Json.obj item.evidence).WellFormed) (cut : ℕ) (torn : Bool) :
    ∀ c ∈ (rowCall item cut).payload torn, Json.Printable c ∨ c = '\n' := by
  intro c hc
  have hmem : c ∈ rowLine item ∨ c = '\n' := by
    unfold TextCall.payload rowCall at hc
    cases torn <;> simp [encodeRows] at hc <;> tauto
  exact hmem.imp_left (rowLine_printable h c)

/-- **One append**, cut off anywhere. -/
lemma appendUnlocked_scan (h : (Json.obj item.evidence).WellFormed) {text : List Char}
    (htext : ∀ c ∈ text, isLineBreak c = true → c = '\n') (cut : ℕ) :
    ∃ text', appendUnlocked (encode text) item cut = .ok (encode text') ∧
      (∀ c ∈ text', isLineBreak c = true → c = '\n') ∧
      (lines '\n' text').flatMap scanLine = (lines '\n' text).flatMap scanLine ++
        if rowBytes (encode text) cut = 0 then []
        else [if (encode (rowLine item)).length ≤ rowBytes (encode text) cut then some (inboxRow item) else none] := by
  have hascii : ∀ c ∈ (rowCall item cut).payload (torn '\n' text), c.toNat < 128 := by
    intro c hc
    rcases rowCall_payload h cut _ c hc with hc | rfl
    · exact Nat.lt_succ_of_lt (Nat.lt_succ_of_le hc.2)
    · decide
  obtain ⟨happly, hlines⟩ := textCall_lines (rowCall_clean h cut) (cutAt_ascii hascii)
  refine ⟨_, (appendUnlocked_eq _ _ _).trans happly, ?_, ?_⟩
  · refine List.forall_mem_append.mpr ⟨htext, fun c hc hbreak => ?_⟩
    refine (rowCall_payload h cut _ c (List.mem_of_mem_take hc)).resolve_left fun hprintable => ?_
    have hall : ∀ d ∈ ['\n', '\x0b', '\x0c', '\r', '\x1c', '\x1d', '\x1e', '\u0085', '\u2028', '\u2029'],
        ¬ Json.Printable d := by decide
    exact hall c (of_decide_eq_true hbreak) hprintable
  · have hleft : ((rowCall item cut).write (rowCall item cut).cut).left (torn '\n' text) =
        cutRows (rowBytes (encode text) cut) [rowLine item] := by
      rw [rowBytes, endsWithoutNewline_eq, torn_encode]
      cases torn '\n' text <;> rfl
    have hlength : (encode (rowLine item)).length = (rowLine item).length :=
      length_encode_ascii fun c hc => Nat.lt_succ_of_lt (Nat.lt_succ_of_le (rowLine_printable h c hc).2)
    rw [hlines, List.flatMap_append, hlength, hleft, cutRows]
    refine congrArg ((lines '\n' text).flatMap scanLine ++ ·) ?_
    by_cases hzero : rowBytes (encode text) cut = 0
    · rw [if_pos hzero, if_pos hzero]
      rfl
    · rw [if_neg hzero, if_neg hzero, List.flatMap_cons, scanLine_take h (Nat.pos_of_ne_zero hzero)]
      by_cases hwhole : (rowLine item).length ≤ rowBytes (encode text) cut
      · rw [if_pos hwhole, if_pos hwhole]
        rfl
      · rw [if_neg hwhole, if_neg hwhole]
        rfl

/-! ## Runs -/

/-- The lines of the rows that were begun. -/
def rowLines (rows : List (InboxItem × Bool)) : List (Option Json) :=
  rows.map fun row => if row.2 then some (inboxRow row.1) else none

/-- The log is a text whose lines are the rows that were begun. -/
structure Holds (rows : List (InboxItem × Bool)) (file : Bytes) : Prop where
  text : ∃ text, file = encode text ∧ (∀ c ∈ text, isLineBreak c = true → c = '\n') ∧
    (lines '\n' text).flatMap scanLine = rowLines rows
  ids : ∀ row ∈ rows, row.1.id ≠ ""
  evidence : ∀ row ∈ rows, (Json.obj row.1.evidence).WellFormed

lemma rowLines_records (rows : List (InboxItem × Bool)) :
    (rowLines rows).filterMap id = (rows.filter Prod.snd).map fun row => inboxRow row.1 := by
  induction rows with
  | nil => rfl
  | cons row rows ih =>
      obtain ⟨item, whole⟩ := row
      cases whole <;> simpa [rowLines] using ih

lemma rowLines_skipped (rows : List (InboxItem × Bool)) :
    (rowLines rows).countP Option.isNone = rows.countP fun row => !row.2 := by
  rw [rowLines, List.countP_map]
  refine List.countP_congr fun row _ => ?_
  obtain ⟨item, whole⟩ := row
  cases whole <;> simp

/-- The scan of such a log. -/
lemma Holds.scan_eq {file : Bytes} (h : Holds rows file) (inTree : Bool) :
    scan (.bytes file) inTree =
      { records := (rows.filter Prod.snd).map fun row => inboxRow row.1
        skippedLines := rows.countP fun row => !row.2
        unreadable := inTree } := by
  obtain ⟨text, rfl, hbreaks, hlines⟩ := h.text
  rw [scan, decodeUtf8_encode_eq]
  simp only [splitlines_eq hbreaks, hlines, rowLines_records, rowLines_skipped]

/-- The fold of such a log is the fold of the rows that are whole. -/
lemma Holds.folded_eq {file : Bytes} (h : Holds rows file) (inTree : Bool) :
    folded (scan (.bytes file) inTree).records =
      latest InboxItem.id ((rows.filter Prod.snd).map Prod.fst) := by
  rw [h.scan_eq, folded, List.filterMap_map]
  congr 1
  rw [← List.filterMap_eq_map]
  refine List.filterMap_congr fun row hrow => ?_
  exact fromDict_inboxRow (h.ids row (List.mem_of_mem_filter hrow))

lemma Holds.unparseable {file : Bytes} (h : Holds rows file) (inTree : Bool) :
    (scan (.bytes file) inTree).unparseableCount = rows.countP fun row => !row.2 := by
  rw [InboxScan.unparseableCount, h.scan_eq]
  have hnone : ((rows.filter Prod.snd).map fun row => inboxRow row.1).countP
      (fun record => (InboxItem.fromDict record).isNone) = 0 := by
    rw [List.countP_eq_zero]
    intro record hrecord
    obtain ⟨row, hrow, rfl⟩ := List.mem_map.mp hrecord
    rw [fromDict_inboxRow (h.ids row (List.mem_of_mem_filter hrow))]
    simp
  simp only [hnone, Nat.add_zero]

/-- The evidence of a row is that of an emission or of an item that is there. -/
lemma Writes.evidence {s : InboxState} {a : InboxAction} (h : Writes fmt s a row) (hform : a.WellFormed)
    (hold : ∀ it ∈ folded s.log, (Json.obj it.evidence).WellFormed) : (Json.obj row.evidence).WellFormed := by
  cases h with
  | @bumped _ e old mem _ =>
      show (Json.obj (if e.evidence = [] then old.evidence else e.evidence)).WellFormed
      by_cases hempty : e.evidence = []
      · rw [if_pos hempty]
        exact hold old mem
      · rw [if_neg hempty]
        exact hform
  | opened => exact hform
  | @decided _ _ old mem _ _ => exact hold old mem

lemma holds_nil : Holds [] [] where
  text := ⟨[], rfl, by simp, by simp [rowLines]⟩
  ids := by simp
  evidence := by simp

/-- **What holds of the log after every run.** -/
lemma FileRun.holds {start : ℕ} (run : FileRun fmt start rows s) : Holds rows s.file := by
  induction run with
  | start => exact holds_nil
  | silent run fresh noRow ih => exact ih
  | @append rows s a row cut file run fresh form hrow happend ih =>
      obtain ⟨hwrites, -⟩ := writes_of_row? hrow
      have hid : row.id ≠ "" := hwrites.id_ne fresh
      have hevidence : (Json.obj row.evidence).WellFormed := by
        refine hwrites.evidence form fun it hit => ?_
        have hit' : it ∈ folded (scan (.bytes s.file) false).records := hit
        rw [ih.folded_eq] at hit'
        obtain ⟨r, hr, rfl⟩ := List.mem_map.mp (mem_of_mem_latest hit')
        exact ih.evidence r (List.mem_of_mem_filter hr)
      obtain ⟨text, hfile, hbreaks, hlines⟩ := ih.text
      obtain ⟨text', happend', hbreaks', hlines'⟩ := appendUnlocked_scan hevidence hbreaks cut
      rw [hfile, happend'] at happend
      cases happend
      have hrows : ∀ r ∈ (if rowBytes s.file cut = 0 then []
          else [(row, Decidable.decide ((encode (rowLine row)).length ≤ rowBytes s.file cut))]), r.1 = row := by
        intro r hr
        split_ifs at hr with hzero
        · cases hr
        · rw [List.mem_singleton.mp hr]
      refine ⟨⟨text', rfl, hbreaks', ?_⟩, ?_, ?_⟩
      · rw [hlines', hlines, rowLines, rowLines, List.map_append, hfile]
        refine congrArg (rows.map _ ++ ·) ?_
        by_cases hzero : rowBytes (encode text) cut = 0
        · rw [if_pos hzero, if_pos hzero]
          rfl
        · rw [if_neg hzero, if_neg hzero]
          simp
      · refine List.forall_mem_append.mpr ⟨ih.ids, fun r hr => ?_⟩
        rw [hrows r hr]
        exact hid
      · refine List.forall_mem_append.mpr ⟨ih.evidence, fun r hr => ?_⟩
        rw [hrows r hr]
        exact hevidence

/-- **What the scan gives after any run**: the rows that are whole, and a skipped line for each torn one. -/
theorem scan_run {start : ℕ} (run : FileRun fmt start rows s) (inTree : Bool) :
    scan (.bytes s.file) inTree =
      { records := (rows.filter Prod.snd).map fun row => inboxRow row.1
        skippedLines := rows.countP fun row => !row.2
        unreadable := inTree } :=
  run.holds.scan_eq inTree

/-- **The gate's number is at least the number of open items.** -/
theorem trulyOpen_le {start : ℕ} (run : FileRun fmt start rows s) (inTree : Bool) (clock : ℕ) :
    trulyOpen fmt clock rows ≤
      (scan (.bytes s.file) inTree).openCount fmt clock + (scan (.bytes s.file) inTree).unparseableCount := by
  rw [run.holds.unparseable, InboxScan.openCount, run.holds.folded_eq]
  exact countP_latest_le _ rows

/-- When the gate admits. -/
lemma checkInboxCap_allowed (fmt : IsoFormat) (clock : ℕ) (config : InboxConfig) (scan : InboxScan) :
    (checkInboxCap fmt clock (.ok config) scan).allowed = true ↔
      config.enabled = false ∨ config.openItemCap ≤ 0 ∨
        scan.unreadable = false ∧ ((scan.openCount fmt clock + scan.unparseableCount : ℕ) : ℤ) < config.openItemCap := by
  unfold checkInboxCap
  dsimp only
  by_cases hoff : (!config.enabled || Decidable.decide (config.openItemCap ≤ 0)) = true
  · rw [if_pos hoff]
    simp only [Bool.or_eq_true, Bool.not_eq_true', decide_eq_true_eq] at hoff
    exact iff_of_true rfl (hoff.imp_right Or.inl)
  · rw [if_neg hoff]
    simp only [Bool.or_eq_true, Bool.not_eq_true', decide_eq_true_eq, not_or] at hoff
    rw [or_iff_right hoff.1, or_iff_right hoff.2]
    cases hread : scan.unreadable with
    | true => simp
    | false =>
        by_cases hcap : ((scan.openCount fmt clock + scan.unparseableCount : ℕ) : ℤ) < config.openItemCap
        · rw [if_neg Bool.false_ne_true, if_pos hcap]
          exact iff_of_true rfl ⟨rfl, hcap⟩
        · rw [if_neg Bool.false_ne_true, if_neg hcap]
          exact iff_of_false nofun fun h => hcap h.2

/-- **The inbox is sound.**  Over every interleaving of the operator and the factory: the fold behind a step is the
fold in front of it with the row of the step; an item that is approved, rejected or resolved keeps its row until
the operator decides about it again; an item counts the emissions that were collapsed onto it.  And whatever a
crash cuts off of the appends, the number the gate compares with its cap is at least the number of open items;
a log that does not read is refused. -/
theorem inbox_sound (fmt : IsoFormat) :
    (∀ s a t, InboxStep fmt s a t →
      folded t.log = match s.row? fmt a with
        | none => folded s.log
        | some row => upsert InboxItem.id row (folded s.log)) ∧
    (∀ s t item, item ∈ folded s.log → ¬ item.Undecided →
      Reaches (InboxStep fmt) (Spares fmt item) s t → item ∈ folded t.log) ∧
    (∀ start trace t, InboxRun fmt (.init start) trace t →
      ∀ it ∈ folded t.log, it.occurrences = collapsed fmt it.id trace) ∧
    (∀ start rows s inTree clock, FileRun fmt start rows s →
      trulyOpen fmt clock rows ≤
        (scan (.bytes s.file) inTree).openCount fmt clock + (scan (.bytes s.file) inTree).unparseableCount) ∧
    (∀ clock config file inTree, config.enabled = true → 0 < config.openItemCap →
      ((checkInboxCap fmt clock (.ok config) (scan file inTree)).allowed = true ↔
        (scan file inTree).unreadable = false ∧
          (((scan file inTree).openCount fmt clock + (scan file inTree).unparseableCount : ℕ) : ℤ) <
            config.openItemCap)) := by
  refine ⟨fun s a t => folded_next, fun s t item hitem hdecided => decision_kept hitem hdecided,
    fun start trace t run => occurrences_eq run, fun start rows s inTree clock run => trulyOpen_le run inTree clock,
    fun clock config file inTree hon hcap => ?_⟩
  rw [checkInboxCap_allowed, hon, or_iff_right nofun, or_iff_right (Int.not_le.mpr hcap)]

/-- The row of a halted run. -/
def haltedRow : InboxItem := opened .utc startMoment "a" haltedRun

/-- The row of a halted run is torn behind five bytes: no open item is read, and one is counted. -/
theorem inbox_sound_torn :
    ∃ rows s, FileRun .utc startMoment rows s ∧ trulyOpen .utc startMoment rows = 1 ∧
      (scan (.bytes s.file) false).openCount .utc startMoment = 0 ∧
      trulyOpen .utc startMoment rows ≤ (scan (.bytes s.file) false).openCount .utc startMoment +
        (scan (.bytes s.file) false).unparseableCount := by
  have hread : InboxFile.read ⟨encode [], startMoment⟩ = .init startMoment := by
    rw [InboxFile.read, scan, decodeUtf8_encode_eq]
    rfl
  have hevidence : (Json.obj haltedRow.evidence).WellFormed := ⟨List.nodup_nil, trivial⟩
  have hfresh : (InboxAction.add "a" haltedRun).Fresh (InboxFile.read ⟨encode [], startMoment⟩) := by
    rw [hread]
    exact raisedOnce_fresh (by decide)
  have hrow : (InboxFile.read ⟨encode [], startMoment⟩).row? .utc (.add "a" haltedRun) = some haltedRow := by
    rw [hread]
    rfl
  have hempty : ∀ c ∈ ([] : List Char), isLineBreak c = true → c = '\n' := nofun
  obtain ⟨text, happend, -, -⟩ := appendUnlocked_scan hevidence hempty 5
  have run := FileRun.append .start hfresh hevidence hrow happend
  have hopen : (scan (.bytes (encode text)) false).openCount .utc startMoment = 0 := by
    rw [InboxScan.openCount, run.holds.folded_eq]
    decide +kernel
  exact ⟨_, _, run, by decide +kernel, hopen, (inbox_sound .utc).2.2.2.1 _ _ _ false startMoment run⟩

end Owner

end Kstrl
