import Kstrl.Base.PyCells
import Kstrl.Base.TextLines

/-!
# The process listing

What the one `ps` read of a sweep is parsed into (`kstrl/proc/procgroup_listing.py`).

`ps` prints a row a process: a pid, a process group, a state and the command line, which is a text the process
itself chooses.  The rows are cut out of the output with `splitlines`, and a command line is free to hold any
break but the line feed.

* **`readListing_exact_iff`**: the listing says of a group exactly what the processes are, precisely when no
  command line holds a break that adds to the reading, or hides a part of a command that is read.
-/

namespace Kstrl

open TextLines PyText

namespace Proc

/-! ## Reading -/

/-- What one read saw. -/
@[ext] structure Listing where
  complete : Bool
  readable : Bool
  listed : List ℤ
  runningPids : List ℤ
  runningCommands : List (List Char)

namespace Listing

/-- Nothing read yet. -/
def empty : Listing := ⟨false, true, [], [], []⟩

/-- What two parts of a read saw. -/
def append (a b : Listing) : Listing where
  complete := a.complete || b.complete
  readable := a.readable && b.readable
  listed := a.listed ++ b.listed
  runningPids := a.runningPids ++ b.runningPids
  runningCommands := a.runningCommands ++ b.runningCommands

@[simp] lemma complete_empty : empty.complete = false := rfl

@[simp] lemma readable_empty : empty.readable = true := rfl

@[simp] lemma listed_empty : empty.listed = [] := rfl

@[simp] lemma runningPids_empty : empty.runningPids = [] := rfl

@[simp] lemma runningCommands_empty : empty.runningCommands = [] := rfl

end Listing

def readsAsInt (cell : List Char) : Bool := (int cell).isSome

/-- One row of the output. -/
def readRow (pgid : ℤ) (seen : Listing) (line : List Char) : Listing :=
  match splitCells 3 line with
  | [] => seen
  | pid :: group :: state :: command =>
      match int pid with
      | none => { seen with readable := false }
      | some member =>
          let seen := { seen with complete := seen.complete || member = 1 }
          match int group with
          | none => { seen with readable := false }
          | some number =>
              if number ≠ pgid then seen
              else if state.head? = some 'Z' then { seen with listed := seen.listed ++ [member] }
              else { seen with
                      listed := seen.listed ++ [member]
                      runningPids := seen.runningPids ++ [member]
                      runningCommands := seen.runningCommands ++ [command.flatten] }
  | _ => { seen with readable := false }

def readListing (stdout : List Char) (pgid : ℤ) : Listing :=
  (splitlines stdout).foldl (readRow pgid) .empty

/-! ## What is printed -/

/-- One row of what `ps` prints: the cells, the blanks before each, and the command line. -/
structure Row where
  pid : Cell
  group : Cell
  state : Cell
  command : List Char
  blanks : Fin 4 → ℕ
  oneLine : '\n' ∉ command

namespace Row

/-- The row up to its command. -/
def head (r : Row) : List Char :=
  List.replicate (r.blanks 0) ' ' ++ (r.pid.text ++ (List.replicate (r.blanks 1 + 1) ' ' ++ (r.group.text ++
    (List.replicate (r.blanks 2 + 1) ' ' ++ (r.state.text ++ List.replicate (r.blanks 3 + 1) ' ')))))

def print (r : Row) : List Char := r.head ++ r.command ++ ['\n']

/-- The lines of a command, as the reading breaks it. -/
def lines (r : Row) : List (List Char) := splitlines (r.command ++ ['\n'])

/-- What of the command stands on the row's own line. -/
def first (r : Row) : List Char := r.lines.headD []

/-- What a break of the command puts on lines of their own. -/
def more (r : Row) : List (List Char) := r.lines.tail

def isMember (r : Row) (pgid : ℤ) : Bool := readsAsInt r.pid.text && int r.group.text = some pgid

def isReadable (r : Row) : Bool := readsAsInt r.pid.text && readsAsInt r.group.text

def isRunning (r : Row) : Bool := r.state.text.head? ≠ some 'Z'

/-- The pid a row lists for a group. -/
def listed (pgid : ℤ) (r : Row) : List ℤ := if r.isMember pgid then (int r.pid.text).toList else []

def running (pgid : ℤ) (r : Row) : List ℤ := if r.isRunning then r.listed pgid else []

/-- The command of a row that runs in a group. -/
def commands (pgid : ℤ) (r : Row) : List (List Char) :=
  if r.isMember pgid && r.isRunning then [r.command] else []

end Row

/-- What `ps` prints. -/
def printed (rows : List Row) : List Char := rows.flatMap Row.print

/-- The listing says exactly what the processes are. -/
structure Exact (rows : List Row) (pgid : ℤ) : Prop where
  listed : (readListing (printed rows) pgid).listed = rows.flatMap (Row.listed pgid)
  running : (readListing (printed rows) pgid).runningPids = rows.flatMap (Row.running pgid)
  commands : (readListing (printed rows) pgid).runningCommands = rows.flatMap (Row.commands pgid)
  readable : (readListing (printed rows) pgid).readable = false → ∃ r ∈ rows, r.isReadable = false
  complete : (readListing (printed rows) pgid).complete = true → ∃ r ∈ rows, int r.pid.text = some 1

/-! ## When it does -/

/-- A line reads as a process of a group. -/
def lineNames (pgid : ℤ) (line : List Char) : Bool :=
  match splitCells 3 line with
  | pid :: group :: _ :: _ => readsAsInt pid && int group = some pgid
  | _ => false

/-- A line is blank, or reads as a process of some group. -/
def lineReads (line : List Char) : Bool :=
  match splitCells 3 line with
  | [] => true
  | pid :: group :: _ :: _ => readsAsInt pid && readsAsInt group
  | _ => false

/-- A line reads as the first process. -/
def lineIsFirst (line : List Char) : Bool :=
  match splitCells 3 line with
  | pid :: _ :: _ :: _ => int pid = some 1
  | _ => false

/-- The condition on the command lines: what a break of one puts on lines of their own adds nothing to the
    reading, and a command that is read has no break and begins with no white space. -/
structure Quiet (rows : List Row) (pgid : ℤ) : Prop where
  group : ∀ r ∈ rows, ∀ line ∈ r.more, lineNames pgid line = false
  readable : (∃ r ∈ rows, r.isReadable = false) ∨ ∀ r ∈ rows, ∀ line ∈ r.more, lineReads line = true
  complete : (∃ r ∈ rows, int r.pid.text = some 1) ∨ ∀ r ∈ rows, ∀ line ∈ r.more, lineIsFirst line = false
  whole : ∀ r ∈ rows, r.isMember pgid = true → r.isRunning = true →
    (∀ c ∈ r.command, isLineBreak c = false) ∧ ∀ c ∈ r.command.head?, isSpace c = false

/-! ## The lines of the output -/

lemma head_solid (r : Row) : ∀ c ∈ r.head, isLineBreak c = false := by
  have hcell : ∀ (cell : Cell), ∀ c ∈ cell.text, isLineBreak c = false := fun cell c hc =>
    isLineBreak_of_not_isSpace (cell.solid c hc)
  have hblanks : ∀ n, ∀ c ∈ List.replicate n ' ', isLineBreak c = false := fun n c hc => by
    rw [List.eq_of_mem_replicate hc]
    decide
  simp only [Row.head, List.forall_mem_append]
  exact ⟨hblanks _, hcell _, hblanks _, hcell _, hblanks _, hcell _, hblanks _⟩

lemma lines_eq (r : Row) : r.lines = r.first :: r.more := by
  obtain ⟨first, more, hlines, -⟩ := splitFrom_append [] (List.append_ne_nil_of_right_ne_nil r.command (List.cons_ne_nil '\n' []))
  simp only [Row.first, Row.more, Row.lines, splitlines, hlines, List.headD_cons, List.tail_cons]

/-- **The lines of a row** and of what is printed behind it. -/
lemma splitlines_print (r : Row) (rest : List Char) :
    splitlines (r.print ++ rest) = (r.head ++ r.first) :: (r.more ++ splitlines rest) := by
  obtain ⟨first, more, hlines, hline⟩ := splitFrom_append r.head (List.append_ne_nil_of_right_ne_nil r.command (List.cons_ne_nil '\n' []))
  have hrow : first :: more = r.first :: r.more := by rw [← lines_eq, ← hlines]; rfl
  obtain ⟨rfl, rfl⟩ := List.cons_eq_cons.mp hrow
  calc splitlines (r.print ++ rest)
    _ = splitFrom [] (r.head ++ (r.command ++ '\n' :: rest)) := by simp [splitlines, Row.print]
    _ = splitFrom r.head (r.command ++ ['\n']) ++ splitFrom [] rest := by
      rw [splitFrom_solid (head_solid r), List.nil_append, splitFrom_newline]
    _ = (r.head ++ r.first) :: (r.more ++ splitlines rest) := by rw [hline]; rfl

lemma splitlines_printed (rows : List Row) :
    splitlines (printed rows) = rows.flatMap fun r => (r.head ++ r.first) :: r.more := by
  induction rows with
  | nil => rfl
  | cons r rows ih => rw [printed, List.flatMap_cons, splitlines_print, ← printed, ih, List.flatMap_cons, List.cons_append]

/-! ## What each line adds -/

lemma readRow_append (pgid : ℤ) (seen : Listing) (line : List Char) :
    readRow pgid seen line = seen.append (readRow pgid .empty line) := by
  unfold readRow
  split
  · simp [Listing.append, Listing.empty]
  · split
    · simp [Listing.append, Listing.empty]
    · dsimp only
      split
      · simp [Listing.append, Listing.empty]
      · split_ifs <;> simp [Listing.append, Listing.empty]
  · simp [Listing.append, Listing.empty]

/-- What a list of lines adds to a reading, field by field. -/
lemma foldl_readRow (pgid : ℤ) (lines : List (List Char)) (seen : Listing) :
    lines.foldl (readRow pgid) seen =
      { complete := seen.complete || lines.any fun line => (readRow pgid .empty line).complete
        readable := seen.readable && lines.all fun line => (readRow pgid .empty line).readable
        listed := seen.listed ++ lines.flatMap fun line => (readRow pgid .empty line).listed
        runningPids := seen.runningPids ++ lines.flatMap fun line => (readRow pgid .empty line).runningPids
        runningCommands := seen.runningCommands ++
          lines.flatMap fun line => (readRow pgid .empty line).runningCommands } := by
  induction lines generalizing seen with
  | nil => simp
  | cons line lines ih =>
      rw [List.foldl_cons, ih, readRow_append]
      simp [Listing.append, Bool.or_assoc, Bool.and_assoc]

/-- The cells of a row's own line. -/
lemma splitCells_row (r : Row) :
    splitCells 3 (r.head ++ r.first) =
      r.pid.text :: r.group.text :: r.state.text :: splitCells 0 r.first := by
  have hblank : ∀ (n : ℕ) (rest : List Char), ∀ c ∈ (List.replicate (n + 1) ' ' ++ rest).head?, isSpace c = true := by
    rintro n rest c hc
    rw [List.replicate_succ, List.cons_append, List.head?_cons, Option.mem_some_iff] at hc
    rw [← hc]
    decide
  have hrest : splitCells 0 (List.replicate (r.blanks 3 + 1) ' ' ++ r.first) = splitCells 0 r.first := by
    simp only [splitCells, dropWhile_isSpace_blanks]
  simp only [Row.head, List.append_assoc]
  rw [splitCells_cell 2 _ r.pid (hblank _ _), splitCells_cell 1 _ r.group (hblank _ _),
    splitCells_cell 0 _ r.state (hblank _ _), hrest]

lemma splitCells_zero_flatten (text : List Char) : (splitCells 0 text).flatten = text.dropWhile isSpace := by
  unfold splitCells
  dsimp only
  split_ifs with h
  · rw [h, List.flatten_nil]
  · rw [List.flatten_singleton]

/-- What a row's own line adds. -/
lemma readRow_row (pgid : ℤ) (r : Row) :
    readRow pgid .empty (r.head ++ r.first) =
      { complete := int r.pid.text = some 1
        readable := r.isReadable
        listed := r.listed pgid
        runningPids := r.running pgid
        runningCommands :=
          if r.isMember pgid && r.isRunning then [r.first.dropWhile isSpace] else [] } := by
  rw [readRow, splitCells_row]
  cases hpid : int r.pid.text with
  | none => simp [Row.isReadable, Row.listed, Row.running, Row.isMember, readsAsInt, hpid, Listing.empty]
  | some member =>
      cases hgroup : int r.group.text with
      | none =>
          simp [Row.isReadable, Row.listed, Row.running, Row.isMember, readsAsInt, hpid, hgroup, Listing.empty]
      | some number =>
          by_cases hnumber : number = pgid <;> by_cases hzombie : r.state.text.head? = some 'Z' <;>
            simp [Row.isReadable, Row.listed, Row.running, Row.isMember, Row.isRunning, readsAsInt, hpid, hgroup,
              hnumber, hzombie, Listing.empty, splitCells_zero_flatten]

/-- What any line adds to a group. -/
lemma readRow_of_not_names {pgid : ℤ} {line : List Char} (h : lineNames pgid line = false) :
    (readRow pgid .empty line).listed = [] ∧ (readRow pgid .empty line).runningPids = [] ∧
      (readRow pgid .empty line).runningCommands = [] := by
  unfold lineNames at h
  unfold readRow
  split
  · simp [Listing.empty]
  · rename_i pid group state command hcells
    rw [hcells] at h
    cases hpid : int pid with
    | none => simp [Listing.empty]
    | some member =>
        cases hgroup : int group with
        | none => simp [Listing.empty]
        | some number =>
            have hother : number ≠ pgid := by simpa [readsAsInt, hpid, hgroup] using h
            simp [hother, Listing.empty]
  · simp [Listing.empty]

lemma listed_ne_nil_of_names {pgid : ℤ} {line : List Char} (h : lineNames pgid line = true) :
    (readRow pgid .empty line).listed ≠ [] := by
  unfold lineNames at h
  unfold readRow
  split at h
  · rename_i pid group state command hcells
    rw [hcells]
    rw [Bool.and_eq_true, decide_eq_true_eq] at h
    obtain ⟨hpid, hgroup⟩ := h
    obtain ⟨member, hmember⟩ := Option.isSome_iff_exists.mp hpid
    simp only [hmember, hgroup, ne_eq, not_true_eq_false, if_false]
    split_ifs <;> simp
  · exact absurd h (by decide)

lemma readable_eq (pgid : ℤ) (line : List Char) : (readRow pgid .empty line).readable = lineReads line := by
  unfold lineReads readRow
  rcases splitCells 3 line with _ | ⟨pid, _ | ⟨group, _ | ⟨state, command⟩⟩⟩
  · rfl
  · rfl
  · rfl
  · cases hpid : int pid with
    | none => simp [readsAsInt, hpid]
    | some member =>
        cases hgroup : int group with
        | none => simp [readsAsInt, hpid, hgroup]
        | some number =>
            simp only [readsAsInt, hpid, hgroup]
            split_ifs <;> rfl

lemma complete_eq (pgid : ℤ) (line : List Char) : (readRow pgid .empty line).complete = lineIsFirst line := by
  unfold lineIsFirst readRow
  rcases splitCells 3 line with _ | ⟨pid, _ | ⟨group, _ | ⟨state, command⟩⟩⟩
  · rfl
  · rfl
  · rfl
  · cases hpid : int pid with
    | none => simp [hpid, Listing.empty]
    | some member =>
        cases hgroup : int group with
        | none => simp [hpid, hgroup, Listing.empty]
        | some number =>
            simp only [hpid, hgroup]
            split_ifs <;> simp [Listing.empty]

lemma lineReads_row (r : Row) : lineReads (r.head ++ r.first) = r.isReadable := by
  rw [← readable_eq 0, readRow_row]

lemma lineIsFirst_row (r : Row) : lineIsFirst (r.head ++ r.first) = (int r.pid.text = some 1 : Bool) := by
  rw [← complete_eq 0, readRow_row]

/-! ## Exactness -/

lemma length_flatMap_le {α β : Type*} (l : List α) (f g : α → List β) :
    (l.flatMap f).length ≤ (l.flatMap fun a => f a ++ g a).length := by
  induction l with
  | nil => exact le_rfl
  | cons a l ih =>
      simp only [List.flatMap_cons, List.length_append]
      omega

/-- Parts put into a list of parts show, unless they are empty. -/
lemma flatMap_append_eq_iff {α β : Type*} (l : List α) (f g : α → List β) :
    (l.flatMap fun a => f a ++ g a) = l.flatMap f ↔ ∀ a ∈ l, g a = [] := by
  induction l with
  | nil => simp
  | cons a l ih =>
      rw [List.flatMap_cons, List.flatMap_cons, List.append_assoc, List.append_cancel_left_eq, List.forall_mem_cons, ← ih]
      have hlength := length_flatMap_le l f g
      constructor
      · intro h
        have hnil : g a = [] := by
          have hsum := congrArg List.length h
          rw [List.length_append] at hsum
          exact List.eq_nil_of_length_eq_zero (by omega)
        rw [hnil, List.nil_append] at h
        exact ⟨hnil, h⟩
      · rintro ⟨hnil, h⟩
        rw [hnil, h, List.nil_append]

/-- Lists made of parts of one length are equal part by part. -/
lemma flatMap_eq_iff {α β : Type*} (l : List α) (f g : α → List β) (hlength : ∀ a ∈ l, (f a).length = (g a).length) :
    l.flatMap f = l.flatMap g ↔ ∀ a ∈ l, f a = g a := by
  induction l with
  | nil => simp
  | cons a l ih =>
      obtain ⟨ha, hl⟩ := List.forall_mem_cons.mp hlength
      rw [List.flatMap_cons, List.flatMap_cons, List.forall_mem_cons, ← ih hl]
      exact ⟨fun h => List.append_inj h ha, fun h => by rw [h.1, h.2]⟩

/-- The command of a row is read whole. -/
lemma read_eq_command_iff (r : Row) :
    r.first.dropWhile isSpace = r.command ↔
      (∀ c ∈ r.command, isLineBreak c = false) ∧ ∀ c ∈ r.command.head?, isSpace c = false := by
  have hnone : ∀ c ∈ ([] : List Char), isLineBreak c = false := by simp
  have hmem : r.first ∈ splitFrom [] (r.command ++ ['\n']) := by
    show r.first ∈ r.lines
    rw [lines_eq]
    exact List.mem_cons_self
  have hfirst := not_isLineBreak_of_mem hnone r.first hmem
  have hwhole : (∀ c ∈ r.command, isLineBreak c = false) → r.first = r.command := fun h => by
    have hlines := splitFrom_row h [] []
    rw [List.nil_append] at hlines
    exact (List.cons_eq_cons.mp ((lines_eq r).symm.trans hlines)).1
  constructor
  · intro h
    have hsolid : ∀ c ∈ r.command, isLineBreak c = false := fun c hc =>
      hfirst c ((List.dropWhile_sublist isSpace).mem (h ▸ hc))
    rw [hwhole hsolid] at h
    refine ⟨hsolid, fun c hc => ?_⟩
    have hhead := List.head?_dropWhile_not isSpace r.command
    rw [h, Option.mem_def.mp hc] at hhead
    exact hhead
  · rintro ⟨hsolid, hhead⟩
    rw [hwhole hsolid]
    cases hcommand : r.command with
    | nil => rfl
    | cons c command =>
        rw [hcommand] at hhead
        rw [List.dropWhile_cons_of_neg (by rw [hhead c rfl]; decide)]

section

variable (rows : List Row) (pgid : ℤ)

lemma readListing_printed :
    readListing (printed rows) pgid =
      { complete := rows.any fun r => (int r.pid.text = some 1) || r.more.any lineIsFirst
        readable := rows.all fun r => r.isReadable && r.more.all lineReads
        listed := rows.flatMap fun r => r.listed pgid ++
          r.more.flatMap fun line => (readRow pgid .empty line).listed
        runningPids := rows.flatMap fun r => r.running pgid ++
          r.more.flatMap fun line => (readRow pgid .empty line).runningPids
        runningCommands := rows.flatMap fun r =>
          (if r.isMember pgid && r.isRunning then [r.first.dropWhile isSpace] else []) ++
            r.more.flatMap fun line => (readRow pgid .empty line).runningCommands } := by
  rw [readListing, splitlines_printed, foldl_readRow]
  simp only [List.any_flatMap, List.all_flatMap, List.flatMap_assoc, List.any_cons, List.all_cons, List.flatMap_cons,
    readRow_row, readable_eq, complete_eq, lineReads_row, lineIsFirst_row, Listing.complete_empty, Listing.readable_empty, Listing.listed_empty,
    Listing.runningPids_empty, Listing.runningCommands_empty, Bool.false_or, Bool.true_and, List.nil_append]

/-- A further line that names the group shows in its pids. -/
lemma more_listed_iff :
    (∀ r ∈ rows, r.more.flatMap (fun line => (readRow pgid .empty line).listed) = []) ↔
      ∀ r ∈ rows, ∀ line ∈ r.more, lineNames pgid line = false := by
  refine forall₂_congr fun r _ => ?_
  rw [List.flatMap_eq_nil_iff]
  refine forall₂_congr fun line _ => ⟨fun h => ?_, fun h => (readRow_of_not_names h).1⟩
  rw [← Bool.not_eq_true]
  exact fun hnames => listed_ne_nil_of_names hnames h

/-- The commands of the rows' own lines are the processes' where each is read whole. -/
lemma own_commands_iff :
    (rows.flatMap fun r => if r.isMember pgid && r.isRunning then [r.first.dropWhile isSpace] else []) =
        rows.flatMap (Row.commands pgid) ↔
      ∀ r ∈ rows, r.isMember pgid = true → r.isRunning = true →
        (∀ c ∈ r.command, isLineBreak c = false) ∧ ∀ c ∈ r.command.head?, isSpace c = false := by
  rw [flatMap_eq_iff]
  · refine forall₂_congr fun r _ => ?_
    rw [← read_eq_command_iff]
    cases hm : r.isMember pgid <;> cases hr : r.isRunning <;> simp [Row.commands, hm, hr]
  · intro r _
    unfold Row.commands
    split_ifs <;> rfl

/-- **When the listing is exact**, for every set of processes and every group. -/
theorem readListing_exact_iff : Exact rows pgid ↔ Quiet rows pgid := by
  constructor
  · rintro ⟨hlisted, hrunning, hcommands, hreadable, hcomplete⟩
    rw [readListing_printed] at hlisted hcommands hreadable hcomplete
    have hgroup := (more_listed_iff rows pgid).mp ((flatMap_append_eq_iff _ _ _).mp hlisted)
    have hnone : ∀ r ∈ rows, r.more.flatMap (fun line => (readRow pgid .empty line).runningCommands) = [] :=
      fun r hr => List.flatMap_eq_nil_iff.mpr fun line hline => (readRow_of_not_names (hgroup r hr line hline)).2.2
    refine ⟨hgroup, or_iff_not_imp_left.mpr fun hno r hr line hline => ?_,
      or_iff_not_imp_left.mpr fun hno r hr line hline => ?_, ?_⟩
    · by_contra hbad
      refine hno (hreadable (List.all_eq_false.mpr ⟨r, hr, ?_⟩))
      rw [Bool.and_eq_true, List.all_eq_true]
      exact fun h => hbad (h.2 line hline)
    · rw [← Bool.not_eq_true]
      intro hfirst
      refine hno (hcomplete (List.any_eq_true.mpr ⟨r, hr, ?_⟩))
      rw [Bool.or_eq_true, List.any_eq_true]
      exact Or.inr ⟨line, hline, hfirst⟩
    · refine (own_commands_iff rows pgid).mp (Eq.trans ?_ hcommands)
      exact ((flatMap_append_eq_iff _ _ _).mpr hnone).symm
  · rintro ⟨hgroup, hreadable, hcomplete, hwhole⟩
    have hempty := fun r hr line hline => readRow_of_not_names (hgroup r hr line hline)
    constructor <;> rw [readListing_printed]
    · exact (flatMap_append_eq_iff _ _ _).mpr ((more_listed_iff rows pgid).mpr hgroup)
    · exact (flatMap_append_eq_iff _ _ _).mpr fun r hr =>
        List.flatMap_eq_nil_iff.mpr fun line hline => (hempty r hr line hline).2.1
    · refine Eq.trans ((flatMap_append_eq_iff _ _ _).mpr fun r hr => ?_) ((own_commands_iff rows pgid).mpr hwhole)
      exact List.flatMap_eq_nil_iff.mpr fun line hline => (hempty r hr line hline).2.2
    · intro hunread
      refine hreadable.elim id fun hmore => ?_
      obtain ⟨r, hr, hbad⟩ := List.all_eq_false.mp hunread
      refine ⟨r, hr, Bool.not_eq_true _ ▸ fun hread => hbad ?_⟩
      rw [hread, Bool.true_and, List.all_eq_true]
      exact hmore r hr
    · intro hfull
      refine hcomplete.elim id fun hmore => ?_
      obtain ⟨r, hr, hone⟩ := List.any_eq_true.mp hfull
      refine ⟨r, hr, ?_⟩
      rw [Bool.or_eq_true, decide_eq_true_eq, List.any_eq_true] at hone
      refine hone.resolve_right ?_
      rintro ⟨line, hline, hfirst⟩
      rw [hmore r hr line hline] at hfirst
      exact absurd hfirst (by decide)

end

/-- A process of group 7 whose command line holds a line separator and a row of its own. -/
def forged : Row where
  pid := ⟨['5', '0'], by decide, by decide⟩
  group := ⟨['7'], by decide, by decide⟩
  state := ⟨['S'], by decide, by decide⟩
  command := "sh\u202851 7 S sh".toList
  blanks _ := 0
  oneLine := by decide

/-- It is read as two processes. -/
theorem forged_row_listed :
    (readListing (printed [forged]) 7).listed = [50, 51] ∧ ¬ Exact [forged] 7 := by
  have hlisted : (readListing (printed [forged]) 7).listed = [50, 51] := by decide +kernel
  have hpids : [forged].flatMap (Row.listed 7) = [50] := by decide +kernel
  refine ⟨hlisted, fun h => ?_⟩
  have hexact := h.listed
  rw [hlisted, hpids] at hexact
  exact absurd hexact (by decide)

end Proc

end Kstrl
