import Kstrl.Queue.Adding
import Kstrl.Queue.Invariant
import Kstrl.Serve.SteeringRuns

/-!
# How often a comment takes effect

The effects of a command come before its entry in the ledger, and a command can have two of them.  So what
becomes of a comment depends on what stops the poll between its first effect and the entry.

* **`Settles`** is the condition on one command: once it has begun to take effect, nothing fails and nothing
  is cut off before it is entered.
* **`runCommand_told`**: what a command does to the checkout, under whatever faults.
* **`effects_once`**: in a run of settled commands a comment appends once and enqueues once, and no poll
  touches an item that is in the queue.
* **`iterate_appends_twice`** is a run that is not: the text of an `/iterate` is appended, the re-run fails,
  and the next poll appends the text again.
-/

namespace Kstrl

open CrashProg Runs

namespace Serve

/-! ## The condition -/

def MemoryFile.readable : MemoryFile → Bool
  | .unreadable _ => false
  | _ => true

/-- Whether the text of the command is one that is appended. -/
def appends (s : Checkout) (cmd : SteerCommand) : Bool :=
  memoryTextRefusal cmd.text = "" && s.memory.readable

/-- Whether the item can be enqueued again. -/
def requeues (turn : SteerTurn) (d : Disk) (original : QueueItem) (cmd : SteerCommand) : Bool :=
  isSafeComponent original.itemId && isSafeComponent original.specFilename &&
    match (d.dirs.lookup (original.state, original.itemId)).bind
        fun files => files.lookup original.specFilename with
    | none => false
    | some content =>
        match turn.readText content with
        | .error _ => false
        | .ok chars =>
            Queue.accepts turn.env d turn.mint (.text chars content.readJson) (requeueArgs original cmd)

/-- The re-run of a command, when the text is already appended (`owed`) and when it is not: an item that is
    published is entered, and a text that is appended is not left behind by a re-run that fails. -/
def AgainSettles (letters : Letters) (s : Checkout) (turn : SteerTurn) (cmd : SteerCommand) (owed : Bool)
    (fs : List CrashProg.Fault) : Prop :=
  match itemForPr letters s.queue cmd.prUrl with
  | none => owed = true → through 1 fs = true
  | some original =>
      if requeues turn s.queue original cmd = true ∧ through 4 fs = true then
        (fs.drop 4).head? ≠ some .crash ∧ through 1 (fs.drop 5) = true
      else owed = false

/-- **A settled command**: nothing stops it between its first effect and its entry. -/
def Settles (letters : Letters) (s : Checkout) (turn : SteerTurn) (cmd : SteerCommand) (fs : List CrashProg.Fault) : Prop :=
  if cmd.command = steerMemory then
    appends s cmd = true → through 1 fs = true → through 1 fs.tail = true
  else if cmd.text = "" then AgainSettles letters s turn cmd false fs
  else appends s cmd = true → through 1 fs = true → AgainSettles letters s turn cmd true fs.tail

/-! ## What a command does -/

/-- What a command has done to the checkout. -/
structure Told (cmd : SteerCommand) (s t : Checkout) (appended requeued : Bool) : Prop where
  effects : t.effects = s.effects ++ (if appended then [.appended cmd.prNumber cmd.commentId] else []) ++
    if requeued then [.requeued cmd.prNumber cmd.commentId] else []
  kept : ∀ place files, s.queue.dirs.lookup place = some files → t.queue.dirs.lookup place = some files

lemma Told.refl (cmd : SteerCommand) (s : Checkout) : Told cmd s s false false where
  effects := by simp
  kept _ _ := id

lemma append_ne_empty_left {a b : String} (h : a ≠ "") : a ++ b ≠ "" := by
  intro he
  have := congrArg String.toList he
  rw [String.toList_append, String.toList_empty, List.append_eq_nil_iff] at this
  exact h (String.toList_inj.mp this.1)

section Run

variable {letters : Letters} {ctx : SteerContext} {turn : SteerTurn} {cmd : SteerCommand} {fs : List CrashProg.Fault}
  {s : Checkout}

lemma append_run (effect : Effect) (record body : String) (fs : List CrashProg.Fault) (s : Checkout) :
    (through 1 fs = true ∧ appendGuidanceRecord.append ctx effect record body fs s
        = (.done "", fs.tail, s.withMemory effect (insertUnderGuidance body record))) ∨
      (through 1 fs = false ∧ (appendGuidanceRecord.append ctx effect record body fs s).2.2 = s ∧
        ∀ msg, (appendGuidanceRecord.append ctx effect record body fs s).1 = .done msg → msg ≠ "") := by
  cases h : through 1 fs with
  | true =>
      refine Or.inl ⟨rfl, run_catching_done ?_⟩
      rw [run_bind_done (run_write _ _ h)]
      rfl
  | false =>
      refine Or.inr ⟨rfl, ?_⟩
      rw [appendGuidanceRecord.append]
      rcases run_write_bind_stopped (s := s) (fun s => s.withMemory effect (insertUnderGuidance body record))
        (IntakeError.os "memory") (fun _ => (pure "" : IntakeProg String)) h with hrun | hrun
      · rw [run_catching_raised hrun]
        refine ⟨rfl, fun msg hmsg => ?_⟩
        cases hmsg
        exact append_ne_empty_left (append_ne_empty_left (append_ne_empty_left (by decide)))
      · rw [run_catching_crashed hrun]
        exact ⟨rfl, fun msg hmsg => nomatch hmsg⟩

lemma appendGuidanceRecord_run (effect : Effect) (record : String) (fs : List CrashProg.Fault) (s : Checkout) :
    (s.memory.readable = true ∧ through 1 fs = true ∧ ∃ chars,
      appendGuidanceRecord ctx effect record fs s = (.done "", fs.tail, s.withMemory effect chars)) ∨
    ((s.memory.readable = false ∨ through 1 fs = false) ∧ (appendGuidanceRecord ctx effect record fs s).2.2 = s ∧
      ∀ msg, (appendGuidanceRecord ctx effect record fs s).1 = .done msg → msg ≠ "") := by
  by_cases hreadable : s.memory.readable = true
  · obtain ⟨body, hbody⟩ : ∃ body, appendGuidanceRecord ctx effect record fs s
        = appendGuidanceRecord.append ctx effect record body fs s := by
      rw [appendGuidanceRecord, run_read_bind]
      cases hmemory : s.memory with
      | missing => exact ⟨_, rfl⟩
      | unreadable exc => simp [MemoryFile.readable, hmemory] at hreadable
      | text body => exact ⟨body, rfl⟩
    rw [hbody]
    rcases append_run effect record body fs s with ⟨hthrough, hrun⟩ | ⟨hthrough, hsame, hmsg⟩
    · exact Or.inl ⟨hreadable, hthrough, _, hrun⟩
    · exact Or.inr ⟨Or.inr hthrough, hsame, hmsg⟩
  · rw [appendGuidanceRecord, run_read_bind]
    cases hmemory : s.memory with
    | missing => simp [MemoryFile.readable, hmemory] at hreadable
    | text body => simp [MemoryFile.readable, hmemory] at hreadable
    | unreadable exc =>
        refine Or.inr ⟨Or.inl (by simp [MemoryFile.readable]), rfl, fun msg hmsg => ?_⟩
        cases hmsg
        exact append_ne_empty_left (append_ne_empty_left (append_ne_empty_left (by decide)))

/-- **One append**: it is made and told, or the checkout is as it was. -/
lemma recordMemory_run (turn : SteerTurn) (cmd : SteerCommand) (refusalPrefix : String) (fs : List CrashProg.Fault)
    (s : Checkout) :
    (appends s cmd = true ∧ through 1 fs = true ∧ ∃ o chars, o.error = "" ∧
      recordMemory ctx turn cmd refusalPrefix fs s
        = (.done (o, true), fs.tail, s.withMemory (.appended cmd.prNumber cmd.commentId) chars)) ∨
    ((appends s cmd = false ∨ through 1 fs = false) ∧
      (recordMemory ctx turn cmd refusalPrefix fs s).2.2 = s ∧
      ∀ r, (recordMemory ctx turn cmd refusalPrefix fs s).1 = .done r → r.2 = false) := by
  by_cases hrefusal : memoryTextRefusal cmd.text = ""
  swap
  · have hrun : recordMemory ctx turn cmd refusalPrefix fs s
        = (.done ({ comment := refusalPrefix ++ memoryTextRefusal cmd.text }, false), fs, s) := by
      rw [recordMemory, if_pos hrefusal]
      rfl
    rw [hrun]
    refine Or.inr ⟨Or.inl (by simp [appends, hrefusal]), rfl, fun r hr => ?_⟩
    cases hr
    rfl
  have hprog : recordMemory ctx turn cmd refusalPrefix = (do
      let error ← appendGuidanceRecord ctx (.appended cmd.prNumber cmd.commentId) (guidanceRecord turn cmd)
      if error ≠ "" then pure ({ error := error }, false)
      else pure ({ comment := recordedComment ctx cmd }, true)) := by
    rw [recordMemory, if_neg (not_not.mpr hrefusal)]
  rw [hprog]
  rcases appendGuidanceRecord_run (.appended cmd.prNumber cmd.commentId) (guidanceRecord turn cmd) fs s
    with ⟨hreadable, hthrough, chars, hrun⟩ | ⟨hnot, hsame, hmsg⟩
  · refine Or.inl ⟨by simp [appends, hrefusal, hreadable], hthrough, { comment := recordedComment ctx cmd }, chars,
      rfl, ?_⟩
    rw [run_bind_done hrun]
    rfl
  refine Or.inr ⟨hnot.imp (fun h => by simp [appends, h]) id, ?_⟩
  rcases hrun : appendGuidanceRecord ctx (.appended cmd.prNumber cmd.commentId) (guidanceRecord turn cmd) fs s with
    ⟨msg | e | _, fs', t⟩
  · rw [hrun] at hsame hmsg
    obtain rfl : t = s := hsame
    rw [run_bind_done hrun, if_pos (hmsg msg rfl)]
    refine ⟨rfl, fun r hr => ?_⟩
    cases hr
    rfl
  · rw [hrun] at hsame
    rw [run_bind_raised hrun]
    exact ⟨hsame, fun r hr => nomatch hr⟩
  · rw [hrun] at hsame
    rw [run_bind_crashed hrun]
    exact ⟨hsame, fun r hr => nomatch hr⟩

/-- The spec of a re-run is read, or there is no re-run. -/
lemma readSpec_run (turn : SteerTurn) (original : QueueItem) (cmd : SteerCommand) (fs : List CrashProg.Fault) (d : Disk) :
    (∃ spec, readSpec turn original fs d = (.done spec, fs, d) ∧ requeues turn d original cmd
      = Queue.accepts turn.env d turn.mint spec (requeueArgs original cmd)) ∨
    ∃ e, readSpec turn original fs d = (.raised e, fs, d) ∧ requeues turn d original cmd = false := by
  rw [readSpec, Queue.itemDir, bind_bind]
  by_cases hid : isSafeComponent original.itemId = true
  swap
  · exact Or.inr ⟨_, run_require_neg hid _ _, by simp [requeues, hid]⟩
  rw [run_require_pos hid]
  by_cases hname : isSafeComponent original.specFilename = true
  swap
  · exact Or.inr ⟨_, run_require_neg hname _ _, by simp [requeues, hname]⟩
  show (∃ spec, (require _ _ >>= _) fs d = _ ∧ _) ∨ ∃ e, (require _ _ >>= _) fs d = _ ∧ _
  rw [run_require_pos hname, run_read_bind]
  cases hfile : (d.dirs.lookup (original.state, original.itemId)).bind
      fun files => files.lookup original.specFilename with
  | none => exact Or.inr ⟨_, rfl, by simp [requeues, hfile]⟩
  | some content =>
      cases htext : turn.readText content with
      | error exc =>
          refine Or.inr ⟨.os exc, ?_, by simp [requeues, hfile, htext]⟩
          show (match turn.readText content with | .error exc => _ | .ok chars => _ : QueueProg _) fs d = _
          rw [htext]
          rfl
      | ok chars =>
          refine Or.inl ⟨.text chars content.readJson, ?_, by simp [requeues, hid, hname, hfile, htext]⟩
          show (match turn.readText content with | .error exc => _ | .ok chars => _ : QueueProg _) fs d = _
          rw [htext]
          rfl

/-- **The queue's part of a re-run.** -/
lemma requeue_run (turn : SteerTurn) (original : QueueItem) (cmd : SteerCommand) (fs : List CrashProg.Fault) (d : Disk) :
    (requeues turn d original cmd = true ∧ through 4 fs = true ∧ ∃ item,
      Published d (requeue turn original cmd fs d).2.2 item ∧
      (((fs.drop 4).head? = some .crash ∧ (requeue turn original cmd fs d).1 = .crashed) ∨
        ((fs.drop 4).head? ≠ some .crash ∧ (requeue turn original cmd fs d).1 = .done item ∧
          (requeue turn original cmd fs d).2.1 = fs.drop 5))) ∨
    (¬ (requeues turn d original cmd = true ∧ through 4 fs = true) ∧
      (requeue turn original cmd fs d).2.2.dirs = d.dirs ∧ ∀ a, (requeue turn original cmd fs d).1 ≠ .done a) := by
  rw [requeue]
  rcases readSpec_run turn original cmd fs d with ⟨spec, hread, hacc⟩ | ⟨e, hread, hnot⟩
  · rw [run_bind_done hread, hacc]
    rcases Queue.add_run turn.env turn.mint spec (requeueArgs original cmd) fs d with
      ⟨hacc, hthrough, hpub, hend⟩ | ⟨hnot, hdirs, hdone⟩
    · exact Or.inl ⟨hacc, hthrough, _, hpub, hend⟩
    · refine Or.inr ⟨fun h => ?_, hdirs, hdone⟩
      rcases hnot with hnot | hnot
      · exact absurd (hnot.symm.trans h.1) (by decide)
      · exact absurd (hnot.symm.trans h.2) (by decide)
  · rw [run_bind_raised hread, hnot]
    exact Or.inr ⟨fun h => absurd h.1 (by decide), rfl, fun a ha => nomatch ha⟩

/-- The effects of a queue operation that made no directory. -/
lemma newPlaces_of_dirs {d : Disk} (h : d.dirs = s.queue.dirs) : s.newPlaces d = [] := by
  rw [Checkout.newPlaces, h]
  refine List.filter_eq_nil_iff.mpr fun place hplace => ?_
  simpa using AList.mem_keys.mpr hplace

lemma newPlaces_of_published {d : Disk} {item : QueueItem} (h : Published s.queue d item) :
    s.newPlaces d = [(.queued, item.itemId)] := by
  obtain ⟨files, hdirs, _⟩ := h.dirs
  have hfresh := h.fresh
  rw [Checkout.newPlaces, hdirs, AList.keys_insert, ← AList.keys_erase,
    List.filter_cons_of_pos (by simpa using hfresh)]
  congr 1
  refine List.filter_eq_nil_iff.mpr fun place hplace => ?_
  simpa using (AList.mem_erase.mp (AList.mem_keys.mpr hplace)).2

lemma kept_of_published {d : Disk} {item : QueueItem} (h : Published s.queue d item) (place : Place) (files : Files)
    (hplace : s.queue.dirs.lookup place = some files) : d.dirs.lookup place = some files := by
  obtain ⟨new, hdirs, _⟩ := h.dirs
  rw [hdirs, AList.lookup_insert_ne]
  · exact hplace
  · rintro rfl
    exact h.fresh (AList.lookup_isSome.mp (by rw [hplace]; rfl))

section OnQueue

variable {α : Type} {effect : Effect} {c : QueueProg α} {fs' : List CrashProg.Fault} {d : Disk}

lemma onQueue_done {a : α} (h : c fs s.queue = (.done a, fs', d)) :
    onQueue effect c fs s = (.done a, fs', s.withQueue effect d) := by
  rw [onQueue, h]

lemma onQueue_raised {e : QueueError} (h : c fs s.queue = (.raised e, fs', d)) :
    onQueue effect c fs s = (.raised (.queue e), fs', s.withQueue effect d) := by
  rw [onQueue, h]

lemma onQueue_crashed (h : c fs s.queue = (.crashed, fs', d)) :
    onQueue effect c fs s = (.crashed, fs', s.withQueue effect d) := by
  rw [onQueue, h]

end OnQueue

/-- How a command that was settled comes out: it has to be entered, and the entry gets through. -/
def ComesToEntry (run : Exit IntakeError SteerOutcome × List CrashProg.Fault × Checkout) : Prop :=
  ∃ o, run.1 = .done o ∧ o.error = "" ∧ through 1 run.2.1 = true

/-- **A re-run**: what it does, and that a settled one comes to its entry. -/
lemma again_run (lines : List String) (fs : List CrashProg.Fault) (s : Checkout) :
    ∃ requeued, Told cmd s (iterateOutcome.again letters turn cmd lines fs s).2.2 false requeued ∧
      ∀ owed, AgainSettles letters s turn cmd owed fs → (owed = true ∨ requeued = true) →
        ComesToEntry (iterateOutcome.again letters turn cmd lines fs s) := by
  rw [iterateOutcome.again, run_read_bind]
  unfold AgainSettles
  cases hitem : itemForPr letters s.queue cmd.prUrl with
  | none =>
      refine ⟨false, Told.refl cmd s, fun owed hsettles howed => ⟨_, rfl, rfl, hsettles ?_⟩⟩
      simpa using howed
  | some original =>
      dsimp only
      rcases hrun : requeue turn original cmd fs s.queue with ⟨exit, fs', d⟩
      have hcases := requeue_run turn original cmd fs s.queue
      rw [hrun] at hcases
      rcases hcases with ⟨hacc, hthrough, item, hpub, hend⟩ | ⟨hnot, hdirs, hdone⟩
      · have htold : Told cmd s (s.withQueue (.requeued cmd.prNumber cmd.commentId) d) false true :=
          ⟨by simp [Checkout.withQueue, newPlaces_of_published hpub], kept_of_published hpub⟩
        rcases hend with ⟨hcrash, hexit⟩ | ⟨hcrash, hexit, hfaults⟩
        · have hexit : exit = .crashed := hexit
          subst hexit
          rw [run_catching_crashed (run_bind_crashed (onQueue_crashed hrun))]
          refine ⟨true, htold, fun owed hsettles _ => ?_⟩
          rw [if_pos ⟨hacc, hthrough⟩] at hsettles
          exact absurd hcrash hsettles.1
        · have hexit : exit = .done item := hexit
          subst hexit
          have hfaults : fs' = fs.drop 5 := hfaults
          rw [run_catching_done (run_bind_done (onQueue_done hrun))]
          refine ⟨true, htold, fun owed hsettles _ => ⟨_, rfl, rfl, ?_⟩⟩
          rw [if_pos ⟨hacc, hthrough⟩] at hsettles
          exact hfaults ▸ hsettles.2
      · have htold : Told cmd s (s.withQueue (.requeued cmd.prNumber cmd.commentId) d) false false :=
          ⟨by simp [Checkout.withQueue, newPlaces_of_dirs hdirs], fun place files h => by
            rw [Checkout.withQueue, show d.dirs = _ from hdirs]; exact h⟩
        refine ⟨false, ?_, fun owed hsettles howed => ?_⟩
        · cases exit with
          | done item => exact absurd rfl (hdone item)
          | raised e =>
              rw [run_catching_raised (run_bind_raised (onQueue_raised hrun))]
              cases (IntakeError.queue e).caught <;> exact htold
          | crashed =>
              rw [run_catching_crashed (run_bind_crashed (onQueue_crashed hrun))]
              exact htold
        · rw [if_neg hnot] at hsettles
          simp [hsettles] at howed

/-- The checkout with the line of the command. -/
lemma told_withMemory (chars : String) :
    Told cmd s (s.withMemory (.appended cmd.prNumber cmd.commentId) chars) true false where
  effects := by simp [Checkout.withMemory]
  kept _ _ := id

lemma Told.trans {t u : Checkout} {requeued : Bool} (h : Told cmd s t true false) (h' : Told cmd t u false requeued) :
    Told cmd s u true requeued where
  effects := by rw [h'.effects, h.effects]; simp
  kept place files hplace := h'.kept place files (h.kept place files hplace)

/-- **What a command does**, and that a settled one comes to its entry. -/
theorem runCommand_told (ctx : SteerContext) (turn : SteerTurn) (cmd : SteerCommand) (fs : List CrashProg.Fault)
    (s : Checkout) :
    ∃ appended requeued, Told cmd s (runCommand letters ctx turn cmd fs s).2.2 appended requeued ∧
      (Settles letters s turn cmd fs → (appended = true ∨ requeued = true) →
        ComesToEntry (runCommand letters ctx turn cmd fs s)) := by
  unfold runCommand Settles
  by_cases hmemory : cmd.command = steerMemory
  · simp only [if_pos hmemory]
    rw [memoryOutcome]
    rcases recordMemory_run turn cmd "Not recorded: " fs s with
      ⟨happends, hthrough, o, chars, ho, hrun⟩ | ⟨_, hsame, hnot⟩
    · rw [run_bind_done hrun]
      exact ⟨true, false, told_withMemory chars, fun hsettles _ => ⟨o, rfl, ho, hsettles happends hthrough⟩⟩
    · refine ⟨false, false, ?_, fun _ h => by simp at h⟩
      rcases hrun : recordMemory ctx turn cmd "Not recorded: " fs s with ⟨r | e | _, fs', t⟩ <;>
        rw [hrun] at hsame <;> obtain rfl : t = s := hsame
      · rw [run_bind_done hrun]
        exact Told.refl cmd t
      · rw [run_bind_raised hrun]
        exact Told.refl cmd t
      · rw [run_bind_crashed hrun]
        exact Told.refl cmd t
  simp only [if_neg hmemory]
  by_cases hiterate : cmd.command = steerIterate
  swap
  · rw [if_neg hiterate]
    exact ⟨false, false, Told.refl cmd s, fun _ h => by simp at h⟩
  rw [if_pos hiterate, iterateOutcome]
  by_cases htext : cmd.text = ""
  · simp only [if_pos htext]
    obtain ⟨requeued, htold, hentry⟩ := again_run [] fs s
    exact ⟨false, requeued, htold, fun hsettles h => hentry false hsettles (Or.inr (by simpa using h))⟩
  simp only [if_neg htext]
  rcases recordMemory_run turn cmd "Not recorded and not queued: " fs s with
    ⟨happends, hthrough, o, chars, ho, hrun⟩ | ⟨_, hsame, hnot⟩
  · rw [run_bind_done hrun]
    obtain ⟨requeued, htold, hentry⟩ := again_run [o.comment]
      fs.tail (s.withMemory (.appended cmd.prNumber cmd.commentId) chars)
    exact ⟨true, requeued, (told_withMemory chars).trans htold, fun hsettles _ =>
      hentry true (hsettles happends hthrough) (Or.inl rfl)⟩
  · refine ⟨false, false, ?_, fun _ h => by simp at h⟩
    rcases hrun : recordMemory ctx turn cmd "Not recorded and not queued: " fs s with ⟨r | e | _, fs', t⟩ <;>
      rw [hrun] at hsame <;> obtain rfl : t = s := hsame
    · rw [run_bind_done hrun]
      have hr : r.2 = false := hnot r (by rw [hrun])
      obtain ⟨o, ok⟩ := r
      obtain rfl : ok = false := hr
      exact Told.refl cmd t
    · rw [run_bind_raised hrun]
      exact Told.refl cmd t
    · rw [run_bind_crashed hrun]
      exact Told.refl cmd t

/-- Whether a command of a poll is run. -/
def attempts (letters : Letters) (ctx : SteerContext) (ledger : ProcessedLedger) (cmd : SteerCommand)
    (result : SteerResult) (acted : ℤ) : Bool :=
  !ledger.contains (cmd.ledgerKey result.repo) && steerRefusal letters ctx.config cmd = "" &&
    acted < ctx.config.maxItemsPerSync && !ctx.config.dryRun

lemma Told.withLedger {t : Checkout} {appended requeued : Bool} (h : Told cmd s t appended requeued)
    (ledger : ProcessedLedger) : Told cmd s (t.withLedger ledger) appended requeued := ⟨h.effects, h.kept⟩

/-- **What one comment of a poll does**: nothing if it was entered before, and if it is settled, nothing
    without its entry. -/
theorem actOnOne_told (ctx : SteerContext) (turn : SteerTurn) (ledger : ProcessedLedger) (cmd : SteerCommand)
    (result : SteerResult) (acted : ℤ) (fs : List CrashProg.Fault) (s : Checkout) :
    ∃ appended requeued,
      Told cmd s (actOnOne letters ctx turn ledger cmd result acted fs s).2.2 appended requeued ∧
      ((appended = true ∨ requeued = true) → ledger.contains (cmd.ledgerKey result.repo) = false ∧
        ((attempts letters ctx ledger cmd result acted = true → Settles letters s turn cmd fs) →
          (actOnOne letters ctx turn ledger cmd result acted fs s).2.2.ledger.contains
            (cmd.ledgerKey result.repo) = true)) := by
  have hnothing : ∀ {run : Exit IntakeError Turned × List CrashProg.Fault × Checkout}, run.2.2 = s →
      ∃ appended requeued, Told cmd s run.2.2 appended requeued ∧
        ((appended = true ∨ requeued = true) → ledger.contains (cmd.ledgerKey result.repo) = false ∧
          ((attempts letters ctx ledger cmd result acted = true → Settles letters s turn cmd fs) →
            run.2.2.ledger.contains (cmd.ledgerKey result.repo) = true)) := fun {run} h =>
    ⟨false, false, by rw [h]; exact Told.refl cmd s, fun h => by simp at h⟩
  unfold actOnOne
  dsimp only
  split_ifs with hseen hreason hcap hdry
  · exact hnothing rfl
  · exact hnothing rfl
  · exact hnothing rfl
  · exact hnothing rfl
  have hattempts : attempts letters ctx ledger cmd result acted = true := by
    simp [attempts, hseen, not_not.mp hreason, not_le.mp hcap, hdry]
  obtain ⟨appended, requeued, htold, hentry⟩ := runCommand_told ctx turn cmd fs s
  refine ⟨appended, requeued, ?_, fun heffect => ⟨by simpa using hseen, fun hsettles => ?_⟩⟩
  · rcases hrun : runCommand letters ctx turn cmd fs s with ⟨outcome | e | _, fs', t⟩
    · rw [hrun] at htold
      rw [applyOne, bind_bind, run_bind_done hrun]
      by_cases herror : outcome.error ≠ ""
      · rw [if_pos herror]
        exact htold
      · rw [if_neg herror, ProcessedLedger.record, ProcessedLedger.save, bind_bind, bind_bind]
        cases hthrough : through 1 fs' with
        | true =>
            rw [run_bind_done (run_write _ _ hthrough)]
            exact htold.withLedger _
        | false =>
            rcases run_write_bind_stopped _ _ _ hthrough with h | h <;> rw [h] <;> exact htold
    · rw [hrun] at htold
      rw [applyOne, bind_bind, run_bind_raised hrun]
      exact htold
    · rw [hrun] at htold
      rw [applyOne, bind_bind, run_bind_crashed hrun]
      exact htold
  · obtain ⟨o, hdone, herror, hthrough⟩ := hentry (hsettles hattempts) heffect
    rcases hrun : runCommand letters ctx turn cmd fs s with ⟨exit, fs', t⟩
    rw [hrun] at hdone hthrough
    obtain rfl : exit = .done o := hdone
    rw [applyOne, bind_bind, run_bind_done hrun, if_neg (not_not.mpr herror), ProcessedLedger.record,
      ProcessedLedger.save, bind_bind, bind_bind, run_bind_done (run_write _ _ hthrough)]
    show (Checkout.withLedger t _).ledger.contains _ = true
    rw [Checkout.ledger_withLedger]
    exact ProcessedLedger.contains_withEntry_self _ _ _ _

end Run

/-! ## Runs -/

/-- The condition on a step: a command that is run is settled. -/
def SteerSettles (letters : Letters) (w : SteerWorld) : SteerAct → Prop
  | .act turn fs => ∀ ctx ledger cmd todo seen unresolved acted result,
      w.phase = .acting ctx ledger (cmd :: todo) seen unresolved acted result →
      attempts letters ctx ledger cmd result acted = true → Settles letters w.store turn cmd fs
  | _ => True

/-- The poll that is under way holds the ledger of the disk. -/
def SteerWorld.Holds (repo : String) (w : SteerWorld) : Prop :=
  match w.phase with
  | .idle => True
  | .reading ledger _ _ _ result => w.store.ledger = ledger ∧ result.repo = repo
  | .acting _ ledger _ _ _ _ result => w.store.ledger = ledger ∧ result.repo = repo
  | .marking ledger _ => w.store.ledger = ledger

/-- **The invariant**: a comment took effect once of each kind, and if it did, it is in the ledger. -/
structure Counted (repo : String) (w : SteerWorld) : Prop where
  appended : ∀ number id, w.store.effects.count (.appended number id) ≤ 1
  requeued : ∀ number id, w.store.effects.count (.requeued number id) ≤ 1
  entered : ∀ number id, .appended number id ∈ w.store.effects ∨ .requeued number id ∈ w.store.effects →
    w.store.ledger.contains (commentKey repo number id) = true
  holds : w.Holds repo

section Runs

variable {letters : Letters} {config : GitHubIntakeConfig} {repo : String} {w w' : SteerWorld}

/-- What leaves the effects alone and loses no entry. -/
lemma Counted.of_same (h : Counted repo w) (heffects : w'.store.effects = w.store.effects)
    (hgrown : ∀ key, w.store.ledger.contains key = true → w'.store.ledger.contains key = true)
    (hholds : w'.Holds repo) : Counted repo w' where
  appended number id := heffects ▸ h.appended number id
  requeued number id := heffects ▸ h.requeued number id
  entered number id hmem := hgrown _ (h.entered number id (heffects ▸ hmem))
  holds := hholds

/-- An effect that was not there before is there once. -/
lemma count_told {cmd : SteerCommand} {s t : Checkout} {appended requeued : Bool} (h : Told cmd s t appended requeued)
    (hnew : (appended = true ∨ requeued = true) → .appended cmd.prNumber cmd.commentId ∉ s.effects ∧
      .requeued cmd.prNumber cmd.commentId ∉ s.effects) (number id : ℤ)
    (ha : s.effects.count (.appended number id) ≤ 1) (hr : s.effects.count (.requeued number id) ≤ 1) :
    t.effects.count (.appended number id) ≤ 1 ∧ t.effects.count (.requeued number id) ≤ 1 := by
  rw [h.effects]
  simp only [List.count_append]
  constructor
  · cases appended with
    | false => cases requeued <;> simpa using ha
    | true =>
        have hzero := List.count_eq_zero_of_not_mem (hnew (Or.inl rfl)).1
        by_cases heq : Effect.appended cmd.prNumber cmd.commentId = .appended number id
        · rw [← heq, hzero]
          cases requeued <;> simp
        · cases requeued <;> simpa [heq] using ha
  · cases requeued with
    | false => cases appended <;> simpa using hr
    | true =>
        have hzero := List.count_eq_zero_of_not_mem (hnew (Or.inr rfl)).2
        by_cases heq : Effect.requeued cmd.prNumber cmd.commentId = .requeued number id
        · rw [← heq, hzero]
          cases appended <;> simp
        · cases appended <;> simpa [heq] using hr

lemma mem_told {cmd : SteerCommand} {s t : Checkout} {appended requeued : Bool} (h : Told cmd s t appended requeued)
    {effect : Effect} (hmem : effect ∈ t.effects) : effect ∈ s.effects ∨ (appended = true ∨ requeued = true) ∧
      (effect = .appended cmd.prNumber cmd.commentId ∨ effect = .requeued cmd.prNumber cmd.commentId) := by
  rw [h.effects, List.mem_append, List.mem_append] at hmem
  rcases hmem with (hold | happended) | hrequeued
  · exact Or.inl hold
  · cases appended with
    | false => simp at happended
    | true => exact Or.inr ⟨Or.inl rfl, Or.inl (by simpa using happended)⟩
  · cases requeued with
    | false => simp at hrequeued
    | true => exact Or.inr ⟨Or.inr rfl, Or.inr (by simpa using hrequeued)⟩

/-- **One command** keeps the invariant. -/
theorem Counted.act (h : Counted repo w) {ctx : SteerContext} {ledger : ProcessedLedger} {cmd : SteerCommand}
    {todo : List SteerCommand} {seen unresolved : List (ℤ × List String)} {acted : ℤ} {result : SteerResult}
    (hphase : w.phase = .acting ctx ledger (cmd :: todo) seen unresolved acted result) (turn : SteerTurn)
    (fs : List CrashProg.Fault) (hsettles : SteerSettles letters w (.act turn fs)) :
    let run := actOnOne letters ctx turn ledger cmd result acted fs w.store
    Counted repo { w with store := run.2.2, phase := .afterAct ctx cmd todo seen unresolved acted run.1 } := by
  intro run
  have hholds := h.holds
  unfold SteerWorld.Holds at hholds
  rw [hphase] at hholds
  obtain ⟨hledger, hrepo⟩ := hholds
  obtain ⟨appended, requeued, htold, heffect⟩ :=
    actOnOne_told ctx turn ledger cmd result acted fs w.store
  have hcases := @actOnOne_cases letters ctx turn ledger cmd result acted fs w.store
  have hgrown : ∀ key, w.store.ledger.contains key = true → run.2.2.ledger.contains key = true := by
    intro key hkey
    have hsame : run.2.2.ledgerFile = w.store.ledgerFile → run.2.2.ledger.contains key = true := fun heq => by
      rw [Checkout.ledger, heq]
      exact hkey
    rcases hcases with ⟨_, same, _⟩ | ⟨_, same, _⟩ | ⟨same, _⟩ | ⟨itemId, written, _⟩ | ⟨same, _⟩
    · exact hsame same
    · exact hsame same
    · exact hsame same
    · rw [Checkout.ledger, show run.2.2.ledgerFile = _ from written, ProcessedLedger.load_toJson]
      exact ProcessedLedger.contains_withEntry_of _ _ _ _ (hledger ▸ hkey)
    · exact hsame same
  have hfresh : (appended = true ∨ requeued = true) → .appended cmd.prNumber cmd.commentId ∉ w.store.effects ∧
      .requeued cmd.prNumber cmd.commentId ∉ w.store.effects := by
    intro heither
    have hnot := (heffect heither).1
    have hnone : ¬ (.appended cmd.prNumber cmd.commentId ∈ w.store.effects ∨
        .requeued cmd.prNumber cmd.commentId ∈ w.store.effects) := fun hmem => by
      have hkey := h.entered _ _ hmem
      rw [hledger, ← hrepo] at hkey
      exact absurd (hkey.symm.trans hnot) (by decide)
    exact not_or.mp hnone
  refine ⟨fun number id => (count_told htold hfresh number id (h.appended number id) (h.requeued number id)).1,
    fun number id => (count_told htold hfresh number id (h.appended number id) (h.requeued number id)).2,
    fun number id hmem => ?_, ?_⟩
  · have hnow : ∀ effect, effect ∈ run.2.2.effects →
        effect = .appended number id ∨ effect = .requeued number id →
        run.2.2.ledger.contains (commentKey repo number id) = true := by
      intro effect heff hkind
      rcases mem_told htold heff with hold | ⟨heither, hcmd⟩
      · exact hgrown _ (h.entered number id (by rcases hkind with rfl | rfl <;> simp [hold]))
      · obtain ⟨rfl, rfl⟩ : cmd.prNumber = number ∧ cmd.commentId = id := by
          rcases hkind with rfl | rfl <;> rcases hcmd with hcmd | hcmd <;> cases hcmd <;> exact ⟨rfl, rfl⟩
        rw [← hrepo]
        exact (heffect heither).2 (hsettles _ _ _ _ _ _ _ _ hphase)
    exact hmem.elim (fun hm => hnow _ hm (Or.inl rfl)) fun hm => hnow _ hm (Or.inr rfl)
  · have hsame : run.2.2.ledgerFile = w.store.ledgerFile → run.2.2.ledger = ledger := fun heq => by
      rw [Checkout.ledger, heq]
      exact hledger
    rcases hcases with ⟨_, same, r, hexit, hr⟩ | ⟨_, same, r, hexit, hr⟩ | ⟨same, cap, r, hexit, hr⟩ |
      ⟨itemId, written, r, hexit, hr⟩ | ⟨same, stopped⟩
    · rw [show run.1 = _ from hexit]
      exact ⟨hsame same, hr.trans hrepo⟩
    · rw [show run.1 = _ from hexit]
      exact ⟨hsame same, hr.trans hrepo⟩
    · rw [show run.1 = _ from hexit]
      exact ⟨hsame same, hr.trans hrepo⟩
    · rw [show run.1 = _ from hexit]
      exact ⟨by rw [Checkout.ledger, show run.2.2.ledgerFile = _ from written, ProcessedLedger.load_toJson],
        hr.trans hrepo⟩
    · rw [SteerPhase.afterAct_of_ended stopped]
      trivial

/-- **One step** keeps the invariant. -/
theorem Counted.step (h : Counted repo w) {a : SteerAct} (hsettles : SteerSettles letters w a)
    (hstep : SteerStep letters config repo w a w') : Counted repo w' := by
  have hholds := h.holds
  unfold SteerWorld.Holds at hholds
  unfold SteerStep SteerWorld.next at hstep
  cases a with
  | tick now =>
      cases hstep
      exact h.of_same rfl (fun _ => id) h.holds
  | comment number row =>
      cases hstep
      exact h.of_same rfl (fun _ => id) h.holds
  | edit number index row =>
      cases hstep
      exact h.of_same rfl (fun _ => id) h.holds
  | elsewhere memory queue =>
      cases hstep
      exact h.of_same rfl (fun _ => id) h.holds
  | load marked =>
      dsimp only at hstep
      split at hstep
      · split_ifs at hstep
        cases hstep
        exact h.of_same rfl (fun _ => id) ⟨rfl, rfl⟩
      · cases hstep
  | fetch answer =>
      dsimp only at hstep
      split at hstep
      next hphase =>
        rw [hphase] at hholds
        split at hstep <;> cases hstep <;> exact h.of_same rfl (fun _ => id) hholds
      · cases hstep
  | gather stamp display defaultMemory =>
      dsimp only at hstep
      split at hstep
      next hphase =>
        rw [hphase] at hholds
        cases hstep
        exact h.of_same rfl (fun _ => id) hholds
      · cases hstep
  | act turn faults =>
      dsimp only at hstep
      split at hstep
      next hphase =>
        cases hstep
        exact h.act hphase turn faults hsettles
      · cases hstep
  | earn =>
      dsimp only at hstep
      split at hstep
      next hphase =>
        rw [hphase] at hholds
        cases hstep
        exact h.of_same rfl (fun _ => id) hholds.1
      · cases hstep
  | mark faults =>
      dsimp only at hstep
      split at hstep
      next ledger number value todo hphase =>
        rw [hphase] at hholds
        cases hstep
        rcases setWatermark_run ledger (cursorKey repo number) value faults w.store with
          hrun | ⟨ledger', hmove, hrun⟩ | ⟨hstore, hended⟩
        · rw [hrun]
          exact h.of_same rfl (fun _ => id) hholds
        · rw [hrun]
          refine h.of_same rfl (fun key hkey => ?_) (Checkout.ledger_withLedger _ _)
          show (w.store.withLedger ledger').ledger.contains key = true
          rw [Checkout.ledger_withLedger, ProcessedLedger.contains_withWatermark hmove, ← hholds]
          exact hkey
        · rw [hstore, SteerPhase.afterMark_of_ended hended]
          exact h.of_same rfl (fun _ => id) trivial
      · cases hstep
  | stop =>
      cases hstep
      exact h.of_same rfl (fun _ => id) trivial

/-- A poll moves no item and changes none. -/
theorem queue_kept {a : SteerAct} (hpoll : ∀ memory queue, a ≠ .elsewhere memory queue)
    (hstep : SteerStep letters config repo w a w') (place : Place) (files : Files)
    (h : w.store.queue.dirs.lookup place = some files) : w'.store.queue.dirs.lookup place = some files := by
  unfold SteerStep SteerWorld.next at hstep
  cases a with
  | elsewhere memory queue => exact absurd rfl (hpoll memory queue)
  | tick | comment | edit | stop =>
      cases hstep
      exact h
  | load =>
      dsimp only at hstep
      split at hstep
      · split_ifs at hstep
        cases hstep
        exact h
      · cases hstep
  | fetch =>
      dsimp only at hstep
      split at hstep
      · split at hstep <;> cases hstep <;> exact h
      · cases hstep
  | gather | earn =>
      dsimp only at hstep
      split at hstep
      · cases hstep
        exact h
      · cases hstep
  | act turn faults =>
      dsimp only at hstep
      split at hstep
      next ctx ledger cmd todo seen unresolved acted result hphase =>
        cases hstep
        obtain ⟨_, _, htold, _⟩ :=
          actOnOne_told ctx turn ledger cmd result acted faults w.store
        exact htold.kept place files h
      · cases hstep
  | mark faults =>
      dsimp only at hstep
      split at hstep
      next ledger number value todo hphase =>
        cases hstep
        rcases setWatermark_run ledger (cursorKey repo number) value faults w.store with
          hrun | ⟨ledger', _, hrun⟩ | ⟨hstore, _⟩
        · rw [hrun]
          exact h
        · rw [hrun]
          exact h
        · rw [hstore]
          exact h
      · cases hstep

lemma counted_start (memory : MemoryFile) (queue : Disk) : Counted repo (.start memory queue) where
  appended _ _ := Nat.zero_le _
  requeued _ _ := Nat.zero_le _
  entered _ _ h := by simp [SteerWorld.start] at h
  holds := trivial

/-- **A comment takes effect once.**  In every run of comments, edits and polls whose commands are settled,
    whatever else fails and wherever a poll is cut off, a comment has appended at most one line and enqueued at
    most one item; and no poll touches an item that is in the queue. -/
theorem effects_once (letters : Letters) (config : GitHubIntakeConfig) (repo : String) (memory : MemoryFile)
    (queue : Disk) (w : SteerWorld)
    (run : Reaches (SteerStep letters config repo) (SteerSettles letters) (.start memory queue) w) :
    (∀ number id, w.store.effects.count (.appended number id) ≤ 1 ∧
      w.store.effects.count (.requeued number id) ≤ 1) ∧
    ∀ a w', (∀ memory queue, a ≠ .elsewhere memory queue) → SteerStep letters config repo w a w' →
      ∀ place files, w.store.queue.dirs.lookup place = some files →
        w'.store.queue.dirs.lookup place = some files := by
  have hcounted : Counted repo w :=
    run.invariant (counted_start memory queue) fun _ _ _ h hsettles hstep => h.step hsettles hstep
  exact ⟨fun number id => ⟨hcounted.appended number id, hcounted.requeued number id⟩,
    fun _ _ hpoll hstep => queue_kept hpoll hstep⟩

end Runs

/-! ### Runs on fixed inputs -/

def sampleSteerConfig : GitHubIntakeConfig := { steerEnabled := true }

def sampleTurn : SteerTurn where
  env := sampleEnv
  mint := sampleMint
  today := "2026-09-02"
  readText
    | .text chars _ => .ok chars
    | .json _ => .ok ""
  post _ _ := ""

/-- The item of pull request 7, done. -/
def sampleDone : QueueItem where
  itemId := "q-1"
  title := "tabs"
  specFilename := "spec.md"
  state := .done
  prUrls := ["https://github.com/o/r/pull/7"]

def sampleQueue : Disk where
  dirs := AList.insert (.done, "q-1") (AList.insert metaFilename (.json sampleDone.toDict)
    (AList.insert "spec.md" (.text "Use tabs." none) ∅)) ∅
  staging := ∅
  journal := []

/-- One poll of the pull request, up to its one command. -/
def samplePoll (body : String) (faults : List CrashProg.Fault) : List SteerAct :=
  [.load [7], .fetch (.value (.arr [sampleRow body])), .gather "2026-09-02T16:12:00Z" "MEMORY.md" "# Memory\n",
    .act sampleTurn faults, .stop]

/-- The text of an `/iterate` is appended and its re-run fails; the next poll appends it again. -/
theorem iterate_appends_twice : ∃ w : SteerWorld,
    Reaches (SteerStep sampleLetters sampleSteerConfig "o/r") Always (.start .missing sampleQueue) w ∧
      w.store.effects.count (.appended 7 111) = 2 := by
  have hrun : ((samplePoll "/iterate use tabs" [.pass, .error] ++ samplePoll "/iterate use tabs" []).foldlM
      (SteerWorld.next sampleLetters sampleSteerConfig "o/r") (.start .missing sampleQueue)).map
        (fun w => w.store.effects.count (.appended 7 111)) = some 2 := by
    decide +kernel
  obtain ⟨w, hw, hcount⟩ := Option.map_eq_some_iff.mp hrun
  exact ⟨w, Reaches.of_foldlM hw, hcount⟩

/-- A step whose command is a `/memory` and meets no fault. -/
def plain (w : SteerWorld) : SteerAct → Bool
  | .act _ fs => fs.isEmpty && match w.phase with
      | .acting _ _ (cmd :: _) _ _ _ _ => cmd.command = steerMemory
      | _ => true
  | _ => true

lemma steerSettles_of_plain {letters : Letters} {w : SteerWorld} {a : SteerAct} (h : plain w a = true) :
    SteerSettles letters w a := by
  cases a with
  | act turn fs =>
      intro ctx ledger cmd todo seen unresolved acted result hphase _
      simp only [plain, hphase, Bool.and_eq_true, List.isEmpty_iff, decide_eq_true_eq] at h
      obtain ⟨rfl, hcommand⟩ := h
      rw [Settles, if_pos hcommand]
      exact fun _ _ => rfl
  | _ => trivial

theorem effects_once_memory : ∃ w : SteerWorld, w.store.effects.length = 1 ∧
    w.store.effects.count (.appended 7 111) ≤ 1 := by
  have hrun : (((samplePoll "/memory use tabs" [] ++ samplePoll "/memory use tabs" []).foldlM
      (fun w a => if plain w a = true then SteerWorld.next sampleLetters sampleSteerConfig "o/r" w a else none)
        (.start .missing sampleQueue)).map fun w => w.store.effects.length) = some 1 := by
    decide +kernel
  obtain ⟨w, hw, hlength⟩ := Option.map_eq_some_iff.mp hrun
  have hreach := (Reaches.of_foldlM_if hw).mono fun _ _ => @steerSettles_of_plain sampleLetters _ _
  exact ⟨w, hlength, ((effects_once sampleLetters sampleSteerConfig "o/r" .missing sampleQueue w hreach).1 7 111).1⟩

end Serve

end Kstrl
