import Kstrl.Base.Cursor
import Kstrl.Base.Runs
import Kstrl.Serve.Steering

/-!
# Polls of the steering channel

The pull requests of one repository with their comments, and the polls that read them
(`poll_steering` in `kstrl/serve/intake_steering.py`).  Comments arrive and are edited at any time, also
between two steps of a poll.  A poll loads the ledger, reads one pull request after the other, acts on one
command after the other and advances the cursors; it can end in front of any of its steps, and any of its
writes can fail or be cut off.

The stamps are GitHub's, in its one format, whose order as texts is the order in time.

* **`GitHubKeeps`** is what is asked of GitHub: its clock does not go back, a comment is stamped by that
  clock when it is made and when it is edited, and a poll since a stamp returns every comment stamped at or
  after it.  A call may fail instead.
* **`Watched`** is the invariant: no open command is behind the cursor of its pull request, nor behind what
  the poll that is under way has seen of it, unless that poll holds it.
* **`watermark_never_skips`** is the result.
-/

namespace Kstrl

open CrashProg Cursor Runs

namespace Serve

/-! ## The system -/

/-- Where a poll is. -/
inductive SteerPhase where
  | idle
  /-- reading the pull requests that are left -/
  | reading (ledger : ProcessedLedger) (todo : List ℤ) (commands : List SteerCommand)
      (seen : List (ℤ × List String)) (result : SteerResult)
  /-- acting on the commands that are left -/
  | acting (ctx : SteerContext) (ledger : ProcessedLedger) (todo : List SteerCommand)
      (seen unresolved : List (ℤ × List String)) (acted : ℤ) (result : SteerResult)
  /-- advancing the cursors that are left -/
  | marking (ledger : ProcessedLedger) (todo : List (ℤ × String))

structure SteerWorld where
  /-- GitHub's clock -/
  now : String
  /-- the comments of a pull request -/
  comments : ℤ → List Json
  store : Checkout
  phase : SteerPhase

/-- Nothing was written or said yet. -/
def SteerWorld.start (memory : MemoryFile) (queue : Disk) : SteerWorld where
  now := ""
  comments := fun _ => []
  store := { ledgerFile := none, memory := memory, queue := queue, effects := [] }
  phase := .idle

inductive SteerAct where
  | tick (now : String)
  | comment (number : ℤ) (row : Json)
  | edit (number : ℤ) (index : ℕ) (row : Json)
  /-- the rest of the program and the operator, on the memory file and the queue -/
  | elsewhere (memory : MemoryFile) (queue : Disk)
  | load (marked : List ℤ)
  | fetch (answer : Answer)
  | gather (stamp display defaultMemory : String)
  | act (turn : SteerTurn) (faults : List CrashProg.Fault)
  | earn
  | mark (faults : List CrashProg.Fault)
  /-- the poll is over, has raised, or its process has died -/
  | stop

/-- `unresolved_by_pr.setdefault(number, []).append(stamp)` -/
def addUnresolved (number : ℤ) (stamp : String) (unresolved : List (ℤ × List String)) :
    List (ℤ × List String) :=
  Keyed.set number ((unresolved.lookup number).getD [] ++ [stamp]) unresolved

/-- The phase after one command, and after one that ended the poll. -/
def SteerPhase.afterAct (ctx : SteerContext) (cmd : SteerCommand) (todo : List SteerCommand)
    (seen unresolved : List (ℤ × List String)) (acted : ℤ) : Exit IntakeError Turned → SteerPhase
  | .done t =>
      .acting ctx t.ledger todo seen
        (if t.resolved = some false then addUnresolved cmd.prNumber cmd.updatedAt unresolved else unresolved)
        (if t.consumedCap then acted + 1 else acted) t.result
  | _ => .idle

def SteerPhase.afterMark (todo : List (ℤ × String)) : Exit IntakeError ProcessedLedger → SteerPhase
  | .done ledger => .marking ledger todo
  | _ => .idle

lemma SteerPhase.afterAct_of_ended {ctx : SteerContext} {cmd : SteerCommand} {todo : List SteerCommand}
    {seen unresolved : List (ℤ × List String)} {acted : ℤ} {exit : Exit IntakeError Turned}
    (h : ∀ t, exit ≠ .done t) : afterAct ctx cmd todo seen unresolved acted exit = .idle := by
  cases exit with
  | done t => exact absurd rfl (h t)
  | raised e => rfl
  | crashed => rfl

lemma SteerPhase.afterMark_of_ended {todo : List (ℤ × String)} {exit : Exit IntakeError ProcessedLedger}
    (h : ∀ l, exit ≠ .done l) : afterMark todo exit = .idle := by
  cases exit with
  | done l => exact absurd rfl (h l)
  | raised e => rfl
  | crashed => rfl

section

variable (letters : Letters) (config : GitHubIntakeConfig) (repo : String)

/-- One step; `none` where there is no such step. -/
def SteerWorld.next (w : SteerWorld) : SteerAct → Option SteerWorld
  | .tick now => some { w with now := now }
  | .comment number row =>
      some { w with comments := Function.update w.comments number (w.comments number ++ [row]) }
  | .edit number index row =>
      some { w with comments := Function.update w.comments number ((w.comments number).set index row) }
  | .elsewhere memory queue => some { w with store := { w.store with memory := memory, queue := queue } }
  | .load marked =>
      match w.phase with
      | .idle =>
          if config.steerEnabled then
            some { w with phase := .reading w.store.ledger marked [] [] { repo := repo } }
          else none
      | _ => none
  | .fetch answer =>
      match w.phase with
      | .reading ledger (number :: todo) commands seen result =>
          match prSteeringCommands letters repo number answer with
          | .error e =>
              let result := { result with errors := result.errors ++ [e] }
              some { w with phase := .reading ledger todo commands seen result }
          | .ok (found, stamps) =>
              let seen := if stamps = [] then seen else Keyed.set number stamps seen
              some { w with phase := .reading ledger todo (commands ++ found) seen result }
      | _ => none
  | .gather stamp display defaultMemory =>
      match w.phase with
      | .reading ledger [] commands seen result =>
          let ctx := { config, repo, stamp, display, defaultMemory }
          some { w with phase := .acting ctx ledger commands seen [] 0 result }
      | _ => none
  | .act turn faults =>
      match w.phase with
      | .acting ctx ledger (cmd :: todo) seen unresolved acted result =>
          let run := actOnOne letters ctx turn ledger cmd result acted faults w.store
          some { w with store := run.2.2, phase := .afterAct ctx cmd todo seen unresolved acted run.1 }
      | _ => none
  | .earn =>
      match w.phase with
      | .acting _ ledger [] seen unresolved _ _ =>
          some { w with phase := .marking ledger (computeWatermarks seen unresolved) }
      | _ => none
  | .mark faults =>
      match w.phase with
      | .marking ledger ((number, value) :: todo) =>
          let run := ledger.setWatermark (cursorKey repo number) value faults w.store
          some { w with store := run.2.2, phase := .afterMark todo run.1 }
      | _ => none
  | .stop => some { w with phase := .idle }

/-- A step of the system. -/
def SteerStep (w : SteerWorld) (a : SteerAct) (w' : SteerWorld) : Prop :=
  w.next letters config repo a = some w'

/-! ## Nothing is skipped -/

/-- A comment of an authorised author that is a command and was not entered in the ledger. -/
def SteerWorld.Open (w : SteerWorld) (number : ℤ) (row : Json) : Prop :=
  row ∈ w.comments number ∧ ∃ cmd, parseCommand letters row number (prUrlOf repo number) = some cmd ∧
    steerRefusal letters config cmd = "" ∧ w.store.ledger.contains (cmd.ledgerKey repo) = false

/-- What is asked of GitHub. -/
def GitHubKeeps (w : SteerWorld) : SteerAct → Prop
  | .tick now => w.now ≤ now
  | .comment _ row => updatedAt row = w.now
  | .edit _ _ row => updatedAt row = w.now
  | .fetch (.value (.arr rows)) =>
      ∀ ledger number todo commands seen result, w.phase = .reading ledger (number :: todo) commands seen result →
        (∀ row ∈ rows, row ∈ w.comments number) ∧
          ∀ row ∈ w.comments number, ledger.watermark (cursorKey repo number) ≤ updatedAt row → row ∈ rows
  | _ => True

/-- A comment that the poll holds as one of its commands. -/
def HeldAs (commands : List SteerCommand) (number : ℤ) (row : Json) : Prop :=
  ∃ cmd ∈ commands, parseCommand letters row number (prUrlOf repo number) = some cmd

/-- What is true of the poll that is under way. -/
def SteerWorld.PollTracks (w : SteerWorld) : SteerPhase → Prop
  | .idle => True
  | .reading ledger _ commands seen result =>
      w.store.ledger = ledger ∧ result.repo = repo ∧ ∀ number stamps, (number, stamps) ∈ seen →
        Tracks w.now updatedAt (w.Open letters config repo number) stamps (HeldAs letters repo commands number)
  | .acting ctx ledger todo seen unresolved _ result =>
      w.store.ledger = ledger ∧ ctx.config = config ∧ result.repo = repo ∧
        ∀ number stamps, (number, stamps) ∈ seen →
          Tracks w.now updatedAt (w.Open letters config repo number) stamps fun row =>
            HeldAs letters repo todo number row ∨ updatedAt row ∈ (unresolved.lookup number).getD []
  | .marking ledger todo =>
      w.store.ledger = ledger ∧ ∀ number value, (number, value) ∈ todo →
        SkipsNone w.now updatedAt (w.Open letters config repo number) value

/-- **The invariant.** -/
structure Watched (w : SteerWorld) : Prop where
  stamped : ∀ number, ∀ row ∈ w.comments number, updatedAt row ≤ w.now
  cursors : ∀ number, SkipsNone w.now updatedAt (w.Open letters config repo number)
    (w.store.ledger.watermark (cursorKey repo number))
  poll : w.PollTracks letters config repo w.phase

variable {letters config repo} {w w' : SteerWorld}

/-- What a step of the outside keeps of a poll. -/
lemma pollTracks_step {phase : SteerPhase} (h : w.PollTracks letters config repo phase) (hnow : w.now ≤ w'.now)
    (hledger : w'.store.ledger = w.store.ledger)
    (hopen : ∀ number row, w'.Open letters config repo number row →
      w.Open letters config repo number row ∨ w.now ≤ updatedAt row) :
    w'.PollTracks letters config repo phase := by
  cases phase with
  | idle => trivial
  | reading ledger todo commands seen result =>
      obtain ⟨hl, hrepo, htracks⟩ := h
      exact ⟨hledger.trans hl, hrepo, fun number stamps hs =>
        (htracks number stamps hs).step hnow (hopen number) fun _ _ => id⟩
  | acting ctx ledger todo seen unresolved acted result =>
      obtain ⟨hl, hconfig, hrepo, htracks⟩ := h
      exact ⟨hledger.trans hl, hconfig, hrepo, fun number stamps hs =>
        (htracks number stamps hs).step hnow (hopen number) fun _ _ => id⟩
  | marking ledger todo =>
      obtain ⟨hl, htracks⟩ := h
      exact ⟨hledger.trans hl, fun number value hv =>
        (htracks number value hv).step hnow (hopen number) fun _ _ => id⟩

/-- What the outside does keeps the invariant. -/
lemma Watched.outside (h : Watched letters config repo w) (hnow : w.now ≤ w'.now)
    (hledger : w'.store.ledger = w.store.ledger) (hphase : w'.phase = w.phase)
    (hrows : ∀ number, ∀ row ∈ w'.comments number, row ∈ w.comments number ∨ updatedAt row = w.now) :
    Watched letters config repo w' := by
  have hopen : ∀ number row, w'.Open letters config repo number row →
      w.Open letters config repo number row ∨ w.now ≤ updatedAt row := by
    rintro number row ⟨hmem, cmd, hparse, hrefusal, hnew⟩
    rw [hledger] at hnew
    exact (hrows number row hmem).imp (fun h => ⟨h, cmd, hparse, hrefusal, hnew⟩) fun h => h.ge
  refine ⟨fun number row hmem => ?_, fun number => ?_, ?_⟩
  · rcases hrows number row hmem with hold | hnew
    · exact (h.stamped number row hold).trans hnow
    · exact hnew.le.trans hnow
  · rw [hledger]
    exact (h.cursors number).step hnow (hopen number) fun _ _ => id
  · rw [hphase]
    exact pollTracks_step h.poll hnow hledger hopen

/-! ### The steps of a poll -/

lemma mem_addUnresolved {number m : ℤ} {stamp s : String} {unresolved : List (ℤ × List String)} :
    s ∈ ((addUnresolved number stamp unresolved).lookup m).getD [] ↔
      s ∈ (unresolved.lookup m).getD [] ∨ m = number ∧ s = stamp := by
  simp only [addUnresolved, Keyed.lookup_set, beq_iff_eq]
  split_ifs with hm
  · subst hm
    simp
  · simp [hm]

/-- What stays open when the ledger has grown. -/
lemma open_of_grown {ledger : ProcessedLedger} {store : Checkout} {phase : SteerPhase} {number : ℤ} {row : Json}
    (hledger : store.ledger = ledger)
    (hgrown : ∀ key, w.store.ledger.contains key = true → ledger.contains key = true)
    (h : SteerWorld.Open letters config repo { w with store := store, phase := phase } number row) :
    w.Open letters config repo number row := by
  obtain ⟨hmem, cmd, hparse, hrefusal, hnew⟩ := h
  refine ⟨hmem, cmd, hparse, hrefusal, ?_⟩
  by_contra hold
  rw [Bool.not_eq_false] at hold
  have hnew : store.ledger.contains (cmd.ledgerKey repo) = false := hnew
  rw [hledger, hgrown _ hold] at hnew
  cases hnew

lemma Watched.load (h : Watched letters config repo w) (marked : List ℤ) :
    Watched letters config repo
      { w with phase := .reading w.store.ledger marked [] [] { repo := repo } } where
  stamped := h.stamped
  cursors := h.cursors
  poll := ⟨rfl, rfl, fun _ _ hs => (List.not_mem_nil hs).elim⟩

lemma Watched.stop (h : Watched letters config repo w) :
    Watched letters config repo { w with phase := .idle } where
  stamped := h.stamped
  cursors := h.cursors
  poll := trivial

/-- What was fetched is what is acted on. -/
lemma Watched.gather {ledger : ProcessedLedger} {commands : List SteerCommand} {seen : List (ℤ × List String)}
    {result : SteerResult} (h : Watched letters config repo w)
    (hphase : w.phase = .reading ledger [] commands seen result) (stamp display defaultMemory : String) :
    Watched letters config repo
      { w with
        phase := .acting { config, repo, stamp, display, defaultMemory } ledger commands seen [] 0 result } := by
  have hpoll := h.poll
  rw [hphase] at hpoll
  obtain ⟨hledger, hrepo, htracks⟩ := hpoll
  exact ⟨h.stamped, h.cursors, hledger, rfl, hrepo, fun number stamps hs =>
    (htracks number stamps hs).step le_rfl (fun _ => Or.inl) fun _ _ => Or.inl⟩

section Fetch

variable {ledger : ProcessedLedger} {number : ℤ} {todo : List ℤ} {commands found : List SteerCommand}
  {seen : List (ℤ × List String)} {result : SteerResult}

lemma Watched.fetch_failed (h : Watched letters config repo w)
    (hphase : w.phase = .reading ledger (number :: todo) commands seen result) (errors : List String) :
    Watched letters config repo
      { w with phase := .reading ledger todo commands seen { result with errors := errors } } := by
  have hpoll := h.poll
  rw [hphase] at hpoll
  exact ⟨h.stamped, h.cursors, hpoll⟩

/-- What is fetched is held. -/
lemma Watched.fetch {answer : Answer} {stamps : List String} (h : Watched letters config repo w)
    (hphase : w.phase = .reading ledger (number :: todo) commands seen result)
    (hgithub : GitHubKeeps repo w (.fetch answer))
    (hread : prSteeringCommands letters repo number answer = .ok (found, stamps)) :
    Watched letters config repo
      { w with
        phase := .reading ledger todo (commands ++ found)
          (if stamps = [] then seen else Keyed.set number stamps seen) result } := by
  have hpoll := h.poll
  rw [hphase] at hpoll
  obtain ⟨hledger, hrepo, htracks⟩ := hpoll
  refine ⟨h.stamped, h.cursors, hledger, hrepo, fun m st hmem => ?_⟩
  have hkeep : (m, st) ∈ seen → Tracks w.now updatedAt (w.Open letters config repo m) st
      (HeldAs letters repo (commands ++ found) m) := fun hold =>
    (htracks m st hold).step le_rfl (fun _ => Or.inl) fun _ _ ⟨cmd, hcmd, hparse⟩ =>
      ⟨cmd, List.mem_append_left _ hcmd, hparse⟩
  split_ifs at hmem with hnil
  · exact hkeep hmem
  rcases Keyed.mem_of_mem_set hmem with heq | hold
  swap
  · exact hkeep hold
  obtain ⟨rfl, rfl⟩ := Prod.mk.inj heq
  cases answer with
  | failed e => cases hread
  | unparseable e => cases hread
  | value data =>
      cases data with
      | arr rows =>
          obtain ⟨rfl, rfl⟩ := readRows_ok hread
          obtain ⟨hcurrent, hall⟩ := hgithub _ _ _ _ _ _ hphase
          refine Tracks.fetch (h.cursors m) (fun s hs => ?_) fun row hopen hle => ?_
          · obtain ⟨row, hrow, rfl⟩ := List.mem_map.mp hs
            exact h.stamped m row (hcurrent row hrow)
          · obtain ⟨hrow, cmd, hparse, _⟩ := hopen
            rw [hledger] at hle
            exact ⟨cmd, List.mem_append_right _ (List.mem_filterMap.mpr ⟨row, hall row hrow hle, hparse⟩), hparse⟩
      | _ => cases hread

end Fetch

section Act

variable {ctx : SteerContext} {ledger : ProcessedLedger} {cmd : SteerCommand} {todo : List SteerCommand}
  {seen unresolved : List (ℤ × List String)} {acted : ℤ} {result : SteerResult}

/-- A command that was dealt with is no longer held: it is not open, or it waits with its stamp kept. -/
lemma Watched.settled {store : Checkout} {ledger' : ProcessedLedger} {unresolved' : List (ℤ × List String)}
    {acted' : ℤ} {result' : SteerResult} (h : Watched letters config repo w)
    (hphase : w.phase = .acting ctx ledger (cmd :: todo) seen unresolved acted result)
    (hstore : store.ledger = ledger') (hrepo : result'.repo = repo)
    (hgrown : ∀ key, ledger.contains key = true → ledger'.contains key = true)
    (hmarks : ∀ key, ledger'.watermark key = ledger.watermark key)
    (hkept : ∀ number, ∀ s ∈ (unresolved.lookup number).getD [], s ∈ (unresolved'.lookup number).getD [])
    (hdone : steerRefusal letters config cmd ≠ "" ∨ ledger'.contains (cmd.ledgerKey repo) = true ∨
      cmd.updatedAt ∈ (unresolved'.lookup cmd.prNumber).getD []) :
    Watched letters config repo
      { w with store := store, phase := .acting ctx ledger' todo seen unresolved' acted' result' } := by
  have hpoll := h.poll
  rw [hphase] at hpoll
  obtain ⟨hledger, hconfig, _, htracks⟩ := hpoll
  have hopen := fun number row => @open_of_grown letters config repo w ledger' store
    (.acting ctx ledger' todo seen unresolved' acted' result') number row hstore
    fun key hkey => hgrown key (hledger ▸ hkey)
  refine ⟨h.stamped, fun number => ?_, hstore, hconfig, hrepo, fun number stamps hs => ?_⟩
  · show SkipsNone w.now updatedAt _ (store.ledger.watermark _)
    rw [hstore, hmarks, ← hledger]
    exact (h.cursors number).step le_rfl (fun row hr => Or.inl (hopen number row hr)) fun _ _ => id
  · refine (htracks number stamps hs).step le_rfl (fun row hr => Or.inl (hopen number row hr)) fun row hr => ?_
    rintro (⟨other, hmem, hparse⟩ | hold)
    swap
    · exact Or.inr (hkept number _ hold)
    rcases List.mem_cons.mp hmem with rfl | hmem
    swap
    · exact Or.inl ⟨other, hmem, hparse⟩
    obtain ⟨hnumber, hstamp⟩ := parseCommand_place hparse
    obtain ⟨_, same, hparse', hrefusal, hnew⟩ := hr
    obtain rfl := Option.some.inj (hparse.symm.trans hparse')
    rcases hdone with hrefused | hentered | hwaits
    · exact absurd hrefusal hrefused
    · have hnew : store.ledger.contains (other.ledgerKey repo) = false := hnew
      rw [hstore, hentered] at hnew
      cases hnew
    · rw [hnumber, hstamp] at hwaits
      exact Or.inr hwaits

/-- **One command** keeps the invariant and moves no cursor. -/
theorem Watched.act (h : Watched letters config repo w)
    (hphase : w.phase = .acting ctx ledger (cmd :: todo) seen unresolved acted result) (turn : SteerTurn)
    (fs : List CrashProg.Fault) :
    let run := actOnOne letters ctx turn ledger cmd result acted fs w.store
    Watched letters config repo
      { w with store := run.2.2, phase := .afterAct ctx cmd todo seen unresolved acted run.1 } ∧
      ∀ key, run.2.2.ledger.watermark key = w.store.ledger.watermark key := by
  intro run
  have hpoll := h.poll
  rw [hphase] at hpoll
  obtain ⟨hledger, hconfig, hrepo, _⟩ := hpoll
  have hcases := @actOnOne_cases letters ctx turn ledger cmd result acted fs w.store
  have hsame : run.2.2.ledgerFile = w.store.ledgerFile → run.2.2.ledger = ledger := fun heq => by
    rw [Checkout.ledger, heq]
    exact hledger
  rcases hcases with ⟨known, same, r, hexit, hr⟩ | ⟨reason, same, r, hexit, hr⟩ | ⟨same, cap, r, hexit, hr⟩ |
    ⟨itemId, written, r, hexit, hr⟩ | ⟨same, stopped⟩
  · refine ⟨?_, fun key => by rw [hsame same, hledger]⟩
    rw [show run.1 = _ from hexit]
    exact h.settled hphase (hsame same) (hr.trans hrepo) (fun _ => id) (fun _ => rfl) (fun _ _ => id)
      (Or.inr (Or.inl (hrepo ▸ known)))
  · refine ⟨?_, fun key => by rw [hsame same, hledger]⟩
    rw [show run.1 = _ from hexit]
    exact h.settled hphase (hsame same) (hr.trans hrepo) (fun _ => id) (fun _ => rfl) (fun _ _ => id)
      (Or.inl (hconfig ▸ reason))
  · refine ⟨?_, fun key => by rw [hsame same, hledger]⟩
    rw [show run.1 = _ from hexit]
    exact h.settled hphase (hsame same) (hr.trans hrepo) (fun _ => id) (fun _ => rfl)
      (fun _ _ hs => mem_addUnresolved.mpr (Or.inl hs))
      (Or.inr (Or.inr (mem_addUnresolved.mpr (Or.inr ⟨rfl, rfl⟩))))
  · have hwritten : run.2.2.ledger = ledger.withEntry (cmd.ledgerKey result.repo) itemId ctx.stamp := by
      rw [Checkout.ledger, show run.2.2.ledgerFile = _ from written, ProcessedLedger.load_toJson]
    refine ⟨?_, fun key => by rw [hwritten, ProcessedLedger.watermark_withEntry, hledger]⟩
    rw [show run.1 = _ from hexit]
    exact h.settled hphase hwritten (hr.trans hrepo)
      (fun _ hkey => ProcessedLedger.contains_withEntry_of _ _ _ _ hkey) (fun _ => rfl) (fun _ _ => id)
      (Or.inr (Or.inl (hrepo ▸ ProcessedLedger.contains_withEntry_self _ _ _ _)))
  · rw [SteerPhase.afterAct_of_ended stopped]
    have hledger' : run.2.2.ledger = w.store.ledger := by rw [hsame same, hledger]
    exact ⟨h.stop.outside le_rfl hledger' rfl fun _ _ => Or.inl, fun key => by rw [hledger']⟩

/-- What the poll has earned skips nothing. -/
lemma Watched.earn (h : Watched letters config repo w)
    (hphase : w.phase = .acting ctx ledger [] seen unresolved acted result) :
    Watched letters config repo { w with phase := .marking ledger (computeWatermarks seen unresolved) } := by
  have hpoll := h.poll
  rw [hphase] at hpoll
  obtain ⟨hledger, _, _, htracks⟩ := hpoll
  refine ⟨h.stamped, h.cursors, hledger, fun number value hvalue => ?_⟩
  obtain ⟨stamps, hseen, hin, hbelow⟩ := computeWatermarks_spec hvalue
  refine (htracks number stamps hseen).advance hin fun row _ => ?_
  rintro (⟨_, hnil, _⟩ | hwaits)
  · exact (List.not_mem_nil hnil).elim
  · exact (hbelow _ hwaits).le

end Act

section Mark

variable {ledger : ProcessedLedger} {number : ℤ} {value : String} {todo : List (ℤ × String)}

/-- **One cursor.** -/
theorem Watched.mark (h : Watched letters config repo w) (hphase : w.phase = .marking ledger ((number, value) :: todo))
    (fs : List CrashProg.Fault) :
    let run := ledger.setWatermark (cursorKey repo number) value fs w.store
    Watched letters config repo { w with store := run.2.2, phase := .afterMark todo run.1 } ∧
      ∀ key, w.store.ledger.watermark key ≤ run.2.2.ledger.watermark key := by
  intro run
  have hpoll := h.poll
  rw [hphase] at hpoll
  obtain ⟨hledger, htracks⟩ := hpoll
  have hrest : ∀ m v, (m, v) ∈ todo → SkipsNone w.now updatedAt (w.Open letters config repo m) v :=
    fun m v hv => htracks m v (List.mem_cons_of_mem _ hv)
  rcases setWatermark_run ledger (cursorKey repo number) value fs w.store with
    hrun | ⟨ledger', hmove, hrun⟩ | ⟨hstore, hended⟩
  · rw [show run = _ from hrun]
    exact ⟨⟨h.stamped, h.cursors, hledger, hrest⟩, fun _ => le_rfl⟩
  · rw [show run = _ from hrun]
    have hopen := fun m row => @open_of_grown letters config repo w ledger' (w.store.withLedger ledger')
      (.marking ledger' todo) m row (Checkout.ledger_withLedger _ _)
      fun key hkey => by rw [ProcessedLedger.contains_withWatermark hmove, ← hledger]; exact hkey
    refine ⟨⟨h.stamped, fun m => ?_, Checkout.ledger_withLedger _ _, fun m v hv => ?_⟩, fun key => ?_⟩
    · show SkipsNone w.now updatedAt _ ((w.store.withLedger ledger').ledger.watermark _)
      rw [Checkout.ledger_withLedger, ProcessedLedger.watermark_withWatermark hmove]
      have hcursor : SkipsNone w.now updatedAt (w.Open letters config repo m)
          (if cursorKey repo m = cursorKey repo number then value
            else ledger.watermark (cursorKey repo m)) := by
        split_ifs with hkey
        · obtain rfl := cursorKey_injective hkey
          exact htracks m value List.mem_cons_self
        · exact hledger ▸ h.cursors m
      exact hcursor.step le_rfl (fun row hr => Or.inl (hopen m row hr)) fun _ _ => id
    · exact (hrest m v hv).step le_rfl (fun row hr => Or.inl (hopen m row hr)) fun _ _ => id
    · rw [Checkout.ledger_withLedger, hledger]
      exact ProcessedLedger.watermark_le_withWatermark hmove key
  · rw [show run.2.2 = w.store from hstore, SteerPhase.afterMark_of_ended hended]
    exact ⟨h.stop, fun _ => le_rfl⟩

end Mark

/-! ### Runs -/

/-- What the outside writes keeps the invariant. -/
lemma Watched.rows (h : Watched letters config repo w) {number : ℤ} {rows : List Json}
    (hrows : ∀ row ∈ rows, row ∈ w.comments number ∨ updatedAt row = w.now) :
    Watched letters config repo { w with comments := Function.update w.comments number rows } := by
  refine h.outside le_rfl rfl rfl fun m row hmem => ?_
  by_cases hm : m = number
  · subst hm
    exact hrows row (by simpa using hmem)
  · exact Or.inl (by simpa [Function.update_of_ne hm] using hmem)

/-- **One step** keeps the invariant and takes no cursor back. -/
theorem Watched.step (h : Watched letters config repo w) {a : SteerAct} (hgithub : GitHubKeeps repo w a)
    (hstep : SteerStep letters config repo w a w') :
    Watched letters config repo w' ∧
      ∀ key, w.store.ledger.watermark key ≤ w'.store.ledger.watermark key := by
  have hsame : ∀ {v : SteerWorld}, v.store = w.store →
      ∀ key, w.store.ledger.watermark key ≤ v.store.ledger.watermark key := fun hv key => by rw [hv]
  unfold SteerStep SteerWorld.next at hstep
  cases a with
  | tick now =>
      cases hstep
      exact ⟨h.outside hgithub rfl rfl fun _ _ => Or.inl, hsame rfl⟩
  | comment number row =>
      cases hstep
      refine ⟨h.rows fun r hr => ?_, hsame rfl⟩
      rcases List.mem_append.mp hr with hr | hr
      · exact Or.inl hr
      · exact Or.inr (List.mem_singleton.mp hr ▸ hgithub)
  | edit number index row =>
      cases hstep
      refine ⟨h.rows fun r hr => ?_, hsame rfl⟩
      rcases List.mem_or_eq_of_mem_set hr with hr | rfl
      · exact Or.inl hr
      · exact Or.inr hgithub
  | elsewhere memory queue =>
      cases hstep
      exact ⟨h.outside le_rfl rfl rfl fun _ _ => Or.inl, fun _ => le_rfl⟩
  | load marked =>
      dsimp only at hstep
      split at hstep
      · split_ifs at hstep
        cases hstep
        exact ⟨h.load marked, hsame rfl⟩
      · cases hstep
  | fetch answer =>
      dsimp only at hstep
      split at hstep
      next hphase =>
        split at hstep
        · cases hstep
          exact ⟨h.fetch_failed hphase _, hsame rfl⟩
        next hread =>
          cases hstep
          exact ⟨h.fetch hphase hgithub hread, hsame rfl⟩
      · cases hstep
  | gather stamp display defaultMemory =>
      dsimp only at hstep
      split at hstep
      next hphase =>
        cases hstep
        exact ⟨h.gather hphase _ _ _, hsame rfl⟩
      · cases hstep
  | act turn faults =>
      dsimp only at hstep
      split at hstep
      next hphase =>
        cases hstep
        obtain ⟨hkeeps, hmarks⟩ := h.act hphase turn faults
        exact ⟨hkeeps, fun key => (hmarks key).ge⟩
      · cases hstep
  | earn =>
      dsimp only at hstep
      split at hstep
      next hphase =>
        cases hstep
        exact ⟨h.earn hphase, hsame rfl⟩
      · cases hstep
  | mark faults =>
      dsimp only at hstep
      split at hstep
      next hphase =>
        cases hstep
        exact h.mark hphase faults
      · cases hstep
  | stop =>
      cases hstep
      exact ⟨h.stop, hsame rfl⟩

lemma watched_start (memory : MemoryFile) (queue : Disk) :
    Watched letters config repo (.start memory queue) where
  stamped _ _ hmem := (List.not_mem_nil hmem).elim
  cursors _ := SkipsNone.intro le_rfl fun _ hopen => (List.not_mem_nil hopen.1).elim
  poll := trivial

/-- In every run the invariant holds. -/
theorem watched_of_reaches {memory : MemoryFile} {queue : Disk}
    (run : Reaches (SteerStep letters config repo) (GitHubKeeps repo) (.start memory queue) w) :
    Watched letters config repo w :=
  run.invariant (watched_start memory queue) fun _ _ _ h hgithub hstep => (h.step hgithub hstep).1

/-- Along a run no cursor goes back. -/
lemma watermark_le_of_reaches (h : Watched letters config repo w)
    (run : Reaches (SteerStep letters config repo) (GitHubKeeps repo) w w') (key : String) :
    w.store.ledger.watermark key ≤ w'.store.ledger.watermark key := by
  have hboth := run.invariant (I := fun v => Watched letters config repo v ∧
    w.store.ledger.watermark key ≤ v.store.ledger.watermark key) ⟨h, le_rfl⟩
    fun v a u ⟨hv, hle⟩ hgithub hstep =>
      ⟨(hv.step hgithub hstep).1, hle.trans ((hv.step hgithub hstep).2 key)⟩
  exact hboth.2

/-- **The cursors never skip a command.**  In every run of comments, edits and polls, whatever calls and
    writes fail and wherever a poll is cut off, no cursor goes back, and every command of an authorised author
    that was not entered in the ledger is stamped at or after the cursor of its pull request. -/
theorem watermark_never_skips (letters : Letters) (config : GitHubIntakeConfig) (repo : String)
    (memory : MemoryFile) (queue : Disk) (w : SteerWorld)
    (run : Reaches (SteerStep letters config repo) (GitHubKeeps repo) (.start memory queue) w) :
    (∀ number, ∀ row ∈ w.comments number, ∀ cmd,
      parseCommand letters row number (prUrlOf repo number) = some cmd →
      steerRefusal letters config cmd = "" → w.store.ledger.contains (cmd.ledgerKey repo) = false →
      w.store.ledger.watermark (cursorKey repo number) ≤ updatedAt row) ∧
    ∀ w', Reaches (SteerStep letters config repo) (GitHubKeeps repo) w w' →
      ∀ key, w.store.ledger.watermark key ≤ w'.store.ledger.watermark key := by
  have hwatched := watched_of_reaches run
  refine ⟨fun number row hrow cmd hparse hrefusal hnew => ?_, fun w' run' =>
    watermark_le_of_reaches hwatched run'⟩
  exact (hwatched.cursors number).le_stamp ⟨hrow, cmd, hparse, hrefusal, hnew⟩

/-! ### A run on fixed inputs -/

def sampleLetters : Letters where
  casefold := PyText.lower
  upper s := String.ofList (s.toList.map Char.toUpper)
  lower := PyText.lower

/-- A comment of an owner. -/
def sampleRow (body : String) : Json :=
  .obj [("id", .int 111), ("body", .str body), ("author_association", .str "OWNER"),
    ("updated_at", .str "2026-09-02T16:11:25Z"), ("user", .obj [("login", .str "ann")])]

/-- A comment arrives, and the poll cannot read it. -/
theorem watermark_never_skips_once : ∃ w : SteerWorld, w.comments 7 = [sampleRow "/memory use tabs"] ∧
    w.store.ledger.watermark (cursorKey "o/r" 7) ≤ updatedAt (sampleRow "/memory use tabs") := by
  let config : GitHubIntakeConfig := { steerEnabled := true }
  have hrun : Reaches (SteerStep sampleLetters config "o/r") (GitHubKeeps "o/r") (.start .missing Disk.empty) _ :=
    .tail (a := .fetch (.failed "offline")) (.tail (a := .load [7])
      (.tail (a := .comment 7 (sampleRow "/memory use tabs"))
        (.tail (a := .tick "2026-09-02T16:11:25Z") .refl (show "" ≤ "2026-09-02T16:11:25Z" by decide) rfl)
        rfl rfl) trivial rfl) trivial rfl
  have hparse : parseCommand sampleLetters (sampleRow "/memory use tabs") 7 (prUrlOf "o/r" 7) = some
      { prNumber := 7, prUrl := "https://github.com/o/r/pull/7", commentId := 111, login := "ann",
        association := "OWNER", command := "/memory", text := "use tabs", updatedAt := "2026-09-02T16:11:25Z" } := by
    decide +kernel
  refine ⟨_, ?_, (watermark_never_skips sampleLetters config "o/r" .missing Disk.empty _ hrun).1 7 _ ?_ _ hparse
    (by decide +kernel) rfl⟩
  · rfl
  · exact List.mem_cons_self

end

end Serve

end Kstrl
