import Kstrl.Base.Runs
import Kstrl.Queue.Invariant
import Kstrl.Serve.Books

/-!
# The daemon and the commands over one queue

The serve daemon and any number of `ks queue` commands share the disk.  What runs under `queue_lock`
is one step, undisturbed; what is read outside the lock is a step of its own, and the process holds
what it read until its block runs.  Two things are held that way: the item `serve_cycle` leased, from
the claim to the start (`Daemon.claimed`), and the item `ks queue retry`, `rm` and `priority`
resolved before they took the lock (`Processes.held`).

`serve_lock` admits one daemon at a time, so `Processes.daemon` is the phase of the one that is up;
it may go away at any moment and another may come.

* **`Change`** is what a step does to the items of the disk, said once: it keeps the attempts, or
  charges one that was left, or resets them, or writes back what `ks queue retry` held.
* **`Current`** is the condition on the last kind: what is written back is not behind the disk.
* **`attempts_never_decrease`** is the result, and `stale_retry_loses_attempt` the run that breaks it
  without the condition: an item poisoned, requeued, run and poisoned again while a retry waits.
-/

namespace Kstrl

open CrashProg Runs

namespace Serve

/-! ## The commands -/

/-- The commands that resolve their item before they take the lock. -/
inductive Command where
  | retry (resetAttempts : Bool)
  | rm (order : List String)
  | priority (value : ℤ)

/-- The checks a command makes on the item it resolved, still outside the lock. -/
def Command.accepts (item : QueueItem) : Command → Bool
  | .retry resetAttempts => (item.state = .failed || item.state = .poison) &&
      (resetAttempts || item.attemptsRemaining ≠ 0)
  | .rm _ => true
  | .priority _ => true

/-- The block of a command. -/
def Command.block (env : Env) (actor : String) (item : QueueItem) : Command → QueueProg Unit
  | .retry resetAttempts => do
      let _ ← Queue.requeue env item "retry (manual)" actor resetAttempts
  | .rm order => Queue.remove env item order actor
  | .priority value => do
      let _ ← Queue.setPriority env item.itemId value actor

/-- `ks queue add`: the abandoned staging directories go first. -/
def addBlock (env : Env) (mint : MintedId) (spec : Queue.SpecSource) (args : Queue.AddArgs) :
    QueueProg Unit := do
  let _ ← sweepStaging env.stamp
  let _ ← Queue.add env mint spec args

/-- `ks queue answer`: the item is read under the lock.  `escalation` is the row that names a poisoned
    item, with its run. -/
def answerBlock (env : Env) (itemId text : String) (parsed : Option Json) (actor : String)
    (resetAttempts : Bool) (escalation : QueueItem → String × String) : QueueProg Unit := do
  match ← getItem itemId with
  | none => pure ()
  | some item => do
      let row := if item.state = .poison then escalation item else ("", "")
      let _ ← Queue.answer env item text parsed actor resetAttempts row.1 row.2

/-! ## The system -/

/-- Where the daemon is in its cycle. -/
inductive Daemon where
  | idle
  /-- between the claim and the start, with the item as it was leased -/
  | claimed (leased : QueueItem)
  /-- from the start to the end of the cycle -/
  | working (itemId : String)

namespace Daemon

def isIdle : Daemon → Bool
  | .idle => true
  | _ => false

def isClaimed : Daemon → Bool
  | .claimed _ => true
  | _ => false

def isWorking : Daemon → Bool
  | .working _ => true
  | _ => false

lemma of_isIdle {d : Daemon} (h : d.isIdle = true) : d = .idle := by
  cases d <;> first | rfl | cases h

lemma of_isClaimed {d : Daemon} (h : d.isClaimed = true) : ∃ leased, d = .claimed leased := by
  cases d with
  | claimed leased => exact ⟨leased, rfl⟩
  | _ => cases h

lemma of_isWorking {d : Daemon} (h : d.isWorking = true) : ∃ itemId, d = .working itemId := by
  cases d with
  | working itemId => exact ⟨itemId, rfl⟩
  | _ => cases h

end Daemon

/-- What a command holds between its read and its block. -/
structure Held where
  command : Command
  item : QueueItem

structure Processes where
  disk : Disk
  daemon : Daemon
  /-- the commands, by process -/
  held : ℕ → Option Held
  /-- the ids handed out -/
  minted : Set String
  /-- the `max_attempts` an item was added with -/
  granted : String → ℤ
  /-- the entries into `running/` since the last reset of the attempts -/
  entered : String → ℕ

def Processes.init : Processes where
  disk := Disk.empty
  daemon := .idle
  held := fun _ => none
  minted := ∅
  granted := fun _ => 0
  entered := fun _ => 0

inductive Act where
  | recover (env : Env) (probe : ℤ → Bool) (moment : ℕ)
  | claim (env : Env) (moment : ℕ) (paused : Bool) (gate : QueueItem → MergeGate)
  | start (env : Env)
  | exhausted (env : Env) (reason : String)
  | adopt (env : Env) (childPid : ℤ)
  | unreaped (env : Env) (detail : String)
  | settle (env : Env) (verdict : Outcome) (prUrls : List String) (runId architectRunId : String)
  | redBase (env : Env) (reason : String)
  | failure (env : Env) (moment : ℕ) (verdict : Outcome) (prUrls : List String)
  /-- the cycle is over, or the daemon is gone -/
  | rest
  | add (env : Env) (mint : MintedId) (spec : Queue.SpecSource) (args : Queue.AddArgs)
  /-- process `p` resolves the item of its command -/
  | look (p : ℕ) (command : Command) (itemId : String)
  /-- process `p` takes the lock and does what it came for -/
  | carryOut (p : ℕ) (env : Env) (actor : String)
  | answer (env : Env) (itemId text : String) (parsed : Option Json) (actor : String)
      (resetAttempts : Bool) (escalation : QueueItem → String × String)
  | settleApproval (env : Env) (itemId runId actor : String) (parkedNow : Option String)
      (verdict : Outcome) (prUrls : List String)

namespace Act

/-- What the step runs under the lock. -/
def prog (s : Processes) : Act → QueueProg Unit
  | .recover env probe moment => do let _ ← recoverBlock env probe moment
  | .claim env moment paused gate => do let _ ← claimBlock env moment paused gate
  | .start env =>
      match s.daemon with
      | .claimed leased => do let _ ← startBlock env leased
      | _ => pure ()
  | .exhausted env reason =>
      match s.daemon with
      | .claimed leased => do let _ ← exhaustedBlock env leased reason
      | _ => pure ()
  | .adopt env childPid =>
      match s.daemon with
      | .working itemId => adoptBlock env itemId childPid
      | _ => pure ()
  | .unreaped env detail =>
      match s.daemon with
      | .working itemId => unreapedBlock env itemId detail
      | _ => pure ()
  | .settle env verdict prUrls runId architectRunId =>
      match s.daemon with
      | .working itemId => do let _ ← settleBlock env itemId verdict prUrls runId architectRunId
      | _ => pure ()
  | .redBase env reason =>
      match s.daemon with
      | .working itemId => redBaseBlock env itemId reason
      | _ => pure ()
  | .failure env moment verdict prUrls =>
      match s.daemon with
      | .working itemId => failureBranch env moment itemId verdict prUrls
      | _ => pure ()
  | .rest => pure ()
  | .add env mint spec args => addBlock env mint spec args
  | .look _ _ _ => pure ()
  | .carryOut p env actor =>
      match s.held p with
      | some held => held.command.block env actor held.item
      | none => pure ()
  | .answer env itemId text parsed actor resetAttempts escalation =>
      answerBlock env itemId text parsed actor resetAttempts escalation
  | .settleApproval env itemId runId actor parkedNow verdict prUrls =>
      settleApprovalBlock env itemId runId actor parkedNow verdict prUrls

/-- Whether the step is the daemon's. -/
def isDaemon : Act → Bool
  | .add .. | .look .. | .carryOut .. | .answer .. | .settleApproval .. => false
  | _ => true

/-- The daemon takes its steps in the order of a cycle, and an id is minted once. -/
def Allowed (s : Processes) : Act → Prop
  | .recover .. | .claim .. => s.daemon = .idle
  | .start _ | .exhausted .. => ∃ leased, s.daemon = .claimed leased
  | .adopt .. | .unreaped .. | .settle .. | .redBase .. | .failure .. => ∃ itemId, s.daemon = .working itemId
  | .add _ mint _ _ => mint.itemId ∉ s.minted
  | .rest | .look .. | .carryOut .. | .answer .. | .settleApproval .. => True

/-- The item whose attempts the step is called to reset. -/
def resetId (s : Processes) : Act → Option String
  | .carryOut p _ _ =>
      match s.held p with
      | some ⟨.retry true, item⟩ => some item.itemId
      | _ => none
  | .answer _ itemId _ _ _ true _ =>
      match Queue.get s.disk itemId with
      | .ok (some item) => some item.itemId
      | _ => none
  | _ => none

end Act

namespace Processes

/-- The daemon after a step. -/
def nextDaemon (s : Processes) : Act → Daemon
  | .claim env moment paused gate =>
      match (claimBlock env moment paused gate [] s.disk).1 with
      | .done (some leased) => .claimed leased
      | _ => .idle
  | .start env =>
      match s.daemon with
      | .claimed leased =>
          match (startBlock env leased [] s.disk).1 with
          | .done running => .working running.itemId
          | _ => .claimed leased
      | daemon => daemon
  | .settle env verdict prUrls runId architectRunId =>
      match s.daemon with
      | .working itemId =>
          match (settleBlock env itemId verdict prUrls runId architectRunId [] s.disk).1 with
          | .done false => .working itemId
          | _ => .idle
      | daemon => daemon
  | .exhausted .. | .unreaped .. | .redBase .. | .failure .. | .rest => .idle
  | _ => s.daemon

/-- What the commands hold after a step. -/
def nextHeld (s : Processes) : Act → ℕ → Option Held
  | .look p command itemId => Function.update s.held p <|
      match Queue.get s.disk itemId with
      | .ok (some item) => if command.accepts item then some ⟨command, item⟩ else none
      | _ => none
  | .carryOut p _ _ => Function.update s.held p none
  | _ => s.held

/-- The entries of `id` into `running/` after a step from `s` to the disk `d'`. -/
def nextEntered (s : Processes) (a : Act) (d' : Disk) (id : String) : ℕ :=
  if a.resetId s = some id ∧ storedAttempts d' id = some 0 then 0
  else if (ItemState.running, id) ∉ s.disk.dirs ∧ (ItemState.running, id) ∈ d'.dirs then
    s.entered id + 1
  else s.entered id

/-- One step. -/
def next (s : Processes) (a : Act) : Processes :=
  let d' := after (a.prog s) s.disk
  { disk := d'
    daemon := s.nextDaemon a
    held := s.nextHeld a
    minted := match a with
      | .add _ mint _ _ => insert mint.itemId s.minted
      | _ => s.minted
    granted := match a with
      | .add env mint _ args =>
          if (ItemState.queued, mint.itemId) ∈ d'.dirs then
            Function.update s.granted mint.itemId (args.resolvedAttempts env)
          else s.granted
      | _ => s.granted
    entered := s.nextEntered a d' }

end Processes

/-- The steps of the processes. -/
def PStep (s : Processes) (a : Act) (t : Processes) : Prop := a.Allowed s ∧ t = s.next a

/-! ## What a step does to the items -/

/-- What a step makes of an item of the disk. -/
inductive Change (s : Processes) (a : Act) (it it' : QueueItem) : Prop
  | kept (keeps : Keeps it it')
  | charged (bound : it'.maxAttempts = it.maxAttempts) (left : it.attempts < it.maxAttempts)
      (attempts : it'.attempts = it.attempts + 1)
  | reset (called : a.resetId s = some it.itemId) (bound : it'.maxAttempts = s.granted it.itemId)
      (attempts : it'.attempts = 0) (state : it'.state = .queued)
  /-- `ks queue retry` wrote back the item it held -/
  | wroteBack {p : ℕ} {env : Env} {actor : String} {copy : QueueItem}
      (act : a = .carryOut p env actor) (held : s.held p = some ⟨.retry false, copy⟩)
      (id : copy.itemId = it.itemId) (found : copy.state = it.state)
      (bound : it'.maxAttempts = copy.maxAttempts) (attempts : it'.attempts = copy.attempts)
      (state : it'.state = .queued)

/-- Only the daemon puts items into `leased/` or rewrites one there. -/
def Aside (a : Act) (it it' : QueueItem) : Prop :=
  a.isDaemon = true ∨ (it'.state = .leased → it' = it)

/-- What holds of the processes in every state. -/
structure Inv (s : Processes) : Prop where
  tidy : Tidy s.disk
  minted : ∀ state id, (state, id) ∈ s.disk.dirs → id ∈ s.minted
  books : ∀ item, Located s.disk item → (s.entered item.itemId : ℤ) ≤ item.attempts ∧
    item.attempts ≤ item.maxAttempts ∧ item.maxAttempts = s.granted item.itemId
  spent : ∀ id, (s.entered id : ℤ) ≤ s.granted id
  fresh : ∀ id, id ∉ s.minted → s.entered id = 0
  leased : ∀ leased, s.daemon = .claimed leased → leased.state = .leased ∧
    ((leased.state, leased.itemId) ∈ s.disk.dirs → Located s.disk leased)
  held : ∀ p command copy, s.held p = some ⟨command, copy⟩ → command.accepts copy = true ∧
    copy.Sound ∧ copy.itemId ∈ s.minted ∧ copy.maxAttempts = s.granted copy.itemId

lemma Inv.init : Inv Processes.init where
  tidy := tidy_empty
  minted _ _ h := absurd h (AList.notMem_empty _)
  books _ h := absurd h.mem (AList.notMem_empty _)
  spent _ := le_refl _
  fresh _ _ := rfl
  leased _ h := nomatch h
  held _ _ _ h := nomatch h

section Steps

variable {s : Processes} {a : Act} {d d' : Disk}

/-- Every item of the next disk stems from one of this disk by a change of the step. -/
def Steps (s : Processes) (a : Act) (d' : Disk) : Prop :=
  Descends (fun it it' => Change s a it it' ∧ Aside a it it') s.disk d'

lemma Steps.of_keeps (ha : a.isDaemon = true) (h : Descends Keeps s.disk d') : Steps s a d' :=
  h.mono fun _ _ hk => ⟨.kept hk, Or.inl ha⟩

lemma Steps.of_aside (h : Descends KeepsAside s.disk d') : Steps s a d' :=
  h.mono fun _ _ hk => ⟨.kept hk.1, Or.inr hk.2⟩

lemma Steps.of_same (hi : Inv s) (h : d' = s.disk) : Steps s a d' :=
  .of_aside (Descends.of_dirs KeepsAside.refl hi.tidy (by rw [h]))

/-- What `ks queue retry` writes, when the item is still in the state it read: the item it held. -/
lemma retry_after {p : ℕ} (env : Env) (actor : String) {reset : Bool} {copy : QueueItem} (hi : Inv s)
    (hheld : s.held p = some ⟨.retry reset, copy⟩)
    (hmem : (copy.state, copy.itemId) ∈ s.disk.dirs) :
    Located (after (Queue.requeue env copy "retry (manual)" actor reset) s.disk)
      (Queue.moved env copy .queued false (Queue.requeueUpdates reset none)) := by
  obtain ⟨haccepts, hsound, _, _⟩ := hi.held p _ copy hheld
  obtain ⟨it, hl, hid⟩ := hi.tidy _ _ hmem
  have hstate : copy.state = it.state := hl.only _ (hid ▸ hmem)
  have hplaced : Placed s.disk copy := ⟨hid ▸ hl.safe, hmem, fun state h =>
    (hl.only state (hid ▸ h)).trans hstate.symm⟩
  have hlegal : ItemState.queued ∈ legalTransitions copy.state := by
    have : copy.state = .failed ∨ copy.state = .poison := by
      simp only [Command.accepts, Bool.and_eq_true, Bool.or_eq_true, decide_eq_true_eq] at haccepts
      exact haccepts.1
    rcases this with h | h <;> rw [h] <;> decide
  exact transition_after env copy .queued "retry (manual)" actor false (.obj [])
    (Queue.requeueUpdates reset none) hplaced hsound hlegal

/-- `ks queue retry`, with the item it held. -/
lemma retry_steps {p : ℕ} {env : Env} {actor : String} {reset : Bool} {copy : QueueItem}
    (hi : Inv s) (hheld : s.held p = some ⟨.retry reset, copy⟩) :
    Steps s (.carryOut p env actor)
      (after (Queue.requeue env copy "retry (manual)" actor reset) s.disk) := by
  obtain ⟨_, _, _, hgranted⟩ := hi.held p _ copy hheld
  have hleaves := leaves_after (Queue.requeue env copy "retry (manual)" actor reset) s.disk
  by_cases hmem : (copy.state, copy.itemId) ∈ s.disk.dirs
  swap
  · exact .of_same hi (transition_refused _ _ _ _ _ _ _ _ hmem hleaves)
  -- the item on disk is in the state the command read, but it need not be the item it read
  obtain ⟨it, hl, hid⟩ := hi.tidy _ _ hmem
  refine Descends.of_self (fun it => ⟨.kept (Keeps.refl it), Or.inr fun _ => rfl⟩) hi.tidy
    (hid ▸ (transition_leaves _ _ _ _ _ _ _ _ hleaves).sameElsewhere) hl
    (retry_after env actor hi hheld hmem) ((itemId_moved _ _ _ _ _).trans hid.symm)
    ⟨?_, Or.inr fun h => nomatch h⟩
  have hattempts := attempts_requeueUpdates copy reset none
  cases reset with
  | true =>
      refine .reset ?_ ((maxAttempts_moved _ _ _ _ _).trans (hid ▸ hgranted)) hattempts rfl
      simp [Act.resetId, hheld, hid]
  | false =>
      exact .wroteBack rfl hheld hid.symm (hl.only _ (hid ▸ hmem)) (maxAttempts_moved _ _ _ _ _)
        hattempts rfl

/-- `ks queue rm`, with the item it held. -/
lemma rm_steps {env : Env} {actor : String} {order : List String} {copy : QueueItem} (hi : Inv s) :
    Steps s a (after (Queue.remove env copy order actor) s.disk) := by
  rcases remove_after env copy order actor s.disk with
    hsame | ⟨hmem, hgone⟩
  · exact .of_same hi hsame
  have hbut := remove_leaves (leaves_after (Queue.remove env copy order actor) s.disk)
  obtain ⟨it, hl, hid⟩ := hi.tidy _ _ hmem
  have hstate : copy.state = it.state := hl.only _ (hid ▸ hmem)
  refine .of_aside (Descends.of_removed KeepsAside.refl hi.tidy fun state id hleft state' => ?_)
  -- no directory of the removed id is left
  refine hbut _ fun he => ?_
  obtain ⟨_, rfl⟩ := Prod.mk.inj he
  have hne : (state, copy.itemId) ≠ (copy.state, copy.itemId) := fun h => hgone (h ▸ hleft)
  have hbefore : (state, copy.itemId) ∈ s.disk.dirs := by
    rwa [← AList.lookup_isSome, hbut _ hne, AList.lookup_isSome] at hleft
  exact hne (by rw [hstate, ← hl.only state (hid ▸ hbefore)])

/-- `ks queue priority`, with the id of the item it held. -/
lemma priority_steps {env : Env} {actor id : String} {value : ℤ} (hi : Inv s) :
    Steps s a (after (Queue.setPriority env id value actor) s.disk) := by
  have hleaves := leaves_after (Queue.setPriority env id value actor) s.disk
  rcases setPriority_leaves hleaves with hsame | ⟨current, hmem, rfl, hstate, _⟩
  · exact .of_same hi hsame
  · exact .of_aside (quiet_descends_aside (.setPriority current value actor) hi.tidy
      ⟨rfl, rfl, rfl, rfl, rfl⟩ (hi.tidy.located hmem) (by rw [hstate]; decide)
      (by simp [Op.target?]) (leaves_map_unit.mpr hleaves))

/-- `ks queue answer`.  The item it answers is the one it read under the lock. -/
lemma answer_steps {env : Env} {itemId text actor : String} {parsed : Option Json} {reset : Bool}
    {escalation : QueueItem → String × String} (hi : Inv s) :
    Steps s (.answer env itemId text parsed actor reset escalation)
      (after (answerBlock env itemId text parsed actor reset escalation) s.disk) := by
  unfold answerBlock getItem
  rw [bind_bind, after_read_bind]
  cases hget : Queue.get s.disk itemId with
  | error e => exact .of_same hi rfl
  | ok found =>
      cases found with
      | none => exact .of_same hi rfl
      | some item =>
          have hl := hi.tidy.located (Queue.mem_items_of_get hget)
          set row := if item.state = .poison then escalation item else ("", "")
          show Steps s _ (after (Queue.answer env item text parsed actor reset row.1 row.2 >>= _) _)
          rw [after_map]
          rcases answer_after env hl.placed text parsed actor row.1 row.2 reset with
            hsame | ⟨hdirs, hen, hstate⟩
          · exact .of_aside (Descends.of_dirs KeepsAside.refl hi.tidy hsame.1)
          · -- the spec went over whatever file it names, the sidecar is written after it
            have hmoved := ((hl.placed.putFile item.specFilename (.text text parsed)).committed
              (itemId_moved env item .queued false (Queue.answerUpdates reset))
              (sound_moved _ _ _ _ _ hl.sound) rfl hen).sameDirs hdirs
            have helse : SameElsewhere s.disk _ item.itemId :=
              op_elsewhere env (.answer item text parsed actor reset row.1 row.2) rfl
                (leaves_map_unit.mpr (leaves_after _ s.disk))
            have hattempts := attempts_answerUpdates item reset
            refine Descends.of_self (fun it => ⟨.kept (Keeps.refl it), Or.inr fun _ => rfl⟩) hi.tidy
              helse hl hmoved (itemId_moved _ _ _ _ _) ⟨?_, Or.inr fun h => nomatch h⟩
            cases reset with
            | true =>
                refine .reset ?_ ((maxAttempts_moved _ _ _ _ _).trans (hi.books item hl).2.2)
                  hattempts rfl
                simp [Act.resetId, hget]
            | false =>
                exact .kept ⟨maxAttempts_moved _ _ _ _ _, hattempts, fun h => nomatch h⟩

/-- **What a step does to the items.** -/
theorem step_descends (hi : Inv s) (ha : a.Allowed s)
    (hadd : ∀ env mint spec args, a ≠ .add env mint spec args) : Steps s a (s.next a).disk := by
  show Steps s a (after (a.prog s) s.disk)
  have hleaves := leaves_after (a.prog s) s.disk
  cases a with
  | recover env probe moment =>
      exact .of_keeps rfl (recoverBlock_descends probe moment hi.tidy (leaves_map_unit.mp hleaves))
  | claim env moment paused gate =>
      exact .of_keeps rfl (Triple.leaves ((claimBlock_triple hi.tidy moment paused gate).conseq
        (fun _ => id) (fun _ _ h => h.1) (fun _ _ => id) fun _ => id) rfl
          (leaves_map_unit.mp hleaves))
  | start env =>
      obtain ⟨leased, hd⟩ := ha
      simp only [Act.prog, hd] at hleaves ⊢
      refine (startBlock_descends hi.tidy (hi.leased leased hd).2
        (leaves_map_unit.mp hleaves)).mono fun it it' hc => ⟨?_, Or.inl rfl⟩
      rcases hc with hk | ⟨_, hmax, hlt, hatt⟩
      · exact .kept hk
      · exact .charged hmax hlt hatt
  | exhausted env reason =>
      obtain ⟨leased, hd⟩ := ha
      simp only [Act.prog, hd] at hleaves ⊢
      exact .of_keeps rfl (exhaustedBlock_descends hi.tidy (hi.leased leased hd).2
        (leaves_map_unit.mp hleaves))
  | adopt env childPid =>
      obtain ⟨itemId, hd⟩ := ha
      simp only [Act.prog, hd] at hleaves ⊢
      exact .of_keeps rfl (adoptBlock_descends hi.tidy hleaves)
  | unreaped env detail =>
      obtain ⟨itemId, hd⟩ := ha
      simp only [Act.prog, hd] at hleaves ⊢
      exact .of_keeps rfl (unreapedBlock_descends hi.tidy hleaves)
  | settle env verdict prUrls runId architectRunId =>
      obtain ⟨itemId, hd⟩ := ha
      simp only [Act.prog, hd] at hleaves ⊢
      exact .of_keeps rfl (settleBlock_descends hi.tidy (leaves_map_unit.mp hleaves))
  | redBase env reason =>
      obtain ⟨itemId, hd⟩ := ha
      simp only [Act.prog, hd] at hleaves ⊢
      exact .of_keeps rfl (redBaseBlock_descends hi.tidy hleaves)
  | failure env moment verdict prUrls =>
      obtain ⟨itemId, hd⟩ := ha
      simp only [Act.prog, hd] at hleaves ⊢
      exact .of_keeps rfl (failureBranch_descends hi.tidy hleaves)
  | rest => exact .of_same hi rfl
  | look => exact .of_same hi rfl
  | add env mint spec args => exact absurd rfl (hadd env mint spec args)
  | carryOut p env actor =>
      cases hheld : s.held p with
      | none => exact .of_same hi (by simp only [Act.prog, hheld]; rfl)
      | some held =>
          obtain ⟨command, copy⟩ := held
          simp only [Act.prog, hheld]
          cases command with
          | retry reset =>
              rw [Command.block, after_map]
              exact retry_steps hi hheld
          | rm order => exact rm_steps hi
          | priority value =>
              rw [Command.block, after_map]
              exact priority_steps hi
  | answer env itemId text parsed actor reset escalation => exact answer_steps hi
  | settleApproval env itemId runId actor parkedNow verdict prUrls =>
      exact .of_aside (settleApprovalBlock_descends hi.tidy hleaves)

end Steps

/-! ## The invariant -/

/-- What `ks queue retry` writes back without a reset is not behind the disk: the item on disk, when it
    is in the state that was read, has no more attempts than the item that was read. -/
def Current (s : Processes) : Act → Prop
  | .carryOut p _ _ => ∀ copy, s.held p = some ⟨.retry false, copy⟩ →
      ∀ item ∈ items s.disk, item.itemId = copy.itemId → item.state = copy.state →
        item.attempts ≤ copy.attempts
  | _ => True

/-- The attempts on disk go down only where a reset was called for. -/
def KeepsAttempts (s : Processes) (a : Act) (t : Processes) : Prop :=
  ∀ item ∈ items s.disk, ∀ item' ∈ items t.disk, item'.itemId = item.itemId →
    a.resetId s ≠ some item.itemId → item.attempts ≤ item'.attempts

section Preserved

variable {s : Processes} {a : Act}

lemma nextEntered_le (s : Processes) (a : Act) (d' : Disk) (id : String) :
    s.nextEntered a d' id ≤ s.entered id + 1 := by
  unfold Processes.nextEntered
  split_ifs <;> omega

lemma nextEntered_le_of_mem {d' : Disk} {id : String}
    (h : (ItemState.running, id) ∈ d'.dirs → (ItemState.running, id) ∈ s.disk.dirs) :
    s.nextEntered a d' id ≤ s.entered id := by
  unfold Processes.nextEntered
  split_ifs with _ hrun
  · omega
  · exact absurd (h hrun.2) hrun.1
  · exact le_refl _

lemma entered_le_of_mem (s : Processes) (a : Act) {id : String}
    (h : (ItemState.running, id) ∈ (s.next a).disk.dirs → (ItemState.running, id) ∈ s.disk.dirs) :
    (s.next a).entered id ≤ s.entered id := nextEntered_le_of_mem h

lemma Current.le (hc : Current s a) {p : ℕ} {env : Env} {actor : String} {copy it : QueueItem}
    (ha : a = .carryOut p env actor) (hheld : s.held p = some ⟨.retry false, copy⟩)
    (hl : Located s.disk it) (hid : copy.itemId = it.itemId) (hstate : copy.state = it.state) :
    it.attempts ≤ copy.attempts := by
  subst ha
  exact hc copy hheld it hl.mem_items hid.symm hstate.symm

/-- The books of one item, after a change. -/
lemma Change.books {it it' : QueueItem} {d' : Disk} (hi : Inv s) (hc : Current s a)
    (hl : Located s.disk it) (hl' : Located d' it') (hid : it.itemId = it'.itemId)
    (h : Change s a it it') :
    (s.nextEntered a d' it'.itemId : ℤ) ≤ it'.attempts ∧ it'.attempts ≤ it'.maxAttempts ∧
      it'.maxAttempts = s.granted it'.itemId := by
  obtain ⟨hcov, hmax, hgranted⟩ := hi.books it hl
  rw [hid] at hcov hgranted
  have hnonneg : (0 : ℤ) ≤ s.entered it'.itemId := Int.natCast_nonneg _
  -- an item that is not in `running/` afterwards has not entered it
  have hstays : (it'.state = .running → it.state = .running) →
      (s.nextEntered a d' it'.itemId : ℤ) ≤ s.entered it'.itemId := by
    intro hrun
    exact_mod_cast nextEntered_le_of_mem fun hmem =>
      hid ▸ (hl.mem_iff _).mpr (hrun ((hl'.mem_iff _).mp hmem).symm).symm
  cases h with
  | kept keeps =>
      have := hstays keeps.2.2
      exact ⟨by rw [keeps.2.1]; omega, by rw [keeps.1, keeps.2.1]; exact hmax, by rw [keeps.1, hgranted]⟩
  | charged bound left attempts =>
      have := nextEntered_le s a d' it'.itemId
      exact ⟨by rw [attempts]; omega, by rw [bound, attempts]; omega, by rw [bound, hgranted]⟩
  | reset called bound attempts state =>
      have hzero : s.nextEntered a d' it'.itemId = 0 := by
        have hstored := hl'.storedAttempts
        rw [attempts] at hstored
        simp [Processes.nextEntered, hstored, called, hid]
      refine ⟨by rw [hzero, attempts]; exact le_refl _, ?_, by rw [bound, hid]⟩
      rw [attempts, bound, hid, ← hgranted]
      omega
  | @wroteBack p env actor copy act held id found bound attempts state =>
      have hle := hc.le act held hl id found
      obtain ⟨haccepts, _, _, hcopy⟩ := hi.held p _ copy held
      have hleft : 0 < copy.attemptsRemaining := by
        simp only [Command.accepts, Bool.and_eq_true, Bool.false_or, decide_eq_true_eq] at haccepts
        have := haccepts.2
        unfold QueueItem.attemptsRemaining at this ⊢
        omega
      have := (copy.attemptsRemaining_pos).mp hleft
      have := hstays fun h => by rw [state] at h; cases h
      exact ⟨by rw [attempts]; omega, by rw [bound, attempts]; omega, by rw [bound, hcopy, id, hid]⟩

/-- The attempts of one item, after a change. -/
lemma Change.attempts_le {it it' : QueueItem} (hc : Current s a) (hl : Located s.disk it)
    (hreset : a.resetId s ≠ some it.itemId) (h : Change s a it it') : it.attempts ≤ it'.attempts := by
  cases h with
  | kept keeps => rw [keeps.2.1]
  | charged _ _ attempts => rw [attempts]; omega
  | reset called => exact absurd called hreset
  | wroteBack act held id found _ attempts => rw [attempts]; exact hc.le act held hl id found

/-- What the daemon leased is still the item on disk, if that is in `leased/`. -/
lemma leased_of_aside {leased : QueueItem} (hi : Inv s) (hs : Steps s a (s.next a).disk)
    (ha : a.isDaemon = false) (hd : s.daemon = .claimed leased) : leased.state = .leased ∧
    ((leased.state, leased.itemId) ∈ (s.next a).disk.dirs → Located (s.next a).disk leased) := by
  obtain ⟨hstate, hat⟩ := hi.leased leased hd
  refine ⟨hstate, fun hmem => ?_⟩
  obtain ⟨it', hl', hid'⟩ := hs.tidy _ _ hmem
  have hleased : it'.state = .leased := (hl'.only _ (hid' ▸ hmem)).symm.trans hstate
  obtain ⟨it, hl, hid, _, haside⟩ := hs.origin it' hl'
  obtain rfl : it' = it := (haside.resolve_left (by rw [ha]; decide)) hleased
  have := hl.unique (hat (hid' ▸ hstate ▸ hleased ▸ hl.mem)) hid'.symm
  rwa [this]

lemma leased_step (hi : Inv s) (ha : a.Allowed s) (hs : Steps s a (s.next a).disk)
    {leased : QueueItem} (hd : s.nextDaemon a = .claimed leased) : leased.state = .leased ∧
    ((leased.state, leased.itemId) ∈ (s.next a).disk.dirs → Located (s.next a).disk leased) := by
  cases a with
  | recover => cases ha.symm.trans hd
  | claim env moment paused gate =>
      have hafter : (s.next (.claim env moment paused gate)).disk
          = after (claimBlock env moment paused gate) s.disk := after_map _ _
      have htriple : Triple (fun d => d = s.disk) (claimBlock env moment paused gate) _ _ _ :=
        claimBlock_triple hi.tidy moment paused gate
      replace htriple := htriple [] s.disk rfl
      rw [hafter, after]
      simp only [Processes.nextDaemon] at hd
      revert htriple hd
      rcases claimBlock env moment paused gate [] s.disk with ⟨(_ | found) | _ | _, fs, t⟩
      · exact fun h _ => by cases h
      · rintro ⟨⟩ ⟨_, hl⟩
        exact ⟨(hl _ rfl).2, fun _ => (hl _ rfl).1⟩
      · exact fun h _ => by cases h
      · exact fun h _ => by cases h
  | start env =>
      obtain ⟨l, hl⟩ := ha
      simp only [Processes.nextDaemon, hl] at hd
      have hstop : ∀ it, (startBlock env l [] s.disk).1 ≠ .done it := by
        intro it hdone
        rw [hdone] at hd
        cases hd
      have hafter : (s.next (.start env)).disk = s.disk := by
        show after (Act.prog s (.start env)) s.disk = s.disk
        simp only [Act.prog, hl, after_map]
        exact startBlock_stopped hstop
      rw [hafter]
      split at hd
      · cases hd
      · cases hd
        exact hi.leased _ hl
  | adopt => obtain ⟨id, hl⟩ := ha; cases hl.symm.trans hd
  | settle =>
      obtain ⟨id, hl⟩ := ha
      simp only [Processes.nextDaemon, hl] at hd
      split at hd <;> cases hd
  | exhausted | unreaped | redBase | failure | rest => cases hd
  | look | carryOut | answer | settleApproval | add => exact leased_of_aside hi hs rfl hd

lemma held_step (hi : Inv s) {p : ℕ} {command : Command} {copy : QueueItem}
    (h : s.nextHeld a p = some ⟨command, copy⟩) : command.accepts copy = true ∧
    copy.Sound ∧ copy.itemId ∈ s.minted ∧ copy.maxAttempts = s.granted copy.itemId := by
  cases a with
  | look q command' itemId =>
      simp only [Processes.nextHeld, Function.update_apply] at h
      split_ifs at h with hp
      · split at h
        · next item hget =>
            split_ifs at h with haccepts
            cases h
            have hl := hi.tidy.located (Queue.mem_items_of_get hget)
            exact ⟨haccepts, hl.sound, hi.minted _ _ hl.mem, (hi.books copy hl).2.2⟩
        · cases h
      · exact hi.held p command copy h
  | carryOut q env actor =>
      simp only [Processes.nextHeld, Function.update_apply] at h
      split_ifs at h
      exact hi.held p command copy h
  | _ => exact hi.held p command copy h

/-- A step that changes the items keeps the invariant. -/
lemma inv_of_steps (hi : Inv s) (ha : a.Allowed s) (hc : Current s a)
    (hs : Steps s a (s.next a).disk) (hgranted : (s.next a).granted = s.granted)
    (hminted : s.minted ⊆ (s.next a).minted) : Inv (s.next a) := by
  have hmem : ∀ state id, (state, id) ∈ (s.next a).disk.dirs → id ∈ s.minted := by
    intro state id hmem
    obtain ⟨it', hl', rfl⟩ := hs.tidy state id hmem
    obtain ⟨it, hl, hid, _⟩ := hs.origin it' hl'
    exact hid ▸ hi.minted _ _ hl.mem
  have hbooks : ∀ item, Located (s.next a).disk item →
      ((s.next a).entered item.itemId : ℤ) ≤ item.attempts ∧ item.attempts ≤ item.maxAttempts ∧
        item.maxAttempts = (s.next a).granted item.itemId := by
    intro it' hl'
    obtain ⟨it, hl, hid, hchange, _⟩ := hs.origin it' hl'
    rw [hgranted]
    exact hchange.books hi hc hl hl' hid
  have hstays : ∀ id, (ItemState.running, id) ∉ (s.next a).disk.dirs →
      (s.next a).entered id ≤ s.entered id := fun id hrun =>
    nextEntered_le_of_mem fun h => absurd h hrun
  refine ⟨hs.tidy, fun state id h => hminted (hmem state id h), hbooks, fun id => ?_,
    fun id hid => ?_, fun leased hd => leased_step hi ha hs hd, fun p command copy h => ?_⟩
  · by_cases hrun : (ItemState.running, id) ∈ (s.next a).disk.dirs
    · obtain ⟨it', hl', rfl⟩ := hs.tidy _ _ hrun
      have := hbooks it' hl'
      omega
    · have := hstays id hrun
      have := hi.spent id
      rw [hgranted]
      omega
  · have hold : id ∉ s.minted := fun h => hid (hminted h)
    have := hstays id fun h => hold (hmem _ _ h)
    have := hi.fresh id hold
    omega
  · obtain ⟨haccepts, hsound, hid, hmax⟩ := held_step hi h
    exact ⟨haccepts, hsound, hminted hid, hgranted ▸ hmax⟩

/-! ### Adding -/

lemma addBlock_leaves {env : Env} {mint : MintedId} {spec : Queue.SpecSource}
    {args : Queue.AddArgs} {d d' : Disk} (h : Leaves (addBlock env mint spec args) d d') :
    d'.dirs = d.dirs ∨ Published d d' (Queue.newItem env mint spec args) ∧
      isSafeComponent (spec.filename args) = true ∧ 1 ≤ args.resolvedAttempts env := by
  refine Triple.leaves (P := fun s => s = d) (R := fun s => s.dirs = d.dirs ∨
    Published d s (Queue.newItem env mint spec args) ∧ isSafeComponent (spec.filename args) = true ∧
      1 ≤ args.resolvedAttempts env) ?_ rfl h
  refine Triple.bind (Q := fun _ s => s.dirs = d.dirs)
    ((Triple.of_leaves (R := fun s => s.dirs = d.dirs) ?_).conseq (fun _ => id) (fun _ _ => id)
      (fun _ _ => Or.inl) fun _ => Or.inl) fun _ => Triple.of_leaves ?_
  · rintro s t rfl hsweep
    exact sweepStaging_leaves hsweep
  · intro s t hdirs hadd
    rcases add_leaves (leaves_map_unit.mp hadd) with hsame | ⟨hp, hrest⟩
    · exact Or.inl (hsame.trans hdirs)
    · refine Or.inr ⟨⟨hdirs ▸ hp.fresh, ?_⟩, hrest⟩
      rw [← hdirs]
      exact hp.dirs

section Added

variable {env : Env} {mint : MintedId} {spec : Queue.SpecSource} {args : Queue.AddArgs}

/-- The step of an `add`: it changes no directory, or publishes its item. -/
lemma add_step (hi : Inv s) (ha : (Act.add env mint spec args).Allowed s) :
    Steps s (.add env mint spec args) (s.next (.add env mint spec args)).disk ∧
      (s.next (.add env mint spec args)).granted = s.granted ∨
    Published s.disk (s.next (.add env mint spec args)).disk (Queue.newItem env mint spec args) ∧
      Located (s.next (.add env mint spec args)).disk (Queue.newItem env mint spec args) ∧
      1 ≤ args.resolvedAttempts env ∧ (s.next (.add env mint spec args)).granted
        = Function.update s.granted mint.itemId (args.resolvedAttempts env) := by
  have hfresh : ∀ state, (state, mint.itemId) ∉ s.disk.dirs := fun state h =>
    ha (hi.minted state _ h)
  rcases addBlock_leaves (leaves_after (addBlock env mint spec args) s.disk) with
    hsame | ⟨hp, hsafe, hmax⟩
  · refine Or.inl ⟨.of_aside (Descends.of_dirs KeepsAside.refl hi.tidy hsame), ?_⟩
    refine if_neg fun h => hfresh .queued ?_
    have h : (ItemState.queued, mint.itemId) ∈ (after (addBlock env mint spec args) s.disk).dirs := h
    rwa [hsame] at h
  · have hnew := hp.located (newItem_sound hsafe) mint.isSafeComponent rfl hfresh
    exact Or.inr ⟨hp, hnew, hmax, if_pos hnew.mem⟩

lemma add_inv (hi : Inv s) (ha : (Act.add env mint spec args).Allowed s) :
    Inv (s.next (.add env mint spec args)) := by
  have hminted : s.minted ⊆ (s.next (.add env mint spec args)).minted := Set.subset_insert _ _
  rcases add_step hi ha with ⟨hs, hgranted⟩ | ⟨hp, hnew, hmax, hgranted⟩
  · exact inv_of_steps hi ha trivial hs hgranted hminted
  set t := s.next (.add env mint spec args)
  set new := Queue.newItem env mint spec args
  have hzero : t.entered mint.itemId = 0 := by
    have hle : t.entered mint.itemId ≤ s.entered mint.itemId := entered_le_of_mem s _ fun hmem =>
      absurd (hnew.only .running hmem) (show ¬ ItemState.running = .queued by decide)
    exact Nat.le_zero.mp ((hi.fresh mint.itemId ha) ▸ hle)
  have hother : ∀ id, id ≠ mint.itemId → t.entered id ≤ s.entered id ∧ t.granted id = s.granted id :=
    fun id hid => ⟨entered_le_of_mem s _ (hp.elsewhere.mem hid).mp,
      by rw [hgranted, Function.update_of_ne hid]⟩
  have hself : t.granted mint.itemId = args.resolvedAttempts env := by
    rw [hgranted, Function.update_self]
  refine ⟨fun state id hmem => ?_, fun state id hmem => ?_, fun it hl => ?_, fun id => ?_,
    fun id hid => ?_, fun leased hd => ?_, fun p command copy h => ?_⟩
  · by_cases hid : id = mint.itemId
    · exact ⟨new, hnew, hid.symm⟩
    · obtain ⟨it, hl, rfl⟩ := hi.tidy state id ((hp.elsewhere.mem hid).mp hmem)
      exact ⟨it, hp.elsewhere.located hid hl, rfl⟩
  · by_cases hid : id = mint.itemId
    · exact Or.inl hid
    · exact hminted (hi.minted state id ((hp.elsewhere.mem hid).mp hmem))
  · rcases (hp.located_iff hnew).mp hl with rfl | ⟨hid, hl⟩
    · refine ⟨?_, ?_, hself.symm⟩
      · show ((t.entered mint.itemId : ℕ) : ℤ) ≤ 0
        omega
      · show (0 : ℤ) ≤ args.resolvedAttempts env
        omega
    · obtain ⟨hle, hgr⟩ := hother _ hid
      have := hi.books it hl
      rw [hgr]
      exact ⟨by omega, this.2⟩
  · by_cases hid : id = mint.itemId
    · rw [hid, hself, hzero]
      omega
    · obtain ⟨hle, hgr⟩ := hother _ hid
      have := hi.spent id
      omega
  · have hne : id ≠ mint.itemId := fun h => hid (Or.inl h)
    have := hi.fresh id fun h => hid (hminted h)
    have := (hother id hne).1
    omega
  · obtain ⟨hstate, hat⟩ := hi.leased leased hd
    refine ⟨hstate, fun hmem => ?_⟩
    by_cases hid : leased.itemId = mint.itemId
    · have hqueued : leased.state = .queued := hnew.only _ (by
        show (leased.state, mint.itemId) ∈ t.disk.dirs
        rwa [← hid])
      rw [hstate] at hqueued
      cases hqueued
    · exact hp.elsewhere.located hid (hat ((hp.elsewhere.mem hid).mp hmem))
  · obtain ⟨haccepts, hsound, hid, hcopy⟩ := hi.held p command copy h
    have hne : copy.itemId ≠ mint.itemId := fun he => ha (he ▸ hid)
    exact ⟨haccepts, hsound, hminted hid, by rw [(hother _ hne).2, hcopy]⟩

/-- An `add` leaves the attempts of every item alone. -/
lemma add_keepsAttempts (hi : Inv s) (ha : (Act.add env mint spec args).Allowed s) :
    KeepsAttempts s (.add env mint spec args) (s.next (.add env mint spec args)) := by
  intro item hitem item' hitem' hid hreset
  have hl := hi.tidy.located hitem
  have hl' := (add_inv hi ha).tidy.located hitem'
  rcases add_step hi ha with ⟨hs, _⟩ | ⟨hp, hnew, _⟩
  · obtain ⟨it, hit, hid', hchange, _⟩ := hs.origin item' hl'
    obtain rfl := hl.unique hit (hid'.trans hid)
    have hc : Current s (.add env mint spec args) := trivial
    exact hchange.attempts_le hc hit hreset
  · rcases (hp.located_iff hnew).mp hl' with rfl | ⟨_, hl'⟩
    · have hminted : mint.itemId ∈ s.minted := by
        have := hi.minted _ _ hl.mem
        rwa [← hid] at this
      exact absurd hminted ha
    · rw [hl.unique hl' hid]

end Added

/-! ## The result -/

/-- **A step keeps the invariant**, unless it writes back an item that is behind the disk. -/
lemma step_inv {t : Processes} (hi : Inv s) (hstep : PStep s a t) (hc : Current s a) : Inv t := by
  obtain ⟨ha, rfl⟩ := hstep
  cases a with
  | add env mint spec args => exact add_inv hi ha
  | _ => exact inv_of_steps hi ha hc (step_descends hi ha fun _ _ _ _ h => nomatch h) rfl subset_rfl

/-- **When the attempts go down**: exactly when a step is not current. -/
lemma keepsAttempts_iff {t : Processes} (hi : Inv s) (hstep : PStep s a t) :
    KeepsAttempts s a t ↔ Current s a := by
  obtain ⟨ha, rfl⟩ := hstep
  constructor
  · intro hk
    cases a with
    | carryOut p env actor =>
        intro copy hheld item hitem hid hstate
        have hl := hi.tidy.located hitem
        have hmem : (copy.state, copy.itemId) ∈ s.disk.dirs := by
          rw [← hid, ← hstate]
          exact hl.mem
        have hafter := retry_after env actor hi hheld hmem
        have hnext : (s.next (.carryOut p env actor)).disk
            = after (Queue.requeue env copy "retry (manual)" actor false) s.disk := by
          show after (Act.prog s (.carryOut p env actor)) s.disk = _
          simp only [Act.prog, hheld, Command.block, after_map]
        rw [← hnext] at hafter
        have hle := hk item hitem _ hafter.mem_items ((itemId_moved _ _ _ _ _).trans hid.symm)
          (by simp [Act.resetId, hheld])
        rwa [attempts_moved, if_neg (by decide), attempts_requeueUpdates] at hle
    | _ => trivial
  · intro hc
    have hdescends : ∀ {a : Act}, a.Allowed s → Current s a →
        (∀ env mint spec args, a ≠ .add env mint spec args) → KeepsAttempts s a (s.next a) := by
      intro a ha hc hadd item hitem item' hitem' hid hreset
      have hs := step_descends hi ha hadd
      obtain ⟨it, hit, hid', hchange, _⟩ := hs.origin item' (hs.tidy.located hitem')
      obtain rfl := (hi.tidy.located hitem).unique hit (hid'.trans hid)
      exact hchange.attempts_le hc hit hreset
    cases a with
    | add env mint spec args => exact add_keepsAttempts hi ha
    | _ => exact hdescends ha hc fun _ _ _ _ h => nomatch h

/-- **No attempt is lost.**  In every interleaving whose retries write back nothing that is behind the
    disk, an item enters `running/` at most `max_attempts` times between two resets; and a step of
    it lets the attempts on disk go down only where a reset was called for, if and only if it writes
    back nothing that is behind the disk. -/
theorem attempts_never_decrease (run : Reaches PStep Current Processes.init s) :
    (∀ id, (s.entered id : ℤ) ≤ s.granted id) ∧
      (∀ item ∈ items s.disk, (s.entered item.itemId : ℤ) ≤ item.attempts ∧
        item.attempts ≤ item.maxAttempts ∧ item.maxAttempts = s.granted item.itemId) ∧
      ∀ a t, PStep s a t → (KeepsAttempts s a t ↔ Current s a) := by
  have hi : Inv s := run.invariant Inv.init fun t a u hi hc hstep => step_inv hi hstep hc
  exact ⟨hi.spent, fun item hitem => hi.books item (hi.tidy.located hitem),
    fun a t hstep => keepsAttempts_iff hi hstep⟩

end Preserved

/-! ## Runs on fixed inputs

The item of `ks queue add`; the daemon claims and starts it. -/

def addAct : Act := .add sampleEnv sampleMint (.path "spec.md" "# Spec" none) {}

def claimAct : Act := .claim sampleEnv 0 false fun _ => {}

def startAct : Act := .start sampleEnv

def addedQueue : Processes := Processes.init.next addAct

def startedQueue : Processes := (addedQueue.next claimAct).next startAct

lemma startedQueue_run : Reaches PStep Current Processes.init startedQueue := by
  have hclaimed : (addedQueue.next claimAct).daemon.isClaimed = true := by decide +kernel
  exact .tail (a := startAct) (.tail (a := claimAct)
    (.single (a := addAct) trivial ⟨Set.notMem_empty _, rfl⟩) trivial ⟨rfl, rfl⟩) trivial
    ⟨Daemon.of_isClaimed hclaimed, rfl⟩

/-- An item added, claimed and started. -/
theorem attempts_never_decrease_started :
    (∀ id, (startedQueue.entered id : ℤ) ≤ startedQueue.granted id) ∧
      (∀ item ∈ items startedQueue.disk, (startedQueue.entered item.itemId : ℤ) ≤ item.attempts ∧
        item.attempts ≤ item.maxAttempts ∧ item.maxAttempts = startedQueue.granted item.itemId) ∧
      ∀ a t, PStep startedQueue a t → (KeepsAttempts startedQueue a t ↔ Current startedQueue a) :=
  attempts_never_decrease startedQueue_run

/-! The same item is refused at the merge gate first, and poisoned.  Two retries resolve it, one of
them is carried out; the item runs, spends an attempt and is poisoned again.  Then the other retry
takes the lock. -/

def refuseAct : Act := .claim sampleEnv 0 false fun _ => { refusal := "auto-merge is not granted" }

def lookAct (p : ℕ) : Act := .look p (.retry false) sampleMint.itemId

def retryAct (p : ℕ) : Act := .carryOut p sampleEnv "me"

def orphanAct : Act := .unreaped sampleEnv "orphaned factory process"

/-- One retry has been carried out, the other holds the item as it was at attempt 0. -/
def retriedQueue : Processes :=
  (((addedQueue.next refuseAct).next (lookAct 0)).next (lookAct 1)).next (retryAct 1)

def poisonedQueue : Processes :=
  (((retriedQueue.next claimAct).next startAct).next orphanAct)

/-- **A stale retry loses an attempt.** -/
theorem stale_retry_loses_attempt :
    ¬ ∀ s, Reaches PStep Always Processes.init s → ∀ a t, PStep s a t → KeepsAttempts s a t := by
  intro hall
  have hidle : retriedQueue.daemon.isIdle = true := by decide +kernel
  have hclaimed : (retriedQueue.next claimAct).daemon.isClaimed = true := by decide +kernel
  have hworking : ((retriedQueue.next claimAct).next startAct).daemon.isWorking = true := by
    decide +kernel
  have run : Reaches PStep Always Processes.init poisonedQueue := by
    refine .tail (a := orphanAct) (.tail (a := startAct) (.tail (a := claimAct)
      (.tail (a := retryAct 1) (.tail (a := lookAct 1) (.tail (a := lookAct 0)
        (.tail (a := refuseAct) (.single (a := addAct) trivial ⟨Set.notMem_empty _, rfl⟩) trivial
        ⟨rfl, rfl⟩) trivial ⟨trivial, rfl⟩) trivial ⟨trivial, rfl⟩) trivial ⟨trivial, rfl⟩) trivial
      ⟨Daemon.of_isIdle hidle, rfl⟩) trivial ⟨Daemon.of_isClaimed hclaimed, rfl⟩) trivial
      ⟨Daemon.of_isWorking hworking, rfl⟩
  have hlost : ∃ item ∈ items poisonedQueue.disk,
      ∃ item' ∈ items (poisonedQueue.next (retryAct 0)).disk, item'.itemId = item.itemId ∧
        ¬ item.attempts ≤ item'.attempts := by decide +kernel
  obtain ⟨item, hitem, item', hitem', hid, hnot⟩ := hlost
  have hreset : (retryAct 0).resetId poisonedQueue = none := by decide +kernel
  exact hnot (hall _ run (retryAct 0) _ ⟨trivial, rfl⟩ item hitem item' hitem' hid (by rw [hreset]; simp))

end Serve

end Kstrl
