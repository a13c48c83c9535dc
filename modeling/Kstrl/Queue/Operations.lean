import Kstrl.Queue.Spec

/-!
# The operations, one by one

`Op` is a queue operation with its arguments, `Op.prog` its program.  `op_effect` says what an
operation does to the item it is given, at every point it can be cut off, in the terms a bound on
the attempts needs: it keeps the item's id and bound, and it either keeps the attempts, or is a
`start` and charges one that was left, or is a reset and zeroes them.  `op_elsewhere` says that
no operation touches the directories of another id.
-/

namespace Kstrl

open CrashProg

/-- An operation of the queue with its arguments. -/
inductive Op where
  | add (mint : MintedId) (spec : Queue.SpecSource) (args : Queue.AddArgs)
  | lease (item : QueueItem) (pid : ℤ) (host actor : String)
  | start (item : QueueItem) (runId actor : String)
  | adoptLease (item : QueueItem) (pid : ℤ) (host actor : String)
  | finishOk (item : QueueItem) (actor : String) (prUrls : List String)
  | finishFailed (item : QueueItem) (error actor : String) (prUrls : List String)
  | awaitApproval (item : QueueItem) (reason runId actor : String) (prUrls : List String)
  | awaitAnswer (item : QueueItem) (reason runId actor : String)
  | answer (item : QueueItem) (text : String) (parsed : Option Json) (actor : String)
      (resetAttempts : Bool) (escalationRow escalatedRun : String)
  | relinkRun (item : QueueItem) (runId reason actor : String)
  | setPriority (item : QueueItem) (priority : ℤ) (actor : String)
  | poison (item : QueueItem) (reason actor : String)
  | requeue (item : QueueItem) (reason actor : String) (resetAttempts : Bool)
      (notBefore : Option String)
  | remove (item : QueueItem) (order : List String) (actor : String)
  | sweepStaging

namespace Op

/-- The program of an operation, its result forgotten. -/
def prog (env : Env) : Op → QueueProg Unit
  | add mint spec args => do let _ ← Queue.add env mint spec args
  | lease item pid host actor => do let _ ← Queue.lease env item pid host actor
  | start item runId actor => do let _ ← Queue.start env item runId actor
  | adoptLease item pid host actor => do let _ ← Queue.adoptLease env item pid host actor
  | finishOk item actor prUrls => do let _ ← Queue.finishOk env item actor prUrls
  | finishFailed item error actor prUrls => do
      let _ ← Queue.finishFailed env item error actor prUrls
  | awaitApproval item reason runId actor prUrls => do
      let _ ← Queue.awaitApproval env item reason runId actor prUrls
  | awaitAnswer item reason runId actor => do
      let _ ← Queue.awaitAnswer env item reason runId actor
  | answer item text parsed actor reset row run => do
      let _ ← Queue.answer env item text parsed actor reset row run
  | relinkRun item runId reason actor => do let _ ← Queue.relinkRun env item runId reason actor
  | setPriority item priority actor => do
      let _ ← Queue.setPriority env item.itemId priority actor
  | poison item reason actor => do let _ ← Queue.poison env item reason actor
  | requeue item reason actor reset notBefore => do
      let _ ← Queue.requeue env item reason actor reset notBefore
  | remove item order actor => Queue.remove env item order actor
  | sweepStaging => do let _ ← Kstrl.sweepStaging env.stamp

/-- The item an operation is given. -/
def item? : Op → Option QueueItem
  | add .. | sweepStaging => none
  | lease item .. | start item .. | adoptLease item .. | finishOk item .. | finishFailed item ..
  | awaitApproval item .. | awaitAnswer item .. | answer item .. | relinkRun item ..
  | setPriority item .. | poison item .. | requeue item .. | remove item .. => some item

/-- Whether the operation is called with `reset_attempts=True`. -/
def resets : Op → Bool
  | answer _ _ _ _ reset _ _ => reset
  | requeue _ _ _ reset _ => reset
  | _ => false

/-- Whether the operation begins an execution. -/
def isStart : Op → Bool
  | start .. => true
  | _ => false

def isRemove : Op → Bool
  | remove .. => true
  | _ => false

/-- The state the operation moves its item to. -/
def target? : Op → Option ItemState
  | lease .. => some .leased
  | start .. => some .running
  | finishOk .. => some .done
  | finishFailed .. => some .failed
  | awaitApproval .. => some .awaitingApproval
  | awaitAnswer .. => some .awaitingAnswer
  | answer .. | requeue .. => some .queued
  | poison .. => some .poison
  | add .. | adoptLease .. | relinkRun .. | setPriority .. | remove .. | sweepStaging => none

/-- Whether the operation writes a spec over the sidecar of its item. -/
def clobbersMeta : Op → Bool
  | answer item .. => item.specFilename = metaFilename
  | _ => false

end Op

/-! ## One lemma per kind of program -/

lemma leaves_itemDir_bind {β : Type} {item : QueueItem} {k : Place → QueueProg β} {d d' : Disk}
    (h : Leaves (Queue.itemDir item >>= k) d d') :
    d' = d ∨ isSafeComponent item.itemId = true ∧ Leaves (k (item.state, item.itemId)) d d' := by
  rw [Queue.itemDir, bind_bind] at h
  rcases leaves_require_bind.mp h with ⟨hs, hl⟩ | ⟨_, rfl⟩
  · exact Or.inr ⟨hs, hl⟩
  · exact Or.inl rfl

section InPlace

variable {env : Env} {item : QueueItem} {d d' : Disk}

/-- `adoptLease` as the item it writes. -/
def adopted (env : Env) (item : QueueItem) (pid : ℤ) (host : String) : QueueItem :=
  { item with
    leasePid := pid
    leaseHost := if host = "" then env.hostname else host
    leaseExpiresAt := env.fmt.isoformat (env.now + env.config.leaseTtl)
    updatedAt := env.stamp }

lemma rewrite_leaves {α : Type} {written : QueueItem} {entry : JournalEntry} {result : α}
    (hmem : (item.state, item.itemId) ∈ d.dirs)
    (h : Leaves (do Queue.writeMeta written (item.state, item.itemId); journal entry; pure result)
      d d') : RewriteLeaves d item written d' :=
  Triple.leaves ((rewrite_triple d item written entry result hmem).conseq (fun _ => id)
    (fun _ _ hs => Or.inr ⟨hmem, hs.2⟩) (fun _ _ hs => Or.inl hs) fun _ => id) rfl h

lemma adoptLease_leaves {pid : ℤ} {host actor : String}
    (h : Leaves (Queue.adoptLease env item pid host actor) d d') :
    RewriteLeaves d item (adopted env item pid host) d' := by
  rcases leaves_require_bind.mp h with ⟨_, h⟩ | ⟨_, rfl⟩
  swap; · exact Or.inl rfl
  rcases leaves_itemDir_bind h with rfl | ⟨_, h⟩
  · exact Or.inl rfl
  rcases leaves_require_bind.mp (leaves_read_bind.mp h) with ⟨hmem, h⟩ | ⟨_, rfl⟩
  · exact rewrite_leaves hmem h
  · exact Or.inl rfl

lemma relinkRun_leaves {runId reason actor : String}
    (h : Leaves (Queue.relinkRun env item runId reason actor) d d') :
    RewriteLeaves d item { item with lastRunId := runId, updatedAt := env.stamp } d' := by
  rcases leaves_require_bind.mp h with ⟨_, h⟩ | ⟨_, rfl⟩
  swap; · exact Or.inl rfl
  rcases leaves_itemDir_bind h with rfl | ⟨_, h⟩
  · exact Or.inl rfl
  rcases leaves_require_bind.mp (leaves_read_bind.mp h) with ⟨hmem, h⟩ | ⟨_, rfl⟩
  · exact rewrite_leaves hmem h
  · exact Or.inl rfl

/-- `setPriority` reads the item again, so it rewrites the item that is on disk. -/
lemma setPriority_leaves {id : String} {priority : ℤ} {actor : String}
    (h : Leaves (Queue.setPriority env id priority actor) d d') :
    d' = d ∨ ∃ current ∈ items d, current.itemId = id ∧ current.state = .queued ∧
      RewriteLeaves d current { current with priority := priority, updatedAt := env.stamp } d' := by
  have h := leaves_read_bind.mp h
  cases hget : Queue.get d id with
  | error e =>
      rw [hget] at h
      exact Or.inl (leaves_raise.mp h)
  | ok found =>
      rw [hget] at h
      cases found with
      | none => exact Or.inl (leaves_raise.mp h)
      | some current =>
          rcases leaves_require_bind.mp h with ⟨hid, h⟩ | ⟨_, rfl⟩
          swap; · exact Or.inl rfl
          rcases leaves_require_bind.mp h with ⟨hstate, h⟩ | ⟨_, rfl⟩
          swap; · exact Or.inl rfl
          have hmem := Queue.mem_items_of_get hget
          obtain ⟨_, files, hlook, _⟩ := lookup_of_mem_items hmem
          rcases leaves_ite.mp h with ⟨_, h⟩ | ⟨_, h⟩
          · exact Or.inl (leaves_pure.mp h)
          · rcases leaves_itemDir_bind h with rfl | ⟨_, h⟩
            · exact Or.inl rfl
            · exact Or.inr ⟨current, hmem, hid, hstate,
                rewrite_leaves (AList.lookup_isSome.mp (by rw [hlook]; rfl)) h⟩

end InPlace

/-! ## Answering -/

/-- Writing a file that is not the sidecar changes nothing the queue reads. -/
lemma Located.putFile {d : Disk} {item : QueueItem} {name : String} (h : Located d item)
    (hname : name ≠ metaFilename) (c : Content) :
    Located (d.putFile (item.state, item.itemId) name c) item where
  files := by
    obtain ⟨files, hlook, hload⟩ := h.files
    refine ⟨_, lookup_putFile_self _ _ _ _, ?_⟩
    rw [← hload, hlook]
    simp [loadItemDir, AList.lookup_insert_ne (Ne.symm hname)]
  only state hmem := h.only state ((mem_putFile d _ _ _ _ h.mem).mp hmem)

/-- What an answer makes of the attempts. -/
lemma attempts_answerUpdates (item : QueueItem) (reset : Bool) :
    (setAll item (Queue.answerUpdates reset)).attempts = if reset then 0 else item.attempts := by
  cases reset <;> simp [setAll, Queue.answerUpdates, Queue.clearedLease, Update.set]

/-- What a requeue makes of the attempts. -/
lemma attempts_requeueUpdates (item : QueueItem) (reset : Bool) (notBefore : Option String) :
    (setAll item (Queue.requeueUpdates reset notBefore)).attempts
      = if reset then 0 else item.attempts := by
  cases reset <;> cases notBefore <;>
    simp [setAll, Queue.requeueUpdates, Queue.clearedLease, Update.set]

lemma answer_leaves {env : Env} {item : QueueItem} {d d' : Disk} {text : String}
    {parsed : Option Json} {actor row run : String} {reset : Bool}
    (h : Leaves (Queue.answer env item text parsed actor reset row run) d d') :
    d' = d ∨ (item.state, item.itemId) ∈ d.dirs ∧
      MoveLeaves (d.putFile (item.state, item.itemId) item.specFilename (.text text parsed)) item
        (Queue.moved env item .queued false (Queue.answerUpdates reset)) .queued d' := by
  rcases leaves_require_bind.mp h with ⟨_, h⟩ | ⟨_, rfl⟩
  swap; · exact Or.inl rfl
  rcases leaves_require_bind.mp h with ⟨_, h⟩ | ⟨_, rfl⟩
  swap; · exact Or.inl rfl
  rcases leaves_require_bind.mp h with ⟨_, h⟩ | ⟨_, rfl⟩
  swap; · exact Or.inl rfl
  rcases leaves_itemDir_bind h with rfl | ⟨_, h⟩
  · exact Or.inl rfl
  rcases leaves_require_bind.mp h with ⟨_, h⟩ | ⟨_, rfl⟩
  swap; · exact Or.inl rfl
  have h := leaves_read_bind.mp h
  cases hold : (d.dirs.lookup (item.state, item.itemId)).bind
      fun files => files.lookup item.specFilename with
  | none =>
      rw [hold] at h
      exact Or.inl (leaves_raise.mp h)
  | some old =>
      rw [hold] at h
      rcases leaves_write_bind h with rfl | h
      · exact Or.inl rfl
      · obtain ⟨files, hlook, _⟩ := Option.bind_eq_some_iff.mp hold
        exact Or.inr ⟨AList.lookup_isSome.mp (by rw [hlook]; rfl), transition_leaves _ _ _ _ _ _ _ _ h⟩

/-- Undisturbed, an answer either is refused and writes nothing, or moves the item with its new
    spec. -/
lemma answer_after (env : Env) {item : QueueItem} {d : Disk} (hp : Placed d item) (text : String)
    (parsed : Option Json) (actor row run : String) (reset : Bool) :
    SameDirs d (after (Queue.answer env item text parsed actor reset row run) d) ∨
      SameDirs ((d.putFile (item.state, item.itemId) item.specFilename (.text text parsed)).committed
        item (Queue.moved env item .queued false (Queue.answerUpdates reset)) .queued)
        (after (Queue.answer env item text parsed actor reset row run) d) ∧
      Enabled (d.putFile (item.state, item.itemId) item.specFilename (.text text parsed)) item
        .queued ∧ (item.state = .awaitingAnswer ∨ item.state = .poison) := by
  set d₁ := d.putFile (item.state, item.itemId) item.specFilename (.text text parsed)
  unfold Queue.answer
  rw [after_require_bind]
  split
  case isFalse => exact Or.inl (SameDirs.refl d)
  case isTrue hstate =>
  rw [after_require_bind]
  split
  case isFalse => exact Or.inl (SameDirs.refl d)
  rw [after_require_bind]
  split
  case isFalse => exact Or.inl (SameDirs.refl d)
  rw [after_bind_of_done (itemDir_undisturbed hp.safe d), after_require_bind]
  split
  case isFalse => exact Or.inl (SameDirs.refl d)
  rw [after_read_bind]
  cases hold : (d.dirs.lookup (item.state, item.itemId)).bind
      fun files => files.lookup item.specFilename with
  | none => exact Or.inl (SameDirs.refl d)
  | some old =>
      have hawait : item.state = .awaitingAnswer ∨ item.state = .poison := hstate.imp_right (·.1)
      have hlegal : ItemState.queued ∈ legalTransitions item.state := by
        rcases hawait with h | h <;> rw [h] <;> decide
      have hen : Enabled d₁ item .queued := (hp.putFile _ _).enabled hlegal
      refine Or.inr ⟨?_, hen, hawait⟩
      have htrace := transition_trace env item .queued "answered" actor false (.obj
        [("spec_sha256_before", .str (env.sha256 old)),
         ("spec_sha256_after", .str (env.sha256 (.text text parsed))),
         ("unchanged", .bool (env.sha256 old = env.sha256 (.text text parsed))),
         ("escalated_run", .str (if run = "" then item.lastRunId else run)),
         ("escalation_row", .str row)]) (Queue.answerUpdates reset) hen
      show SameDirs _ (after (write _ _ >>= _) d)
      rw [after_write_bind, htrace.after]
      exact ⟨rfl, rfl⟩

/-! ## Removing -/

/-- All directories but one are as they were. -/
def SameBut (d d' : Disk) (place : Place) : Prop :=
  ∀ p, p ≠ place → d'.dirs.lookup p = d.dirs.lookup p

lemma SameBut.elsewhere {d d' : Disk} {place : Place} (h : SameBut d d' place) :
    SameElsewhere d d' place.2 := fun _ _ hne => h _ fun he => hne (by rw [← he])

lemma remove_leaves {env : Env} {item : QueueItem} {order : List String} {actor : String}
    {d d' : Disk} (h : Leaves (Queue.remove env item order actor) d d') :
    SameBut d d' (item.state, item.itemId) := by
  have hrefl : SameBut d d (item.state, item.itemId) := fun _ _ => rfl
  rcases leaves_require_bind.mp h with ⟨_, h⟩ | ⟨_, rfl⟩
  swap; · exact hrefl
  rcases leaves_itemDir_bind h with rfl | ⟨_, h⟩
  · exact hrefl
  have h := leaves_read_bind.mp h
  cases hlook : d.dirs.lookup (item.state, item.itemId) with
  | none =>
      rw [hlook] at h
      rw [leaves_raise.mp h]
      exact hrefl
  | some files =>
      rw [hlook] at h
      refine Triple.leaves (P := fun s => SameBut d s (item.state, item.itemId))
        (R := fun s => SameBut d s (item.state, item.itemId)) ?_ hrefl h
      refine Triple.bind (Q := fun _ s => SameBut d s (item.state, item.itemId)) ?_ fun _ =>
        Triple.writeQuiet (fun s hs => hs) (fun _ hs => hs) fun _ hs => hs
      refine Triple.bind (Q := fun _ s => SameBut d s (item.state, item.itemId)) ?_ fun _ => ?_
      · refine Triple.foldlM (I := fun _ _ s => SameBut d s (item.state, item.itemId)) ?_ _ _
        intro name names b
        refine Triple.write (fun s hs p hp => ?_) (fun _ hs => hs) fun _ hs => hs
        rw [AList.lookup_insert_ne hp, hs p hp]
      · refine Triple.write (fun s hs p hp => ?_) (fun _ hs => hs) fun _ hs => hs
        rw [AList.lookup_erase_ne hp, hs p hp]

/-- Undisturbed, a remove writes nothing or leaves no directory behind. -/
lemma remove_after (env : Env) (item : QueueItem) (order : List String) (actor : String) (d : Disk) :
    after (Queue.remove env item order actor) d = d ∨ (item.state, item.itemId) ∈ d.dirs ∧
      (item.state, item.itemId) ∉ (after (Queue.remove env item order actor) d).dirs := by
  unfold Queue.remove
  rw [after_require_bind]
  split_ifs
  swap; · exact Or.inl rfl
  by_cases hsafe : isSafeComponent item.itemId = true
  · rw [after_bind_of_done (itemDir_undisturbed hsafe d), after_read_bind]
    cases hlook : d.dirs.lookup (item.state, item.itemId) with
    | none => exact Or.inl rfl
    | some files =>
        refine Or.inr ⟨AList.lookup_isSome.mp (by rw [hlook]; rfl), ?_⟩
        unfold Queue.rmtree
        simp only [bind_bind]
        rw [after_bind_of_done (foldlM_write_undisturbed _ _ _)]
        show (item.state, item.itemId) ∉ AList.erase _ _
        rw [AList.mem_erase]
        exact fun h => h.1 rfl
  · left
    rw [Queue.itemDir, bind_bind, after_require_bind, if_neg hsafe]

/-! ## What an operation can do, said once -/

/-- How an operation keeps the books of the item it is given. -/
def Books (op : Op) (item item' : QueueItem) : Prop :=
  (item'.attempts = item.attempts ∧ (item'.state = .running → item.state = .running)) ∨
  (op.isStart = true ∧ item.attempts < item.maxAttempts ∧ item'.attempts = item.attempts + 1) ∨
  (op.resets = true ∧ item'.attempts = 0 ∧ item'.state ≠ .running)

lemma Books.refl (op : Op) (item : QueueItem) : Books op item item := Or.inl ⟨rfl, id⟩

/-- What an operation on `item` can do to the disk `d`. -/
inductive OpCases (env : Env) (op : Op) (item : QueueItem) (d d' : Disk) : Prop where
  /-- a transition of the item, from a disk whose directories are those of `d` but for a file of
      the item that is not its sidecar unless the operation clobbers it -/
  | move {d₁ : Disk} {toState : ItemState} {charge : Bool} {updates : List Update}
      (target : op.target? = some toState)
      (before : SameElsewhere d d₁ item.itemId)
      (located : op.clobbersMeta = false → Located d item → Located d₁ item)
      (leaves : MoveLeaves d₁ item (Queue.moved env item toState charge updates) toState d')
      (books : toState ∈ legalTransitions item.state →
        ∀ state, state = item.state ∨ state = toState →
          Books op item { Queue.moved env item toState charge updates with state := state })
  /-- a rewrite in place of the sidecar, of the item itself or of what the disk has for its id -/
  | rewrite {current written : QueueItem}
      (found : current = item ∨ current ∈ items d) (id : current.itemId = item.itemId)
      (leaves : RewriteLeaves d current written d')
      (kept : written.itemId = current.itemId ∧ (current.Sound → written.Sound) ∧
        written.state = current.state ∧ written.attempts = current.attempts ∧
        written.maxAttempts = current.maxAttempts)
  /-- unlinking the item's directory -/
  | remove (removes : op.isRemove = true) (others : SameBut d d' (item.state, item.itemId))
  | nothing (same : d' = d)

/-- A move that neither charges nor resets, and that does not end in `running/`. -/
lemma books_of_kept {op : Op} {item : QueueItem} {env : Env} {toState : ItemState}
    {updates : List Update} (hto : toState ≠ .running)
    (hset : (setAll item updates).attempts = item.attempts) (state : ItemState)
    (hstate : state = item.state ∨ state = toState) :
    Books op item { Queue.moved env item toState false updates with state := state } := by
  refine Or.inl ⟨by simp [attempts_moved, hset], ?_⟩
  rintro rfl
  rcases hstate with h | h
  · exact h.symm
  · exact absurd h.symm hto

/-- A move that resets.  Only an item that is not running can go back to `queued/`. -/
lemma books_of_reset {op : Op} {item : QueueItem} {env : Env} {updates : List Update}
    (hop : op.resets = true) (hset : (setAll item updates).attempts = 0)
    (hlegal : ItemState.queued ∈ legalTransitions item.state) (state : ItemState)
    (hstate : state = item.state ∨ state = .queued) :
    Books op item { Queue.moved env item .queued false updates with state := state } := by
  refine Or.inr (Or.inr ⟨hop, by simp [attempts_moved, hset], ?_⟩)
  rintro rfl
  rcases hstate with h | h
  · rw [← h] at hlegal
    exact absurd hlegal (by decide)
  · cases h

/-- A plain transition that does not touch the attempts. -/
lemma OpCases.transition {env : Env} {op : Op} {item : QueueItem} {d d' : Disk}
    {toState : ItemState} {reason actor : String} {detail : Json} {updates : List Update}
    (h : Leaves (Queue.transition env item toState reason actor false detail updates) d d')
    (htarget : op.target? = some toState) (hto : toState ≠ .running)
    (hset : (setAll item updates).attempts = item.attempts) : OpCases env op item d d' :=
  .move htarget (SameElsewhere.refl _ _) (fun _ hl => hl) (transition_leaves _ _ _ _ _ _ _ _ h)
    fun _ => books_of_kept hto hset

/-- **What an operation can do.** -/
theorem op_cases {env : Env} {op : Op} {item : QueueItem} {d d' : Disk}
    (hop : op.item? = some item) (h : Leaves (op.prog env) d d') : OpCases env op item d d' := by
  cases op with
  | add | sweepStaging => simp [Op.item?] at hop
  | remove =>
      cases hop
      exact .remove rfl (remove_leaves h)
  | lease =>
      cases hop
      exact .transition (leaves_map_unit.mp h) rfl (by decide) rfl
  | finishOk =>
      cases hop
      exact .transition (leaves_map_unit.mp h) rfl (by decide) rfl
  | finishFailed =>
      cases hop
      exact .transition (leaves_map_unit.mp h) rfl (by decide) rfl
  | awaitApproval =>
      cases hop
      exact .transition (leaves_map_unit.mp h) rfl (by decide) rfl
  | awaitAnswer =>
      cases hop
      exact .transition (leaves_map_unit.mp h) rfl (by decide) rfl
  | start =>
      cases hop
      rcases leaves_require_bind.mp (leaves_map_unit.mp h) with ⟨hleft, h⟩ | ⟨_, rfl⟩
      · exact .move rfl (SameElsewhere.refl _ _) (fun _ hl => hl) (transition_leaves _ _ _ _ _ _ _ _ h)
          fun _ _ _ => Or.inr (Or.inl ⟨rfl, (item.attemptsRemaining_pos).mp hleft, rfl⟩)
      · exact .nothing rfl
  | poison =>
      cases hop
      rcases leaves_require_bind.mp (leaves_map_unit.mp h) with ⟨_, h⟩ | ⟨_, rfl⟩
      · exact .transition h rfl (by decide) rfl
      · exact .nothing rfl
  | requeue it reason actor reset notBefore =>
      cases hop
      have h := leaves_map_unit.mp h
      cases reset with
      | false => exact .transition h rfl (by decide) (attempts_requeueUpdates item false notBefore)
      | true =>
          exact .move rfl (SameElsewhere.refl _ _) (fun _ hl => hl)
            (transition_leaves _ _ _ _ _ _ _ _ h)
            (books_of_reset rfl (attempts_requeueUpdates item true notBefore))
  | answer it text parsed actor reset row run =>
      cases hop
      rcases answer_leaves (leaves_map_unit.mp h) with rfl | ⟨_, hm⟩
      · exact .nothing rfl
      · refine .move rfl (SameElsewhere.putFile d (item.state, item.itemId) _ _)
          (fun hc hl => hl.putFile (by simpa [Op.clobbersMeta] using hc) _) hm ?_
        cases reset with
        | false => exact fun _ => books_of_kept (by decide) (attempts_answerUpdates item false)
        | true => exact books_of_reset rfl (attempts_answerUpdates item true)
  | adoptLease =>
      cases hop
      exact .rewrite (Or.inl rfl) rfl (adoptLease_leaves (leaves_map_unit.mp h))
        ⟨rfl, fun hs => ⟨hs.1, hs.2, hs.3, hs.4⟩, rfl, rfl, rfl⟩
  | relinkRun =>
      cases hop
      exact .rewrite (Or.inl rfl) rfl (relinkRun_leaves (leaves_map_unit.mp h))
        ⟨rfl, fun hs => ⟨hs.1, hs.2, hs.3, hs.4⟩, rfl, rfl, rfl⟩
  | setPriority =>
      cases hop
      rcases setPriority_leaves (leaves_map_unit.mp h) with rfl | ⟨current, hmem, hid, _, hr⟩
      · exact .nothing rfl
      · exact .rewrite (Or.inr hmem) hid hr ⟨rfl, fun hs => ⟨hs.1, hs.2, hs.3, hs.4⟩, rfl, rfl, rfl⟩

/-- **No operation touches another id.** -/
theorem op_elsewhere (env : Env) (op : Op) {item : QueueItem} {d d' : Disk}
    (hop : op.item? = some item) (h : Leaves (op.prog env) d d') :
    SameElsewhere d d' item.itemId := by
  cases op_cases hop h with
  | move _ before _ leaves _ => exact before.trans leaves.sameElsewhere
  | rewrite _ hid leaves _ => exact hid ▸ leaves.sameElsewhere
  | remove _ others => exact others.elsewhere
  | nothing same => exact same ▸ SameElsewhere.refl _ _

/-- **What an operation does to its item**, wherever it stops: it keeps the id and the bound, and
    keeps the books. -/
theorem op_effect {env : Env} {op : Op} {item : QueueItem} {d d' : Disk}
    (hop : op.item? = some item) (hremove : op.isRemove = false)
    (hclobber : op.clobbersMeta = false) (hl : Located d item) (h : Leaves (op.prog env) d d') :
    ∃ item', Located d' item' ∧ item'.itemId = item.itemId ∧
      item'.maxAttempts = item.maxAttempts ∧ Books op item item' ∧
      (item'.state = item.state ∨ op.target? = some item'.state) := by
  cases op_cases hop h with
  | move target _ located leaves books =>
      obtain ⟨item', hl', hcases⟩ := leaves.located (located hclobber hl) (itemId_moved _ _ _ _ _)
        (sound_moved _ _ _ _ _ hl.sound) rfl
      rcases hcases with rfl | ⟨hen, rfl | rfl⟩
      · exact ⟨item', hl', rfl, rfl, Books.refl _ _, Or.inl rfl⟩
      · exact ⟨_, hl', itemId_moved _ _ _ _ _, maxAttempts_moved _ _ _ _ _,
          books hen.legal _ (Or.inl rfl), Or.inl rfl⟩
      · exact ⟨_, hl', itemId_moved _ _ _ _ _, maxAttempts_moved _ _ _ _ _,
          books hen.legal _ (Or.inr rfl), Or.inr target⟩
  | @rewrite current written found hid leaves kept =>
      have hcur : current = item := found.elim (fun h => h) fun h => hl.eq_of_mem_items h hid
      subst hcur
      obtain ⟨hwid, hsound, hstate, hatt, hmax⟩ := kept
      obtain ⟨item', hl', rfl | rfl⟩ := leaves.located hl hwid (hsound hl.sound) hstate
      · exact ⟨item', hl', rfl, rfl, Books.refl _ _, Or.inl rfl⟩
      · exact ⟨item', hl', hwid, hmax, Or.inl ⟨hatt, fun hr => hstate ▸ hr⟩, Or.inl hstate⟩
  | remove removes _ => rw [hremove] at removes; cases removes
  | nothing same => exact ⟨item, same ▸ hl, rfl, rfl, Books.refl _ _, Or.inl rfl⟩

/-! ## Adding and sweeping -/

/-- `add` put the item where it belongs: one new directory in `queued/` with its sidecar. -/
structure Published (d d' : Disk) (item : QueueItem) : Prop where
  fresh : (ItemState.queued, item.itemId) ∉ d.dirs
  dirs : ∃ files, d'.dirs = d.dirs.insert (.queued, item.itemId) files ∧
    files.lookup metaFilename = some (.json item.toDict)

lemma buildAndPublish_triple (d : Disk) (item : QueueItem) (content : Content)
    (hfresh : (ItemState.queued, item.itemId) ∉ d.dirs) :
    Triple (fun s => s.dirs = d.dirs) (Queue.buildAndPublish item content)
      (fun _ s => Published d s item) (fun _ s => s.dirs = d.dirs)
      (fun s => s.dirs = d.dirs) := by
  refine Triple.bind (Q := fun _ s => s.dirs = d.dirs)
    (Triple.write (fun _ hs => hs) (fun _ hs => hs) fun _ hs => hs) fun _ => ?_
  refine Triple.bind (Q := fun _ s => s.dirs = d.dirs ∧ ∃ files,
    s.staging.lookup item.itemId = some files ∧
    files.lookup metaFilename = some (.json item.toDict))
    (Triple.write (fun s hs => ⟨hs, _, AList.lookup_insert _, AList.lookup_insert _⟩)
      (fun _ hs => hs) fun _ hs => hs) fun _ => ?_
  refine Triple.write ?_ (fun _ hs => hs.1) fun _ hs => hs.1
  rintro s ⟨hs, files, hlook, hmeta⟩
  refine ⟨hfresh, files, ?_, hmeta⟩
  rw [Disk.publish, hlook, ← hs]

/-- **What `add` can do**: nothing to the state directories, or publish its item whole. -/
theorem add_leaves {env : Env} {mint : MintedId} {spec : Queue.SpecSource} {args : Queue.AddArgs}
    {d d' : Disk} (h : Leaves (Queue.add env mint spec args) d d') :
    d'.dirs = d.dirs ∨ Published d d' (Queue.newItem env mint spec args) ∧
      isSafeComponent (spec.filename args) = true ∧ 1 ≤ args.resolvedAttempts env := by
  set item := Queue.newItem env mint spec args with hitem
  rcases leaves_require_bind.mp h with ⟨_, h⟩ | ⟨_, rfl⟩
  swap; · exact Or.inl rfl
  rcases leaves_require_bind.mp h with ⟨hsafe, h⟩ | ⟨_, rfl⟩
  swap; · exact Or.inl rfl
  rcases leaves_require_bind.mp h with ⟨hmax, h⟩ | ⟨_, rfl⟩
  swap; · exact Or.inl rfl
  rcases leaves_require_bind.mp (leaves_read_bind.mp h) with ⟨hfresh, h⟩ | ⟨_, rfl⟩
  swap; · exact Or.inl rfl
  rcases leaves_require_bind.mp h with ⟨_, h⟩ | ⟨_, rfl⟩
  swap; · exact Or.inl rfl
  rcases leaves_write_bind h with rfl | h
  · exact Or.inl rfl
  have hdone : Published d d' item ∨ d'.dirs = d.dirs := by
    refine Triple.leaves (P := fun s => s.dirs = d.dirs)
      (R := fun s => Published d s item ∨ s.dirs = d.dirs) ?_ rfl h
    refine Triple.bind (Q := fun _ s => Published d s item) ?_ fun _ => ?_
    · refine Triple.catching (M := fun _ s => s.dirs = d.dirs)
        ((buildAndPublish_triple d item spec.content hfresh).conseq (fun _ => id) (fun _ _ => id)
          (fun _ _ => id) fun _ => Or.inr) fun e => ?_
      exact Triple.bind (Q := fun _ s => s.dirs = d.dirs)
        (Triple.writeQuiet (fun s (hs : s.dirs = d.dirs) => hs) (fun _ hs => hs) fun _ => Or.inr)
        fun _ => Triple.raise fun _ => Or.inr
    · refine Triple.bind (Q := fun _ s => Published d s item) ?_ fun _ => Triple.pure fun _ => Or.inl
      exact Triple.writeQuiet (fun s hs => ⟨hs.1, hs.2⟩) (fun _ hs => hs) fun _ => Or.inl
  exact hdone.elim (fun hp => Or.inr ⟨hp, hsafe, hmax⟩) Or.inl

lemma sweepStaging_leaves {now : String} {d d' : Disk} (h : Leaves (sweepStaging now) d d') :
    d'.dirs = d.dirs := by
  refine Triple.leaves (P := fun s => s.dirs = d.dirs) (R := fun s => s.dirs = d.dirs) ?_ rfl h
  refine Triple.bind (Q := fun _ s => s.dirs = d.dirs) (Triple.read fun _ hs => hs) fun _ => ?_
  refine Triple.bind (Q := fun _ s => s.dirs = d.dirs) ?_ fun swept => ?_
  · refine Triple.foldlM (I := fun _ _ (s : Disk) => s.dirs = d.dirs)
      (fun name names count => ?_) _ _
    exact Triple.bind (Q := fun _ s => s.dirs = d.dirs)
      (Triple.writeQuiet (fun _ hs => hs) (fun _ hs => hs) fun _ hs => hs)
      fun _ => Triple.pure fun _ hs => hs
  · refine Triple.ite (fun _ => Triple.pure fun _ hs => hs) fun _ => ?_
    exact Triple.bind (Q := fun _ s => s.dirs = d.dirs)
      (Triple.writeQuiet (fun _ hs => hs) (fun _ hs => hs) fun _ hs => hs)
      fun _ => Triple.pure fun _ hs => hs

section Published

variable {d d' : Disk} {item : QueueItem}

lemma Published.elsewhere (h : Published d d' item) : SameElsewhere d d' item.itemId := by
  obtain ⟨files, hdirs, _⟩ := h.dirs
  intro state id' hne
  rw [hdirs, AList.lookup_insert_ne fun he => hne (Prod.mk.inj he).2]

/-- A published item is where it should be, provided no state directory held its id. -/
lemma Published.located (h : Published d d' item) (hs : item.Sound)
    (hsafe : isSafeComponent item.itemId = true) (hstate : item.state = .queued)
    (hfresh : ∀ state, (state, item.itemId) ∉ d.dirs) : Located d' item := by
  obtain ⟨files, hdirs, hmeta⟩ := h.dirs
  constructor
  · refine ⟨files, by rw [hdirs, hstate, AList.lookup_insert], ?_⟩
    rw [hstate, loadItemDir_of_meta hsafe hs hmeta, ← hstate]
  · intro state hmem
    rw [hdirs, AList.mem_insert] at hmem
    rcases hmem with he | hmem
    · rw [hstate]
      exact (Prod.mk.inj he).1
    · exact absurd hmem (hfresh state)

end Published

lemma pathStem_ne_empty {name : String} (h : name ≠ "") : Queue.pathStem name ≠ "" := by
  unfold Queue.pathStem
  simp only
  split_ifs with hi
  · intro he
    have he := congrArg String.toList he
    rw [String.toList_ofList, String.toList_empty, List.take_eq_nil_iff] at he
    rcases he with he | he
    · omega
    · exact absurd hi.1 (by rw [he]; exact List.not_mem_nil)
  · exact h

/-- What `add` writes reads back. -/
lemma newItem_sound {env : Env} {mint : MintedId} {spec : Queue.SpecSource}
    {args : Queue.AddArgs} (hsafe : isSafeComponent (spec.filename args) = true) :
    (Queue.newItem env mint spec args).Sound where
  itemId := ne_empty_of_isSafeComponent mint.isSafeComponent
  title := by
    show spec.title args ≠ ""
    cases spec with
    | path name chars parsed =>
        show (if args.title = "" then Queue.pathStem name else args.title) ≠ ""
        split_ifs with ht
        · exact pathStem_ne_empty (ne_empty_of_isSafeComponent hsafe)
        · exact ht
    | text chars parsed =>
        show (if args.title = "" then "untitled" else args.title) ≠ ""
        split_ifs with ht
        · decide
        · exact ht
  specFilename := ne_empty_of_isSafeComponent hsafe
  safe := hsafe

end Kstrl
