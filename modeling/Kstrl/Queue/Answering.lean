import Kstrl.Queue.Invariant
import Kstrl.Base.CrashRuns

/-!
# Answering an item, refused and cut off

`Queue.answer` (`kstrl/queue/workqueue.py`) writes the answered spec and then leaves the move to
`Queue.transition`, which makes checks of its own.  Its documentation promises that every check
runs before anything is written, and that an answer that was cut off is finished by answering
again.

* **`RefusalKeeps`**: an answer that raises `QueueError` leaves the spec and the sidecar as they
  were.
* **`Resumes`**: whatever an answer that was cut off leaves, answering the item again, as it is
  read then, ends where an answer that was not cut off ends.
* **`answer_safe_iff`**: both hold, unless the answer passes its own checks and either `queued/`
  holds the id already, in which case the spec is replaced before the transition refuses, or the
  spec file is the sidecar.
-/

namespace Kstrl

open CrashProg

/-! ## What a place shows -/

/-- A file of an item directory. -/
def Disk.file (d : Disk) (place : Place) (name : String) : Option Content :=
  (d.dirs.lookup place).bind fun files => files.lookup name

/-- The item a place holds, as a scan reads it. -/
def Disk.itemAt (d : Disk) (place : Place) : Option QueueItem :=
  (d.dirs.lookup place).bind (loadItemDir place)

/-- The spec and the attempts of the item in a directory; `none` for a directory no scan can read. -/
def standing (place : Place) (files : Files) : Option (Option Content × ℤ) :=
  (loadItemDir place files).map fun item => (files.lookup item.specFilename, item.attempts)

/-- What a place shows of its item; `none` where there is no directory. -/
def Disk.standing (d : Disk) (place : Place) : Option (Option (Option Content × ℤ)) :=
  (d.dirs.lookup place).map (Kstrl.standing place)

/-- The place of an item. -/
def QueueItem.place (item : QueueItem) : Place := (item.state, item.itemId)

/-- The item as it is read again: from its directory, or from `queued/` once it has moved there. -/
def Disk.again (d : Disk) (item : QueueItem) : Option QueueItem :=
  if item.place ∈ d.dirs then d.itemAt item.place else d.itemAt (.queued, item.itemId)

/-- Disks with the same directories show the same. -/
lemma Disk.standing_congr {d d' : Disk} {place : Place} (h : d'.dirs.lookup place = d.dirs.lookup place) :
    d'.standing place = d.standing place := by
  simp only [Disk.standing, h]

lemma Disk.itemAt_congr {d d' : Disk} {place : Place} (h : d'.dirs.lookup place = d.dirs.lookup place) :
    d'.itemAt place = d.itemAt place := by
  simp only [Disk.itemAt, h]

lemma Disk.mem_of_itemAt {d : Disk} {place : Place} {item : QueueItem} (h : d.itemAt place = some item) :
    place ∈ d.dirs := by
  obtain ⟨files, hlook, _⟩ := Option.bind_eq_some_iff.mp h
  exact AList.lookup_isSome.mp (by rw [hlook]; rfl)

lemma Disk.sound_of_itemAt {d : Disk} {place : Place} {item : QueueItem} (h : d.itemAt place = some item) :
    item.Sound ∧ isSafeComponent place.2 = true ∧ item.place = place := by
  obtain ⟨files, _, hload⟩ := Option.bind_eq_some_iff.mp h
  obtain ⟨hid, hstate⟩ := loadItemDir_place hload
  exact ⟨loadItemDir_sound hload, loadItemDir_safe hload, by rw [QueueItem.place, hid, hstate]⟩

/-! ## An answer -/

/-- The arguments of an answer. -/
structure Answer where
  text : String
  /-- what `read_json` makes of the text -/
  parsed : Option Json
  actor : String
  resetAttempts : Bool
  escalationRow : String
  escalatedRun : String

namespace Answer

/-- The bytes an answer puts in the place of the spec. -/
def content (a : Answer) : Content := .text a.text a.parsed

def prog (a : Answer) (env : Env) (item : QueueItem) : QueueProg QueueItem :=
  Queue.answer env item a.text a.parsed a.actor a.resetAttempts a.escalationRow a.escalatedRun

/-- The sidecar an answer writes. -/
def written (a : Answer) (env : Env) (item : QueueItem) : QueueItem :=
  Queue.moved env item .queued false (Queue.answerUpdates a.resetAttempts)

/-- What an answer journals beside the move. -/
def detail (a : Answer) (env : Env) (item : QueueItem) (old : Content) : Json :=
  .obj [("spec_sha256_before", .str (env.sha256 old)), ("spec_sha256_after", .str (env.sha256 a.content)),
    ("unchanged", .bool (env.sha256 old = env.sha256 a.content)),
    ("escalated_run", .str (if a.escalatedRun = "" then item.lastRunId else a.escalatedRun)),
    ("escalation_row", .str a.escalationRow)]

/-- The checks `answer` makes of its own, and the spec it reads. -/
structure Passes (a : Answer) (d : Disk) (item : QueueItem) (old : Content) : Prop where
  state : item.state = .awaitingAnswer ∨ (item.state = .poison ∧ a.escalationRow ≠ "")
  text : PyText.isBlank a.text = false
  attempts : a.resetAttempts = true ∨ 0 < item.attemptsRemaining
  safe : isSafeComponent item.itemId = true
  filename : isSafeComponent item.specFilename = true
  spec : d.file item.place item.specFilename = some old

end Answer

/-- `QueueError`, of which `QueueBudgetExhausted` is one. -/
def QueueError.isQueueError : QueueError → Bool
  | .refused _ | .budgetExhausted _ => true
  | .os _ | .overflow => false

/-- An answer that raises `QueueError` leaves the spec and the sidecar as they were. -/
def RefusalKeeps (a : Answer) (env : Env) (d : Disk) (item : QueueItem) : Prop :=
  ∀ fs e fs' d', a.prog env item fs d = (.raised e, fs', d') → e.isQueueError = true →
    ∀ name ∈ [item.specFilename, metaFilename], d'.file item.place name = d.file item.place name

/-- Whatever an answer that was cut off leaves, answering again ends where an answer that was not
    cut off ends.  The item is one read from the store, and it is read again. -/
def Resumes (a : Answer) (env : Env) (d : Disk) (item : QueueItem) : Prop :=
  d.itemAt item.place = some item → ∀ env' cut, Leaves (a.prog env item) d cut →
    ∃ item', cut.again item = some item' ∧ ∀ state,
      (after (a.prog env' item') cut).standing (state, item.itemId) =
        (after (a.prog env item) d).standing (state, item.itemId)

/-- Nothing goes wrong with an answer that passes its own checks: where `queued/` holds the id
    already it has the bytes the spec has, and else the spec file is not the sidecar. -/
def Harmless (a : Answer) (d : Disk) (item : QueueItem) : Prop :=
  ∀ old, a.Passes d item old →
    if (ItemState.queued, item.itemId) ∈ d.dirs then old = a.content
    else d.itemAt item.place = some item → item.specFilename ≠ metaFilename

/-! ## The two halves of an answer -/

section Halves

variable {a : Answer} {env : Env} {d : Disk} {item : QueueItem} {old : Content}

lemma require_bind_pos {β : Type} {p : Prop} [Decidable p] (h : p) (e : QueueError) (k : Unit → QueueProg β) :
    (require p e >>= k) = k () := by
  rw [require_pos h]
  rfl

lemma require_bind_neg {β : Type} {p : Prop} [Decidable p] (h : ¬ p) (e : QueueError)
    (k : Unit → QueueProg β) : (require p e >>= k) = raise e := by
  rw [require_neg h]
  rfl

lemma itemDir_bind {β : Type} (h : isSafeComponent item.itemId = true) (k : Place → QueueProg β) :
    (Queue.itemDir item >>= k) = k item.place := by
  rw [Queue.itemDir, bind_bind, require_bind_pos h]
  rfl

lemma itemDir_bind_neg {β : Type} (h : isSafeComponent item.itemId ≠ true) (k : Place → QueueProg β) :
    ∃ e, (Queue.itemDir item >>= k) = raise e := by
  rw [Queue.itemDir, bind_bind, require_bind_neg h]
  exact ⟨_, rfl⟩

/-- Past its own checks an answer writes the spec and moves the item. -/
lemma Answer.prog_of_passes (env : Env) (h : a.Passes d item old) (fs : List Fault) :
    a.prog env item fs d = (write (fun d => d.putFile item.place item.specFilename a.content)
      (.os "spec") >>= fun _ => Queue.transition env item .queued "answered" a.actor false
        (a.detail env item old) (Queue.answerUpdates a.resetAttempts)) fs d := by
  have hspec : ((d.dirs.lookup item.place).bind fun files => files.lookup item.specFilename) = some old :=
    h.spec
  unfold Answer.prog Queue.answer
  rw [require_bind_pos h.state, require_bind_pos h.text, require_bind_pos h.attempts,
    itemDir_bind h.safe, require_bind_pos h.filename]
  rw [run_read_bind]
  simp only [hspec]
  rfl

/-- An answer its own checks stop writes nothing. -/
lemma Answer.prog_of_not_passes (env : Env) (h : ∀ old, ¬ a.Passes d item old) (fs : List Fault) :
    ∃ e, a.prog env item fs d = (.raised e, fs, d) := by
  unfold Answer.prog Queue.answer
  by_cases hstate : item.state = .awaitingAnswer ∨ (item.state = .poison ∧ a.escalationRow ≠ "")
  swap
  · exact ⟨_, by rw [require_bind_neg hstate]; rfl⟩
  by_cases htext : PyText.isBlank a.text = false
  swap
  · exact ⟨_, by rw [require_bind_pos hstate, require_bind_neg htext]; rfl⟩
  by_cases hatt : a.resetAttempts = true ∨ 0 < item.attemptsRemaining
  swap
  · exact ⟨_, by rw [require_bind_pos hstate, require_bind_pos htext, require_bind_neg hatt]; rfl⟩
  rw [require_bind_pos hstate, require_bind_pos htext, require_bind_pos hatt]
  by_cases hsafe : isSafeComponent item.itemId = true
  swap
  · obtain ⟨e, he⟩ := itemDir_bind_neg hsafe _
    exact ⟨e, by rw [he]; rfl⟩
  rw [itemDir_bind hsafe]
  by_cases hname : isSafeComponent item.specFilename = true
  swap
  · exact ⟨_, by rw [require_bind_neg hname]; rfl⟩
  rw [require_bind_pos hname]
  cases hspec : (d.dirs.lookup item.place).bind fun files => files.lookup item.specFilename with
  | some old => exact absurd ⟨hstate, htext, hatt, hsafe, hname, hspec⟩ (h old)
  | none =>
      refine ⟨.os "spec", ?_⟩
      rw [run_read_bind]
      simp only [hspec]
      rfl

end Halves

/-! ## Refusals -/

/-- A transition that raises `QueueError` has written nothing, and one of its checks failed. -/
lemma transition_raises (env : Env) (d : Disk) (item : QueueItem) (toState : ItemState)
    (reason actor : String) (charge : Bool) (detail : Json) (updates : List Update) :
    Triple (fun s => s = d) (Queue.transition env item toState reason actor charge detail updates)
      (fun _ _ => True) (fun e d' => e.isQueueError = true → d' = d ∧ ¬ Enabled d item toState)
      (fun _ => True) := by
  by_cases hen : Enabled d item toState
  · unfold Queue.transition
    rw [require_bind_pos hen.legal, itemDir_bind hen.safe]
    refine Triple.bind (Triple.read (Q := fun a _ => a = d) fun s hs => hs) fun a => ?_
    refine Triple.bind (Triple.require fun hn s hs => absurd hen.source (hs ▸ hn)) fun _ => ?_
    refine Triple.bind (Triple.require fun hn s hs => absurd hen.target (hs.1 ▸ hn)) fun _ => ?_
    refine Triple.bind (Q := fun _ _ => True)
      (Triple.write (fun _ _ => trivial) (fun _ _ => nofun) fun _ _ => trivial) fun _ => ?_
    refine Triple.bind (Q := fun _ _ => True)
      (Triple.write (fun _ _ => trivial) (fun _ _ => nofun) fun _ _ => trivial) fun _ => ?_
    refine Triple.bind (Q := fun _ _ => True)
      (Triple.writeQuiet (fun _ _ => trivial) (fun _ _ => trivial) fun _ _ => trivial) fun _ => ?_
    exact Triple.pure fun _ _ => trivial
  · refine (transition_triple env item toState reason actor charge detail updates d).conseq
      (fun _ => id) (fun _ _ _ => trivial) ?_ fun _ _ => trivial
    intro e d' h _
    exact ⟨h.resolve_right fun h => hen h.1, hen⟩

section Refusals

variable {a : Answer} {env : Env} {d : Disk} {item : QueueItem} {old : Content}

/-- What passes the checks of an answer passes those of the transition, if `queued/` is free. -/
lemma Answer.Passes.enabled (h : a.Passes d item old) (hfree : (ItemState.queued, item.itemId) ∉ d.dirs) :
    Enabled (d.putFile item.place item.specFilename a.content) item .queued := by
  obtain ⟨files, hlook, _⟩ := Option.bind_eq_some_iff.mp h.spec
  have hmem : item.place ∈ d.dirs := AList.lookup_isSome.mp (by rw [hlook]; rfl)
  constructor
  · rcases h.state with hs | ⟨hs, _⟩ <;> rw [hs] <;> decide
  · exact h.safe
  · exact (mem_putFile d _ _ _ _ hmem).mpr hmem
  · exact fun ht => hfree ((mem_putFile d _ _ _ _ hmem).mp ht)

/-- Writing the bytes a file has changes no file. -/
lemma Disk.lookup_file_putFile_same {place : Place} {name : String} (h : d.file place name = some old)
    (p : Place) (n : String) : (d.putFile place name old).file p n = d.file p n := by
  obtain ⟨files, hlook, hfile⟩ := Option.bind_eq_some_iff.mp h
  by_cases hp : p = place
  · subst hp
    simp only [Disk.file, lookup_putFile_self, hlook, Option.getD_some, Option.bind_some]
    by_cases hn : n = name
    · subst hn
      rw [AList.lookup_insert, hfile]
    · rw [AList.lookup_insert_ne hn]
  · rw [Disk.file, lookup_putFile_ne _ _ _ _ _ hp, Disk.file]

/-- An answer refused behind its own checks has replaced the spec, since `queued/` holds the id. -/
lemma refused_of_passes (env : Env) (h : a.Passes d item old) {fs fs' : List Fault} {e : QueueError}
    {d' : Disk} (hrun : a.prog env item fs d = (.raised e, fs', d')) (he : e.isQueueError = true) :
    (ItemState.queued, item.itemId) ∈ d.dirs ∧
      d' = d.putFile item.place item.specFilename a.content := by
  have htriple : Triple (fun s => s = d)
      (write (fun d => d.putFile item.place item.specFilename a.content) (.os "spec") >>= fun _ =>
        Queue.transition env item .queued "answered" a.actor false (a.detail env item old)
          (Queue.answerUpdates a.resetAttempts))
      (fun _ _ => True) (fun e d' => e.isQueueError = true →
        d' = d.putFile item.place item.specFilename a.content ∧
          ¬ Enabled (d.putFile item.place item.specFilename a.content) item .queued)
      (fun _ => True) :=
    Triple.bind (Triple.write (fun s hs => by rw [hs]) (fun _ _ => nofun) fun _ _ => trivial)
      fun _ => transition_raises env _ item .queued _ _ _ _ _
  have hend := htriple fs d rfl
  rw [← Answer.prog_of_passes env h, hrun] at hend
  obtain ⟨hd, hnot⟩ := hend he
  exact ⟨by_contra fun hfree => hnot (h.enabled hfree), hd⟩

/-- An answer that passes its own checks while `queued/` holds the id is refused with the spec
    replaced. -/
lemma refused_of_taken (env : Env) (h : a.Passes d item old)
    (htaken : (ItemState.queued, item.itemId) ∈ d.dirs) :
    ∃ e, e.isQueueError = true ∧
      a.prog env item [] d = (.raised e, [], d.putFile item.place item.specFilename a.content) := by
  obtain ⟨files, hlook, _⟩ := Option.bind_eq_some_iff.mp h.spec
  have hmem : item.place ∈ d.dirs := AList.lookup_isSome.mp (by rw [hlook]; rfl)
  have hlegal : ItemState.queued ∈ legalTransitions item.state := by
    rcases h.state with hs | ⟨hs, _⟩ <;> rw [hs] <;> decide
  refine ⟨.refused ("queue item " ++ item.itemId ++ " already exists in " ++ ItemState.queued.name), rfl, ?_⟩
  rw [Answer.prog_of_passes env h]
  unfold Queue.transition
  rw [require_bind_pos hlegal, itemDir_bind h.safe]
  show (require (item.place ∈ (d.putFile item.place item.specFilename a.content).dirs) _ >>= _) _ _ = _
  rw [require_bind_pos ((mem_putFile d _ _ _ _ hmem).mpr hmem),
    require_bind_neg (not_not.mpr ((mem_putFile d _ _ _ _ hmem).mpr htaken))]
  rfl

/-- **When a refused answer keeps the item's files.** -/
lemma refusalKeeps_iff : RefusalKeeps a env d item ↔
    ∀ old, a.Passes d item old → (ItemState.queued, item.itemId) ∈ d.dirs → old = a.content := by
  constructor
  · intro hkeeps old hpasses htaken
    obtain ⟨e, he, hrun⟩ := refused_of_taken env hpasses htaken
    have hsame := hkeeps _ _ _ _ hrun he item.specFilename (List.mem_cons_self ..)
    rw [hpasses.spec, Disk.file, lookup_putFile_self, Option.bind_some, AList.lookup_insert] at hsame
    exact (Option.some.inj hsame).symm
  · intro hsame fs e fs' d' hrun he name hname
    by_cases hpasses : ∃ old, a.Passes d item old
    · obtain ⟨old, hpasses⟩ := hpasses
      obtain ⟨htaken, rfl⟩ := refused_of_passes env hpasses hrun he
      obtain rfl := hsame old hpasses htaken
      exact Disk.lookup_file_putFile_same hpasses.spec _ _
    · obtain ⟨e', hstop⟩ := Answer.prog_of_not_passes env (not_exists.mp hpasses) fs
      rw [hstop] at hrun
      obtain ⟨-, -, rfl⟩ := hrun
      rfl

end Refusals

/-! ## Where an answer ends -/

section Ends

variable {a : Answer} {env : Env} {d : Disk} {item : QueueItem} {old : Content}

lemma loadItemDir_congr {place : Place} {files files' : Files}
    (h : files'.lookup metaFilename = files.lookup metaFilename) :
    loadItemDir place files' = loadItemDir place files := by
  simp only [loadItemDir, h]

/-- Directories with the same files show the same. -/
lemma Disk.shows_congr {d d' : Disk} {place : Place} (hmem : place ∈ d'.dirs ↔ place ∈ d.dirs)
    (hfile : ∀ name, d'.file place name = d.file place name) :
    d'.itemAt place = d.itemAt place ∧ d'.standing place = d.standing place := by
  simp only [Disk.file] at hfile
  rw [← AList.lookup_isSome, ← AList.lookup_isSome] at hmem
  unfold Disk.itemAt Disk.standing
  cases h' : d'.dirs.lookup place with
  | none =>
      cases h : d.dirs.lookup place with
      | none => exact ⟨rfl, rfl⟩
      | some files => simp [h, h'] at hmem
  | some files' =>
      cases h : d.dirs.lookup place with
      | none => simp [h, h'] at hmem
      | some files =>
          simp only [h, h', Option.bind_some] at hfile
          have hload := @loadItemDir_congr place _ _ (hfile metaFilename)
          simp only [Option.bind_some, Option.map_some, Kstrl.standing, hload, hfile, and_self]

/-- The attempts an answer leaves. -/
def Answer.attempts (a : Answer) (item : QueueItem) : ℤ := if a.resetAttempts then 0 else item.attempts

/-- The bytes an answer leaves as the spec: its text, or the sidecar that was written over it. -/
def Answer.left (a : Answer) (env : Env) (item : QueueItem) : Content :=
  if item.specFilename = metaFilename then .json (a.written env item).toDict else a.content

/-- Where an answer that passes every check ends. -/
def Answer.ending (a : Answer) (env : Env) (d : Disk) (item : QueueItem) (state : ItemState) :
    Option (Option (Option Content × ℤ)) :=
  if state = .queued then some (some (some (a.left env item), a.attempts item))
  else if state = item.state then none
  else d.standing (state, item.itemId)

lemma Answer.written_itemId : (a.written env item).itemId = item.itemId := itemId_moved ..

lemma Answer.written_specFilename : (a.written env item).specFilename = item.specFilename :=
  specFilename_moved ..

lemma Answer.written_state : (a.written env item).state = .queued := rfl

lemma Answer.written_maxAttempts : (a.written env item).maxAttempts = item.maxAttempts :=
  maxAttempts_moved ..

lemma Answer.written_sound (hs : item.Sound) : (a.written env item).Sound := sound_moved _ _ _ _ _ hs

lemma Answer.written_attempts : (a.written env item).attempts = a.attempts item := by
  rw [Answer.written, attempts_moved, if_neg Bool.false_ne_true, attempts_answerUpdates, Answer.attempts]

/-- The item with its new sidecar while it still waits where it was. -/
def Answer.waiting (a : Answer) (env : Env) (item : QueueItem) : QueueItem :=
  { a.written env item with state := item.state }

/-- The disk behind both writes of an answer to the item's directory. -/
def Answer.sealed (a : Answer) (env : Env) (d : Disk) (item : QueueItem) : Disk :=
  (d.putFile item.place item.specFilename a.content).putMeta item.place (a.written env item)

/-- The disk behind the rename of an answer. -/
def Answer.moved (a : Answer) (env : Env) (d : Disk) (item : QueueItem) : Disk :=
  (a.sealed env d item).rename item.place (.queued, item.itemId)

/-- The directory of the item once its spec and its sidecar were written. -/
lemma Answer.Passes.lookup_sealed (h : a.Passes d item old) (hs : item.Sound) (env : Env) :
    ∃ files, (a.sealed env d item).dirs.lookup item.place = some files ∧
      (∀ state, loadItemDir (state, item.itemId) files = some { a.written env item with state := state }) ∧
      files.lookup item.specFilename = some (a.left env item) := by
  refine ⟨_, lookup_putFile_self .., fun state => ?_, ?_⟩
  · have hid : (a.written env item).itemId = item.itemId := Answer.written_itemId
    have hload := @loadItemDir_of_meta (state, item.itemId) _ (a.written env item) h.safe (Answer.written_sound hs)
      (AList.lookup_insert ((d.putFile item.place item.specFilename a.content).dirs.lookup item.place |>.getD ∅))
    rw [hload, ← hid]
  · unfold Answer.left
    split_ifs with hname
    · rw [hname, AList.lookup_insert]
    · rw [AList.lookup_insert_ne hname, lookup_putFile_self, Option.getD_some, AList.lookup_insert]

/-- An item that can be answered is not queued. -/
lemma Answer.Passes.place_ne (h : a.Passes d item old) : item.place ≠ (ItemState.queued, item.itemId) := by
  intro he
  have hstate : item.state = .queued := (Prod.mk.inj he).1
  rcases h.state with h | ⟨h, _⟩ <;> rw [hstate] at h <;> cases h

/-- What the disk shows once the item was renamed. -/
lemma Answer.Passes.standing_moved (h : a.Passes d item old) (hs : item.Sound) (env : Env)
    (state : ItemState) : (a.moved env d item).standing (state, item.itemId) = a.ending env d item state := by
  obtain ⟨files, hlook, hload, hspec⟩ := h.lookup_sealed hs env
  unfold Answer.ending
  split_ifs with hq hstate
  · subst hq
    rw [Disk.standing, Answer.moved, lookup_rename_target hlook]
    simp only [Option.map_some, Kstrl.standing, hload, Answer.written_specFilename, hspec,
      Answer.written_attempts]
  · subst hstate
    rw [Disk.standing, Answer.moved]
    exact congrArg _ (lookup_rename_source hlook h.place_ne)
  · have hother : ((state, item.itemId) : Place) ≠ item.place := fun he => hstate (Prod.mk.inj he).1
    refine Disk.standing_congr ?_
    rw [Answer.moved, lookup_rename_ne hlook hother fun he => hq (Prod.mk.inj he).1, Answer.sealed,
      Disk.putMeta, lookup_putFile_ne _ _ _ _ _ hother, lookup_putFile_ne _ _ _ _ _ hother]

/-- **Where an answer that passes every check ends.** -/
lemma Answer.Passes.standing_after (h : a.Passes d item old) (hs : item.Sound)
    (hfree : (ItemState.queued, item.itemId) ∉ d.dirs) (env : Env) (state : ItemState) :
    (after (a.prog env item) d).standing (state, item.itemId) = a.ending env d item state := by
  have htrace := transition_trace env item .queued "answered" a.actor false (a.detail env item old)
    (Queue.answerUpdates a.resetAttempts) (h.enabled hfree)
  have hafter : after (a.prog env item) d = after (Queue.transition env item .queued "answered" a.actor
      false (a.detail env item old) (Queue.answerUpdates a.resetAttempts))
        (d.putFile item.place item.specFilename a.content) := by
    rw [after, Answer.prog_of_passes env h]
    rfl
  rw [hafter, htrace.after, ← h.standing_moved hs env]
  exact Disk.standing_congr rfl

/-- An answer its own checks stop leaves the disk as it was. -/
lemma after_of_not_passes (env : Env) (h : ∀ old, ¬ a.Passes d item old) : after (a.prog env item) d = d := by
  obtain ⟨e, hrun⟩ := Answer.prog_of_not_passes env h []
  rw [after, hrun]

end Ends

/-! ## Answering again -/

section Again

variable {a : Answer} {env : Env} {d cut : Disk} {item : QueueItem} {old : Content}

/-- What an answer that was cut off leaves: the disk as it was, and, if it passed its own checks, the
    disk with the new spec, with the new sidecar, or with the item moved. -/
lemma leaves_cases (h : a.Passes d item old) (hleaves : Leaves (a.prog env item) d cut) :
    cut = d ∨ cut = d.putFile item.place item.specFilename a.content ∨
      (ItemState.queued, item.itemId) ∉ d.dirs ∧
        (cut = a.sealed env d item ∨ SameDirs (a.moved env d item) cut) := by
  rcases answer_leaves hleaves with rfl | ⟨hmem, rfl | ⟨hen, rfl | hd⟩⟩
  · exact Or.inl rfl
  · exact Or.inr (Or.inl rfl)
  · exact Or.inr (Or.inr ⟨fun hq => hen.target ((mem_putFile d _ _ _ _ hmem).mpr hq), Or.inl rfl⟩)
  · exact Or.inr (Or.inr ⟨fun hq => hen.target ((mem_putFile d _ _ _ _ hmem).mpr hq), Or.inr hd⟩)

/-- The item as it is read again while it waits where it was. -/
lemma again_of_mem (hmem : item.place ∈ cut.dirs) : cut.again item = cut.itemAt item.place := if_pos hmem

/-- Reading the item again from the disk with the new spec. -/
lemma again_putFile (hitem : d.itemAt item.place = some item) (hname : item.specFilename ≠ metaFilename)
    (c : Content) : (d.putFile item.place item.specFilename c).again item = some item := by
  have hmem := Disk.mem_of_itemAt hitem
  obtain ⟨files, hlook, hload⟩ := Option.bind_eq_some_iff.mp hitem
  rw [again_of_mem ((mem_putFile d _ _ _ _ hmem).mpr hmem), Disk.itemAt, lookup_putFile_self, hlook,
    Option.getD_some, Option.bind_some, ← hload]
  exact loadItemDir_congr (AList.lookup_insert_ne hname.symm)

/-- Reading the item again from the disk with the new sidecar. -/
lemma again_sealed (h : a.Passes d item old) (hs : item.Sound) :
    (a.sealed env d item).again item = some (a.waiting env item) := by
  obtain ⟨files, hlook, hload, _⟩ := h.lookup_sealed hs env
  rw [again_of_mem (AList.lookup_isSome.mp (by rw [hlook]; rfl)), Disk.itemAt, hlook, Option.bind_some,
    Answer.waiting, ← hload item.state, QueueItem.place]

/-- Reading the item again once it was moved. -/
lemma again_moved (h : a.Passes d item old) (hs : item.Sound) (hd : SameDirs (a.moved env d item) cut) :
    cut.again item = some (a.written env item) := by
  obtain ⟨files, hlook, hload, _⟩ := h.lookup_sealed hs env
  have hgone : item.place ∉ cut.dirs := by
    rw [← AList.lookup_isSome, hd.1, Answer.moved, lookup_rename_source hlook h.place_ne]
    exact Bool.false_ne_true
  have hqueued := hload .queued
  rw [← Answer.written_state (a := a)] at hqueued
  rw [Disk.again, if_neg hgone, Disk.itemAt, hd.1, Answer.moved, lookup_rename_target hlook, Option.bind_some,
    ← hqueued, Answer.written_state]

lemma waiting_itemId : (a.waiting env item).itemId = item.itemId := by
  rw [Answer.waiting, Answer.written_itemId]

lemma waiting_specFilename : (a.waiting env item).specFilename = item.specFilename := by
  rw [Answer.waiting, Answer.written_specFilename]

lemma waiting_place : (a.waiting env item).place = item.place := by
  rw [QueueItem.place, waiting_itemId, Answer.waiting, QueueItem.place]

lemma waiting_attempts : (a.waiting env item).attempts = a.attempts item := by
  rw [Answer.waiting, Answer.written_attempts]

lemma sound_with_state {w : QueueItem} (h : w.Sound) (state : ItemState) :
    { w with state := state }.Sound := ⟨h.itemId, h.title, h.specFilename, h.safe⟩

lemma waiting_sound (hs : item.Sound) : (a.waiting env item).Sound := by
  rw [Answer.waiting]
  exact sound_with_state (Answer.written_sound hs) _

/-- The checks an answer passed, it passes again on the item its sidecar names. -/
lemma Answer.Passes.sealed (h : a.Passes d item old) (hs : item.Sound) (env : Env) :
    a.Passes (a.sealed env d item) (a.waiting env item) (a.left env item) := by
  obtain ⟨files, hlook, _, hspec⟩ := h.lookup_sealed hs env
  have hmax : (a.waiting env item).maxAttempts = item.maxAttempts := by
    rw [Answer.waiting, Answer.written_maxAttempts]
  constructor
  · exact h.state
  · exact h.text
  · cases hreset : a.resetAttempts with
    | true => exact Or.inl rfl
    | false =>
        have hleft := h.attempts.resolve_left (by rw [hreset]; exact Bool.false_ne_true)
        rw [QueueItem.attemptsRemaining_pos] at hleft
        refine Or.inr ?_
        rw [QueueItem.attemptsRemaining_pos, waiting_attempts, hmax, Answer.attempts,
          if_neg (by rw [hreset]; exact Bool.false_ne_true)]
        exact hleft
  · rw [waiting_itemId]
    exact h.safe
  · rw [waiting_specFilename]
    exact h.filename
  · rw [waiting_place, waiting_specFilename, Disk.file, hlook]
    exact hspec

/-- An answer that ends where another one does: of an item at the same place, on a disk with the same
    directories elsewhere. -/
lemma ending_congr {env' : Env} {item' : QueueItem} (hplace : item'.place = item.place)
    (hleft : a.left env' item' = a.left env item) (hatt : a.attempts item' = a.attempts item)
    (helse : ∀ state, (state, item.itemId) ≠ item.place →
      cut.dirs.lookup (state, item.itemId) = d.dirs.lookup (state, item.itemId))
    (state : ItemState) : a.ending env' cut item' state = a.ending env d item state := by
  have hstate : item'.state = item.state := (Prod.mk.inj hplace).1
  have hid : item'.itemId = item.itemId := (Prod.mk.inj hplace).2
  unfold Answer.ending
  rw [hstate, hid, hleft, hatt]
  split_ifs with hq hs
  · rfl
  · rfl
  · exact Disk.standing_congr (helse state fun he => hs (Prod.mk.inj he).1)

/-- Answering again with `queued/` free and a spec file of its own. -/
lemma resumes_of_free (hname : item.specFilename ≠ metaFilename) (h : a.Passes d item old)
    (hfree : (ItemState.queued, item.itemId) ∉ d.dirs) : Resumes a env d item := by
  intro hitem env' cut hleaves
  obtain ⟨hs, _, _⟩ := Disk.sound_of_itemAt hitem
  have hmem := Disk.mem_of_itemAt hitem
  have hleft : ∀ env, a.left env item = a.content := fun env => if_neg hname
  have hput : ∀ state, (state, item.itemId) ≠ item.place →
      (d.putFile item.place item.specFilename a.content).dirs.lookup (state, item.itemId) =
        d.dirs.lookup (state, item.itemId) := fun state hne => lookup_putFile_ne _ _ _ _ _ hne
  simp only [h.standing_after hs hfree env]
  rcases leaves_cases h hleaves with rfl | rfl | ⟨_, rfl | hd⟩
  · -- nothing was written
    refine ⟨item, (again_of_mem hmem).trans hitem, fun state => ?_⟩
    rw [h.standing_after hs hfree env']
    exact ending_congr rfl ((hleft env').trans (hleft env).symm) rfl (fun _ _ => rfl) state
  · -- the spec was written
    have hagain : a.Passes (d.putFile item.place item.specFilename a.content) item a.content :=
      ⟨h.state, h.text, h.attempts, h.safe, h.filename, by
        rw [Disk.file, lookup_putFile_self, Option.bind_some, AList.lookup_insert]⟩
    refine ⟨item, again_putFile hitem hname _, fun state => ?_⟩
    rw [hagain.standing_after hs (fun hq => hfree ((mem_putFile d _ _ _ _ hmem).mp hq)) env']
    exact ending_congr rfl ((hleft env').trans (hleft env).symm) rfl hput state
  · -- the sidecar was written
    have hatt : a.attempts (a.waiting env item) = a.attempts item := by
      rw [Answer.attempts, waiting_attempts, Answer.attempts]
      split_ifs <;> rfl
    have hfree' : (ItemState.queued, (a.waiting env item).itemId) ∉ (a.sealed env d item).dirs := by
      rw [waiting_itemId]
      refine fun hq => hfree ((mem_putFile d _ _ _ _ hmem).mp ((mem_putMeta _ _ _ _ ?_).mp hq))
      exact (mem_putFile d _ _ _ _ hmem).mpr hmem
    refine ⟨a.waiting env item, again_sealed h hs, fun state => ?_⟩
    have hends := (h.sealed hs env).standing_after (waiting_sound hs) hfree' env' state
    rw [waiting_itemId] at hends
    rw [hends]
    refine ending_congr waiting_place ?_ hatt (fun state hne => ?_) state
    · rw [hleft, Answer.left, if_neg (by rw [waiting_specFilename]; exact hname)]
    · rw [Answer.sealed, Disk.putMeta, lookup_putFile_ne _ _ _ _ _ hne, hput state hne]
  · -- the item was moved: it is answered already
    have hstop : ∀ old, ¬ a.Passes cut (a.written env item) old := by
      intro old hpasses
      rcases hpasses.state with h | ⟨h, _⟩ <;> rw [Answer.written_state] at h <;> cases h
    refine ⟨a.written env item, again_moved h hs hd, fun state => ?_⟩
    rw [after_of_not_passes env' hstop, ← h.standing_moved hs env]
    exact Disk.standing_congr (by rw [hd.1])

/-- Answering again where the answer repeats the spec and `queued/` holds the id. -/
lemma resumes_of_taken (h : a.Passes d item a.content)
    (htaken : (ItemState.queued, item.itemId) ∈ d.dirs) : Resumes a env d item := by
  intro hitem env' cut hleaves
  have hmem := Disk.mem_of_itemAt hitem
  have hput := Disk.lookup_file_putFile_same h.spec
  have hafter : ∀ env d, a.Passes d item a.content → (ItemState.queued, item.itemId) ∈ d.dirs →
      after (a.prog env item) d = d.putFile item.place item.specFilename a.content := by
    intro env d hpasses ht
    obtain ⟨e, _, hrun⟩ := refused_of_taken env hpasses ht
    rw [after, hrun]
  have hcut : cut = d ∨ cut = d.putFile item.place item.specFilename a.content := by
    rcases leaves_cases h hleaves with hd | hd | ⟨hfree, _⟩
    · exact Or.inl hd
    · exact Or.inr hd
    · exact absurd htaken hfree
  have hsame : ∀ place, (place ∈ cut.dirs ↔ place ∈ d.dirs) ∧
      ∀ name, cut.file place name = d.file place name := by
    intro place
    rcases hcut with rfl | rfl
    · exact ⟨Iff.rfl, fun _ => rfl⟩
    · exact ⟨mem_putFile d _ _ _ _ hmem, hput place⟩
  have hpasses : a.Passes cut item a.content :=
    ⟨h.state, h.text, h.attempts, h.safe, h.filename, by rw [(hsame item.place).2, h.spec]⟩
  have hshows : ∀ place, cut.itemAt place = d.itemAt place ∧ cut.standing place = d.standing place :=
    fun place => Disk.shows_congr (hsame place).1 (hsame place).2
  refine ⟨item, ?_, fun state => ?_⟩
  · rw [again_of_mem ((hsame item.place).1.mpr hmem), (hshows item.place).1, hitem]
  · rw [hafter env' cut hpasses ((hsame _).1.mpr htaken), hafter env d h htaken]
    have hwrite : ∀ e, a.Passes e item a.content → item.place ∈ e.dirs →
        (e.putFile item.place item.specFilename a.content).standing (state, item.itemId) =
          e.standing (state, item.itemId) := fun e he hm =>
      (Disk.shows_congr (mem_putFile e _ _ _ _ hm) fun name =>
        Disk.lookup_file_putFile_same he.spec _ name).2
    rw [hwrite cut hpasses ((hsame _).1.mpr hmem), hwrite d h hmem, (hshows _).2]

/-- An answer its own checks stop can be repeated. -/
lemma resumes_of_not_passes (h : ∀ old, ¬ a.Passes d item old) : Resumes a env d item := by
  intro hitem env' cut ⟨fs, hrun⟩
  obtain ⟨e, hstop⟩ := Answer.prog_of_not_passes env h fs
  rw [hstop] at hrun
  obtain rfl : d = cut := hrun
  refine ⟨item, (again_of_mem (Disk.mem_of_itemAt hitem)).trans hitem, fun state => ?_⟩
  rw [after_of_not_passes env' h, after_of_not_passes env h]

/-- **An answer whose spec file is the sidecar** cannot be repeated: it ends with the time of the last
    answer in the place of the spec. -/
lemma not_resumes_of_meta (hname : item.specFilename = metaFilename) (h : a.Passes d item old)
    (hitem : d.itemAt item.place = some item) (hfree : (ItemState.queued, item.itemId) ∉ d.dirs) :
    ¬ Resumes a env d item := by
  intro hresumes
  obtain ⟨hs, _, _⟩ := Disk.sound_of_itemAt hitem
  have hmem := Disk.mem_of_itemAt hitem
  have hleaves : Leaves (a.prog env item) d (a.sealed env d item) := by
    have htrace := transition_trace env item .queued "answered" a.actor false (a.detail env item old)
      (Queue.answerUpdates a.resetAttempts) (h.enabled hfree)
    refine ⟨[.pass, .pass, .crash], ?_⟩
    rw [Answer.prog_of_passes env h]
    exact congrArg (·.2.2) (htrace.cut 1 (by simp) [])
  have hfree' : (ItemState.queued, (a.waiting env item).itemId) ∉ (a.sealed env d item).dirs := by
    rw [waiting_itemId]
    refine fun hq => hfree ((mem_putFile d _ _ _ _ hmem).mp ((mem_putMeta _ _ _ _ ?_).mp hq))
    exact (mem_putFile d _ _ _ _ hmem).mpr hmem
  let later : Env := { env with now := env.now + 1 }
  obtain ⟨item', hagain, hsame⟩ := hresumes hitem later (a.sealed env d item) hleaves
  rw [again_sealed h hs] at hagain
  obtain rfl := Option.some.inj hagain
  have hends := (h.sealed hs env).standing_after (waiting_sound hs) hfree' later .queued
  rw [waiting_itemId] at hends
  have heq := hsame .queued
  rw [hends, h.standing_after hs hfree env] at heq
  simp only [Answer.ending, if_true, Answer.left, waiting_specFilename, hname, Option.some.injEq, Prod.mk.injEq,
    Content.json.injEq] at heq
  have hw := QueueItem.fromDict_toDict (a.written env item) (Answer.written_sound hs)
  rw [← heq.1, QueueItem.fromDict_toDict _ (Answer.written_sound (waiting_sound hs))] at hw
  have hstamp : env.fmt.isoformat (env.now + 1) = env.fmt.isoformat env.now :=
    congrArg QueueItem.updatedAt (Option.some.inj hw)
  have hnow := congrArg env.fmt.fromisoformat hstamp
  rw [env.fmt.roundTrip, env.fmt.roundTrip] at hnow
  exact absurd (Option.some.inj hnow) (by omega)

end Again

/-! ## The result -/

/-- **An answer is safe** unless it passes its own checks and either `queued/` holds the id, in which
    case the spec is replaced before the transition refuses, or the spec file is the sidecar. -/
theorem answer_safe_iff (a : Answer) (env : Env) (d : Disk) (item : QueueItem) :
    RefusalKeeps a env d item ∧ Resumes a env d item ↔ Harmless a d item := by
  rw [refusalKeeps_iff]
  constructor
  · rintro ⟨hkeeps, hresumes⟩ old h
    split_ifs with htaken
    · exact hkeeps old h htaken
    · exact fun hitem hname => not_resumes_of_meta hname h hitem htaken hresumes
  · intro hharmless
    refine ⟨fun old h htaken => ?_, ?_⟩
    · have hcase := hharmless old h
      rwa [if_pos htaken] at hcase
    · by_cases hpasses : ∃ old, a.Passes d item old
      · obtain ⟨old, h⟩ := hpasses
        have hcase := hharmless old h
        by_cases htaken : (ItemState.queued, item.itemId) ∈ d.dirs
        · rw [if_pos htaken] at hcase
          exact resumes_of_taken (hcase ▸ h) htaken
        · rw [if_neg htaken] at hcase
          exact fun hitem => resumes_of_free (hcase hitem) h htaken hitem
      · exact resumes_of_not_passes (not_exists.mp hpasses)

/-! ### An item in two state directories -/

/-- An item that waits for an answer. -/
def waitingItem : QueueItem :=
  { itemId := "q-1", title := "one", specFilename := "spec.md", state := .awaitingAnswer }

/-- A disk where `queued/` holds the id of that item too. -/
def twiceDisk : Disk where
  dirs := ((∅ : AList fun _ : Place => Files).insert (.awaitingAnswer, "q-1")
    (((∅ : Files).insert metaFilename (.json waitingItem.toDict)).insert "spec.md" (.text "old" none))).insert
      (.queued, "q-1") ∅
  staging := ∅
  journal := []

def plainAnswer : Answer :=
  { text := "new", parsed := none, actor := "me", resetAttempts := false, escalationRow := "",
    escalatedRun := "" }

/-- **A refused answer replaces the spec**: the id is in `queued/` as well. -/
theorem answer_spoils_spec :
    ¬ ∀ a env d item, RefusalKeeps a env d item ∧ Resumes a env d item := by
  intro hall
  have hpasses : plainAnswer.Passes twiceDisk waitingItem (.text "old" none) := by
    constructor
    · exact Or.inl rfl
    · decide
    · exact Or.inr (by decide)
    · decide
    · decide
    · rfl
  have hsame := refusalKeeps_iff.mp (hall plainAnswer sampleEnv twiceDisk waitingItem).1 _ hpasses (by decide)
  exact absurd (Content.text.inj hsame).1 (by decide)

end Kstrl
