import Kstrl.Base.CrashRuns
import Kstrl.Queue.Operations

/-!
# One run of `add`

`add_leaves` says what `add` can leave behind.  A caller that records what it added has to know more: which
faults let the item be published, and which of those keep `add` from returning.

* **`Queue.add_run`**: an accepted item whose first four writes are carried out is published, and then only a
  crash keeps `add` from returning it; otherwise nothing is published and nothing returned.
-/

namespace Kstrl
open CrashProg

lemma Published.of_dirs {d d' d'' : Disk} {item : QueueItem} (h : Published d d' item)
    (hdirs : d''.dirs = d'.dirs) : Published d d'' item := by
  obtain ⟨files, hfiles, hmeta⟩ := h.dirs
  exact ⟨h.fresh, files, hdirs.trans hfiles, hmeta⟩

namespace Queue

/-- Whether `add` takes the item. -/
def accepts (env : Env) (d : Disk) (mint : MintedId) (spec : SpecSource) (args : AddArgs) : Bool :=
  PyText.isBlank spec.chars = false && isSafeComponent (spec.filename args) && 1 ≤ args.resolvedAttempts env &&
    ((ItemState.queued, mint.itemId) ∉ d.dirs) && mint.itemId ∉ d.staging

variable {env : Env} {mint : MintedId} {spec : SpecSource} {args : AddArgs} {fs : List Fault} {d : Disk}

lemma buildAndPublish_run (item : QueueItem) (content : Content) (fs : List Fault) (d : Disk) :
    (through 3 fs = true ∧ buildAndPublish item content fs d = (.done (), fs.drop 3,
        ((d.stageFile item.itemId item.specFilename content).stageFile item.itemId metaFilename
          (.json item.toDict)).publish item.itemId (.queued, item.itemId))) ∨
      through 3 fs = false ∧ (∀ a, (buildAndPublish item content fs d).1 ≠ .done a) := by
  rw [through_succ 2, through_succ 1, buildAndPublish]
  cases h1 : through 1 fs with
  | false =>
      refine Or.inr ⟨rfl, ?_⟩
      rcases run_write_bind_stopped _ _ _ h1 with h | h <;> rw [h] <;> simp
  | true =>
  rw [run_bind_done (run_write _ _ h1)]
  cases h2 : through 1 fs.tail with
  | false =>
      refine Or.inr ⟨rfl, ?_⟩
      rcases run_write_bind_stopped _ _ _ h2 with h | h <;> rw [h] <;> simp
  | true =>
  rw [run_bind_done (run_write _ _ h2)]
  cases h3 : through 1 fs.tail.tail with
  | false =>
      refine Or.inr ⟨rfl, ?_⟩
      rcases run_write_stopped _ _ h3 with h | h <;> rw [h] <;> simp
  | true => exact Or.inl ⟨rfl, by rw [run_write _ _ h3]; simp only [List.drop_one.symm, List.drop_drop]⟩

/-- The journal is written behind the fact: only a crash stops what follows it. -/
lemma run_journal {α : Type} (entry : JournalEntry) (a : α) (fs : List Fault) (d : Disk) :
    ∃ t : Disk, t.dirs = d.dirs ∧
      ((fs.head? = some .crash ∧ (journal entry >>= fun _ => pure a) fs d = (.crashed, fs.tail, t)) ∨
        (fs.head? ≠ some .crash ∧ (journal entry >>= fun _ => pure a) fs d = (.done a, fs.tail, t))) := by
  rw [journal]
  rcases run_writeQuiet_bind (s := d) (fun d => { d with journal := d.journal ++ [entry] })
    (fun _ => (pure a : QueueProg α)) with h | ⟨hhead, t, ht, hrun⟩
  · exact ⟨d, rfl, Or.inl h⟩
  · refine ⟨t, ?_, Or.inr ⟨hhead, hrun⟩⟩
    rcases ht with rfl | rfl <;> rfl

/-- What was staged is taken away again, and the error passed on. -/
lemma run_unstage {α : Type} (itemId : String) (e : QueueError) (fs : List Fault) (d : Disk) :
    ∃ t : Disk, t.dirs = d.dirs ∧
      (((do
          writeQuiet fun d => { d with staging := d.staging.erase itemId }
          raise e) : QueueProg α) fs d = (.crashed, fs.tail, t) ∨
        ((do
          writeQuiet fun d => { d with staging := d.staging.erase itemId }
          raise e) : QueueProg α) fs d = (.raised e, fs.tail, t)) := by
  rcases run_writeQuiet_bind (s := d) (fun d => { d with staging := d.staging.erase itemId })
    (fun _ => (raise e : QueueProg α)) with ⟨_, hrun⟩ | ⟨_, t, ht, hrun⟩
  · exact ⟨d, rfl, Or.inl hrun⟩
  · refine ⟨t, ?_, Or.inr hrun⟩
    rcases ht with rfl | rfl <;> rfl

/-- What is assembled under `.staging` is published. -/
lemma published_publish (d s : Disk) (item : QueueItem) (content : Content) (hs : s.dirs = d.dirs)
    (hfresh : (ItemState.queued, item.itemId) ∉ d.dirs) :
    Published d (((s.stageFile item.itemId item.specFilename content).stageFile
      item.itemId metaFilename (.json item.toDict)).publish item.itemId (.queued, item.itemId)) item := by
  refine ⟨hfresh, (((s.stageFile item.itemId item.specFilename content).staging.lookup item.itemId).getD ∅).insert
    metaFilename (.json item.toDict), ?_, AList.lookup_insert _⟩
  rw [Disk.publish, Disk.stageFile, AList.lookup_insert]
  show AList.insert _ _ s.dirs = _
  rw [hs]

/-- **A run of `add`.**  It publishes the item, and then only a crash keeps it from returning; or it does
    not return and the state directories are as they were. -/
theorem add_run (env : Env) (mint : MintedId) (spec : SpecSource) (args : AddArgs) (fs : List Fault)
    (d : Disk) :
    (accepts env d mint spec args = true ∧ through 4 fs = true ∧
      Published d (add env mint spec args fs d).2.2 (newItem env mint spec args) ∧
      (((fs.drop 4).head? = some .crash ∧ (add env mint spec args fs d).1 = .crashed) ∨
        ((fs.drop 4).head? ≠ some .crash ∧ (add env mint spec args fs d).1 = .done (newItem env mint spec args) ∧
          (add env mint spec args fs d).2.1 = fs.drop 5))) ∨
    ((accepts env d mint spec args = false ∨ through 4 fs = false) ∧
      (add env mint spec args fs d).2.2.dirs = d.dirs ∧ ∀ a, (add env mint spec args fs d).1 ≠ .done a) := by
  have hid : (newItem env mint spec args).itemId = mint.itemId := rfl
  rw [add]
  by_cases h1 : PyText.isBlank spec.chars = false
  swap
  · rw [run_require_neg h1]
    exact Or.inr ⟨Or.inl (by simp [accepts, h1]), rfl, by simp⟩
  rw [run_require_pos h1]
  by_cases h2 : isSafeComponent (spec.filename args) = true
  swap
  · rw [run_require_neg h2]
    exact Or.inr ⟨Or.inl (by simp [accepts, h2]), rfl, by simp⟩
  rw [run_require_pos h2]
  by_cases h3 : 1 ≤ args.resolvedAttempts env
  swap
  · rw [run_require_neg h3]
    exact Or.inr ⟨Or.inl (by simp [accepts, h3]), rfl, by simp⟩
  rw [run_require_pos h3]
  rw [run_read_bind]
  by_cases h4 : (ItemState.queued, (newItem env mint spec args).itemId) ∉ d.dirs
  swap
  · rw [run_require_neg h4]
    exact Or.inr ⟨Or.inl (by simp [accepts, hid ▸ not_not.mp h4]), rfl, by simp⟩
  rw [run_require_pos h4]
  by_cases h5 : (newItem env mint spec args).itemId ∉ d.staging
  swap
  · rw [run_require_neg h5]
    exact Or.inr ⟨Or.inl (by simp [accepts, hid ▸ not_not.mp h5]), rfl, by simp⟩
  rw [run_require_pos h5]
  set item := newItem env mint spec args with hitem
  have hacc : accepts env d mint spec args = true := by
    simp only [accepts, h1, h2, h3, hid ▸ h4, hid ▸ h5]
    rfl
  rw [through_succ 3]
  cases hs : through 1 fs with
  | false =>
      refine Or.inr ⟨Or.inr rfl, ?_⟩
      rcases run_write_bind_stopped _ _ _ hs with h | h <;> rw [h] <;> simp
  | true =>
  rw [run_bind_done (run_write _ _ hs)]
  rcases buildAndPublish_run item spec.content fs.tail { d with staging := d.staging.insert item.itemId ∅ }
    with ⟨hthrough, hrun⟩ | ⟨hthrough, hrun⟩
  · rw [run_bind_done (run_catching_done hrun), hthrough]
    have hpub := published_publish d { d with staging := d.staging.insert item.itemId ∅ } item spec.content
      rfl h4
    have hdrop : fs.tail.drop 3 = fs.drop 4 := by rw [← List.drop_one, List.drop_drop]
    refine Or.inl ⟨hacc, rfl, ?_⟩
    rw [hdrop]
    obtain ⟨t, ht, ⟨hhead, hrun⟩ | ⟨hhead, hrun⟩⟩ := run_journal _ item (fs.drop 4)
      ((({ d with staging := d.staging.insert item.itemId ∅ }.stageFile item.itemId item.specFilename
        spec.content).stageFile item.itemId metaFilename (.json item.toDict)).publish item.itemId
          (.queued, item.itemId))
    · rw [hrun]
      exact ⟨hpub.of_dirs ht, Or.inl ⟨hhead, rfl⟩⟩
    · rw [hrun]
      exact ⟨hpub.of_dirs ht, Or.inr ⟨hhead, rfl, by simp⟩⟩
  · rw [hthrough]
    refine Or.inr ⟨Or.inr rfl, ?_⟩
    have hdirs := buildAndPublish_triple d item spec.content h4 fs.tail
      { d with staging := d.staging.insert item.itemId ∅ } rfl
    rcases hb : buildAndPublish item spec.content fs.tail
      { d with staging := d.staging.insert item.itemId ∅ } with ⟨_ | e | _, fs', t⟩
    · exact absurd (congrArg Prod.fst hb) (hrun _)
    · rw [hb] at hdirs
      obtain ⟨u, hu, hundo | hundo⟩ := run_unstage (α := Unit) item.itemId e fs' t
      · rw [run_bind_crashed ((run_catching_raised hb).trans hundo)]
        exact ⟨hu.trans hdirs, by simp⟩
      · rw [run_bind_raised ((run_catching_raised hb).trans hundo)]
        exact ⟨hu.trans hdirs, by simp⟩
    · rw [hb] at hdirs
      rw [run_bind_crashed (run_catching_crashed hb)]
      exact ⟨hdirs, by simp⟩

end Queue

end Kstrl
