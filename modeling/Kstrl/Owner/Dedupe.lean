import Kstrl.Base.Runs
import Kstrl.Owner.Inbox

/-!
# One open item for each dedupe key

Emissions, decisions and the clock over one inbox log.  Each emission and each decision reads the
log and appends to it in one hold of the control lock, so it is one step.

An item whose snooze lapses is open again with no row written, so what has to be kept is that no key
has two **undecided** items, open or snoozed.  An emission looks for an open item by its status, and
opens a second item beside a snoozed one; a snooze of a decided item makes it undecided again.

* **`openTwice_later_iff`** says that two undecided items of a key are two open ones, now or when
  the snoozes lapse.
* **`inboxStep_single_iff`** is when a step keeps the keys single.
* **`one_open_of_key`** is the result over runs, and `snoozed_item_doubled` the run that breaks it.
-/

namespace Kstrl

namespace Owner

open Runs

/-! ## Steps -/

structure InboxState where
  log : List Json
  clock : ℕ

def InboxState.init (clock : ℕ) : InboxState := ⟨[], clock⟩

inductive InboxAction where
  | add (id : String) (e : Emission)
  | approve (itemId actor comment : String)
  | reject (itemId actor comment : String)
  | resolve (itemId actor comment : String) (onlyFrom : Option (List ItemStatus))
  | snooze (itemId actor : String) (snoozeHours : Hours) (hours : Option Hours)
  | advance (micros : ℕ)

section Steps

variable (fmt : IsoFormat)

/-- The log behind a command; one that raises leaves it. -/
def logAfter (log : List Json) (r : Except InboxError (Option InboxItem × List Json)) : List Json :=
  match r with
  | .ok (_, log') => log'
  | .error _ => log

def InboxState.next (s : InboxState) : InboxAction → InboxState
  | .add id e => { s with log := (Owner.add fmt s.clock s.log id e).2 }
  | .approve itemId actor comment =>
      { s with log := logAfter s.log (Owner.approve fmt s.clock s.log itemId actor comment) }
  | .reject itemId actor comment =>
      { s with log := logAfter s.log (Owner.reject fmt s.clock s.log itemId actor comment) }
  | .resolve itemId actor comment onlyFrom =>
      { s with log := logAfter s.log (Owner.resolve fmt s.clock s.log itemId actor comment onlyFrom) }
  | .snooze itemId actor snoozeHours hours =>
      { s with log := logAfter s.log (Owner.snooze fmt s.clock s.log snoozeHours itemId actor hours) }
  | .advance micros => { s with clock := s.clock + micros }

/-- A new id is one that no item has. -/
def InboxAction.Fresh (s : InboxState) : InboxAction → Prop
  | .add id _ => id ≠ "" ∧ ∀ it ∈ folded s.log, it.id ≠ id
  | _ => True

def InboxStep (s : InboxState) (a : InboxAction) (t : InboxState) : Prop :=
  a.Fresh s ∧ t = s.next fmt a

/-! ## Open items and undecided items -/

/-- Not decided: open, or snoozed whatever its deadline. -/
def InboxItem.Undecided (item : InboxItem) : Prop := item.status ∈ undecided

instance (item : InboxItem) : Decidable item.Undecided := by
  unfold InboxItem.Undecided
  infer_instance

/-- At a time, no dedupe key has two open items. -/
def OneOpen (clock : ℕ) (log : List Json) : Prop :=
  ∀ a ∈ openItems fmt clock log, ∀ b ∈ openItems fmt clock log, a.dedupeKey ≠ "" →
    a.dedupeKey = b.dedupeKey → a = b

/-- No dedupe key has two undecided items. -/
def OneUndecided (log : List Json) : Prop :=
  ∀ a ∈ folded log, ∀ b ∈ folded log, a.Undecided → b.Undecided → a.dedupeKey ≠ "" →
    a.dedupeKey = b.dedupeKey → a = b

end Steps

variable {fmt : IsoFormat} {s t : InboxState} {log : List Json} {item : InboxItem}

lemma mem_openItems {clock : ℕ} :
    item ∈ openItems fmt clock log ↔ item ∈ folded log ∧ item.isOpen fmt clock = true := by
  rw [openItems, List.mem_filter, mem_items]

lemma undecided_of_isOpen {clock : ℕ} (h : item.isOpen fmt clock = true) : item.Undecided := by
  unfold InboxItem.isOpen at h
  unfold InboxItem.Undecided undecided
  cases hs : item.status <;> rw [hs] at h <;> simp at h ⊢

/-- A snooze lapses in the end. -/
lemma exists_isOpen (fmt : IsoFormat) (h : item.Undecided) : ∃ clock, ∀ later ≥ clock, item.isOpen fmt later = true := by
  unfold InboxItem.Undecided undecided at h
  unfold InboxItem.isOpen
  rcases List.mem_cons.mp h with hs | hs
  · exact ⟨0, fun later _ => by rw [hs]⟩
  · rw [List.mem_singleton.mp hs]
    cases hu : fmt.fromisoformat item.snoozeUntil with
    | none => exact ⟨0, fun later _ => rfl⟩
    | some deadline =>
        refine ⟨deadline + 1000000, fun later hlater => ?_⟩
        have hle : deadline ≤ utcNow later := by
          unfold utcNow
          omega
        simpa using hle

/-- **Two undecided items of a key are open together**, now or later. -/
theorem openTwice_later_iff (clock : ℕ) :
    OneUndecided log ↔ ∀ later ≥ clock, OneOpen fmt later log := by
  constructor
  · intro h later _ a ha b hb hkey hsame
    obtain ⟨ha, hopen⟩ := mem_openItems.mp ha
    obtain ⟨hb, hopen'⟩ := mem_openItems.mp hb
    exact h a ha b hb (undecided_of_isOpen hopen) (undecided_of_isOpen hopen') hkey hsame
  · intro h a ha b hb hua hub hkey hsame
    obtain ⟨ca, hca⟩ := exists_isOpen fmt hua
    obtain ⟨cb, hcb⟩ := exists_isOpen fmt hub
    exact h (clock + ca + cb) (by omega) a (mem_openItems.mpr ⟨ha, hca _ (by omega)⟩) b
      (mem_openItems.mpr ⟨hb, hcb _ (by omega)⟩) hkey hsame

/-! ## What a row does to the keys -/

lemma undecided_iff : item.Undecided ↔ item.status = .open ∨ item.status = .snoozed := by
  simp [InboxItem.Undecided, undecided]

lemma id_ne_of_mem_folded (h : item ∈ folded log) : item.id ≠ "" := by
  unfold folded at h
  obtain ⟨data, _, hdata⟩ := List.mem_filterMap.mp (LatestLog.mem_of_mem_latest h)
  unfold InboxItem.fromDict at hdata
  split at hdata
  · split_ifs at hdata with hid
    simp only [Option.bind_eq_bind, Option.bind_eq_some_iff, Option.pure_def, Option.some.injEq]
      at hdata
    obtain ⟨_, _, _, _, _, _, rfl⟩ := hdata
    exact hid
  · cases hdata

/-- The rows of a key beside `item` are decided. -/
def AloneInKey (log : List Json) (item : InboxItem) : Prop :=
  item.dedupeKey ≠ "" → ∀ it ∈ folded log, it.id ≠ item.id → it.dedupeKey = item.dedupeKey →
    ¬ it.Undecided

/-- An undecided row keeps the keys single if it is alone in its key, a decided one does always. -/
lemma oneUndecided_append (h : OneUndecided log) (hid : item.id ≠ "") :
    OneUndecided (append log item) ↔ (item.Undecided → AloneInKey log item) := by
  have hmem := folded_append log hid
  constructor
  · intro hone hund hkey it hit hne hsame hund'
    have hboth := hone item ((hmem item).mpr (Or.inl rfl)) it ((hmem it).mpr (Or.inr ⟨hit, hne⟩))
      hund hund' hkey hsame.symm
    exact hne (by rw [hboth])
  · intro halone a ha b hb hua hub hkey hsame
    rcases (hmem a).mp ha with ha' | ⟨ha', hna⟩ <;> rcases (hmem b).mp hb with hb' | ⟨hb', hnb⟩
    · rw [ha', hb']
    · subst ha'
      exact absurd hub (halone hua hkey b hb' hnb hsame.symm)
    · subst hb'
      exact absurd hua (halone hub (hsame ▸ hkey) a ha' hna hsame)
    · exact h a ha' b hb' hua hub hkey hsame

/-- An undecided item is alone in its key already. -/
lemma OneUndecided.alone (h : OneUndecided log) {old : InboxItem} (hold : old ∈ folded log)
    (hund : old.Undecided) (hid : item.id = old.id) (hkey : item.dedupeKey = old.dedupeKey) :
    AloneInKey log item := by
  intro hne it hit hdiff hsame hund'
  exact hdiff (by rw [h it hit old hold hund' hund (hsame ▸ hne) (hsame.trans hkey), hid])

/-! ## What a step does -/

/-- **When a step keeps the keys single.**  An emission finds no snoozed item of its key, and a snooze
    puts off an item whose key has no other undecided one. -/
def Single (s : InboxState) : InboxAction → Prop
  | .add _ e => e.dedupeKey ≠ "" → ∀ it ∈ folded s.log, it.dedupeKey = e.dedupeKey →
      it.status ≠ .snoozed
  | .snooze itemId _ snoozeHours hours =>
      (hours.getD snoozeHours).positive = true →
      (snoozeDeadline s.clock (hours.getD snoozeHours)).isSome = true →
      ∀ item, get s.log itemId = .ok (some item) → AloneInKey s.log item
  | _ => True

lemma add_oneUndecided_iff {clock : ℕ} {id : String} {e : Emission} (h : OneUndecided log)
    (hid : id ≠ "") (hfresh : ∀ it ∈ folded log, it.id ≠ id) :
    OneUndecided (Owner.add fmt clock log id e).2 ↔
      (e.dedupeKey ≠ "" → ∀ it ∈ folded log, it.dedupeKey = e.dedupeKey → it.status ≠ .snoozed) := by
  have hopened : OneUndecided (append log (opened fmt clock id e)) ↔
      (e.dedupeKey ≠ "" → ∀ it ∈ folded log, it.dedupeKey = e.dedupeKey → ¬ it.Undecided) := by
    rw [oneUndecided_append h hid]
    constructor
    · intro halone hkey it hit hsame
      exact halone (undecided_iff.mpr (Or.inl rfl)) hkey it hit (hfresh it hit) hsame
    · intro hall _ hkey it hit _ hsame
      exact hall hkey it hit hsame
  unfold Owner.add
  cases hfind : findByDedupeKey log e.dedupeKey with
  | none =>
      simp only
      rw [hopened]
      refine forall_congr' fun hkey => ?_
      have hnone := findByDedupeKey_none hkey hfind
      exact iff_of_true (fun it hit hsame => absurd hsame (hnone it hit))
        fun it hit hsame => absurd hsame (hnone it hit)
  | some existing =>
      obtain ⟨hmem, hsame, hkey, hnewest⟩ := mem_of_findByDedupeKey hfind
      simp only
      split_ifs with hstatus
      · have hund : existing.Undecided := undecided_iff.mpr (Or.inl hstatus)
        refine iff_of_true ?_ fun _ it hit hitkey hsnoozed => ?_
        · have hid : (bumped fmt clock e existing).id ≠ "" := by
            rw [bumped_id]
            exact id_ne_of_mem_folded hmem
          exact (oneUndecided_append h hid).mpr fun _ => h.alone hmem hund rfl rfl
        · -- the open item of the key is the only undecided one
          have heq := h it hit existing hmem (undecided_iff.mpr (Or.inr hsnoozed)) hund
            (hitkey ▸ hkey) (hitkey.trans hsame.symm)
          rw [heq, hstatus] at hsnoozed
          cases hsnoozed
      · rw [hopened]
        refine forall_congr' fun _ => forall₃_congr fun it hit hitkey => ?_
        rw [undecided_iff, or_iff_right (hnewest hstatus it hit hitkey)]

/-- A decision leaves the log or appends the row it decided. -/
lemma logAfter_decide (fmt : IsoFormat) (clock : ℕ) (log : List Json) (itemId : String) (d : Decision) :
    logAfter log (Owner.decide fmt clock log itemId d) = log ∨
      ∃ it, get log itemId = .ok (some it) ∧
        logAfter log (Owner.decide fmt clock log itemId d) = append log (decided fmt clock d it) := by
  unfold Owner.decide
  cases hget : get log itemId with
  | error e => exact Or.inl rfl
  | ok found =>
      cases found with
      | none => exact Or.inl rfl
      | some it =>
          simp only [bind, Except.bind]
          split_ifs
          · exact Or.inl rfl
          · exact Or.inr ⟨it, rfl, rfl⟩

/-- Closing an item leaves no second one. -/
lemma decide_oneUndecided {clock : ℕ} {itemId : String} {d : Decision} (h : OneUndecided log)
    (hclosed : d.status ∉ undecided) :
    OneUndecided (logAfter log (Owner.decide fmt clock log itemId d)) := by
  rcases logAfter_decide fmt clock log itemId d with hlog | ⟨it, hget, hlog⟩ <;> rw [hlog]
  · exact h
  · have hid : (decided fmt clock d it).id ≠ "" := by
      rw [decided_id]
      exact id_ne_of_mem_folded (mem_of_get hget)
    exact (oneUndecided_append h hid).mpr fun hund => absurd hund hclosed

lemma snooze_oneUndecided_iff {clock : ℕ} {snoozeHours : Hours} {itemId actor : String}
    {hours : Option Hours} (h : OneUndecided log) :
    OneUndecided (logAfter log (Owner.snooze fmt clock log snoozeHours itemId actor hours)) ↔
      ((hours.getD snoozeHours).positive = true →
        (snoozeDeadline clock (hours.getD snoozeHours)).isSome = true →
        ∀ item, get log itemId = .ok (some item) → AloneInKey log item) := by
  unfold Owner.snooze
  simp only
  cases hpos : (hours.getD snoozeHours).positive with
  | false =>
      simp only [Bool.not_false, if_true]
      exact iff_of_true h fun hf => nomatch hf
  | true =>
      simp only [Bool.not_true, Bool.false_eq_true, if_false, forall_const]
      cases hdead : snoozeDeadline clock (hours.getD snoozeHours) with
      | none => exact iff_of_true h fun hf => nomatch hf
      | some deadline =>
          simp only [Option.isSome_some, forall_const]
          unfold Owner.decide
          cases hget : get log itemId with
          | error e => exact iff_of_true h fun item hitem => nomatch hitem
          | ok found =>
              cases found with
              | none => exact iff_of_true h fun item hitem => nomatch hitem
              | some it =>
                  set d : Decision :=
                    { status := .snoozed, actor := actor
                      comment := "snoozed " ++ (hours.getD snoozeHours).text ++ "h"
                      snoozeUntil := some deadline }
                  have hid : (decided fmt clock d it).id ≠ "" := by
                    rw [decided_id]
                    exact id_ne_of_mem_folded (mem_of_get hget)
                  have hund : (decided fmt clock d it).Undecided := undecided_iff.mpr (Or.inr rfl)
                  show OneUndecided (append log (decided fmt clock d it)) ↔ _
                  rw [oneUndecided_append h hid]
                  constructor
                  · rintro halone item hitem
                    cases hitem
                    exact halone hund
                  · intro hall _
                    exact hall it rfl

lemma closed_not_undecided {status : ItemStatus} (h : status ≠ .open) (h' : status ≠ .snoozed) :
    status ∉ undecided := by
  simp [undecided, h, h']

/-- **What one step does to the keys.** -/
theorem inboxStep_single_iff {a : InboxAction} (h : OneUndecided s.log) (hstep : InboxStep fmt s a t) :
    OneUndecided t.log ↔ Single s a := by
  obtain ⟨hfresh, rfl⟩ := hstep
  cases a with
  | add id e => exact add_oneUndecided_iff h hfresh.1 hfresh.2
  | approve itemId actor comment => exact iff_of_true (decide_oneUndecided h (closed_not_undecided nofun nofun)) trivial
  | reject itemId actor comment =>
      refine iff_of_true ?_ trivial
      show OneUndecided (logAfter s.log (Owner.reject fmt s.clock s.log itemId actor comment))
      unfold Owner.reject
      split_ifs
      · exact h
      · exact decide_oneUndecided h (closed_not_undecided nofun nofun)
  | resolve itemId actor comment onlyFrom =>
      exact iff_of_true (decide_oneUndecided h (closed_not_undecided nofun nofun)) trivial
  | snooze itemId actor snoozeHours hours => exact snooze_oneUndecided_iff h
  | advance micros => exact iff_of_true h trivial

/-! ## Runs -/

lemma oneUndecided_nil : OneUndecided [] := fun a ha => by cases ha

/-- **One open item for each key.**  In every run whose steps keep the keys single, no key ever has two
    open items, then or when the clock moves on; and a step from a state of such a run leaves it so if
    and only if it keeps the keys single. -/
theorem one_open_of_key {start : ℕ} (run : Reaches (InboxStep fmt) Single (.init start) s) :
    (∀ later ≥ s.clock, OneOpen fmt later s.log) ∧
      ∀ a t, InboxStep fmt s a t → ((∀ later ≥ t.clock, OneOpen fmt later t.log) ↔ Single s a) := by
  have h : OneUndecided s.log := run.invariant oneUndecided_nil
    fun t a u ht hsingle hstep => (inboxStep_single_iff ht hstep).mpr hsingle
  refine ⟨(openTwice_later_iff s.clock).mp h, fun a t hstep => ?_⟩
  rw [← openTwice_later_iff t.clock]
  exact inboxStep_single_iff h hstep

/-! ### A run halts, and halts again -/

def haltedRun : Emission where
  kind := .haltedRun
  title := "api halted"
  dedupeKey := "halted:api"

def startMoment : ℕ := 1780000000000000

/-- The first emission. -/
def raisedOnce : InboxState := (InboxState.init startMoment).next .utc (.add "a" haltedRun)

lemma raisedOnce_fresh {id : String} (h : id ≠ "") :
    (InboxAction.add id haltedRun).Fresh (.init startMoment) :=
  ⟨h, fun it hit => by cases hit⟩

lemma raisedOnce_ids : ∀ it ∈ folded raisedOnce.log, it.id ≠ "b" := by decide +kernel

/-- The repeat bumps the item. -/
theorem one_open_of_key_repeated :
    (∀ later ≥ (raisedOnce.next .utc (.add "b" haltedRun)).clock,
        OneOpen .utc later (raisedOnce.next .utc (.add "b" haltedRun)).log) ∧
      ∀ a t, InboxStep .utc (raisedOnce.next .utc (.add "b" haltedRun)) a t →
        ((∀ later ≥ t.clock, OneOpen .utc later t.log) ↔
          Single (raisedOnce.next .utc (.add "b" haltedRun)) a) := by
  have hsingle : ∀ it ∈ folded raisedOnce.log, it.dedupeKey = haltedRun.dedupeKey →
      it.status ≠ .snoozed := by decide +kernel
  exact one_open_of_key (.tail (a := .add "b" haltedRun) (.single (a := .add "a" haltedRun)
    (fun _ it hit => by cases hit) ⟨raisedOnce_fresh (by decide), rfl⟩) (fun _ => hsingle)
    ⟨⟨by decide, raisedOnce_ids⟩, rfl⟩)

/-- The item is snoozed for an hour, the run halts again, and two hours pass. -/
def raisedTwice : InboxState :=
  (((raisedOnce.next .utc (.snooze "a" "me" ⟨true, some 3600000000, "1.0"⟩ none)).next .utc
    (.add "b" haltedRun)).next .utc (.advance 7200000000))

/-- **A repeat beside a snoozed item opens a second one.** -/
theorem snoozed_item_doubled :
    ¬ ∀ (fmt : IsoFormat) (start : ℕ) (s : InboxState),
      Reaches (InboxStep fmt) Always (.init start) s → OneOpen fmt s.clock s.log := by
  intro hall
  have hids : ∀ it ∈ folded (raisedOnce.next .utc
      (.snooze "a" "me" ⟨true, some 3600000000, "1.0"⟩ none)).log, it.id ≠ "b" := by decide +kernel
  have run : Reaches (InboxStep .utc) Always (.init startMoment) raisedTwice := by
    refine .tail (a := .advance 7200000000) (.tail (a := .add "b" haltedRun)
      (.tail (a := .snooze "a" "me" ⟨true, some 3600000000, "1.0"⟩ none)
      (.single (a := .add "a" haltedRun) trivial ⟨raisedOnce_fresh (by decide), rfl⟩) trivial
      ⟨trivial, rfl⟩) trivial ⟨⟨by decide, hids⟩, rfl⟩) trivial ⟨trivial, rfl⟩
  have htwo : ∃ a ∈ openItems .utc raisedTwice.clock raisedTwice.log,
      ∃ b ∈ openItems .utc raisedTwice.clock raisedTwice.log,
        a.dedupeKey ≠ "" ∧ a.dedupeKey = b.dedupeKey ∧ a.id ≠ b.id := by decide +kernel
  obtain ⟨a, ha, b, hb, hkey, hsame, hne⟩ := htwo
  exact hne (by rw [hall .utc startMoment raisedTwice run a ha b hb hkey hsame])

end Owner

end Kstrl
