import Kstrl.Owner.Dedupe

/-!
# Decisions of the operator beside the factory's own rows

The factory adds items and resolves them while an operator approves, rejects and snoozes.  Each of them reads the
log and appends one row to it in one hold of the control lock.

* **`folded_next`**: the fold behind a step is the fold in front of it with the one row the step wrote.
* **`decision_kept`**: no row of the factory touches an item that is approved, rejected or resolved.
* **`occurrences_eq`**: an item counts the emissions that were collapsed onto it, the one that opened it among them.
* `snooze_resolved` is a snoozed item that the factory resolves: a snooze only defers.
-/

namespace Kstrl

namespace Owner

open LatestLog Runs

/-! ## The row of a step -/

/-- The factory's own steps: an emission, a resolve of `pipeline_inbox.py`, and the clock. -/
def InboxAction.Automated : InboxAction → Prop
  | .add _ _ => True
  | .resolve _ _ _ onlyFrom => onlyFrom = some undecided
  | .advance _ => True
  | _ => False

/-- The row a command appended. -/
def rowOf (r : Except InboxError (Option InboxItem × List Json)) : Option InboxItem :=
  match r with
  | .ok (row, _) => row
  | .error _ => none

section Rows

variable (fmt : IsoFormat) (s : InboxState)

/-- The row a step appends. -/
def InboxState.row? : InboxAction → Option InboxItem
  | .add id e => some (Owner.add fmt s.clock s.log id e).1
  | .approve itemId actor comment => rowOf (Owner.approve fmt s.clock s.log itemId actor comment)
  | .reject itemId actor comment => rowOf (Owner.reject fmt s.clock s.log itemId actor comment)
  | .resolve itemId actor comment onlyFrom =>
      rowOf (Owner.resolve fmt s.clock s.log itemId actor comment onlyFrom)
  | .snooze itemId actor snoozeHours hours =>
      rowOf (Owner.snooze fmt s.clock s.log snoozeHours itemId actor hours)
  | .advance _ => none

/-- What a row is: a repeat of an open item, a new item, or an item as a decision leaves it. -/
inductive Writes : InboxAction → InboxItem → Prop where
  | bumped {id : String} {e : Emission} {old : InboxItem} (mem : old ∈ folded s.log) (isOpen : old.status = .open) :
      Writes (.add id e) (bumped fmt s.clock e old)
  | opened {id : String} {e : Emission} : Writes (.add id e) (opened fmt s.clock id e)
  | decided {a : InboxAction} {d : Decision} {old : InboxItem} (mem : old ∈ folded s.log)
      (isDecision : ∀ id e, a ≠ .add id e) (automated : a.Automated → old.status ∈ undecided) :
      Writes a (decided fmt s.clock d old)

end Rows

variable {fmt : IsoFormat} {s t : InboxState} {log : List Json} {item row : InboxItem} {a : InboxAction}

lemma rowOf_decide {clock : ℕ} {itemId : String} {d : Decision}
    (h : rowOf (Owner.decide fmt clock log itemId d) = some row) :
    ∃ old ∈ folded log, row = decided fmt clock d old ∧ logAfter log (Owner.decide fmt clock log itemId d) = append log row ∧
      ∀ statuses, d.onlyFrom = some statuses → old.status ∈ statuses := by
  unfold Owner.decide at h ⊢
  cases hget : get log itemId with
  | error e =>
      rw [hget] at h
      cases h
  | ok found =>
      rw [hget] at h
      cases found with
      | none => cases h
      | some it =>
          simp only [bind, Except.bind] at h ⊢
          by_cases hskip : (d.onlyFrom.any fun statuses => Decidable.decide (it.status ∉ statuses)) = true
          · rw [if_pos hskip] at h
            cases h
          · rw [if_neg hskip] at h ⊢
            cases h
            refine ⟨it, mem_of_get hget, rfl, rfl, fun statuses hfrom => ?_⟩
            rw [hfrom] at hskip
            simpa using hskip

lemma rowOf_decide_none {clock : ℕ} {itemId : String} {d : Decision}
    (h : rowOf (Owner.decide fmt clock log itemId d) = none) :
    logAfter log (Owner.decide fmt clock log itemId d) = log := by
  unfold Owner.decide at h ⊢
  cases hget : get log itemId with
  | error e => rfl
  | ok found =>
      rw [hget] at h
      cases found with
      | none => rfl
      | some it =>
          simp only [bind, Except.bind] at h ⊢
          by_cases hskip : (d.onlyFrom.any fun statuses => Decidable.decide (it.status ∉ statuses)) = true
          · rw [if_pos hskip]
            rfl
          · rw [if_neg hskip] at h
            cases h

/-- Every command of a decision is one `_decide`, or raises before it. -/
lemma decision_cases (s : InboxState) (hadd : ∀ id e, a ≠ .add id e) :
    (s.row? fmt a = none ∧ (s.next fmt a).log = s.log) ∨
      ∃ itemId d, s.row? fmt a = rowOf (Owner.decide fmt s.clock s.log itemId d) ∧
        (s.next fmt a).log = logAfter s.log (Owner.decide fmt s.clock s.log itemId d) ∧
        (a.Automated → d.onlyFrom = some undecided) := by
  cases a with
  | add id e => exact absurd rfl (hadd id e)
  | approve itemId actor comment => exact Or.inr ⟨itemId, _, rfl, rfl, fun h => h.elim⟩
  | reject itemId actor comment =>
      by_cases hblank : PyText.isBlank comment = true
      · refine Or.inl ⟨?_, ?_⟩
        · simp only [InboxState.row?, Owner.reject, if_pos hblank, rowOf]
        · simp only [InboxState.next, Owner.reject, if_pos hblank, logAfter]
      · refine Or.inr ⟨itemId, { status := .rejected, actor := actor, comment := comment }, ?_, ?_, fun h => h.elim⟩
        · simp only [InboxState.row?, Owner.reject, if_neg hblank]
        · simp only [InboxState.next, Owner.reject, if_neg hblank]
  | resolve itemId actor comment onlyFrom => exact Or.inr ⟨itemId, _, rfl, rfl, fun h => h⟩
  | snooze itemId actor snoozeHours hours =>
      simp only [InboxState.row?, InboxState.next, Owner.snooze]
      cases hpos : (hours.getD snoozeHours).positive with
      | false => exact Or.inl ⟨rfl, rfl⟩
      | true =>
          cases hdead : snoozeDeadline s.clock (hours.getD snoozeHours) with
          | none => exact Or.inl ⟨rfl, rfl⟩
          | some deadline => exact Or.inr ⟨itemId, _, rfl, rfl, fun h => h.elim⟩
  | advance micros => exact Or.inl ⟨rfl, rfl⟩

/-- **What a step writes.** -/
theorem writes_of_row? (h : s.row? fmt a = some row) :
    Writes fmt s a row ∧ (s.next fmt a).log = append s.log row := by
  by_cases hadd : ∃ id e, a = .add id e
  · obtain ⟨id, e, rfl⟩ := hadd
    simp only [InboxState.row?, Option.some.injEq] at h
    subst h
    simp only [InboxState.next, Owner.add]
    cases hfind : findByDedupeKey s.log e.dedupeKey with
    | none => exact ⟨.opened, rfl⟩
    | some existing =>
        simp only
        by_cases hopen : existing.status = .open
        · rw [if_pos hopen]
          exact ⟨.bumped (mem_of_findByDedupeKey hfind).1 hopen, rfl⟩
        · rw [if_neg hopen]
          exact ⟨.opened, rfl⟩
  · have hadd' : ∀ id e, a ≠ .add id e := fun id e hsame => hadd ⟨id, e, hsame⟩
    rcases decision_cases s hadd' with ⟨hnone, -⟩ | ⟨itemId, d, hrow, hnext, hauto⟩
    · rw [hnone] at h
      cases h
    · rw [hrow] at h
      obtain ⟨old, hmem, rfl, hlog, hfrom⟩ := rowOf_decide h
      exact ⟨.decided hmem hadd' fun ha => hfrom _ (hauto ha), hnext.trans hlog⟩

lemma next_of_row?_none (h : s.row? fmt a = none) : (s.next fmt a).log = s.log := by
  by_cases hadd : ∃ id e, a = .add id e
  · obtain ⟨id, e, rfl⟩ := hadd
    cases h
  · rcases decision_cases s fun id e hsame => hadd ⟨id, e, hsame⟩ with ⟨-, hnext⟩ | ⟨itemId, d, hrow, hnext, -⟩
    · exact hnext
    · rw [hrow] at h
      rw [hnext, rowOf_decide_none h]

/-- A row has the id of an item that is there, or a fresh one. -/
lemma Writes.id_ne (h : Writes fmt s a row) (hfresh : a.Fresh s) : row.id ≠ "" := by
  cases h with
  | @bumped _ _ old mem _ => exact show old.id ≠ "" from id_ne_of_mem_folded mem
  | opened => exact hfresh.1
  | @decided _ _ old mem _ _ => exact show old.id ≠ "" from id_ne_of_mem_folded mem

/-! ## The fold -/

lemma folded_append_eq (log : List Json) (h : item.id ≠ "") :
    folded (append log item) = upsert InboxItem.id item (folded log) := by
  unfold folded append
  rw [List.filterMap_append, List.filterMap_cons_some (InboxItem.fromDict_schema item _ h), List.filterMap_nil]
  exact latest_append _ _

/-- **The fold behind a step.** -/
theorem folded_next (hstep : InboxStep fmt s a t) :
    folded t.log = match s.row? fmt a with
      | none => folded s.log
      | some row => upsert InboxItem.id row (folded s.log) := by
  obtain ⟨hfresh, rfl⟩ := hstep
  cases hrow : s.row? fmt a with
  | none => rw [next_of_row?_none hrow]
  | some row =>
      obtain ⟨hwrites, hlog⟩ := writes_of_row? hrow
      rw [hlog, folded_append_eq _ (hwrites.id_ne hfresh)]

lemma mem_folded_next (hstep : InboxStep fmt s a t) {it : InboxItem} :
    it ∈ folded t.log ↔ (∃ row, s.row? fmt a = some row ∧ it = row) ∨
      it ∈ folded s.log ∧ ∀ row, s.row? fmt a = some row → it.id ≠ row.id := by
  obtain ⟨hfresh, rfl⟩ := hstep
  cases hrow : s.row? fmt a with
  | none => simp [next_of_row?_none hrow]
  | some row =>
      obtain ⟨hwrites, hlog⟩ := writes_of_row? hrow
      rw [hlog, folded_append _ (hwrites.id_ne hfresh)]
      simp [eq_comm]

/-! ## Decisions -/

/-- A step of the factory, or one of the operator that is not about the item. -/
def Spares (fmt : IsoFormat) (item : InboxItem) (s : InboxState) (a : InboxAction) : Prop :=
  a.Automated ∨ ∀ row, s.row? fmt a = some row → row.id ≠ item.id

/-- The factory's steps write no row of an item that is decided. -/
lemma Writes.id_ne_of_decided (h : Writes fmt s a row) (hfresh : a.Fresh s) (hauto : a.Automated)
    (hitem : item ∈ folded s.log) (hdecided : ¬ item.Undecided) : row.id ≠ item.id := by
  intro hid
  cases h with
  | bumped mem isOpen =>
      have hsame := eq_of_mem_folded mem hitem hid
      exact hdecided (hsame ▸ undecided_iff.mpr (Or.inl isOpen))
  | opened => exact hfresh.2 item hitem hid.symm
  | decided mem _ automated =>
      have hsame := eq_of_mem_folded mem hitem hid
      exact hdecided (hsame ▸ automated hauto)

/-- **A decision is kept** over every run: an item that is approved, rejected or resolved stays as it is, row for
row, until the operator decides about it again. -/
theorem decision_kept (hitem : item ∈ folded s.log) (hdecided : ¬ item.Undecided)
    (run : Reaches (InboxStep fmt) (Spares fmt item) s t) : item ∈ folded t.log := by
  refine run.invariant (I := fun u => item ∈ folded u.log) hitem fun u a v hu hspares hstep => ?_
  refine (mem_folded_next hstep).mpr (Or.inr ⟨hu, fun row hrow => ?_⟩)
  obtain ⟨hwrites, -⟩ := writes_of_row? hrow
  rcases hspares with hauto | hother
  · exact (hwrites.id_ne_of_decided hstep.1 hauto hu hdecided).symm
  · exact (hother row hrow).symm

/-! ## Occurrences -/

/-- A run with each of its steps. -/
inductive InboxRun (fmt : IsoFormat) (s : InboxState) : List (InboxState × InboxAction) → InboxState → Prop where
  | nil : InboxRun fmt s [] s
  | snoc {trace t u} {a : InboxAction} (run : InboxRun fmt s trace t) (last : InboxStep fmt t a u) :
      InboxRun fmt s (trace ++ [(t, a)]) u

/-- The emissions of a run that were collapsed onto an item, the one that opened it among them. -/
def collapsed (fmt : IsoFormat) (itemId : String) (trace : List (InboxState × InboxAction)) : ℕ :=
  trace.countP fun step => match step.2 with
    | .add id e => (Owner.add fmt step.1.clock step.1.log id e).1.id = itemId
    | _ => false

lemma collapsed_snoc (itemId : String) (trace : List (InboxState × InboxAction)) (s : InboxState) (a : InboxAction) :
    collapsed fmt itemId (trace ++ [(s, a)]) = collapsed fmt itemId trace + collapsed fmt itemId [(s, a)] :=
  List.countP_append ..

lemma collapsed_add (s : InboxState) (itemId id : String) (e : Emission) :
    collapsed fmt itemId [(s, .add id e)] = if (Owner.add fmt s.clock s.log id e).1.id = itemId then 1 else 0 := by
  simp [collapsed, List.countP_cons]

lemma collapsed_other (h : ∀ id e, a ≠ .add id e) (itemId : String) (s : InboxState) :
    collapsed fmt itemId [(s, a)] = 0 := by
  cases a with
  | add id e => exact absurd rfl (h id e)
  | _ => rfl

/-- The counts of a log: of each item, and none of an item that is not there. -/
structure Counted (fmt : IsoFormat) (trace : List (InboxState × InboxAction)) (log : List Json) : Prop where
  items : ∀ it ∈ folded log, it.occurrences = collapsed fmt it.id trace
  absent : ∀ id, (∀ it ∈ folded log, it.id ≠ id) → collapsed fmt id trace = 0

/-- A step that writes no row is no emission. -/
lemma not_add_of_row?_none (h : s.row? fmt a = none) : ∀ id e, a ≠ .add id e := by
  rintro id e rfl
  cases h

/-- **What a step does to the counts.** -/
lemma Counted.step {trace : List (InboxState × InboxAction)} (h : Counted fmt trace s.log)
    (hstep : InboxStep fmt s a t) : Counted fmt (trace ++ [(s, a)]) t.log := by
  have hmem : ∀ it, it ∈ folded t.log ↔ (∃ row, s.row? fmt a = some row ∧ it = row) ∨
      it ∈ folded s.log ∧ ∀ row, s.row? fmt a = some row → it.id ≠ row.id := fun _ => mem_folded_next hstep
  cases hrow : s.row? fmt a with
  | none =>
      have hzero : ∀ id, collapsed fmt id [(s, a)] = 0 :=
        fun id => collapsed_other (not_add_of_row?_none hrow) id s
      have hsame : ∀ it, it ∈ folded t.log ↔ it ∈ folded s.log := by
        intro it
        rw [hmem, hrow]
        simp
      refine ⟨fun it hit => ?_, fun id hid => ?_⟩
      · rw [collapsed_snoc, hzero, Nat.add_zero, h.items it ((hsame it).mp hit)]
      · rw [collapsed_snoc, hzero, h.absent id fun it hit => hid it ((hsame it).mpr hit)]
  | some row =>
      have hsame : ∀ it, it ∈ folded t.log ↔ it = row ∨ it ∈ folded s.log ∧ it.id ≠ row.id := by
        intro it
        rw [hmem, hrow]
        simp [eq_comm]
      have habsent : ∀ id, (∀ it ∈ folded t.log, it.id ≠ id) → row.id ≠ id ∧ collapsed fmt id trace = 0 := by
        intro id hid
        have hne : row.id ≠ id := hid row ((hsame row).mpr (Or.inl rfl))
        refine ⟨hne, h.absent id fun it hit => ?_⟩
        by_cases hit' : it.id = row.id
        · rwa [hit']
        · exact hid it ((hsame it).mpr (Or.inr ⟨hit, hit'⟩))
      obtain ⟨hwrites, -⟩ := writes_of_row? hrow
      cases hwrites with
      | @bumped id e old mem _ =>
          have hadd : (Owner.add fmt s.clock s.log id e).1 = bumped fmt s.clock e old := Option.some.inj hrow
          refine ⟨fun it hit => ?_, fun id' hid => ?_⟩
          · rw [collapsed_snoc, collapsed_add, hadd]
            rcases (hsame it).mp hit with rfl | ⟨hit, hne⟩
            · rw [if_pos rfl]
              show old.occurrences + 1 = _
              rw [h.items old mem]
              rfl
            · rw [if_neg (Ne.symm hne), h.items it hit, Nat.add_zero]
          · obtain ⟨hne, hzero⟩ := habsent id' hid
            rw [collapsed_snoc, collapsed_add, hadd, if_neg hne, hzero]
      | @opened id e =>
          have hadd : (Owner.add fmt s.clock s.log id e).1 = opened fmt s.clock id e := Option.some.inj hrow
          refine ⟨fun it hit => ?_, fun id' hid => ?_⟩
          · rw [collapsed_snoc, collapsed_add, hadd]
            rcases (hsame it).mp hit with rfl | ⟨hit, hne⟩
            · have hzero : collapsed fmt (opened fmt s.clock id e).id trace = 0 := h.absent _ hstep.1.2
              rw [if_pos rfl, hzero]
              rfl
            · rw [if_neg (Ne.symm hne), h.items it hit, Nat.add_zero]
          · obtain ⟨hne, hzero⟩ := habsent id' hid
            rw [collapsed_snoc, collapsed_add, hadd, if_neg hne, hzero]
      | @decided _ d old mem isDecision _ =>
          refine ⟨fun it hit => ?_, fun id' hid => ?_⟩
          · rw [collapsed_snoc, collapsed_other isDecision, Nat.add_zero]
            rcases (hsame it).mp hit with rfl | ⟨hit, -⟩
            · exact h.items old mem
            · exact h.items it hit
          · rw [collapsed_snoc, collapsed_other isDecision, (habsent id' hid).2]

/-- **An item counts its emissions**, in every run over an inbox that was empty. -/
theorem occurrences_eq {start : ℕ} {trace : List (InboxState × InboxAction)}
    (run : InboxRun fmt (.init start) trace t) : ∀ it ∈ folded t.log, it.occurrences = collapsed fmt it.id trace := by
  have hcounted : Counted fmt trace t.log := by
    induction run with
    | nil => exact ⟨nofun, fun id _ => rfl⟩
    | snoc _ last ih => exact ih.step last
  exact hcounted.items

/-! ### A snoozed item -/

/-- The item of a halted run, snoozed for an hour. -/
def snoozedOnce : InboxState := raisedOnce.next .utc (.snooze "a" "me" ⟨true, some 3600000000, "1.0"⟩ none)

/-- The component completes, and the factory resolves its item. -/
def resolvedSnooze : InboxState := snoozedOnce.next .utc (.resolve "a" "system" "api completed" (some undecided))

/-- **A snooze is no decision that is kept**: a step of the factory resolves a snoozed item. -/
theorem snooze_resolved :
    ¬ ∀ (fmt : IsoFormat) (s t : InboxState) (item : InboxItem), item ∈ folded s.log →
      item.status ∈ [ItemStatus.approved, .rejected, .snoozed] →
      Reaches (InboxStep fmt) (fun _ a => a.Automated) s t →
      ∃ it ∈ folded t.log, it.id = item.id ∧ it.status = item.status := by
  intro hall
  have hsnoozed : ∃ item ∈ folded snoozedOnce.log, item.id = "a" ∧ item.status = .snoozed := by decide +kernel
  obtain ⟨item, hitem, hid, hstatus⟩ := hsnoozed
  have run : Reaches (InboxStep .utc) (fun _ a => a.Automated) snoozedOnce resolvedSnooze :=
    .single (a := .resolve "a" "system" "api completed" (some undecided)) rfl ⟨trivial, rfl⟩
  obtain ⟨it, hit, hsame, hkept⟩ := hall .utc _ _ item hitem (by rw [hstatus]; decide) run
  have hresolved : ∀ it ∈ folded resolvedSnooze.log, it.id = "a" → it.status = .resolved := by decide +kernel
  rw [hresolved it hit (hsame.trans hid), hstatus] at hkept
  cases hkept

end Owner

end Kstrl
