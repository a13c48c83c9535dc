import Kstrl.Base.Rounding
import Kstrl.Base.Runs
import Mathlib.Data.List.Dedup
import Mathlib.Data.List.Sort
import Mathlib.Data.String.Basic

/-!
# The daemon's daily ledger

What the queue spent today, how many items were poisoned in a row, and whether a cost was ever
reported (`SpendLedger` in `kstrl/serve/serve_spend.py`).  The three share one file, which each
operation reads and rewrites whole, in one hold of the control lock.

The spend belongs to a day: reading the file with the stamp of another day gives an empty day, and
the first write of that day stores it.  The streak and the flag belong to no day.

* **`Ledger.read_eq`** is the invariant: what a read of the file gives, out of the operations that
  came to their end.
* **`ledger_reports`** is the result over runs.

A dollar amount is a rational number, and `round(_, 6)` is a `Rounding`.
-/

namespace Kstrl

namespace Serve

open Runs

/-! ## The file -/

/-- What the queue has spent on a day, and how well we know it. -/
structure DailySpend where
  date : String := ""
  spentUsd : ℚ := 0
  runs : ℤ := 0
  coveredCalls : ℤ := 0
  totalCalls : ℤ := 0
  unmeteredPhases : List String := []
  deriving DecidableEq, Repr

/-- Everything the daemon must remember between cycles. -/
structure ServeState where
  spend : DailySpend := {}
  consecutivePoison : ℤ := 0
  costCoverageSeen : Bool := false
  schemaVersion : ℤ := 1
  deriving DecidableEq, Repr

/-- What the path of the ledger has. -/
inductive LedgerFile where
  | missing
  /-- untrusted, unreadable, undecodable or malformed, with what `ServeStateError` says of it -/
  | unreadable (problem : String)
  | holds (state : ServeState)
  deriving DecidableEq, Repr

inductive LedgerError where
  /-- `ServeStateError` -/
  | state (msg : String)
  /-- the `OSError` of a write -/
  | os
  deriving DecidableEq, Repr

/-- Load the state, rolling the spend over on a new day. -/
def readState (file : LedgerFile) (stamp : String) : Except LedgerError ServeState :=
  match file with
  | .missing => .ok { spend := { date := stamp } }
  | .unreadable problem => .error (.state problem)
  | .holds state =>
      if state.spend.date ≠ stamp then .ok { state with spend := { date := stamp } } else .ok state

/-- Rewrite the file; `written` says whether the disk takes it. -/
def writeState (written : Bool) (state : ServeState) : Except LedgerError LedgerFile :=
  if written then .ok (.holds state) else .error .os

/-! ## The operations -/

/-- One run's reported cost and coverage. -/
structure Charge where
  usd : ℚ
  coveredCalls : ℤ := 0
  totalCalls : ℤ := 0
  unmeteredPhases : List String := []
  meteredRun : Bool := true

/-- `sorted(set(current) | {p for p in new if p})`. -/
def mergedPhases (current new : List String) : List String :=
  ((current ++ new.filter fun p => p ≠ "").dedup).insertionSort (· ≤ ·)

/-- A day's spend with a charge. -/
def DailySpend.add (r : Rounding) (stamp : String) (current : DailySpend) (c : Charge) :
    DailySpend where
  date := stamp
  spentUsd := r.round (current.spentUsd + max 0 c.usd)
  runs := current.runs + if c.meteredRun then 1 else 0
  coveredCalls := current.coveredCalls + max 0 c.coveredCalls
  totalCalls := current.totalCalls + max 0 c.totalCalls
  unmeteredPhases := mergedPhases current.unmeteredPhases c.unmeteredPhases

/-- Add one run's reported cost to the day's total. -/
def charge (r : Rounding) (file : LedgerFile) (written : Bool) (stamp : String) (c : Charge) :
    Except LedgerError (DailySpend × LedgerFile) := do
  let state ← readState file stamp
  let spend := state.spend.add r stamp c
  let file ← writeState written { state with
    spend := spend
    costCoverageSeen := state.costCoverageSeen || 0 < c.coveredCalls }
  pure (spend, file)

/-- Update the poison streak; the new value. -/
def recordTerminal (file : LedgerFile) (written : Bool) (stamp : String) (poisoned : Bool) :
    Except LedgerError (ℤ × LedgerFile) := do
  let state ← readState file stamp
  let streak := if poisoned then state.consecutivePoison + 1 else 0
  let file ← writeState written { state with consecutivePoison := streak }
  pure (streak, file)

/-- Restart the poison streak; the streak it cleared.  A streak of 0 writes nothing. -/
def resetPoisonStreak (file : LedgerFile) (written : Bool) (stamp : String) :
    Except LedgerError (ℤ × LedgerFile) := do
  let state ← readState file stamp
  if state.consecutivePoison ≠ 0 then
    let file ← writeState written { state with consecutivePoison := 0 }
    pure (state.consecutivePoison, file)
  else pure (state.consecutivePoison, file)

/-! ## Runs -/

/-- An operation, with the day it takes for today. -/
inductive LedgerOp where
  | charge (stamp : String) (c : Charge)
  | recordTerminal (stamp : String) (poisoned : Bool)
  | resetPoisonStreak (stamp : String)

namespace LedgerOp

def stamp : LedgerOp → String
  | charge stamp _ => stamp
  | recordTerminal stamp _ => stamp
  | resetPoisonStreak stamp => stamp

/-- The file an operation leaves. -/
def perform (r : Rounding) (file : LedgerFile) (written : Bool) :
    LedgerOp → Except LedgerError LedgerFile
  | charge stamp c => (Serve.charge r file written stamp c).map Prod.snd
  | recordTerminal stamp poisoned => (Serve.recordTerminal file written stamp poisoned).map Prod.snd
  | resetPoisonStreak stamp => (Serve.resetPoisonStreak file written stamp).map Prod.snd

end LedgerOp

/-- The file, the day, and the operations that came to their end. -/
structure Ledger where
  file : LedgerFile
  day : String
  history : List LedgerOp

def Ledger.init (day : String) : Ledger := ⟨.missing, day, []⟩

/-- One operation; one that raises leaves the file. -/
def Ledger.next (r : Rounding) (s : Ledger) (op : LedgerOp) (written : Bool) : Ledger :=
  match op.perform r s.file written with
  | .ok file => ⟨file, op.stamp, s.history ++ [op]⟩
  | .error _ => { s with day := op.stamp }

/-- Operations follow each other under the lock, on days that do not go back. -/
def LedgerStep (r : Rounding) (s : Ledger) (a : LedgerOp × Bool) (t : Ledger) : Prop :=
  s.day ≤ a.1.stamp ∧ t = s.next r a.1 a.2

/-! ## What the history says -/

namespace LedgerOp

def chargeOn? (day : String) : LedgerOp → Option Charge
  | charge stamp c => if stamp = day then some c else none
  | _ => none

def isPoison : LedgerOp → Bool
  | recordTerminal _ poisoned => poisoned
  | _ => false

/-- A non-poison outcome, or a reset. -/
def endsStreak : LedgerOp → Bool
  | recordTerminal _ poisoned => !poisoned
  | resetPoisonStreak _ => true
  | charge .. => false

def reportsCost : LedgerOp → Bool
  | charge _ c => 0 < c.coveredCalls
  | _ => false

end LedgerOp

/-- The charges of a day. -/
def chargesOn (day : String) (history : List LedgerOp) : List Charge :=
  history.filterMap (LedgerOp.chargeOn? day)

/-- The non-negative amounts charged on a day. -/
def amountsOn (day : String) (history : List LedgerOp) : List ℚ :=
  (chargesOn day history).map fun c => max 0 c.usd

/-- The poison outcomes since the last operation that ends a streak. -/
def poisonStreak (history : List LedgerOp) : ℕ :=
  (history.reverse.takeWhile fun op => !op.endsStreak).countP LedgerOp.isPoison

/-- A charge has reported a cost. -/
def costReported (history : List LedgerOp) : Bool := history.any LedgerOp.reportsCost

/-- The day's spend out of its charges. -/
def spendOn (r : Rounding) (day : String) (history : List LedgerOp) : DailySpend :=
  (chargesOn day history).foldl (DailySpend.add r day) { date := day }

section History

variable {r : Rounding} {day : String} {history : List LedgerOp} {op : LedgerOp}

lemma spendOn_append_charge (c : Charge) :
    spendOn r day (history ++ [.charge day c]) = (spendOn r day history).add r day c := by
  simp [spendOn, chargesOn, LedgerOp.chargeOn?]

lemma spendOn_append_of_ne (h : op.chargeOn? day = none) :
    spendOn r day (history ++ [op]) = spendOn r day history := by
  simp [spendOn, chargesOn, h]

lemma date_spendOn : (spendOn r day history).date = day := by
  unfold spendOn
  cases hl : (chargesOn day history).reverse with
  | nil => rw [List.reverse_eq_nil_iff.mp hl]; rfl
  | cons c rest =>
      rw [← List.reverse_reverse (chargesOn day history), hl, List.reverse_cons, List.foldl_append]
      rfl

/-- The amount is the rounded running total. -/
lemma spentUsd_spendOn :
    (spendOn r day history).spentUsd = r.total 0 (amountsOn day history) := by
  have hfold : ∀ (charges : List Charge) (start : DailySpend),
      (charges.foldl (DailySpend.add r day) start).spentUsd
        = r.total start.spentUsd (charges.map fun c => max 0 c.usd) := by
    intro charges
    induction charges with
    | nil => exact fun _ => rfl
    | cons c rest ih => exact fun start => ih _
  exact hfold _ _

lemma poisonStreak_append :
    poisonStreak (history ++ [op]) = if op.endsStreak then 0
      else poisonStreak history + if op.isPoison then 1 else 0 := by
  unfold poisonStreak
  rw [List.reverse_append, List.reverse_singleton, List.singleton_append, List.takeWhile_cons]
  cases hends : op.endsStreak <;> simp [List.countP_cons]

lemma costReported_append :
    costReported (history ++ [op]) = (costReported history || op.reportsCost) := by
  simp [costReported]

end History

/-! ## The invariant -/

/-- The state a read gives. -/
def reported (r : Rounding) (stamp : String) (history : List LedgerOp) : ServeState where
  spend := spendOn r stamp history
  consecutivePoison := poisonStreak history
  costCoverageSeen := costReported history

structure Ledger.Inv (r : Rounding) (s : Ledger) : Prop where
  /-- no day of the history is to come -/
  past : ∀ op ∈ s.history, op.stamp ≤ s.day
  read_eq : ∀ stamp ≥ s.day, readState s.file stamp = .ok (reported r stamp s.history)

variable {r : Rounding} {s t : Ledger}

lemma spendOn_of_later {history : List LedgerOp} {day stamp : String}
    (hpast : ∀ op ∈ history, op.stamp ≤ day) (hlater : day < stamp) :
    spendOn r stamp history = { date := stamp } := by
  have hnone : chargesOn stamp history = [] := by
    refine List.filterMap_eq_nil_iff.mpr fun op hop => ?_
    cases op with
    | charge stamp' c =>
        have hne : stamp' ≠ stamp := ne_of_lt (lt_of_le_of_lt (hpast _ hop) hlater)
        simp [LedgerOp.chargeOn?, hne]
    | _ => rfl
  rw [spendOn, hnone]
  rfl

lemma readState_holds {state : ServeState} {stamp : String} :
    readState (.holds state) stamp
      = .ok (if state.spend.date = stamp then state
          else { state with spend := { date := stamp } }) := by
  unfold readState
  split_ifs <;> simp_all

lemma past_append {history : List LedgerOp} {op : LedgerOp} {day : String}
    (hpast : ∀ op ∈ history, op.stamp ≤ day) (hday : day ≤ op.stamp) :
    ∀ o ∈ history ++ [op], o.stamp ≤ op.stamp := by
  intro o ho
  rcases List.mem_append.mp ho with ho | ho
  · exact le_trans (hpast o ho) hday
  · rw [List.mem_singleton.mp ho]

/-- A file that has the state of today has every later day's. -/
lemma inv_of_written {op : LedgerOp} (h : s.Inv r) (hday : s.day ≤ op.stamp) :
    Ledger.Inv r ⟨.holds (reported r op.stamp (s.history ++ [op])), op.stamp, s.history ++ [op]⟩ where
  past := past_append h.past hday
  read_eq stamp hstamp := by
    rw [readState_holds]
    by_cases hsame : op.stamp = stamp
    · subst hsame
      have hdate : (reported r op.stamp (s.history ++ [op])).spend.date = op.stamp := date_spendOn
      rw [if_pos hdate]
    · have hlater : op.stamp < stamp := lt_of_le_of_ne hstamp hsame
      rw [if_neg (by rw [reported, date_spendOn]; exact hsame)]
      have hnone := spendOn_of_later (r := r) (past_append h.past hday) hlater
      simp only [reported, hnone]

lemma inv_of_failed {stamp : String} (h : s.Inv r) (hday : s.day ≤ stamp) :
    Ledger.Inv r { s with day := stamp } where
  past op hop := le_trans (h.past op hop) hday
  read_eq later hlater := h.read_eq later (le_trans hday hlater)

/-- An operation that changes no spend of the day. -/
lemma reported_append {op : LedgerOp} {stamp : String} {history : List LedgerOp}
    (h : op.chargeOn? stamp = none) :
    reported r stamp (history ++ [op]) =
      { reported r stamp history with
        consecutivePoison := poisonStreak (history ++ [op])
        costCoverageSeen := costReported (history ++ [op]) } := by
  simp only [reported, spendOn_append_of_ne h]

lemma perform_charge {written : Bool} {stamp : String} {c : Charge} {file : LedgerFile}
    {state : ServeState} (h : readState file stamp = .ok state) :
    (LedgerOp.charge stamp c).perform r file written = writeState written { state with
      spend := state.spend.add r stamp c
      costCoverageSeen := state.costCoverageSeen || 0 < c.coveredCalls } := by
  show (Serve.charge r file written stamp c).map Prod.snd = _
  unfold Serve.charge writeState
  rw [h]
  cases written <;> rfl

lemma perform_recordTerminal {written poisoned : Bool} {stamp : String} {file : LedgerFile}
    {state : ServeState} (h : readState file stamp = .ok state) :
    (LedgerOp.recordTerminal stamp poisoned).perform r file written = writeState written { state with
      consecutivePoison := if poisoned then state.consecutivePoison + 1 else 0 } := by
  show (Serve.recordTerminal file written stamp poisoned).map Prod.snd = _
  unfold Serve.recordTerminal writeState
  rw [h]
  cases written <;> rfl

lemma perform_resetPoisonStreak {written : Bool} {stamp : String} {file : LedgerFile}
    {state : ServeState} (h : readState file stamp = .ok state) :
    (LedgerOp.resetPoisonStreak stamp).perform r file written =
      if state.consecutivePoison ≠ 0 then writeState written { state with consecutivePoison := 0 }
      else .ok file := by
  show (Serve.resetPoisonStreak file written stamp).map Prod.snd = _
  unfold Serve.resetPoisonStreak writeState
  rw [h]
  cases written <;> simp only [bind, Except.bind] <;> split_ifs <;> rfl

/-- What an operation leaves, from the state the history says. -/
lemma perform_eq (h : s.Inv r) {op : LedgerOp} (hday : s.day ≤ op.stamp) (written : Bool) :
    op.perform r s.file written = .error .os ∨
      op.perform r s.file written = .ok (.holds (reported r op.stamp (s.history ++ [op]))) ∨
      op.perform r s.file written = .ok s.file ∧
        ∀ stamp, reported r stamp (s.history ++ [op]) = reported r stamp s.history := by
  have hread := h.read_eq op.stamp hday
  cases op with
  | charge stamp c =>
      simp only [LedgerOp.stamp] at hread ⊢
      rw [perform_charge hread]
      cases written with
      | false => exact Or.inl rfl
      | true =>
          refine Or.inr (Or.inl ?_)
          simp only [reported, spendOn_append_charge, poisonStreak_append, costReported_append]
          simp [writeState, LedgerOp.endsStreak, LedgerOp.isPoison, LedgerOp.reportsCost]
  | recordTerminal stamp poisoned =>
      simp only [LedgerOp.stamp] at hread ⊢
      rw [perform_recordTerminal hread]
      cases written with
      | false => exact Or.inl rfl
      | true =>
          refine Or.inr (Or.inl ?_)
          rw [reported_append rfl, poisonStreak_append, costReported_append]
          cases poisoned <;> simp [writeState, reported, LedgerOp.endsStreak, LedgerOp.isPoison,
            LedgerOp.reportsCost]
  | resetPoisonStreak stamp =>
      simp only [LedgerOp.stamp] at hread ⊢
      rw [perform_resetPoisonStreak hread]
      by_cases hstreak : poisonStreak s.history = 0
      · -- nothing to clear, and nothing written
        refine Or.inr (Or.inr ⟨?_, fun day => ?_⟩)
        · simp [reported, hstreak]
        · rw [reported_append rfl, poisonStreak_append, costReported_append]
          simp [reported, LedgerOp.endsStreak, LedgerOp.reportsCost, hstreak]
      · rw [if_pos (by simpa [reported] using hstreak)]
        cases written with
        | false => exact Or.inl rfl
        | true =>
            refine Or.inr (Or.inl ?_)
            rw [reported_append rfl, poisonStreak_append, costReported_append]
            simp [writeState, reported, LedgerOp.endsStreak, LedgerOp.reportsCost]

/-- **One step.** -/
lemma ledger_step_inv {a : LedgerOp × Bool} (h : s.Inv r) (hstep : LedgerStep r s a t) : t.Inv r := by
  obtain ⟨hday, rfl⟩ := hstep
  unfold Ledger.next
  rcases perform_eq h hday a.2 with hfail | hdone | ⟨hsame, hreported⟩
  · rw [hfail]
    exact inv_of_failed h hday
  · rw [hdone]
    exact inv_of_written h hday
  · rw [hsame]
    refine ⟨past_append h.past hday, fun stamp hstamp => ?_⟩
    rw [hreported]
    exact h.read_eq stamp (le_trans hday hstamp)

lemma Ledger.Inv.init (day : String) : (Ledger.init day).Inv r where
  past op hop := by cases hop
  read_eq stamp _ := rfl

/-- The history only grows. -/
lemma history_next (op : LedgerOp) (written : Bool) :
    (s.next r op written).history = s.history ∨
      (s.next r op written).history = s.history ++ [op] := by
  unfold Ledger.next
  split
  · exact Or.inr rfl
  · exact Or.inl rfl

/-! ## The result -/

/-- **What the ledger reports.**  In every run, a read of the file today or on a later day gives the
    charges of that day, added up and rounded at each write; the poison outcomes since the last outcome
    that was none or the last reset; and whether a charge reported a cost.  A new day empties the spend
    and nothing else, and the flag stays once it is set. -/
theorem ledger_reports {day : String} (run : Reaches (LedgerStep r) Always (.init day) s) :
    (∀ stamp ≥ s.day, ∃ state, readState s.file stamp = .ok state ∧ state.spend.date = stamp ∧
      state.spend.spentUsd = r.total 0 (amountsOn stamp s.history) ∧
      |state.spend.spentUsd - (amountsOn stamp s.history).sum|
        ≤ (amountsOn stamp s.history).length * r.slack ∧
      state.consecutivePoison = poisonStreak s.history ∧
      state.costCoverageSeen = costReported s.history) ∧
    (∀ stamp > s.day, readState s.file stamp =
      (readState s.file s.day).map fun state => { state with spend := { date := stamp } }) ∧
    ∀ a t, LedgerStep r s a t → ∀ state state', readState s.file s.day = .ok state →
      readState t.file t.day = .ok state' → state.costCoverageSeen = true →
        state'.costCoverageSeen = true := by
  have hinv : s.Inv r := run.invariant (Ledger.Inv.init day) fun _ _ _ hi _ hstep =>
    ledger_step_inv hi hstep
  refine ⟨fun stamp hstamp => ?_, fun stamp hlater => ?_, fun a t hstep state state' hs ht hseen => ?_⟩
  · refine ⟨_, hinv.read_eq stamp hstamp, date_spendOn, spentUsd_spendOn, ?_, rfl, rfl⟩
    have hclose := r.total_close (amountsOn stamp s.history) 0
    rwa [zero_add, ← spentUsd_spendOn] at hclose
  · rw [hinv.read_eq stamp hlater.le, hinv.read_eq s.day le_rfl]
    simp only [reported, spendOn_of_later hinv.past hlater, Except.map]
  · have hinv' := ledger_step_inv hinv hstep
    rw [hinv.read_eq _ le_rfl] at hs
    rw [hinv'.read_eq _ le_rfl] at ht
    cases hs
    cases ht
    obtain ⟨_, rfl⟩ := hstep
    show costReported (s.next r a.1 a.2).history = true
    have hseen : costReported s.history = true := hseen
    rcases history_next (s := s) (r := r) a.1 a.2 with h | h
    · rw [h, hseen]
    · rw [h, costReported_append, hseen, Bool.true_or]

/-! ### A run across midnight -/

/-- A charge and a poison outcome on one day, and a charge on the next. -/
def acrossMidnight : Ledger :=
  (((Ledger.init "2026-05-28").next (.decimal 6) (.charge "2026-05-28" { usd := 3 / 2 }) true).next
    (.decimal 6) (.recordTerminal "2026-05-28" true) true).next (.decimal 6)
    (.charge "2026-05-29" { usd := 1 / 4, coveredCalls := 2, totalCalls := 3 }) true

theorem ledger_reports_acrossMidnight :
    ∃ state, readState acrossMidnight.file acrossMidnight.day = .ok state ∧
      state.spend.spentUsd = (Rounding.decimal 6).total 0 [1 / 4] ∧ state.consecutivePoison = 1 ∧
      state.costCoverageSeen = true := by
  have run : Reaches (LedgerStep (.decimal 6)) Always (.init "2026-05-28") acrossMidnight := by
    refine .tail (a := (.charge "2026-05-29" _, true)) (.tail (a := (.recordTerminal "2026-05-28" true, true))
      (.single (a := (.charge "2026-05-28" _, true)) trivial ⟨?_, rfl⟩) trivial ⟨?_, rfl⟩) trivial
      ⟨?_, rfl⟩
    all_goals decide +kernel
  obtain ⟨state, hread, _, hspent, _, hstreak, hseen⟩ :=
    (ledger_reports run).1 acrossMidnight.day le_rfl
  have hamounts : amountsOn acrossMidnight.day acrossMidnight.history = [1 / 4] := by decide +kernel
  rw [hamounts] at hspent
  exact ⟨state, hread, hspent, hstreak, hseen⟩

end Serve

end Kstrl
