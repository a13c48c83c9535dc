import Kstrl.Owner.Decisions
import Kstrl.Plan.Manifest

/-!
# The merge gate

What stands between a judged branch and its merge: the checkpoint and the PR step of `_deliver`
(`kstrl/pipeline/pipeline_delivery.py`), the parks and the decisions of `MergeGate` (`pipeline_merge.py`), and the
inbox that the operator answers (`pipeline_inbox.py`, `kstrl/owner/inbox.py`).

With the gate on and nobody to ask, the checkpoint files an item with the commit it parks, and a later run merges the
branch once the item is approved.  Between any two of these steps the operator decides about items, the rest of the
factory writes its own, and branches move.

* **`keyed_step`** is what one inbox command does to the items of a dedupe key.
* **`push_justified`**: in every run, what is pushed with the gate on was approved at its prompt in the same step, or
  its commit was filed, the component was parked, and the operator approved the commit behind the last park.
* **`pushes_le_approvals`**: no approval pushes a branch twice.
-/

namespace Kstrl

namespace Pipeline

namespace MergeGate

open Owner LatestLog

/-! ## The checkpoint -/

inductive CheckpointDecision where
  | notPrompted
  | approved
  | parked
  | rejected
  | retry
  deriving DecidableEq, Repr

/-- What the factory configuration says of the gate. -/
structure GateConfig where
  createPrs : Bool
  singlePr : Bool
  pauseBeforePrMerge : Bool

/-- What a prompt comes to. -/
inductive Answer where
  /-- no UI is interactive -/
  | nobody
  /-- the choice of the response; an unanswered one has none -/
  | response (choice : Option ℤ)
  deriving DecidableEq

/-- `_phase_checkpoint`. -/
def phaseCheckpoint (pauseBeforePrMerge : Bool) (answer : Answer) : CheckpointDecision :=
  if pauseBeforePrMerge = false then .notPrompted
  else match answer with
    | .nobody => .parked
    | .response choice =>
        if choice = some 0 then .approved
        else if choice = some 1 then .rejected
        else if choice = some 2 then .retry
        else .parked

inductive PrDisposition where
  | merged
  | mergePending
  | conflict
  | failed
  deriving DecidableEq, Repr

/-- `park_dedupe_key`. -/
def parkDedupeKey (componentId : String) : String := "merge-gate:" ++ componentId

/-- `PARK_DETAIL`. -/
def parkDetail : String :=
  "Merge approval is required and no prompt was available to ask for it, so " ++
  "nothing was pushed and no PR was opened. The branch holds the reviewed " ++
  "work. From the shell, ks inbox approve <id> records approval and starts " ++
  "the ks factory run that pushes the branch, opens the PR, merges it and " ++
  "continues; ks inbox reject <id> --comment ... records rejection and " ++
  "starts the run that fails the component and skips its dependents."

/-- What a park files beside the judged commit: a fresh id, the run, the name of the branch, and the counts of a
review that gave a reading. -/
structure ParkItem where
  id : String
  runId : String
  branchName : String
  reading : Option (ℤ × ℤ) := none

/-- The item of a park. -/
def parkEmission (comp judgedSha : String) (item : ParkItem) : Emission where
  kind := .mergeGate
  title := comp ++ " awaiting merge approval"
  detail := parkDetail
  component := comp
  runId := item.runId
  dedupeKey := parkDedupeKey comp
  evidence := ("branch", .str item.branchName) :: ("head_sha", .str judgedSha) ::
    (item.reading.map fun counts =>
      [("review_fail_count", .int counts.1), ("review_advisory_count", .int counts.2)]).getD []

/-- `str(decision.evidence.get("head_sha") or "")`. -/
def approvedHead (item : InboxItem) : String :=
  match item.evidence.lookup "head_sha" with
  | some value => if value.truthy then value.pyStr else ""
  | none => ""

/-! ## The system -/

/-- The inbox, the status of every component, the tip of every component's branch, and the components whose checkpoint
has parked and that wait for the park itself. -/
structure GateState where
  inbox : InboxState
  status : String → ComponentStatus
  branch : String → String
  parking : String → Bool

inductive Action where
  /-- a command of the operator, or an item of another part of the factory -/
  | inbox (a : InboxAction)
  /-- something moves a branch -/
  | move (comp sha : String)
  /-- the rest of the pipeline, a run that breaks off, or another plan -/
  | settle (comp : String) (status : ComponentStatus)
  /-- `_deliver`; `item` is what a park files, where the inbox takes it -/
  | deliver (comp : String) (config : GateConfig) (answer : Answer) (gh : Bool) (pr : PrDisposition) (left : Bool)
      (judgedSha : String) (item : Option ParkItem)
  /-- `_park_awaiting_approval` -/
  | park (comp : String) (readable : Bool)
  /-- `apply_merge_decisions`, for one component -/
  | decide (comp : String) (readable gh : Bool) (pr : PrDisposition)

/-- A component that gets a status. -/
def GateState.set (s : GateState) (comp : String) (status : ComponentStatus) : GateState :=
  { s with status := fun y => if y = comp then status else s.status y }

/-- What a retry that is asked for comes to. -/
def retried (left : Bool) : ComponentStatus := if left then .pending else .failed

/-- Where `_deliver` leaves a component whose PR step was taken. -/
def afterPr (gh left : Bool) (pr : PrDisposition) : ComponentStatus :=
  if gh = false then .completed
  else match pr with
    | .merged => .completed
    | .mergePending => .mergePending
    | .conflict => retried left
    | .failed => .failed

/-- Where `_merge_approved` leaves it: a conflict fails. -/
def afterApproved (gh : Bool) (pr : PrDisposition) : ComponentStatus :=
  if gh = false then .completed
  else match pr with
    | .merged => .completed
    | .mergePending => .mergePending
    | .conflict | .failed => .failed

/-- `_park_decision`. -/
def parkDecision (s : GateState) (comp : String) (readable : Bool) : Option InboxItem :=
  if readable then findByDedupeKey s.inbox.log (parkDedupeKey comp) else none

/-- `_merge_approved` goes on: the branch is where the approval was taken. -/
def Matches (s : GateState) (comp : String) (decision : InboxItem) : Prop :=
  approvedHead decision ≠ "" ∧ s.branch comp = approvedHead decision

instance (s : GateState) (comp : String) (decision : InboxItem) : Decidable (Matches s comp decision) :=
  inferInstanceAs (Decidable (_ ∧ _))

variable (fmt : IsoFormat)

/-- The inbox command of a step. -/
def command : Action → Option InboxAction
  | .inbox a => some a
  | .deliver comp config answer _ _ _ judgedSha item =>
      if config.createPrs && !config.singlePr && phaseCheckpoint config.pauseBeforePrMerge answer = .parked then
        item.map fun new => .add new.id (parkEmission comp judgedSha new)
      else none
  | _ => none

/-- The inbox behind a step. -/
def inboxAfter (s : GateState) (a : Action) : InboxState :=
  match command a with
  | some c => s.inbox.next fmt c
  | none => s.inbox

/-- One step; `none` where the pipeline is not there. -/
def next (s : GateState) (a : Action) : Option GateState :=
  match a with
  | .inbox _ => some { s with inbox := inboxAfter fmt s a }
  | .move comp sha => some { s with branch := fun y => if y = comp then sha else s.branch y }
  | .settle comp status =>
      if status = .awaitingApproval then none
      else some { s.set comp status with parking := fun y => if y = comp then false else s.parking y }
  | .deliver comp config answer gh pr left _ _ =>
      if s.status comp ≠ .verifying ∨ s.parking comp then none
      else if config.createPrs = false ∨ config.singlePr then some (s.set comp .completed)
      else match phaseCheckpoint config.pauseBeforePrMerge answer with
        | .notPrompted | .approved => some (s.set comp (afterPr gh left pr))
        | .rejected => some (s.set comp .failed)
        | .retry => some (s.set comp (retried left))
        | .parked =>
            some { s with
              inbox := inboxAfter fmt s a
              parking := fun y => if y = comp then true else s.parking y }
  | .park comp readable =>
      if s.parking comp then
        some { s.set comp (match parkDecision s comp readable with
            | some item => if item.status = .open then .awaitingApproval else .failed
            | none => .failed) with
          parking := fun y => if y = comp then false else s.parking y }
      else none
  | .decide comp readable gh pr =>
      if s.status comp ≠ .awaitingApproval then none
      else match parkDecision s comp readable with
        | some decision =>
            if decision.status = .approved then
              some (s.set comp (if Matches s comp decision then afterApproved gh pr else .failed))
            else if decision.status = .rejected then some (s.set comp .failed)
            else some s
        | none => some s

/-- What a step pushes: the component, and the commit. -/
def pushed (s : GateState) : Action → Option (String × String)
  | .deliver comp config answer gh _ _ _ _ =>
      if gh ∧ config.createPrs ∧ config.singlePr = false ∧
          (phaseCheckpoint config.pauseBeforePrMerge answer = .notPrompted ∨
            phaseCheckpoint config.pauseBeforePrMerge answer = .approved) then
        some (comp, s.branch comp)
      else none
  | .decide comp readable gh _ =>
      match parkDecision s comp readable with
      | some decision =>
          if gh ∧ decision.status = .approved ∧ Matches s comp decision then some (comp, s.branch comp) else none
      | none => none
  | _ => none

/-! ## The items of a key -/

/-- The items of a dedupe key, in the order in which they were opened. -/
def keyed (log : List Json) (key : String) : List InboxItem := (folded log).filter fun item => item.dedupeKey = key

/-- No item but the last is open. -/
def OnlyLastOpen (list : List InboxItem) : Prop := ∀ it ∈ list.dropLast, it.status ≠ .open

/-- What one command does to the items of a key. -/
inductive KeyStep (s : InboxState) (a : InboxAction) (key : String) : List InboxItem → List InboxItem → Prop where
  | same {list : List InboxItem} : KeyStep s a key list list
  | decided {before after : List InboxItem} {old row : InboxItem} (hrow : s.row? fmt a = some row)
      (hkey : row.dedupeKey = key) (closed : row.status ≠ .open) (evidence : row.evidence = old.evidence)
      (approved : row.status = .approved → ∃ itemId actor comment, a = .approve itemId actor comment) :
      KeyStep s a key (before ++ old :: after) (before ++ row :: after)
  | bumped {before : List InboxItem} {old row : InboxItem} {id : String} {e : Emission} (hadd : a = .add id e)
      (hkey : e.dedupeKey = key) (opened : row.status = .open)
      (evidence : e.evidence ≠ [] → row.evidence = e.evidence) : KeyStep s a key (before ++ [old]) (before ++ [row])
  | opened {list : List InboxItem} {row : InboxItem} {id : String} {e : Emission} (hadd : a = .add id e)
      (hkey : e.dedupeKey = key) (closed : ∀ it ∈ list, it.status ≠ .open) (opened : row.status = .open)
      (evidence : row.evidence = e.evidence) : KeyStep s a key list (list ++ [row])

section Keyed

variable {fmt} {s t : InboxState} {a : InboxAction} {row item : InboxItem} {key : String} {log : List Json}

/-- With no open item but the last, the item a repeat collapses onto is the last. -/
lemma findByDedupeKey_eq (hkey : key ≠ "") (h : OnlyLastOpen (keyed log key)) :
    findByDedupeKey log key = (keyed log key).getLast? := by
  have hfind : findByDedupeKey log key =
      ((keyed log key).find? fun item => item.status = .open).or (keyed log key).getLast? := by
    unfold findByDedupeKey
    rw [if_neg hkey, ← keyed]
    dsimp only
    cases (keyed log key).find? fun item => item.status = .open <;> rfl
  rw [hfind]
  rcases List.eq_nil_or_concat (keyed log key) with hnil | ⟨init, last, hsplit⟩
  · rw [hnil]
    rfl
  · rw [List.concat_eq_append] at hsplit
    have hinit : init.find? (fun item => item.status = .open) = none := by
      rw [List.find?_eq_none]
      intro it hit
      have := h it (by rwa [hsplit, List.dropLast_concat])
      simpa using this
    rw [hsplit, List.find?_append, hinit, Option.none_or, List.getLast?_concat]
    by_cases hopen : last.status = .open <;> simp [hopen]

/-- The row of a decision. -/
lemma row_of_decision (hrow : s.row? fmt a = some row) (hadd : ∀ id e, a ≠ .add id e) :
    ∃ old ∈ folded s.log, row.id = old.id ∧ row.dedupeKey = old.dedupeKey ∧ row.evidence = old.evidence ∧
      row.status ≠ .open ∧ (row.status = .approved → ∃ itemId actor comment, a = .approve itemId actor comment) := by
  cases a with
  | add id e => exact absurd rfl (hadd id e)
  | approve itemId actor comment =>
      obtain ⟨old, hold, rfl, -⟩ := rowOf_decide hrow
      exact ⟨old, hold, rfl, rfl, rfl, by rintro ⟨⟩, fun _ => ⟨itemId, actor, comment, rfl⟩⟩
  | reject itemId actor comment =>
      simp only [InboxState.row?, Owner.reject] at hrow
      split_ifs at hrow
      · cases hrow
      · obtain ⟨old, hold, rfl, -⟩ := rowOf_decide hrow
        exact ⟨old, hold, rfl, rfl, rfl, by rintro ⟨⟩, by rintro ⟨⟩⟩
  | resolve itemId actor comment onlyFrom =>
      obtain ⟨old, hold, rfl, -⟩ := rowOf_decide hrow
      exact ⟨old, hold, rfl, rfl, rfl, by rintro ⟨⟩, by rintro ⟨⟩⟩
  | snooze itemId actor snoozeHours hours =>
      simp only [InboxState.row?, Owner.snooze] at hrow
      split_ifs at hrow
      · cases hrow
      · split at hrow
        · cases hrow
        · obtain ⟨old, hold, rfl, -⟩ := rowOf_decide hrow
          exact ⟨old, hold, rfl, rfl, rfl, by rintro ⟨⟩, by rintro ⟨⟩⟩
  | advance micros => cases hrow

/-- A row in the place of an item of its key. -/
lemma keyed_replace (row : InboxItem) (key : String) {folds : List InboxItem}
    (hids : folds.Pairwise fun a b => a.id ≠ b.id) (hmem : item ∈ folds)
    (hid : row.id = item.id) (hsame : row.dedupeKey = item.dedupeKey) :
    (item.dedupeKey ≠ key ∧ (upsert InboxItem.id row folds).filter (fun it => it.dedupeKey = key) =
        folds.filter fun it => it.dedupeKey = key) ∨
      item.dedupeKey = key ∧ ∃ before after, (folds.filter fun it => it.dedupeKey = key) = before ++ item :: after ∧
        (upsert InboxItem.id row folds).filter (fun it => it.dedupeKey = key) = before ++ row :: after ∧
        ∀ it ∈ after, it ≠ item := by
  obtain ⟨before, after, rfl⟩ := List.append_of_mem hmem
  obtain ⟨-, hafter, hbefore⟩ := List.pairwise_append.mp hids
  have hids' : ∀ it ∈ before, it.id ≠ row.id := fun it hit => hid ▸ hbefore it hit item List.mem_cons_self
  rw [upsert_split hids' hid.symm]
  by_cases hkey : item.dedupeKey = key
  · refine .inr ⟨hkey, before.filter fun it => it.dedupeKey = key, after.filter fun it => it.dedupeKey = key,
      ?_, ?_, ?_⟩
    · simp [hkey]
    · simp [hkey, hsame]
    · rintro it hit rfl
      exact (List.pairwise_cons.mp hafter).1 it (List.mem_filter.mp hit).1 rfl
  · exact .inl ⟨hkey, by simp [hkey, hsame]⟩

/-- **One command**, at the items of a key. -/
lemma keyed_step (hkey : key ≠ "") (hlast : OnlyLastOpen (keyed s.log key)) (hstep : InboxStep fmt s a t) :
    KeyStep fmt s a key (keyed s.log key) (keyed t.log key) := by
  have hfold := folded_next hstep
  cases hrow : s.row? fmt a with
  | none =>
      rw [hrow] at hfold
      rw [show keyed t.log key = keyed s.log key from congrArg _ hfold]
      exact .same
  | some row =>
      rw [hrow] at hfold
      have hkeyed : keyed t.log key = (upsert InboxItem.id row (folded s.log)).filter fun it => it.dedupeKey = key :=
        congrArg _ hfold
      have hids : (folded s.log).Pairwise fun a b => a.id ≠ b.id := pairwise_latest _
      by_cases hadd : ∃ id e, a = .add id e
      · obtain ⟨id, e, rfl⟩ := hadd
        have hrow' : row = (Owner.add fmt s.clock s.log id e).1 := (Option.some.inj hrow).symm
        have hnew : ∀ it ∈ folded s.log, it.id ≠ id := hstep.1.2
        -- a new item: of the key, or of another
        have hopened : row = opened fmt s.clock id e →
            (e.dedupeKey = key → ∀ it ∈ keyed s.log key, it.status ≠ .open) →
            KeyStep fmt s (.add id e) key (keyed s.log key) (keyed t.log key) := by
          rintro rfl hclosed
          rw [hkeyed, upsert_new fun it hit => hnew it hit, List.filter_append]
          by_cases hsame : e.dedupeKey = key
          · have hkept :
                [opened fmt s.clock id e].filter (fun it => it.dedupeKey = key) = [opened fmt s.clock id e] :=
              List.filter_eq_self.mpr (by simpa [opened] using hsame)
            rw [hkept]
            exact .opened rfl hsame (hclosed hsame) rfl rfl
          · have hleft : [opened fmt s.clock id e].filter (fun it => it.dedupeKey = key) = [] :=
              List.filter_eq_nil_iff.mpr (by simpa [opened] using hsame)
            rw [hleft, List.append_nil]
            exact .same
        unfold Owner.add at hrow'
        cases hfind : findByDedupeKey s.log e.dedupeKey with
        | none =>
            rw [hfind] at hrow'
            refine hopened hrow' ?_
            rintro rfl it hit
            exact absurd (of_decide_eq_true (List.mem_filter.mp hit).2)
              (findByDedupeKey_none hkey hfind it (List.mem_filter.mp hit).1)
        | some existing =>
            obtain ⟨hmem, hexisting, -, hclosed⟩ := mem_of_findByDedupeKey hfind
            simp only [hfind] at hrow'
            by_cases hopen : existing.status = .open
            · rw [if_pos hopen] at hrow'
              subst hrow'
              rw [hkeyed]
              rcases keyed_replace (bumped fmt s.clock e existing) key hids hmem rfl rfl with
                ⟨-, hsame⟩ | ⟨hthis, before, after, hsplit, hreplaced, hothers⟩
              · rw [hsame]
                exact .same
              · -- the open item is the last one
                have hfound : (keyed s.log key).getLast? = some existing := by
                  rw [← findByDedupeKey_eq hkey hlast, ← hthis, hexisting, hfind]
                have hnil : after = [] := by
                  rcases List.eq_nil_or_concat after with hnil | ⟨init, last, rfl⟩
                  · exact hnil
                  · rw [keyed, hsplit, List.concat_eq_append, ← List.cons_append, ← List.append_assoc,
                      List.getLast?_concat] at hfound
                    exact absurd (Option.some.inj hfound) (hothers last (by simp))
                rw [hreplaced, keyed, hsplit, hnil]
                exact .bumped rfl (hexisting.symm.trans hthis) hopen fun hne => if_neg hne
            · rw [if_neg hopen] at hrow'
              refine hopened hrow' ?_
              rintro rfl it hit
              exact hclosed hopen it (List.mem_filter.mp hit).1 (of_decide_eq_true (List.mem_filter.mp hit).2)
      · have hadd' : ∀ id e, a ≠ .add id e := fun id e hsame => hadd ⟨id, e, hsame⟩
        obtain ⟨old, hmem, hid, hsame, hevidence, hclosed, happroved⟩ := row_of_decision hrow hadd'
        rw [hkeyed]
        rcases keyed_replace row key hids hmem hid hsame with
          ⟨-, hkept⟩ | ⟨hthis, before, after, hsplit, hreplaced, -⟩
        · rw [hkept]
          exact .same
        · rw [hreplaced, keyed, hsplit]
          exact .decided hrow (hsame.trans hthis) hclosed hevidence happroved

/-- A command leaves no open item but the last. -/
lemma KeyStep.onlyLastOpen {list list' : List InboxItem} (h : KeyStep fmt s a key list list')
    (hlast : OnlyLastOpen list) : OnlyLastOpen list' := by
  cases h with
  | same => exact hlast
  | @decided before after old row _ _ hclosed _ _ =>
      intro it hit
      rcases List.eq_nil_or_concat after with rfl | ⟨init, last, rfl⟩
      · rw [List.dropLast_concat] at hit
        exact hlast it (by rwa [List.dropLast_concat])
      · rw [List.concat_eq_append, ← List.cons_append, ← List.append_assoc, List.dropLast_concat] at hit
        rcases List.mem_append.mp hit with hbefore | hafter
        · refine hlast it ?_
          rw [List.concat_eq_append, ← List.cons_append, ← List.append_assoc, List.dropLast_concat]
          exact List.mem_append_left _ hbefore
        · rcases List.mem_cons.mp hafter with rfl | hinit
          · exact hclosed
          · refine hlast it ?_
            rw [List.concat_eq_append, ← List.cons_append, ← List.append_assoc, List.dropLast_concat]
            exact List.mem_append_right _ (List.mem_cons_of_mem _ hinit)
  | bumped _ _ _ _ =>
      intro it hit
      rw [List.dropLast_concat] at hit
      exact hlast it (by rwa [List.dropLast_concat])
  | opened _ _ hclosed _ _ =>
      intro it hit
      rw [List.dropLast_concat] at hit
      exact hclosed it hit

end Keyed

/-! ## Runs -/

variable (s t : GateState) (a : Action) (x head : String)

/-- Ids are fresh, and nothing but the checkpoint files an item under a park's key. -/
structure Allowed : Prop where
  fresh : ∀ c, command a = some c → c.Fresh s.inbox
  keys : ∀ id e, a = .inbox (.add id e) → ∀ comp, e.dedupeKey ≠ parkDedupeKey comp

/-- A run, with the state before each of its steps. -/
inductive GateRun (start : GateState) : List (GateState × Action) → GateState → Prop where
  | nil : GateRun start [] start
  | snoc {trace : List (GateState × Action)} {s t : GateState} {a : Action} (run : GateRun start trace s)
      (allowed : Allowed s a) (step : next fmt s a = some t) : GateRun start (trace ++ [(s, a)]) t

/-- Nothing is filed, nothing waits. -/
structure GateState.Start : Prop where
  log : s.inbox.log = []
  status : ∀ comp, s.status comp ≠ .awaitingApproval

/-- A step that files `head` as the judged commit of a component. -/
def Files (p : GateState × Action) : Prop := ∃ item, command p.2 = some (.add item.id (parkEmission x head item))

/-- A park of a component. -/
def Parks (p : GateState × Action) : Prop := ∃ readable, p.2 = .park x readable

/-- The row that a step writes where it is an approval that is written. -/
def approval (p : GateState × Action) : Option InboxItem :=
  match p.2 with
  | .inbox (.approve itemId actor comment) => p.1.inbox.row? fmt (.approve itemId actor comment)
  | _ => none

/-- An approval of an item that names `head` for a component. -/
def Approves (p : GateState × Action) : Prop :=
  ∃ row, approval fmt p = some row ∧ row.dedupeKey = parkDedupeKey x ∧ row.status = .approved ∧
    approvedHead row = head

/-- A push that was asked for where it was made, or with no gate to ask. -/
def Attended : Action → Prop
  | .deliver _ config answer .. => config.pauseBeforePrMerge = false ∨ answer = .response (some 0)
  | _ => False

/-- A step that pushes a component with nobody asked in it. -/
def Unattended (p : GateState × Action) : Prop := ¬ Attended p.2 ∧ (pushed p.1 p.2).map Prod.fst = some x

/-- A step that approves an item of a component's park. -/
def ApprovesPark (p : GateState × Action) : Prop := (approval fmt p).map InboxItem.dedupeKey = some (parkDedupeKey x)

instance : DecidablePred Attended
  | .deliver _ config answer .. =>
      inferInstanceAs (Decidable (config.pauseBeforePrMerge = false ∨ answer = .response (some 0)))
  | .inbox _ | .move .. | .settle .. | .park .. | .decide .. => inferInstanceAs (Decidable False)

instance : DecidablePred (Unattended x) := fun _ => inferInstanceAs (Decidable (_ ∧ _))

instance : DecidablePred (ApprovesPark fmt x) := fun _ => inferInstanceAs (Decidable (_ = _))

/-- A component that waits at an item that is approved. -/
def Pending : Prop :=
  s.status x = .awaitingApproval ∧
    ∃ item, (keyed s.inbox.log (parkDedupeKey x)).getLast? = some item ∧ item.status = .approved

/-- What one step does to the items of a park. -/
inductive ItemStep (s : GateState) (a : Action) (x : String) : List InboxItem → List InboxItem → Prop where
  | same {list : List InboxItem} : ItemStep s a x list list
  | decided {before after : List InboxItem} {old row : InboxItem} (closed : row.status ≠ .open)
      (named : approvedHead row = approvedHead old)
      (approved : row.status = .approved → Approves fmt x (approvedHead row) (s, a)) :
      ItemStep s a x (before ++ old :: after) (before ++ row :: after)
  | filed {list front : List InboxItem} {row : InboxItem} (kept : ∀ it ∈ front, it ∈ list)
      (opened : row.status = .open) (files : Files x (approvedHead row) (s, a)) :
      ItemStep s a x list (front ++ [row])

/-- What a run leaves at the park of a component. -/
structure Gated (trace : List (GateState × Action)) : Prop where
  /-- no item but the last is open -/
  last : OnlyLastOpen (keyed s.inbox.log (parkDedupeKey x))
  /-- every item names a commit that a checkpoint filed -/
  filed : ∀ item ∈ keyed s.inbox.log (parkDedupeKey x), ∃ p ∈ trace, Files x (approvedHead item) p
  /-- a component that waits was parked, at an item that was not decided; an approval of the item came behind -/
  waits : s.status x = .awaitingApproval → ∃ before park after, trace = before ++ park :: after ∧ Parks x park ∧
    (∀ p ∈ after, ¬ Parks x p) ∧
    (∀ item ∈ keyed s.inbox.log (parkDedupeKey x), ∃ p ∈ before, Files x (approvedHead item) p) ∧
    ∀ item, (keyed s.inbox.log (parkDedupeKey x)).getLast? = some item → item.status = .approved →
      ∃ p ∈ after, Approves fmt x (approvedHead item) p

section Steps

variable {fmt} {s t start : GateState} {a : Action} {x y head : String} {trace : List (GateState × Action)}

lemma parkDedupeKey_ne_empty : parkDedupeKey x ≠ "" := by
  intro h
  have := congrArg String.length h
  simp [parkDedupeKey] at this

lemma parkDedupeKey_injective (h : parkDedupeKey x = parkDedupeKey y) : x = y :=
  String.append_right_inj _ |>.mp h

/-- The park's item names the commit that it parks. -/
lemma approvedHead_of_evidence {row : InboxItem} {item : ParkItem}
    (h : row.evidence = (parkEmission x head item).evidence) : approvedHead row = head := by
  have hlookup : row.evidence.lookup "head_sha" = some (.str head) := by
    rw [h]
    rfl
  rw [approvedHead, hlookup]
  by_cases hempty : head = "" <;> simp [Json.truthy, Json.pyStr, hempty]

lemma approvedHead_congr {row old : InboxItem} (h : row.evidence = old.evidence) :
    approvedHead row = approvedHead old := by
  rw [approvedHead, approvedHead, h]

/-- A step writes its command. -/
lemma next_inbox (h : next fmt s a = some t) : t.inbox = inboxAfter fmt s a := by
  cases a with
  | inbox c =>
      cases h
      rfl
  | move comp sha =>
      cases h
      rfl
  | settle comp status =>
      simp only [next] at h
      split_ifs at h
      cases h
      rfl
  | deliver comp config answer gh pr left judgedSha item =>
      simp only [next] at h
      split_ifs at h with habsent hoff
      · cases h
        have hnone : command (.deliver comp config answer gh pr left judgedSha item) = none := by
          rcases hoff with hoff | hoff <;> simp [command, hoff]
        rw [inboxAfter, hnone]
        rfl
      · have hkept (hdecision : phaseCheckpoint config.pauseBeforePrMerge answer ≠ .parked) :
            inboxAfter fmt s (.deliver comp config answer gh pr left judgedSha item) = s.inbox := by
          have hnone : command (.deliver comp config answer gh pr left judgedSha item) = none := by
            simp [command, hdecision]
          rw [inboxAfter, hnone]
        revert h hkept
        cases phaseCheckpoint config.pauseBeforePrMerge answer with
        | parked =>
            intro h hkept
            cases h
            rfl
        | notPrompted | approved | rejected | retry =>
            intro h hkept
            cases h
            exact (hkept (by rintro ⟨⟩)).symm
  | park comp readable =>
      simp only [next] at h
      split_ifs at h
      cases h
      rfl
  | decide comp readable gh pr =>
      simp only [next] at h
      split_ifs at h
      cases hdecision : parkDecision s comp readable with
      | none =>
          rw [hdecision] at h
          cases h
          rfl
      | some decision =>
          rw [hdecision] at h
          dsimp only at h
          split_ifs at h <;> cases h <;> rfl

/-- The only step that files under the key of a park is the checkpoint of its component. -/
lemma files_of_add {id : String} {e : Emission} (hallowed : Allowed s a) (hadd : command a = some (.add id e))
    (hkey : e.dedupeKey = parkDedupeKey x) :
    ∃ item judgedSha, e = parkEmission x judgedSha item ∧ Files x judgedSha (s, a) := by
  cases a with
  | inbox c =>
      cases hadd
      exact absurd hkey (hallowed.keys id e rfl x)
  | deliver comp config answer gh pr left judgedSha item =>
      have hcommand := hadd
      simp only [command] at hadd
      split_ifs at hadd
      cases item with
      | none => cases hadd
      | some new =>
          cases hadd
          obtain rfl := parkDedupeKey_injective hkey
          exact ⟨new, judgedSha, rfl, new, hcommand⟩
  | move comp sha => cases hadd
  | settle comp status => cases hadd
  | park comp readable => cases hadd
  | decide comp readable gh pr => cases hadd

/-- A component that waits files nothing. -/
lemma verifying_of_files (hallowed : Allowed s a) (hfiles : Files x head (s, a)) (h : next fmt s a = some t) :
    s.status x = .verifying := by
  obtain ⟨item, hcommand⟩ := hfiles
  cases a with
  | inbox c =>
      cases hcommand
      exact absurd rfl (hallowed.keys _ _ rfl x)
  | deliver comp config answer gh pr left judgedSha new =>
      have hcomp : comp = x := by
        simp only [command] at hcommand
        split_ifs at hcommand
        cases new with
        | none => cases hcommand
        | some new => exact congrArg Emission.component (InboxAction.add.inj (Option.some.inj hcommand)).2
      subst hcomp
      simp only [next] at h
      split_ifs at h with habsent
      all_goals exact not_not.mp (not_or.mp habsent).1
  | move comp sha => cases hcommand
  | settle comp status => cases hcommand
  | park comp readable => cases hcommand
  | decide comp readable gh pr => cases hcommand

lemma inbox_of_approve {itemId actor comment : String} (h : command a = some (.approve itemId actor comment)) :
    a = .inbox (.approve itemId actor comment) := by
  cases a with
  | inbox c =>
      cases h
      rfl
  | deliver comp config answer gh pr left judgedSha item =>
      simp only [command] at h
      split_ifs at h
      cases item <;> cases h
  | move comp sha => cases h
  | settle comp status => cases h
  | park comp readable => cases h
  | decide comp readable gh pr => cases h

/-- **One step**, at the items of a park. -/
lemma items_step (hallowed : Allowed s a) (hlast : OnlyLastOpen (keyed s.inbox.log (parkDedupeKey x)))
    (h : next fmt s a = some t) :
    ItemStep fmt s a x (keyed s.inbox.log (parkDedupeKey x)) (keyed t.inbox.log (parkDedupeKey x)) ∧
      OnlyLastOpen (keyed t.inbox.log (parkDedupeKey x)) := by
  rw [next_inbox h]
  unfold inboxAfter
  cases hcommand : command a with
  | none => exact ⟨.same, hlast⟩
  | some c =>
      have hstep : InboxStep fmt s.inbox c (s.inbox.next fmt c) := ⟨hallowed.fresh c hcommand, rfl⟩
      have hkeyed := keyed_step parkDedupeKey_ne_empty hlast hstep
      refine ⟨?_, hkeyed.onlyLastOpen hlast⟩
      revert hkeyed
      generalize keyed s.inbox.log (parkDedupeKey x) = list
      generalize keyed (s.inbox.next fmt c).log (parkDedupeKey x) = list'
      intro hkeyed
      cases hkeyed with
      | same => exact .same
      | decided hrow hkey hclosed hevidence happroved =>
          refine .decided hclosed (approvedHead_congr hevidence) fun hstatus => ?_
          obtain ⟨itemId, actor, comment, rfl⟩ := happroved hstatus
          obtain rfl := inbox_of_approve hcommand
          exact ⟨_, hrow, hkey, hstatus, rfl⟩
      | bumped hadd hkey hopened hevidence =>
          obtain ⟨item, judgedSha, rfl, hfiles⟩ := files_of_add hallowed (hadd ▸ hcommand) hkey
          have hhead := approvedHead_of_evidence (hevidence (List.cons_ne_nil _ _))
          exact .filed (fun it hit => List.mem_append_left _ hit) hopened (hhead ▸ hfiles)
      | opened hadd hkey hclosed hopened hevidence =>
          obtain ⟨item, judgedSha, rfl, hfiles⟩ := files_of_add hallowed (hadd ▸ hcommand) hkey
          exact .filed (fun it hit => hit) hopened (approvedHead_of_evidence hevidence ▸ hfiles)

lemma afterPr_ne {gh left : Bool} {pr : PrDisposition} : afterPr gh left pr ≠ .awaitingApproval := by
  cases gh <;> cases left <;> cases pr <;> rintro ⟨⟩

lemma afterApproved_ne {gh : Bool} {pr : PrDisposition} : afterApproved gh pr ≠ .awaitingApproval := by
  cases gh <;> cases pr <;> rintro ⟨⟩

lemma retried_ne {left : Bool} : retried left ≠ .awaitingApproval := by
  cases left <;> rintro ⟨⟩

/-- A component that gets another status does not wait. -/
lemma waits_of_set {comp : String} {status : ComponentStatus} (hne : status ≠ .awaitingApproval)
    (h : (s.set comp status).status x = .awaitingApproval) : s.status x = .awaitingApproval ∧ comp ≠ x := by
  by_cases hsame : x = comp
  · exact absurd (by simpa [GateState.set, hsame] using h) hne
  · exact ⟨by simpa [GateState.set, hsame] using h, Ne.symm hsame⟩

/-- **A component that waits** waited before, or was parked by this step at an open item. -/
lemma waits_step (h : next fmt s a = some t) (ht : t.status x = .awaitingApproval) :
    s.status x = .awaitingApproval ∧ ¬ Parks x (s, a) ∧ (∀ head, pushed s a ≠ some (x, head)) ∨
      ∃ readable item, a = .park x readable ∧ findByDedupeKey s.inbox.log (parkDedupeKey x) = some item ∧
        item.status = .open ∧ t.inbox = s.inbox := by
  cases a with
  | inbox c =>
      cases h
      exact .inl ⟨ht, by rintro ⟨_, ⟨⟩⟩, by rintro _ ⟨⟩⟩
  | move comp sha =>
      cases h
      exact .inl ⟨ht, by rintro ⟨_, ⟨⟩⟩, by rintro _ ⟨⟩⟩
  | settle comp status =>
      simp only [next] at h
      split_ifs at h with hstatus
      cases h
      exact .inl ⟨(waits_of_set hstatus ht).1, by rintro ⟨_, ⟨⟩⟩, by rintro _ ⟨⟩⟩
  | deliver comp config answer gh pr left judgedSha item =>
      -- a push is of the component, and a component that is set does not wait
      have hother (hcomp : comp ≠ x) (head : String) :
          pushed s (.deliver comp config answer gh pr left judgedSha item) ≠ some (x, head) := by
        rw [pushed]
        split_ifs
        · rintro ⟨⟩
          exact hcomp rfl
        · rintro ⟨⟩
      have hset {status : ComponentStatus} (hne : status ≠ .awaitingApproval)
          (hwaits : (s.set comp status).status x = .awaitingApproval) : s.status x = .awaitingApproval ∧
            ¬ Parks x (s, .deliver comp config answer gh pr left judgedSha item) ∧
            ∀ head, pushed s (.deliver comp config answer gh pr left judgedSha item) ≠ some (x, head) :=
        ⟨(waits_of_set hne hwaits).1, by rintro ⟨_, ⟨⟩⟩, hother (waits_of_set hne hwaits).2⟩
      left
      simp only [next] at h
      split_ifs at h with habsent hoff
      · cases h
        exact hset (by rintro ⟨⟩) ht
      · cases hdecision : phaseCheckpoint config.pauseBeforePrMerge answer <;> rw [hdecision] at h <;> cases h
        · exact hset afterPr_ne ht
        · exact hset afterPr_ne ht
        · refine ⟨ht, by rintro ⟨_, ⟨⟩⟩, ?_⟩
          simp [pushed, hdecision]
        · exact hset (by rintro ⟨⟩) ht
        · exact hset retried_ne ht
  | park comp readable =>
      simp only [next] at h
      split_ifs at h
      cases h
      by_cases hcomp : comp = x
      · subst hcomp
        have hstatus : (match parkDecision s comp readable with
            | some item => if item.status = ItemStatus.open then ComponentStatus.awaitingApproval else .failed
            | none => .failed) = .awaitingApproval := by
          simpa [GateState.set] using ht
        cases hfind : parkDecision s comp readable with
        | none =>
            rw [hfind] at hstatus
            cases hstatus
        | some item =>
            rw [hfind] at hstatus
            dsimp only at hstatus
            split_ifs at hstatus with hopen
            rw [parkDecision] at hfind
            split_ifs at hfind
            exact .inr ⟨readable, item, rfl, hfind, hopen, rfl⟩
      · refine .inl ⟨?_, ?_, by rintro _ ⟨⟩⟩
        · simpa [GateState.set, Ne.symm hcomp] using ht
        · rintro ⟨_, hsame⟩
          exact hcomp (Action.park.inj hsame).1
  | decide comp readable gh pr =>
      left
      simp only [next] at h
      split_ifs at h with hwaits
      rw [ne_eq, not_not] at hwaits
      have hother (hcomp : comp ≠ x) (head : String) : pushed s (.decide comp readable gh pr) ≠ some (x, head) := by
        cases hfind : parkDecision s comp readable with
        | none => simp [pushed, hfind]
        | some decision => simp [pushed, hfind, hcomp]
      cases hfind : parkDecision s comp readable with
      | none =>
          rw [hfind] at h
          cases h
          exact ⟨ht, by rintro ⟨_, ⟨⟩⟩, by simp [pushed, hfind]⟩
      | some decision =>
          rw [hfind] at h
          dsimp only at h
          split_ifs at h with happroved hmatches hrejected
          · cases h
            have hset := waits_of_set afterApproved_ne ht
            exact ⟨hset.1, by rintro ⟨_, ⟨⟩⟩, hother hset.2⟩
          · cases h
            have hset := waits_of_set (by rintro ⟨⟩) ht
            exact ⟨hset.1, by rintro ⟨_, ⟨⟩⟩, hother hset.2⟩
          · cases h
            have hset := waits_of_set (by rintro ⟨⟩) ht
            exact ⟨hset.1, by rintro ⟨_, ⟨⟩⟩, hother hset.2⟩
          · cases h
            exact ⟨ht, by rintro ⟨_, ⟨⟩⟩, by simp [pushed, hfind, happroved]⟩

/-! ## What a run leaves -/

/-- The commits that the items of a park name stay filed. -/
lemma filed_step {list list' : List InboxItem} {filings : List (GateState × Action)}
    (h : ItemStep fmt s a x list list')
    (hfiled : ∀ item ∈ list, ∃ p ∈ filings, Files x (approvedHead item) p)
    (hnew : ∀ head, Files x head (s, a) → ∃ p ∈ filings, Files x head p) :
    ∀ item ∈ list', ∃ p ∈ filings, Files x (approvedHead item) p := by
  cases h with
  | same => exact hfiled
  | @decided before after old row hclosed hnamed happroved =>
      intro item hitem
      rcases List.mem_append.mp hitem with hbefore | hafter
      · exact hfiled item (List.mem_append_left _ hbefore)
      · rcases List.mem_cons.mp hafter with rfl | hafter
        · exact hnamed ▸ hfiled old (List.mem_append_right _ List.mem_cons_self)
        · exact hfiled item (List.mem_append_right _ (List.mem_cons_of_mem _ hafter))
  | @filed _ front row hkept hopened hfiles =>
      intro item hitem
      rcases List.mem_append.mp hitem with hfront | hrow
      · exact hfiled item (hkept item hfront)
      · obtain rfl := List.mem_singleton.mp hrow
        exact hnew _ hfiles

/-- The last item is approved as before, or by the step. -/
lemma last_step {list list' : List InboxItem} {item : InboxItem} (h : ItemStep fmt s a x list list')
    (hlast : list'.getLast? = some item) (hstatus : item.status = .approved) :
    list.getLast? = some item ∨ Approves fmt x (approvedHead item) (s, a) := by
  cases h with
  | same => exact .inl hlast
  | @decided before rest old row hclosed hnamed hrow =>
      rcases List.eq_nil_or_concat rest with rfl | ⟨init, last, rfl⟩
      · rw [List.getLast?_concat] at hlast
        obtain rfl := Option.some.inj hlast
        exact .inr (hrow hstatus)
      · left
        rw [List.concat_eq_append, ← List.cons_append, ← List.append_assoc, List.getLast?_concat] at hlast ⊢
        exact hlast
  | filed hfront hopened hfiles =>
      rw [List.getLast?_concat] at hlast
      rw [← Option.some.inj hlast, hopened] at hstatus
      cases hstatus

/-- **Every run** keeps it. -/
lemma GateRun.gated (hstart : start.Start) (run : GateRun fmt start trace s) : Gated fmt s x trace := by
  induction run with
  | nil =>
      have hnil : keyed start.inbox.log (parkDedupeKey x) = [] := by
        rw [hstart.log]
        rfl
      constructor
      · rw [hnil]
        exact List.forall_mem_nil _
      · rw [hnil]
        exact List.forall_mem_nil _
      · intro hwaits
        exact absurd hwaits (hstart.status x)
  | @snoc trace s t a run hallowed hnext ih =>
      obtain ⟨hitems, hlast⟩ := items_step hallowed ih.last hnext
      have hfiled : ∀ item ∈ keyed t.inbox.log (parkDedupeKey x), ∃ p ∈ trace ++ [(s, a)],
          Files x (approvedHead item) p := by
        refine filed_step hitems ?_ fun head hfiles => ⟨(s, a), by simp, hfiles⟩
        intro item hitem
        obtain ⟨p, hp, hfiles⟩ := ih.filed item hitem
        exact ⟨p, List.mem_append_left _ hp, hfiles⟩
      refine ⟨hlast, hfiled, fun hwaits => ?_⟩
      rcases waits_step hnext hwaits with ⟨hbefore, hnopark, -⟩ | ⟨readable, item, rfl, hfind, hopened, hinbox⟩
      · -- it waited: what it waits for is not filed again
        obtain ⟨before, park, after, rfl, hpark, hothers, hfiles, happroved⟩ := ih.waits hbefore
        refine ⟨before, park, after ++ [(s, a)], by simp, hpark, ?_, ?_, ?_⟩
        · intro p hp
          rcases List.mem_append.mp hp with hafter | hnew
          · exact hothers p hafter
          · exact List.mem_singleton.mp hnew ▸ hnopark
        · refine filed_step hitems hfiles fun head hnew => ?_
          have := verifying_of_files hallowed hnew hnext
          rw [hbefore] at this
          cases this
        · intro item hitem hstatus
          rcases last_step hitems hitem hstatus with hsame | hnew
          · obtain ⟨p, hp, happroves⟩ := happroved item hsame hstatus
            exact ⟨p, List.mem_append_left _ hp, happroves⟩
          · exact ⟨(s, a), by simp, hnew⟩
      · -- it is parked by this step, at an open item
        rw [hinbox]
        refine ⟨trace, _, [], rfl, ⟨readable, rfl⟩, List.forall_mem_nil _, ih.filed, ?_⟩
        intro last hgetLast hstatus
        rw [findByDedupeKey_eq parkDedupeKey_ne_empty ih.last, hgetLast] at hfind
        rw [Option.some.inj hfind, hopened] at hstatus
        cases hstatus

/-! ### A branch that is parked, approved and merged -/

def gateStart : GateState where
  inbox := .init startMoment
  status := fun comp => if comp = "api" then .verifying else .pending
  branch := fun _ => "abc"
  parking := fun _ => false

/-- Nobody is there to ask. -/
def judged : Action :=
  .deliver "api" ⟨true, false, true⟩ .nobody true .merged true "abc" (some ⟨"g", "r", "feat/api", none⟩)

def operatorApproves : Action := .inbox (.approve "g" "me" "")

def gateFiled : GateState := (next .utc gateStart judged).get (by decide +kernel)

def gateParked : GateState := (next .utc gateFiled (.park "api" true)).get (by decide +kernel)

def gateApproved : GateState := (next .utc gateParked operatorApproves).get (by decide +kernel)

def gateMerged : GateState := (next .utc gateApproved (.decide "api" true true .merged)).get (by decide +kernel)

def gateTrace : List (GateState × Action) :=
  [(gateStart, judged), (gateFiled, .park "api" true), (gateParked, operatorApproves)]

lemma gateStart_start : gateStart.Start := by
  refine ⟨rfl, fun comp => ?_⟩
  unfold gateStart
  dsimp only
  split_ifs <;> rintro ⟨⟩

lemma gateTrace_run : GateRun .utc gateStart gateTrace gateApproved := by
  have hfiled : GateRun .utc gateStart [(gateStart, judged)] gateFiled := by
    refine .snoc .nil ⟨?_, by rintro _ _ ⟨⟩⟩ (Option.some_get _).symm
    rintro c hc
    cases hc
    exact ⟨by decide, List.forall_mem_nil _⟩
  have hparked : GateRun .utc gateStart [(gateStart, judged), (gateFiled, .park "api" true)] gateParked :=
    .snoc hfiled ⟨by rintro _ ⟨⟩, by rintro _ _ ⟨⟩⟩ (Option.some_get _).symm
  refine .snoc hparked ⟨?_, by rintro _ _ ⟨⟩⟩ (Option.some_get _).symm
  rintro c ⟨⟩
  trivial

/-! ## What is pushed -/

lemma attended_of_pushed {comp : String} {config : GateConfig} {answer : Answer} {gh left : Bool} {pr : PrDisposition}
    {judgedSha : String} {item : Option ParkItem}
    (h : pushed s (.deliver comp config answer gh pr left judgedSha item) = some (x, head)) :
    head = s.branch x ∧ Attended (.deliver comp config answer gh pr left judgedSha item) := by
  rw [pushed] at h
  split_ifs at h with hpush
  cases h
  refine ⟨rfl, ?_⟩
  have hdecision := hpush.2.2.2
  by_cases hpause : config.pauseBeforePrMerge = false
  · exact .inl hpause
  · right
    unfold phaseCheckpoint at hdecision
    rw [if_neg hpause] at hdecision
    cases answer with
    | nobody => simp at hdecision
    | response choice =>
        dsimp only at hdecision
        split_ifs at hdecision with happroved
        · rw [happroved]
        all_goals simp at hdecision

lemma decision_of_pushed {comp : String} {readable gh : Bool} {pr : PrDisposition}
    (h : pushed s (.decide comp readable gh pr) = some (x, head)) :
    comp = x ∧ head = s.branch x ∧ ∃ decision, findByDedupeKey s.inbox.log (parkDedupeKey x) = some decision ∧
      decision.status = .approved ∧ approvedHead decision = head := by
  cases hfind : parkDecision s comp readable with
  | none => simp [pushed, hfind] at h
  | some decision =>
      simp only [pushed, hfind] at h
      split_ifs at h with hpush
      cases h
      rw [parkDecision] at hfind
      split_ifs at hfind
      exact ⟨rfl, rfl, decision, hfind, hpush.2.1, hpush.2.2.2.symm⟩

/-- A push that nobody was asked for is of a component that waits at an approved item, which names the branch. -/
lemma pending_of_pushed (hlast : OnlyLastOpen (keyed s.inbox.log (parkDedupeKey x))) (hnext : next fmt s a = some t)
    (hpush : pushed s a = some (x, head)) :
    head = s.branch x ∧ (Attended a ∨ s.status x = .awaitingApproval ∧
      ∃ item, (keyed s.inbox.log (parkDedupeKey x)).getLast? = some item ∧ item.status = .approved ∧
        approvedHead item = head) := by
  cases a with
  | deliver comp config answer gh pr left judgedSha item =>
      exact ⟨(attended_of_pushed hpush).1, .inl (attended_of_pushed hpush).2⟩
  | decide comp readable gh pr =>
      obtain ⟨rfl, hhead, decision, hfind, hstatus, hnamed⟩ := decision_of_pushed hpush
      rw [findByDedupeKey_eq parkDedupeKey_ne_empty hlast] at hfind
      simp only [next] at hnext
      split_ifs at hnext with hwaits
      exact ⟨hhead, .inr ⟨not_not.mp hwaits, decision, hfind, hstatus, hnamed⟩⟩
  | inbox c => cases hpush
  | move comp sha => cases hpush
  | settle comp status => cases hpush
  | park comp readable => cases hpush

/-- **What is pushed was approved.**  In every run, a push takes the tip of the branch.  Where the gate is on and no
prompt was answered in the step, the component was parked before, a checkpoint had filed this very commit before the
park, and behind the last park the operator approved an item that names it. -/
theorem push_justified (hstart : start.Start) (run : GateRun fmt start trace s) (hnext : next fmt s a = some t)
    (hpush : pushed s a = some (x, head)) :
    head = s.branch x ∧ (Attended a ∨ ∃ before park between approval after,
      trace = before ++ park :: (between ++ approval :: after) ∧ Parks x park ∧
        (∀ p ∈ between ++ approval :: after, ¬ Parks x p) ∧ Approves fmt x head approval ∧
        ∃ filing ∈ before, Files x head filing) := by
  have hgated := run.gated hstart (x := x)
  obtain ⟨hhead, hattended | ⟨hwaits, item, hitem, hstatus, hnamed⟩⟩ := pending_of_pushed hgated.last hnext hpush
  · exact ⟨hhead, .inl hattended⟩
  · obtain ⟨before, park, after, rfl, hpark, hothers, hfiled, happroved⟩ := hgated.waits hwaits
    obtain ⟨p, hp, happroves⟩ := happroved item hitem hstatus
    obtain ⟨between, rest, rfl⟩ := List.append_of_mem hp
    obtain ⟨filing, hfiling, hfiles⟩ := hfiled item (List.mem_of_mem_getLast? hitem)
    exact ⟨hhead, .inr ⟨before, park, between, p, rest, rfl, hpark, hothers, hnamed ▸ happroves, filing, hfiling,
      hnamed ▸ hfiles⟩⟩

/-- The branch that the operator approved is pushed. -/
theorem push_justified_approved :
    "abc" = gateApproved.branch "api" ∧ (Attended (.decide "api" true true .merged) ∨
      ∃ before park between approval after, gateTrace = before ++ park :: (between ++ approval :: after) ∧
        Parks "api" park ∧ (∀ p ∈ between ++ approval :: after, ¬ Parks "api" p) ∧
        Approves .utc "api" "abc" approval ∧ ∃ filing ∈ before, Files "api" "abc" filing) :=
  push_justified gateStart_start gateTrace_run (t := gateMerged) (Option.some_get _).symm (by decide +kernel)

/-- A step that leaves a component waiting at an approved item found it so, or approved the item. -/
lemma pending_step (hallowed : Allowed s a) (hlast : OnlyLastOpen (keyed s.inbox.log (parkDedupeKey x)))
    (hnext : next fmt s a = some t) (ht : Pending t x) : Pending s x ∨ ApprovesPark fmt x (s, a) := by
  obtain ⟨hwaits, item, hitem, hstatus⟩ := ht
  rcases waits_step hnext hwaits with ⟨hbefore, -, -⟩ | ⟨readable, parked, rfl, hfind, hopened, hinbox⟩
  · obtain ⟨hitems, -⟩ := items_step hallowed hlast hnext
    rcases last_step hitems hitem hstatus with hsame | hnew
    · exact .inl ⟨hbefore, item, hsame, hstatus⟩
    · obtain ⟨row, hrow, hkey, -⟩ := hnew
      exact .inr (by simp [ApprovesPark, hrow, hkey])
  · rw [hinbox, ← findByDedupeKey_eq parkDedupeKey_ne_empty hlast, hfind] at hitem
    rw [← Option.some.inj hitem, hopened] at hstatus
    cases hstatus

/-- **No approval pushes twice.**  In every run, the pushes of a component that nobody was asked for are at most the
approvals of the items of its park. -/
theorem pushes_le_approvals (hstart : start.Start) (run : GateRun fmt start trace s) :
    trace.countP (Unattended x) ≤ trace.countP (ApprovesPark fmt x) := by
  suffices hcount : trace.countP (Unattended x) ≤ trace.countP (ApprovesPark fmt x) ∧
      (Pending s x → trace.countP (Unattended x) < trace.countP (ApprovesPark fmt x)) from hcount.1
  induction run with
  | nil => exact ⟨le_rfl, fun hpending => absurd hpending.1 (hstart.status x)⟩
  | @snoc trace s t a run hallowed hnext ih =>
      have hlast := (run.gated hstart (x := x)).last
      rw [List.countP_append, List.countP_append, List.countP_singleton, List.countP_singleton]
      by_cases hpush : Unattended x (s, a)
      · -- the push uses the approval up
        obtain ⟨⟨comp, head⟩, hsome, rfl⟩ := Option.map_eq_some_iff.mp hpush.2
        have hpending : Pending s comp := by
          obtain ⟨-, hasked | ⟨hwaits, item, hitem, hstatus, -⟩⟩ := pending_of_pushed hlast hnext hsome
          · exact absurd hasked hpush.1
          · exact ⟨hwaits, item, hitem, hstatus⟩
        have hused : ¬ Pending t comp := by
          rintro ⟨hwaits, -⟩
          rcases waits_step hnext hwaits with ⟨-, -, hnone⟩ | ⟨readable, item, rfl, -⟩
          · exact hnone head hsome
          · cases hsome
        have hbefore := ih.2 hpending
        rw [if_pos (decide_eq_true hpush)]
        exact ⟨by omega, fun ht => absurd ht hused⟩
      · -- a wait at an approved item is older than the step, or has its approval in the step
        rw [if_neg (mt of_decide_eq_true hpush), Nat.add_zero]
        refine ⟨le_trans ih.1 (Nat.le_add_right _ _), fun ht => ?_⟩
        rcases pending_step hallowed hlast hnext ht with hbefore | hnew
        · exact lt_of_lt_of_le (ih.2 hbefore) (Nat.le_add_right _ _)
        · rw [if_pos (decide_eq_true hnew)]
          exact Nat.lt_succ_of_le ih.1

/-- It is pushed once. -/
theorem pushes_le_approvals_merged :
    (gateTrace ++ [(gateApproved, Action.decide "api" true true .merged)]).countP (Unattended "api") ≤
      (gateTrace ++ [(gateApproved, Action.decide "api" true true .merged)]).countP (ApprovesPark .utc "api") :=
  pushes_le_approvals gateStart_start
    (.snoc gateTrace_run ⟨by rintro _ ⟨⟩, by rintro _ _ ⟨⟩⟩ (t := gateMerged) (Option.some_get _).symm)

end Steps

end MergeGate

end Pipeline

end Kstrl
