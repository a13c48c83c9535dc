import Kstrl.Base.Runs
import Kstrl.Serve.Signals
import Mathlib.Data.List.Dedup

/-!
# Polls that run at the same time

Any number of polls (`poll` of `kstrl/serve/signals.py`) over one ledger.  A poll fetches its page, reads the ledger
and appends its rows; only the append is atomic, and a poll may raise at any time.

* **`next`** is the system, and `Right` what the ledger is for.
* **`right_step_iff`**: what a step does to it.
* **`polls_right`**: the counts are right in the states of the runs in which each append is `Fresh`, and in no others.
-/

namespace Kstrl.Serve.Signals

open Runs

/-- The ledger, what each running poll has read and made of it, and, for each poll that is through, the ledger just
before its append. -/
structure State where
  ledger : List Json
  held : ℕ → Option (List Json × PollReport)
  recorded : List (List Json × PollReport)

inductive Action where
  /-- a poll that has fetched its page reads the ledger -/
  | read (i : ℕ) (poll : Poll)
  | append (i : ℕ)
  /-- it ends before its append -/
  | raise (i : ℕ)

/-- No poll runs, and there is no ledger. -/
def init : State where
  ledger := []
  held := fun _ => none
  recorded := []

/-- One step; there is none for a poll that is not where the step is. -/
def next (s : State) : Action → Option State
  | .read i poll =>
      match s.held i, pollReport poll s.ledger with
      | none, some report => some { s with held := Function.update s.held i (some (s.ledger, report)) }
      | _, _ => none
  | .append i =>
      match s.held i with
      | some (_, report) => some
          { ledger := appendSignals s.ledger report.signals
            held := Function.update s.held i none
            recorded := s.recorded ++ [(s.ledger, report)] }
      | none => none
  | .raise i => some { s with held := Function.update s.held i none }

def step (s : State) (a : Action) (t : State) : Prop := next s a = some t

/-! ## What the ledger is for -/

def rowsOf (ledger : List Json) : List Signal := (readLedger ledger).signals

/-- The distinct issues of a poll that the ledger before it does not have. -/
def firstSeen (before : List Json) (report : PollReport) : List String :=
  ((report.signals.map Signal.issueId).dedup).filter fun id => id ∉ (rowsOf before).map Signal.issueId

structure Right (s : State) : Prop where
  /-- each issue is recorded as new at most once -/
  once : ∀ id, ((rowsOf s.ledger).countP fun row => row.issueId = id ∧ row.kind = .newIssue) ≤ 1
  /-- before a recurrence the last row of the issue is resolved and was seen earlier -/
  again : ∀ pre row post, rowsOf s.ledger = pre ++ row :: post → row.kind = .recurrence → SeenAgain pre row
  /-- the figure of a poll is the number of issues first seen by it -/
  figure : ∀ e ∈ s.recorded, e.2.pollNewIssues = (firstSeen e.1 e.2).length

/-- The rows that were appended since a ledger was read. -/
def since (read ledger : List Json) : List Signal := (rowsOf ledger).drop (rowsOf read).length

/-- No row of an issue came in since the poll read the ledger, from another poll or earlier on its own page, for
each row of the page whose issue the ledger, as it was read, does not have.  Where the issue was resolved and the row
seen later, the last row that came in, if any, is resolved and was seen earlier too. -/
def FreshRows (read ledger : List Json) (page : List Signal) : Prop :=
  ∀ pre row post, page = pre ++ row :: post →
    (SeenNew (rowsOf read) row → SeenNew (since read ledger ++ pre) row) ∧
    (SeenAgain (rowsOf read) row → ∀ last, lastRow (since read ledger ++ pre) row.issueId = some last →
      last.resolved = true ∧ last.lastSeen < row.lastSeen)

/-- The condition of an append; the other steps have none. -/
def Fresh (s : State) : Action → Prop
  | .append i => ∀ read report, s.held i = some (read, report) → FreshRows read s.ledger report.signals
  | .read _ _ => True
  | .raise _ => True

/-! ## The invariant of any run -/

/-- What holds whatever the order of the steps. -/
structure Inv (s : State) : Prop where
  /-- a poll holds a report on an earlier ledger -/
  held : ∀ i read report, s.held i = some (read, report) →
    (∃ poll, pollReport poll read = some report) ∧ rowsOf read <+: rowsOf s.ledger
  /-- every issue of the ledger has been recorded as new -/
  first : ∀ row ∈ rowsOf s.ledger, ∃ new ∈ rowsOf s.ledger, new.issueId = row.issueId ∧ new.kind = .newIssue

lemma inv_init : Inv init := ⟨fun _ _ _ h => (nomatch h), fun _ h => (nomatch h)⟩

lemma rowsOf_append {poll : Poll} {read : List Json} {report : PollReport} (h : pollReport poll read = some report)
    (ledger : List Json) : rowsOf (appendSignals ledger report.signals) = rowsOf ledger ++ report.signals :=
  readLedger_append fun _ hrow => (pollReport_kind h hrow).1

/-- What one step can do. -/
lemma next_cases {s t : State} {a : Action} (h : next s a = some t) :
    (∃ i poll report, a = .read i poll ∧ s.held i = none ∧ pollReport poll s.ledger = some report ∧
      t = { s with held := Function.update s.held i (some (s.ledger, report)) }) ∨
    (∃ i read report, a = .append i ∧ s.held i = some (read, report) ∧
      t = { ledger := appendSignals s.ledger report.signals
            held := Function.update s.held i none
            recorded := s.recorded ++ [(s.ledger, report)] }) ∨
    ∃ i, a = .raise i ∧ t = { s with held := Function.update s.held i none } := by
  cases a with
  | read i poll =>
      simp only [next] at h
      split at h
      · next report hheld hreport => exact .inl ⟨i, poll, report, rfl, hheld, hreport, (Option.some.inj h).symm⟩
      · cases h
  | append i =>
      simp only [next] at h
      split at h
      · next read report hheld => exact .inr (.inl ⟨i, read, report, rfl, hheld, (Option.some.inj h).symm⟩)
      · cases h
  | raise i => exact .inr (.inr ⟨i, rfl, (Option.some.inj h).symm⟩)

lemma held_of_update {held : ℕ → Option (List Json × PollReport)} {i j : ℕ} {v : Option (List Json × PollReport)}
    {x : List Json × PollReport} (h : Function.update held i v j = some x) :
    v = some x ∨ held j = some x := by
  rcases eq_or_ne j i with rfl | hne
  · rw [Function.update_self] at h
    exact .inl h
  · rw [Function.update_of_ne hne] at h
    exact .inr h

/-- A row that a poll appends is of an issue that has been recorded as new, by that row or before. -/
lemma first_of_append {poll : Poll} {read ledger : List Json} {report : PollReport}
    (hreport : pollReport poll read = some report) (hread : rowsOf read <+: rowsOf ledger)
    (hfirst : ∀ row ∈ rowsOf ledger, ∃ new ∈ rowsOf ledger, new.issueId = row.issueId ∧ new.kind = .newIssue)
    {row : Signal} (hrow : row ∈ report.signals) :
    row.kind = .newIssue ∨ ∃ new ∈ rowsOf ledger, new.issueId = row.issueId ∧ new.kind = .newIssue := by
  by_cases hnew : SeenNew (rowsOf read) row
  · exact .inl ((pollReport_kind hreport hrow).2.1.mpr hnew)
  · obtain ⟨found, hfound⟩ := Option.ne_none_iff_exists'.mp hnew
    have hmem := List.mem_reverse.mp (List.mem_of_find?_eq_some hfound)
    have hid : found.issueId = row.issueId := by
      simpa using List.find?_some (p := fun r : Signal => r.issueId = row.issueId) hfound
    obtain ⟨new, hin, hnewId, hkind⟩ := hfirst found (hread.subset hmem)
    exact .inr ⟨new, hin, hnewId.trans hid, hkind⟩

lemma inv_step {s t : State} {a : Action} (hinv : Inv s) (h : next s a = some t) : Inv t := by
  rcases next_cases h with ⟨i, poll, report, -, -, hreport, rfl⟩ | ⟨i, read, report, -, hheld, rfl⟩ | ⟨i, -, rfl⟩
  · refine ⟨fun j read' report' hj => ?_, hinv.first⟩
    rcases held_of_update hj with heq | hj
    · cases heq
      exact ⟨⟨poll, hreport⟩, List.prefix_rfl⟩
    · exact hinv.held j read' report' hj
  · obtain ⟨⟨poll, hreport⟩, hread⟩ := hinv.held i read report hheld
    have hrows := rowsOf_append hreport s.ledger
    refine ⟨fun j read' report' hj => ?_, fun row hrow => ?_⟩
    · rcases held_of_update hj with heq | hj
      · cases heq
      · obtain ⟨hpoll, hread'⟩ := hinv.held j read' report' hj
        exact ⟨hpoll, hread'.trans (hrows ▸ List.prefix_append _ _)⟩
    · rw [hrows] at hrow ⊢
      rcases List.mem_append.mp hrow with hrow | hrow
      · obtain ⟨new, hnew, hid⟩ := hinv.first row hrow
        exact ⟨new, List.mem_append_left _ hnew, hid⟩
      · rcases first_of_append hreport hread hinv.first hrow with hnew | ⟨new, hnew, hid⟩
        · exact ⟨row, List.mem_append_right _ hrow, rfl, hnew⟩
        · exact ⟨new, List.mem_append_left _ hnew, hid⟩
  · refine ⟨fun j read' report' hj => ?_, hinv.first⟩
    rcases held_of_update hj with heq | hj
    · cases heq
    · exact hinv.held j read' report' hj

/-! ## What an append does -/

/-- No element with a property has an earlier one with it. -/
lemma countP_le_one {α : Type} {q : α → Bool} {l : List α}
    (h : ∀ pre a post, l = pre ++ a :: post → q a = true → ∀ b ∈ pre, q b = false) : l.countP q ≤ 1 := by
  induction l using List.reverseRecOn with
  | nil => exact Nat.zero_le 1
  | append_singleton l x ih =>
      have hl := ih fun pre a post heq hq => h pre a (post ++ [x]) (by rw [heq, List.append_assoc, List.cons_append]) hq
      rw [List.countP_append, List.countP_singleton]
      split_ifs with hx
      · have hzero : l.countP q = 0 := by
          rw [List.countP_eq_zero]
          exact fun b hb => by simp [h l x [] rfl hx b hb]
        omega
      · exact hl

lemma one_lt_countP {α : Type} {q : α → Bool} {l l' : List α} {a b : α} (ha : a ∈ l) (hqa : q a = true)
    (hb : b ∈ l') (hqb : q b = true) : 1 < (l ++ l').countP q := by
  have hpos := List.countP_pos_iff.mpr ⟨a, ha, hqa⟩
  have hpos' := List.countP_pos_iff.mpr ⟨b, hb, hqb⟩
  rw [List.countP_append]
  omega

section Append

variable {poll : Poll} {read ledger : List Json} {report : PollReport}

lemma rowsOf_since (hread : rowsOf read <+: rowsOf ledger) : rowsOf ledger = rowsOf read ++ since read ledger := by
  obtain ⟨rest, hrest⟩ := hread
  rw [since, ← hrest, List.drop_left]

/-- An issue that was not there when the ledger was read, and has not come in, is not there. -/
lemma seenNew_append (hread : rowsOf read <+: rowsOf ledger) {pre : List Signal} {row : Signal} :
    SeenNew (rowsOf ledger ++ pre) row ↔ SeenNew (rowsOf read) row ∧ SeenNew (since read ledger ++ pre) row := by
  unfold SeenNew
  rw [rowsOf_since hread, List.append_assoc, lastRow_append, Option.or_eq_none_iff, and_comm]

lemma lastRow_ledger (hread : rowsOf read <+: rowsOf ledger) (pre : List Signal) (issueId : String) :
    lastRow (rowsOf ledger ++ pre) issueId =
      (lastRow (since read ledger ++ pre) issueId).or (lastRow (rowsOf read) issueId) := by
  rw [rowsOf_since hread, List.append_assoc, lastRow_append]

/-- A place of a list followed by another is in the one or in the other. -/
lemma append_eq_split {α : Type} {l l' pre post : List α} {a : α} (h : l ++ l' = pre ++ a :: post) :
    (∃ post', l = pre ++ a :: post') ∨ ∃ pre', pre = l ++ pre' ∧ l' = pre' ++ a :: post := by
  rcases List.append_eq_append_iff.mp h with ⟨pre', hpre, hpost⟩ | ⟨rest, hl, hrest⟩
  · exact .inr ⟨pre', hpre, hpost⟩
  · cases rest with
    | nil => exact .inr ⟨[], by simp [hl], by simpa using hrest.symm⟩
    | cons b rest =>
        obtain ⟨rfl, -⟩ := List.cons.inj hrest
        exact .inl ⟨rest, hl⟩

/-- Fresh rows are new where no row of the issue stands before them. -/
lemma fresh_seenNew (hreport : pollReport poll read = some report) (hread : rowsOf read <+: rowsOf ledger)
    (hfresh : FreshRows read ledger report.signals) {pre : List Signal} {row : Signal} {post : List Signal}
    (heq : report.signals = pre ++ row :: post) :
    row.kind = .newIssue ↔ SeenNew (rowsOf ledger ++ pre) row := by
  have hrow : row ∈ report.signals := heq ▸ List.mem_append_right _ List.mem_cons_self
  rw [(pollReport_kind hreport hrow).2.1, seenNew_append hread]
  exact ⟨fun hnew => ⟨hnew, (hfresh pre row post heq).1 hnew⟩, And.left⟩

/-- An issue is recorded as new once. -/
lemma once_of_fresh (hreport : pollReport poll read = some report) (hread : rowsOf read <+: rowsOf ledger)
    (hfresh : FreshRows read ledger report.signals) {id : String}
    (honce : ((rowsOf ledger).countP fun row => row.issueId = id ∧ row.kind = .newIssue) ≤ 1) :
    ((rowsOf ledger ++ report.signals).countP fun row => row.issueId = id ∧ row.kind = .newIssue) ≤ 1 := by
  refine countP_le_one fun pre row post heq hrow other hother => ?_
  rw [decide_eq_true_iff] at hrow
  obtain ⟨hid, hkind⟩ := hrow
  rw [decide_eq_false_iff_not]
  rintro ⟨hotherId, hotherKind⟩
  rcases append_eq_split heq with ⟨post', hl⟩ | ⟨pre', rfl, hpage⟩
  · rw [hl] at honce
    exact absurd honce (not_le.mpr
      (one_lt_countP hother (by simp [hotherId, hotherKind]) List.mem_cons_self (by simp [hid, hkind])))
  · have hnone := (fresh_seenNew hreport hread hfresh hpage).mp hkind
    exact lastRow_eq_none.mp hnone other hother (hotherId.trans hid.symm)

/-- A recurrence comes after a row of the issue that is resolved. -/
lemma again_of_fresh (hreport : pollReport poll read = some report) (hread : rowsOf read <+: rowsOf ledger)
    (hfresh : FreshRows read ledger report.signals)
    (hagain : ∀ pre row post, rowsOf ledger = pre ++ row :: post → row.kind = .recurrence → SeenAgain pre row)
    {pre : List Signal} {row : Signal} {post : List Signal}
    (heq : rowsOf ledger ++ report.signals = pre ++ row :: post) (hkind : row.kind = .recurrence) :
    SeenAgain pre row := by
  rcases append_eq_split heq with ⟨post', hl⟩ | ⟨pre', rfl, hpage⟩
  · exact hagain pre row post' hl hkind
  · have hrow : row ∈ report.signals := hpage ▸ List.mem_append_right _ List.mem_cons_self
    have hseen := (pollReport_kind hreport hrow).2.2.mp hkind
    rw [SeenAgain, lastRow_ledger hread]
    cases hlast : lastRow (since read ledger ++ pre') row.issueId with
    | none => exact hseen
    | some last => exact ⟨last, rfl, (hfresh pre' row post hpage).2 hseen last hlast⟩

/-- The elements that are the first with their key, where it is not known, are as many as the unknown keys. -/
lemma countP_firsts {α κ : Type} [DecidableEq κ] {key : α → κ} {q : α → Bool} {known : List κ} {l : List α}
    (h : ∀ pre a post, l = pre ++ a :: post → (q a = true ↔ key a ∉ known ∧ ∀ b ∈ pre, key b ≠ key a)) :
    l.countP q = (((l.map key).dedup).filter fun k => k ∉ known).length := by
  have hmem : ((l.filter q).map key).Nodup ∧ ∀ k, k ∈ (l.filter q).map key ↔ k ∈ l.map key ∧ k ∉ known := by
    induction l using List.reverseRecOn with
    | nil => simp
    | append_singleton l x ih =>
        obtain ⟨hnodup, hkeys⟩ := ih fun pre a post heq =>
          h pre a (post ++ [x]) (by rw [heq, List.append_assoc, List.cons_append])
        have hx := h l x [] rfl
        simp only [List.filter_append, List.map_append, List.filter_singleton, List.mem_append, hkeys]
        by_cases hq : q x = true
        · obtain ⟨hnew, hfirst⟩ := hx.mp hq
          have hout : key x ∉ (l.filter q).map key := by
            rw [hkeys]
            rintro ⟨hin, -⟩
            obtain ⟨b, hb, hkey⟩ := List.mem_map.mp hin
            exact hfirst b hb hkey
          simp only [hq, cond_true, List.map_cons, List.map_nil, List.mem_singleton]
          refine ⟨?_, fun k => ⟨?_, ?_⟩⟩
          · exact hnodup.append (List.nodup_singleton _) (List.disjoint_singleton.mpr hout)
          · rintro (⟨hin, hk⟩ | rfl)
            · exact ⟨.inl hin, hk⟩
            · exact ⟨.inr rfl, hnew⟩
          · rintro ⟨hin | rfl, hk⟩
            · exact .inl ⟨hin, hk⟩
            · exact .inr rfl
        · simp only [hq, cond_false, List.map_nil, List.append_nil, List.not_mem_nil, or_false, List.map_cons,
            List.mem_singleton]
          refine ⟨hnodup, fun k => ⟨fun hk => ⟨.inl hk.1, hk.2⟩, ?_⟩⟩
          rintro ⟨hin | rfl, hk⟩
          · exact ⟨hin, hk⟩
          -- the key of an element that is not the first one stands before it
          · have hbefore : ∃ b ∈ l, key b = key x := by
              by_contra hnone
              exact hq (hx.mpr ⟨hk, fun b hb hkey => hnone ⟨b, hb, hkey⟩⟩)
            exact ⟨List.mem_map.mpr hbefore, hk⟩
  obtain ⟨hnodup, hkeys⟩ := hmem
  have hperm : ((l.filter q).map key).Perm (((l.map key).dedup).filter fun k => k ∉ known) := by
    rw [List.perm_ext_iff_of_nodup hnodup ((List.nodup_dedup _).filter _)]
    intro k
    rw [hkeys, List.mem_filter, List.mem_dedup, decide_eq_true_iff]
  rw [List.countP_eq_length_filter, ← hperm.length_eq, List.length_map]

/-- **The counts after an append of fresh rows.** -/
lemma right_of_fresh (hreport : pollReport poll read = some report) (hread : rowsOf read <+: rowsOf ledger)
    (hfresh : FreshRows read ledger report.signals)
    (honce : ∀ id, ((rowsOf ledger).countP fun row => row.issueId = id ∧ row.kind = .newIssue) ≤ 1)
    (hagain : ∀ pre row post, rowsOf ledger = pre ++ row :: post → row.kind = .recurrence → SeenAgain pre row) :
    (∀ id, ((rowsOf ledger ++ report.signals).countP fun row => row.issueId = id ∧ row.kind = .newIssue) ≤ 1) ∧
      (∀ pre row post, rowsOf ledger ++ report.signals = pre ++ row :: post → row.kind = .recurrence →
        SeenAgain pre row) ∧ report.pollNewIssues = (firstSeen ledger report).length := by
  refine ⟨fun id => once_of_fresh hreport hread hfresh (honce id),
    fun pre row post heq hkind => again_of_fresh hreport hread hfresh hagain heq hkind, ?_⟩
  rw [pollReport_newIssues hreport, firstSeen]
  refine congrArg Nat.cast (countP_firsts fun pre row post heq => ?_)
  rw [decide_eq_true_iff, fresh_seenNew hreport hread hfresh heq, SeenNew, lastRow_eq_none]
  simp only [List.mem_append, or_imp, forall_and, List.mem_map, not_exists, not_and]

/-- **Rows that are not fresh make the counts wrong.** -/
lemma fresh_of_right (hreport : pollReport poll read = some report) (hread : rowsOf read <+: rowsOf ledger)
    (hfirst : ∀ row ∈ rowsOf ledger, ∃ new ∈ rowsOf ledger, new.issueId = row.issueId ∧ new.kind = .newIssue)
    (honce : ∀ id,
      ((rowsOf ledger ++ report.signals).countP fun row => row.issueId = id ∧ row.kind = .newIssue) ≤ 1)
    (hagain : ∀ pre row post, rowsOf ledger ++ report.signals = pre ++ row :: post → row.kind = .recurrence →
      SeenAgain pre row) : FreshRows read ledger report.signals := by
  intro pre row post heq
  have hrow : row ∈ report.signals := heq ▸ List.mem_append_right _ List.mem_cons_self
  obtain ⟨-, hkindNew, hkindAgain⟩ := pollReport_kind hreport hrow
  constructor
  · intro hnew
    by_contra hcame
    obtain ⟨found, hfound⟩ := Option.ne_none_iff_exists'.mp hcame
    have hid : found.issueId = row.issueId := by
      simpa using List.find?_some (p := fun r : Signal => r.issueId = row.issueId) hfound
    have hone := honce row.issueId
    rw [heq, ← List.append_assoc] at hone
    have hrowNew : (decide (row.issueId = row.issueId ∧ row.kind = .newIssue)) = true := by
      simp [hkindNew.mpr hnew]
    -- the row that came in is new, or there was a new one before
    have hbefore : ∃ new ∈ rowsOf ledger ++ pre, new.issueId = row.issueId ∧ new.kind = .newIssue := by
      rcases List.mem_append.mp (List.mem_reverse.mp (List.mem_of_find?_eq_some hfound)) with hin | hin
      · obtain ⟨new, hmem, hnewId, hkind⟩ := hfirst found (rowsOf_since hread ▸ List.mem_append_right _ hin)
        exact ⟨new, List.mem_append_left _ hmem, hnewId.trans hid, hkind⟩
      · refine ⟨found, List.mem_append_right _ hin, hid, ?_⟩
        refine (pollReport_kind hreport (heq ▸ List.mem_append_left _ hin)).2.1.mpr ?_
        rw [SeenNew, hid]
        exact hnew
    obtain ⟨new, hmem, hnewId, hkind⟩ := hbefore
    exact absurd hone (not_le.mpr (one_lt_countP hmem (by simp [hnewId, hkind]) List.mem_cons_self hrowNew))
  · intro hseen last hlast
    obtain ⟨previous, hprevious, hresolved, hearlier⟩ := hagain (rowsOf ledger ++ pre) row post
      (by rw [heq, List.append_assoc]) (hkindAgain.mpr hseen)
    rw [lastRow_ledger hread, hlast, Option.some_or] at hprevious
    cases hprevious
    exact ⟨hresolved, hearlier⟩

end Append

/-! ## The runs -/

lemma right_init : Right init where
  once _ := Nat.zero_le 1
  again pre row post h := absurd h.symm (by simp [init, rowsOf, readLedger])
  figure _ h := (nomatch h)

/-- **What a step does to the counts.** -/
theorem right_step_iff {s t : State} {a : Action} (hinv : Inv s) (h : step s a t) :
    Right t ↔ Right s ∧ Fresh s a := by
  rcases next_cases h with ⟨i, poll, report, rfl, -, -, rfl⟩ | ⟨i, read, report, rfl, hheld, rfl⟩ | ⟨i, rfl, rfl⟩
  · exact ⟨fun ht => ⟨⟨ht.once, ht.again, ht.figure⟩, trivial⟩, fun hs => ⟨hs.1.once, hs.1.again, hs.1.figure⟩⟩
  · obtain ⟨⟨poll, hreport⟩, hread⟩ := hinv.held i read report hheld
    have hrows := rowsOf_append hreport s.ledger
    constructor
    · intro ht
      have honce := ht.once
      have hagain := ht.again
      dsimp only at honce hagain
      rw [hrows] at honce hagain
      refine ⟨⟨fun id => ?_, fun pre row post heq => ?_, fun e he => ht.figure e (List.mem_append_left _ he)⟩, ?_⟩
      · exact le_trans (List.Sublist.countP_le (List.sublist_append_left _ _)) (honce id)
      · exact hagain pre row (post ++ report.signals) (by rw [heq, List.append_assoc, List.cons_append])
      · intro read' report' hheld'
        rw [hheld] at hheld'
        cases hheld'
        exact fresh_of_right hreport hread hinv.first honce hagain
    · rintro ⟨hs, hfresh⟩
      obtain ⟨honce, hagain, hfigure⟩ :=
        right_of_fresh hreport hread (hfresh read report hheld) hs.once hs.again
      refine ⟨?_, ?_, fun e he => ?_⟩
      · dsimp only
        rw [hrows]
        exact honce
      · dsimp only
        rw [hrows]
        exact hagain
      · rcases List.mem_append.mp he with he | he
        · exact hs.figure e he
        · rw [List.mem_singleton.mp he]
          exact hfigure
  · exact ⟨fun ht => ⟨⟨ht.once, ht.again, ht.figure⟩, trivial⟩, fun hs => ⟨hs.1.once, hs.1.again, hs.1.figure⟩⟩

lemma inv_of_reaches {cond : State → Action → Prop} {s : State} (run : Reaches step cond init s) : Inv s :=
  run.invariant inv_init fun _ _ _ hinv _ h => inv_step hinv h

/-- **The counts are right in the states that fresh appends lead to**, and in no others. -/
theorem polls_right {s : State} (run : Reaches step Always init s) :
    (Right s ↔ Reaches step Fresh init s) ∧ ∀ a t, step s a t → (Right t ↔ Right s ∧ Fresh s a) := by
  refine ⟨⟨fun hright => ?_, fun hfresh => ?_⟩, fun a t h => right_step_iff (inv_of_reaches run) h⟩
  · induction run with
    | refl => exact .refl
    | tail run _ last ih =>
        obtain ⟨hs, hfresh⟩ := (right_step_iff (inv_of_reaches run) last).mp hright
        exact .tail (ih hs) hfresh last
  · induction hfresh with
    | refl => exact right_init
    | tail run' hfresh last ih =>
        have hs := ih (run'.mono fun _ _ _ => trivial)
        exact (right_step_iff (inv_of_reaches run') last).mpr ⟨hs, hfresh⟩

/-- A page with one row for each of the ids. -/
def examplePage (ids : List String) : Json :=
  .obj [("results", .arr (ids.map fun id => .obj [("id", .str id), ("digested_event_count", .int 3)]))]

def examplePoll (ids : List String) : Poll where
  pollId := "p0"
  observedAt := "2026-01-01T00:00:00Z"
  config := {}
  document := examplePage ids

lemma freshRows_single (row : Signal) : FreshRows [] [] [row] := by
  intro pre row' post heq
  cases pre with
  | nil => exact ⟨fun _ => rfl, fun h => by simp [SeenAgain, rowsOf, readLedger, lastRow] at h⟩
  | cons a pre => simp at heq

/-- One poll with no other running. -/
lemma single_poll {poll : Poll} {report : PollReport} (h : pollReport poll [] = some report) :
    ∃ s t, step init (.read 0 poll) s ∧ step s (.append 0) t ∧ s.ledger = [] ∧ s.held 0 = some ([], report) ∧
      t.ledger = appendSignals [] report.signals ∧ t.recorded = [([], report)] := by
  refine ⟨⟨[], Function.update init.held 0 (some ([], report)), []⟩,
    { ledger := appendSignals [] report.signals
      held := Function.update (Function.update init.held 0 (some ([], report))) 0 none
      recorded := [([], report)] }, ?_, ?_, rfl, ?_, rfl, rfl⟩
  · simp only [step, next, init, h]
  · simp only [step, next, Function.update_self, init]
    rfl
  · simp only [Function.update_self]

/-- The counts are right after a poll of a page of one row. -/
theorem polls_right_one : ∃ s, (∃ row ∈ rowsOf s.ledger, row.issueId = "one") ∧ Right s := by
  obtain ⟨report, hreport, row, hsignals, hid⟩ : ∃ report, pollReport (examplePoll ["one"]) [] = some report ∧
      ∃ row, report.signals = [row] ∧ row.issueId = "one" := ⟨_, rfl, _, rfl, rfl⟩
  obtain ⟨s, t, hread, happend, hledger, hheld, hrows, -⟩ := single_poll hreport
  have hfresh : Fresh s (.append 0) := by
    intro read report' hheld'
    rw [hheld] at hheld'
    cases hheld'
    rw [hledger, hsignals]
    exact freshRows_single row
  have run : Reaches step Fresh init t := (Reaches.refl.tail (a := .read 0 _) trivial hread).tail hfresh happend
  refine ⟨t, ⟨row, ?_, hid⟩, (polls_right (run.mono fun _ _ _ => trivial)).1.mpr run⟩
  rw [hrows, rowsOf_append hreport, hsignals]
  exact List.mem_singleton_self row

/-- Two rows of one issue on a page are both recorded as new, and counted as two issues. -/
theorem repeated_row_new_twice : ∃ s report, Reaches step Always init s ∧ s.recorded = [([], report)] ∧
    (rowsOf s.ledger).map (fun row => (row.issueId, row.kind)) = [("one", .newIssue), ("one", .newIssue)] ∧
    report.pollNewIssues = 2 ∧ firstSeen [] report = ["one"] ∧ ¬ Right s := by
  obtain ⟨report, hreport, hkinds, hfigure, hfirst⟩ : ∃ report,
      pollReport (examplePoll ["one", "one"]) [] = some report ∧
      report.signals.map (fun row => (row.issueId, row.kind)) = [("one", .newIssue), ("one", .newIssue)] ∧
      report.pollNewIssues = 2 ∧ firstSeen [] report = ["one"] := ⟨_, rfl, rfl, rfl, by decide⟩
  obtain ⟨s, t, hread, happend, -, -, hrows, hrecorded⟩ := single_poll hreport
  refine ⟨t, report, .tail (Reaches.single trivial hread) trivial happend, hrecorded, ?_, hfigure, hfirst, ?_⟩
  · rw [hrows, rowsOf_append hreport]
    exact hkinds
  · intro hright
    have hcount := hright.figure ([], report) (by rw [hrecorded]; exact List.mem_singleton_self _)
    rw [hfigure, hfirst] at hcount
    exact absurd hcount (by decide)

end Kstrl.Serve.Signals
