import Kstrl.Pipeline.Attempts

/-!
# What the retry context says of an attempt

The context of a component (`kstrl/pipeline/context.py`) over any run of its attempts.

* **`Books`** ties a context to the verdicts of the attempts behind it.
* **`buckets_sound`**: the buckets are a partition of what was recorded, what is resolved was judged in the latest
  attempt, and a context is read back as it was.
* `repeated_failure_resolved` is a failure that is resolved and reported again.
-/

namespace Kstrl

namespace Pipeline

open Runs

/-! ## A context and the verdicts behind it -/

namespace IterationContext

/-- The records of the notes of an attempt. -/
def recordsOf (attempt : ℤ) (notes : List Note) : List IterationRecord :=
  notes.flatMap fun
    | .record iteration error => [{ iteration, success := false, error, attempt }]
    | .entry _ _ _ => []

lemma foldl_note (attempt : ℤ) (notes : List Note) (ctx : IterationContext) :
    notes.foldl (note attempt) ctx =
      { records := ctx.records ++ recordsOf attempt notes
        entries := ctx.entries ++ entriesOf attempt notes
        readings := ctx.readings } := by
  induction notes generalizing ctx with
  | nil => simp only [List.foldl_nil, recordsOf, entriesOf, List.flatMap_nil, List.append_nil]
  | cons n notes ih =>
      rw [List.foldl_cons, ih]
      cases n with
      | record iteration error => simp [note, addIteration, recordsOf, entriesOf]
      | entry phase text infrastructure =>
          by_cases htext : text = "" <;> simp [note, add, recordsOf, entriesOf, htext]

lemma merge_eq (readings : List PhaseReading) (ctx : IterationContext) :
    (ctx.merge readings).records = ctx.records ∧ (ctx.merge readings).entries = ctx.entries ∧
      (ctx.merge readings).readings = readings.foldl (fun set r => insert r set) ctx.readings := by
  unfold merge
  induction readings generalizing ctx with
  | nil => exact ⟨rfl, rfl, rfl⟩
  | cons r readings ih => exact ih _

end IterationContext

section

variable {p : Phase} {notes : List Note} {verdict : Bool}

lemma NotesOf.entries (h : NotesOf p notes verdict) (attempt : ℤ) :
    ∀ e ∈ IterationContext.entriesOf attempt notes, e.attempt = attempt ∧ e.phase = p ∧ verdict = !e.infrastructure := by
  intro e he
  cases h <;> simp only [IterationContext.entriesOf, List.flatMap_cons, List.flatMap_nil, List.nil_append,
    List.append_nil, List.mem_ite_nil_left, List.mem_singleton, List.not_mem_nil] at he
  · obtain ⟨-, rfl⟩ := he
    exact ⟨rfl, rfl, rfl⟩
  · obtain ⟨-, rfl⟩ := he
    exact ⟨rfl, rfl, rfl⟩

lemma NotesOf.records (h : NotesOf p notes verdict) (attempt : ℤ) :
    (IterationContext.recordsOf attempt notes).Pairwise (·.attempt < ·.attempt) ∧
      ∀ r ∈ IterationContext.recordsOf attempt notes, r.attempt = attempt ∧
        (verdict = true → IterationContext.entriesOf attempt notes ≠ []) := by
  cases h with
  | failed text infrastructure => exact ⟨.nil, nofun⟩
  | recorded iteration error text some =>
      refine ⟨List.pairwise_singleton _ _, fun r hr => ?_⟩
      rw [List.mem_singleton.mp hr]
      exact ⟨rfl, fun _ => by simp [IterationContext.entriesOf, some]⟩
  | restarted iteration error =>
      refine ⟨List.pairwise_singleton _ _, fun r hr => ?_⟩
      rw [List.mem_singleton.mp hr]
      exact ⟨rfl, nofun⟩

end

/-- The context of a component that was sent back `retries` times, with the verdicts of its attempts. -/
structure Books (cfg : AttemptConfig) (verdicts : List Verdict) (retries : ℤ) (ctx : IterationContext) : Prop where
  entries : ∀ e ∈ ctx.entries, (1 ≤ e.attempt ∧ e.attempt ≤ retries) ∧ e.phase.Live cfg
  records : ∀ r ∈ ctx.records, 1 ≤ r.attempt ∧ r.attempt ≤ retries
  /-- one record an attempt -/
  apart : ctx.records.Pairwise (·.attempt < ·.attempt)
  read : ∀ r ∈ ctx.readings, ∃ passed, Verdict.mk r.attempt r.phase passed ∈ verdicts
  measured : ∀ e ∈ ctx.entries, e.infrastructure = false → Verdict.mk e.attempt e.phase false ∈ verdicts
  /-- the phases before the gate that fired were passed -/
  before : ∀ e ∈ ctx.entries, ∀ e' ∈ ctx.entries, e'.attempt < e.attempt → e'.phase.rank < e.phase.rank →
    e'.phase.skippable = false → Verdict.mk e.attempt e'.phase true ∈ verdicts
  /-- no other phase failed -/
  fired : ∀ e ∈ ctx.entries, ∀ v ∈ verdicts, v.attempt = e.attempt → v.passed = false →
    v.phase = e.phase ∧ e.infrastructure = false
  firedBy : ∀ r ∈ ctx.records, ∀ v ∈ verdicts, v.attempt = r.attempt → v.passed = false →
    ∃ e ∈ ctx.entries, e.attempt = r.attempt

namespace Books

variable {cfg : AttemptConfig} {verdicts : List Verdict} {retries : ℤ} {ctx : IterationContext}

lemma empty (cfg : AttemptConfig) (verdicts : List Verdict) (retries : ℤ) : Books cfg verdicts retries {} where
  entries := nofun
  records := nofun
  apart := .nil
  read _ hr := absurd hr (SortedSet.not_mem_empty _)
  measured := nofun
  before := nofun
  fired := nofun
  firedBy := nofun

/-- Verdicts of an attempt that is not in the context. -/
lemma append (h : Books cfg verdicts retries ctx) (more : List Verdict) (hmore : ∀ v ∈ more, retries < v.attempt) :
    Books cfg (verdicts ++ more) retries ctx where
  entries := h.entries
  records := h.records
  apart := h.apart
  read r hr := by
    obtain ⟨passed, hpassed⟩ := h.read r hr
    exact ⟨passed, List.mem_append_left _ hpassed⟩
  measured e he hinfra := List.mem_append_left _ (h.measured e he hinfra)
  before e he e' he' hlt hrank hskip := List.mem_append_left _ (h.before e he e' he' hlt hrank hskip)
  fired e he v hv hattempt hfailed := by
    rcases List.mem_append.mp hv with hv | hv
    · exact h.fired e he v hv hattempt hfailed
    · exact absurd (hattempt ▸ hmore v hv) (not_lt.mpr (h.entries e he).1.2)
  firedBy r hr v hv hattempt hfailed := by
    rcases List.mem_append.mp hv with hv | hv
    · exact h.firedBy r hr v hv hattempt hfailed
    · exact absurd (hattempt ▸ hmore v hv) (not_lt.mpr (h.records r hr).2)

/-- What the gate that fired notes. -/
lemma note (h : Books cfg verdicts retries ctx) (hretries : 0 ≤ retries) {p : Phase} {notes : List Note}
    {verdict : Bool} (hnotes : NotesOf p notes verdict) (hlive : p.Live cfg)
    (hverdict : verdict = true → Verdict.mk (retries + 1) p false ∈ verdicts)
    (hfired : ∀ v ∈ verdicts, v.attempt = retries + 1 → v.passed = false → v.phase = p ∧ verdict = true)
    (hbefore : ∀ e ∈ ctx.entries, e.phase.skippable = false → e.phase.rank < p.rank →
      Verdict.mk (retries + 1) e.phase true ∈ verdicts) :
    Books cfg verdicts (retries + 1) (notes.foldl (IterationContext.note (retries + 1)) ctx) := by
  have hnew := hnotes.entries (retries + 1)
  obtain ⟨hrecordsApart, hrecords⟩ := hnotes.records (retries + 1)
  rw [IterationContext.foldl_note]
  exact
    { entries := fun e he => by
        rcases List.mem_append.mp he with he | he
        · obtain ⟨⟨hlo, hhi⟩, hphase⟩ := h.entries e he
          exact ⟨⟨hlo, by omega⟩, hphase⟩
        · obtain ⟨hattempt, hphase, -⟩ := hnew e he
          rw [hattempt, hphase]
          exact ⟨⟨by omega, le_refl _⟩, hlive⟩
      records := fun r hr => by
        rcases List.mem_append.mp hr with hr | hr
        · obtain ⟨hlo, hhi⟩ := h.records r hr
          exact ⟨hlo, by omega⟩
        · rw [(hrecords r hr).1]
          exact ⟨by omega, le_refl _⟩
      apart := List.pairwise_append.mpr ⟨h.apart, hrecordsApart, fun r hr r' hr' => by
        rw [(hrecords r' hr').1]
        exact Int.lt_add_one_of_le (h.records r hr).2⟩
      read := h.read
      measured := fun e he hinfra => by
        rcases List.mem_append.mp he with he | he
        · exact h.measured e he hinfra
        · obtain ⟨hattempt, hphase, hflag⟩ := hnew e he
          rw [hattempt, hphase]
          exact hverdict (by rw [hflag, hinfra]; rfl)
      before := fun e he e' he' hlt hrank hskip => by
        rcases List.mem_append.mp he with he | he
        · rcases List.mem_append.mp he' with he' | he'
          · exact h.before e he e' he' hlt hrank hskip
          · rw [(hnew e' he').1] at hlt
            have hhi := (h.entries e he).1.2
            omega
        · obtain ⟨hattempt, hphase, -⟩ := hnew e he
          rcases List.mem_append.mp he' with he' | he'
          · rw [hattempt]
            exact hbefore e' he' hskip (hphase ▸ hrank)
          · rw [(hnew e' he').1, hattempt] at hlt
            exact absurd hlt (lt_irrefl _)
      fired := fun e he v hv hsame hfailed => by
        rcases List.mem_append.mp he with he | he
        · exact h.fired e he v hv hsame hfailed
        · obtain ⟨hattempt, hphase, hflag⟩ := hnew e he
          obtain ⟨hp, hjudged⟩ := hfired v hv (hsame.trans hattempt) hfailed
          rw [hjudged] at hflag
          exact ⟨hp.trans hphase.symm, by simpa using hflag.symm⟩
      firedBy := fun r hr v hv hsame hfailed => by
        rcases List.mem_append.mp hr with hr | hr
        · obtain ⟨e, he, hattempt⟩ := h.firedBy r hr v hv hsame hfailed
          exact ⟨e, List.mem_append_left _ he, hattempt⟩
        · obtain ⟨hattempt, hentry⟩ := hrecords r hr
          obtain ⟨-, hjudged⟩ := hfired v hv (hsame.trans hattempt) hfailed
          obtain ⟨e, he⟩ := List.exists_mem_of_ne_nil _ (hentry hjudged)
          exact ⟨e, List.mem_append_right _ he, (hnew e he).1.trans hattempt.symm⟩ }

/-- The readings of an attempt. -/
lemma merge (h : Books cfg verdicts retries ctx) {readings : List PhaseReading}
    (hread : ∀ r ∈ readings, ∃ passed, Verdict.mk r.attempt r.phase passed ∈ verdicts) :
    Books cfg verdicts retries (ctx.merge readings) := by
  obtain ⟨hrecords, hentries, hreadings⟩ := IterationContext.merge_eq readings ctx
  exact
    { entries := by rw [hentries]; exact h.entries
      records := by rw [hrecords]; exact h.records
      apart := by rw [hrecords]; exact h.apart
      read := fun r hr => by
        rw [hreadings, SortedSet.mem_foldl_insert] at hr
        exact hr.elim (h.read r) (hread r)
      measured := by rw [hentries]; exact h.measured
      before := by rw [hentries]; exact h.before
      fired := by rw [hentries]; exact h.fired
      firedBy := by rw [hentries, hrecords]; exact h.firedBy }

end Books

/-! ## What is resolved -/

namespace IterationContext

variable {ctx : IterationContext}

/-- Why an entry is resolved. -/
lemma resolved_cases {e : FailureEntry} (h : ctx.bucketOf e = .resolved) :
    e.attempt ≠ ctx.latestAttempt ∧
      (e.phase.rank = ctx.gateRank ∧ ctx.gateRank ∈ ctx.measuredRanks ∨
        e.phase.rank ≠ ctx.gateRank ∧ e.phase ∈ ctx.phasesReadIn ctx.latestAttempt ∨
          e.phase.skippable = false ∧ e.phase.rank < ctx.gateRank) := by
  unfold bucketOf at h
  split_ifs at h with hlegacy hlatest hgate hmeasured hskip hread hbelow
  · exact ⟨hlatest, .inl ⟨hgate, hmeasured⟩⟩
  · exact ⟨hlatest, .inr (.inl ⟨hgate, hread⟩)⟩
  · exact ⟨hlatest, .inr (.inr ⟨Bool.eq_false_iff.mpr hskip, hbelow⟩)⟩

/-- An entry of the latest attempt is current. -/
lemma current_of_latest {e : FailureEntry} (h : e ∈ ctx.latest) (hattempt : 1 ≤ e.attempt) :
    e ∈ ctx.buckets.current := by
  obtain ⟨hmem, hlatest⟩ := mem_latest.mp h
  have hdated : e.attempt ≠ legacyAttempt := by
    unfold legacyAttempt
    omega
  exact mem_current.mpr ⟨hmem, by rw [bucketOf, if_neg hdated, if_pos hlatest]⟩

/-- There are no more records than attempts. -/
lemma length_le {records : List IterationRecord} (hapart : records.Pairwise (·.attempt < ·.attempt)) :
    ∀ lo : ℤ, (∀ r ∈ records, lo ≤ r.attempt) → records ≠ [] →
      ∃ r ∈ records, lo + records.length ≤ r.attempt + 1 := by
  induction records with
  | nil => exact fun _ _ hne => absurd rfl hne
  | cons r records ih =>
      intro lo hlo _
      obtain ⟨hfirst, hrest⟩ := List.pairwise_cons.mp hapart
      have hr := hlo r List.mem_cons_self
      by_cases hnil : records = []
      · subst hnil
        exact ⟨r, List.mem_cons_self, by simp only [List.length_cons, List.length_nil]; omega⟩
      · obtain ⟨r', hr', hle⟩ := ih hrest (lo + 1) (fun x hx => by have := hfirst x hx; omega) hnil
        refine ⟨r', List.mem_cons_of_mem _ hr', ?_⟩
        rw [List.length_cons]
        push_cast
        omega

end IterationContext

namespace Books

variable {cfg : AttemptConfig} {verdicts : List Verdict} {retries : ℤ} {ctx : IterationContext}

/-- The latest attempt left an entry or a record. -/
lemma evidence (h : Books cfg verdicts retries ctx) (hpos : 1 ≤ ctx.latestAttempt) :
    (∃ e ∈ ctx.entries, e.attempt = ctx.latestAttempt) ∨ ∃ r ∈ ctx.records, r.attempt = ctx.latestAttempt := by
  have hrecord : ∀ r ∈ ctx.records, r.attempt ≤ ctx.latestAttempt := fun r hr =>
    (IterationContext.le_maxOr (List.mem_map_of_mem hr)).trans ((le_max_right _ _).trans (le_max_left _ _))
  rcases max_choice (max (IterationContext.maxOr (ctx.entries.map (·.attempt)))
    (IterationContext.maxOr (ctx.records.map (·.attempt)))) (ctx.records.length : ℤ) with hmax | hlength
  · have hlatest : ctx.latestAttempt = _ := hmax
    rcases max_choice (IterationContext.maxOr (ctx.entries.map (·.attempt)))
      (IterationContext.maxOr (ctx.records.map (·.attempt))) with hentries | hrecords
    · rw [hentries] at hlatest
      have hne : ctx.entries.map (·.attempt) ≠ [] := fun hnil => by
        rw [hnil] at hlatest
        rw [hlatest] at hpos
        exact absurd hpos (by decide)
      obtain ⟨e, he, heq⟩ := List.mem_map.mp (IterationContext.maxOr_mem hne)
      exact .inl ⟨e, he, heq.trans hlatest.symm⟩
    · rw [hrecords] at hlatest
      have hne : ctx.records.map (·.attempt) ≠ [] := fun hnil => by
        rw [hnil] at hlatest
        rw [hlatest] at hpos
        exact absurd hpos (by decide)
      obtain ⟨r, hr, heq⟩ := List.mem_map.mp (IterationContext.maxOr_mem hne)
      exact .inr ⟨r, hr, heq.trans hlatest.symm⟩
  · -- the records are as many as the latest attempt counts, so the last of them is its record
    have hlatest : ctx.latestAttempt = ctx.records.length := hlength
    have hne : ctx.records ≠ [] := fun hnil => by
      rw [hlatest, hnil] at hpos
      exact absurd hpos (by decide)
    obtain ⟨r, hr, hle⟩ := IterationContext.length_le h.apart 1 (fun r hr => (h.records r hr).1) hne
    have := hrecord r hr
    exact .inr ⟨r, hr, by omega⟩

/-- A phase that failed in the latest attempt has its entry there. -/
lemma current_of_failed (h : Books cfg verdicts retries ctx) {p : Phase}
    (hv : Verdict.mk ctx.latestAttempt p false ∈ verdicts) (hpos : 1 ≤ ctx.latestAttempt) :
    ∃ e ∈ ctx.latest, e.phase = p ∧ e.infrastructure = false := by
  have hentry : ∃ e ∈ ctx.entries, e.attempt = ctx.latestAttempt := by
    rcases h.evidence hpos with hentry | ⟨r, hr, hattempt⟩
    · exact hentry
    · obtain ⟨e, he, heq⟩ := h.firedBy r hr _ hv hattempt.symm rfl
      exact ⟨e, he, heq.trans hattempt⟩
  obtain ⟨e, he, hattempt⟩ := hentry
  obtain ⟨hphase, hinfra⟩ := h.fired e he _ hv hattempt.symm rfl
  exact ⟨e, IterationContext.mem_latest.mpr ⟨he, hattempt⟩, hphase.symm, hinfra⟩

/-- **What is resolved was judged in the latest attempt**: its phase was passed there, or what it reported is
current. -/
theorem judged_of_resolved (h : Books cfg verdicts retries ctx) {e : FailureEntry} (he : e ∈ ctx.buckets.resolved) :
    e.attempt < ctx.latestAttempt ∧ ∃ passed, Verdict.mk ctx.latestAttempt e.phase passed ∈ verdicts ∧
      (passed = false → ∃ e' ∈ ctx.buckets.current, e'.phase = e.phase ∧ e'.infrastructure = false) := by
  obtain ⟨hmem, hbucket⟩ := IterationContext.mem_resolved.mp he
  obtain ⟨hne, hwhy⟩ := IterationContext.resolved_cases hbucket
  have holder : e.attempt < ctx.latestAttempt := lt_of_le_of_ne (IterationContext.attempt_le_latest hmem) hne
  have hpos : 1 ≤ ctx.latestAttempt := by
    have := (h.entries e hmem).1.1
    omega
  have hcurrent : ∀ e' ∈ ctx.latest, e' ∈ ctx.buckets.current := fun e' he' =>
    IterationContext.current_of_latest he' ((h.entries e' (IterationContext.mem_latest.mp he').1).1.1)
  refine ⟨holder, ?_⟩
  rcases hwhy with ⟨hrank, hmeasured⟩ | ⟨-, hread⟩ | ⟨hskip, hbelow⟩
  · obtain ⟨e', he', heq⟩ := List.mem_map.mp hmeasured
    obtain ⟨hlatest, hinfra⟩ := List.mem_filter.mp he'
    have hphase : e'.phase = e.phase := Phase.rank_injective (heq.trans hrank.symm)
    have hmeasured' : e'.infrastructure = false := by simpa using hinfra
    obtain ⟨hentry, hattempt⟩ := IterationContext.mem_latest.mp hlatest
    refine ⟨false, ?_, fun _ => ⟨e', hcurrent e' hlatest, hphase, hmeasured'⟩⟩
    rw [← hattempt, ← hphase]
    exact h.measured e' hentry hmeasured'
  · obtain ⟨r, hr, hphase⟩ := List.mem_map.mp hread
    obtain ⟨hreading, hattempt⟩ := List.mem_filter.mp hr
    obtain ⟨passed, hverdict⟩ := h.read r hreading
    rw [of_decide_eq_true hattempt, hphase] at hverdict
    refine ⟨passed, hverdict, fun hfailed => ?_⟩
    subst hfailed
    obtain ⟨e', he', hsame⟩ := h.current_of_failed hverdict hpos
    exact ⟨e', hcurrent e' he', hsame⟩
  · have hnonneg : 0 ≤ e.phase.rank := by cases e.phase <;> decide
    obtain ⟨e', hlatest, hgate⟩ := IterationContext.exists_of_le_gateRank hnonneg hbelow.le
    obtain ⟨hentry, hattempt⟩ := IterationContext.mem_latest.mp hlatest
    refine ⟨true, ?_, nofun⟩
    have hpassed := h.before e' hentry e hmem (by rw [hattempt]; exact holder) (by rw [hgate]; exact hbelow) hskip
    rwa [hattempt] at hpassed

end Books

/-! ## Runs -/

namespace ComponentRun

variable {cfg : AttemptConfig} {s s' : ComponentRun} {ctx : IterationContext}

/-- **The invariant.** -/
structure Inv (cfg : AttemptConfig) (s : ComponentRun) (ctx : IterationContext) : Prop where
  stored : IterationContext.fromJson (s.context.getD "\x7b\x7d") = .ok ctx
  books : Books cfg s.verdicts s.retries ctx
  /-- a kept head is judged in the first attempt -/
  kept : s.rejudge = true → ctx.entries = [] ∧ s.stage = .pending
  recorded : s.lost = false → ctx.entries = s.recorded
  past : ∀ v ∈ s.verdicts, v.attempt ≤ s.number
  pending : s.stage = .pending → ∀ v ∈ s.verdicts, v.attempt ≤ s.retries
  completed : s.stage = .completed → ∀ v ∈ s.verdicts, v.attempt = s.number → v.passed = true
  judged : s.stage = .completed → ∀ e ∈ ctx.entries, e.phase.skippable = false →
    e.phase.rank < Phase.contract.rank → Verdict.mk s.number e.phase true ∈ s.verdicts
  read : ∀ r ∈ s.readings, ∃ passed, Verdict.mk r.attempt r.phase passed ∈ s.verdicts

lemma fromJson_empty : IterationContext.fromJson "\x7b\x7d" = .ok {} := if_pos (.inr rfl)

lemma inv_init (retries : ℕ) (rejudge completed : Bool) : Inv cfg (init retries rejudge completed) {} where
  stored := fromJson_empty
  books := Books.empty cfg [] retries
  kept hkept := by
    have hcompleted : (!completed) = true := (Bool.and_eq_true_iff.mp hkept).2
    exact ⟨rfl, if_neg (by simpa using hcompleted)⟩
  recorded _ := rfl
  past := nofun
  pending _ := nofun
  completed _ := nofun
  judged _ := nofun
  read := nofun

/-- Whoever gets past the phase of an entry is judged by it. -/
lemma Inv.judges (h : Inv cfg s ctx) {e : FailureEntry} (he : e ∈ ctx.entries) (hskip : e.phase.skippable = false)
    (hcontract : e.phase ≠ .contract) : e.phase.Judges cfg s.rejudge where
  inferred := hskip
  live := (h.books.entries e he).2
  gated := hcontract
  ran _ := by
    by_contra hrejudge
    rw [(h.kept (Bool.not_eq_false _ ▸ hrejudge)).1] at he
    cases he

/-- The attempt, with its verdicts. -/
lemma Inv.judged_books (h : Inv cfg s ctx) (hpending : s.stage = .pending) (o : Outcome) :
    Books cfg (s.judged o).verdicts s.retries ctx ∧ (∀ v ∈ (s.judged o).verdicts, v.attempt ≤ s.number) ∧
      ∀ v ∈ (s.judged o).verdicts, v.attempt = s.number → (v.phase, v.passed) ∈ o.verdicts := by
  have hold : ∀ v ∈ s.verdicts, v.attempt < s.number := fun v hv => Int.lt_add_one_of_le (h.pending hpending v hv)
  have hnew : ∀ v ∈ o.verdicts.map (fun v => Verdict.mk s.number v.1 v.2), v.attempt = s.number ∧
      (v.phase, v.passed) ∈ o.verdicts := fun v hv => by
    obtain ⟨w, hw, rfl⟩ := List.mem_map.mp hv
    exact ⟨rfl, hw⟩
  refine ⟨h.books.append _ fun v hv => ?_, fun v hv => ?_, fun v hv hattempt => ?_⟩
  · rw [(hnew v hv).1]
    exact Int.lt_succ _
  · rcases List.mem_append.mp hv with hv | hv
    · exact (hold v hv).le
    · exact (hnew v hv).1.le
  · rcases List.mem_append.mp hv with hv | hv
    · exact absurd hattempt (hold v hv).ne
    · exact (hnew v hv).2

lemma mem_judged {o : Outcome} {p : Phase} {passed : Bool} (h : (p, passed) ∈ o.verdicts) :
    Verdict.mk s.number p passed ∈ (s.judged o).verdicts :=
  List.mem_append_right _ (List.mem_map_of_mem (f := fun v => Verdict.mk s.number v.1 v.2) h)

lemma judged_read {o : Outcome} (hread : ∀ p ∈ o.readings, ∃ passed, (p, passed) ∈ o.verdicts) :
    ∀ r ∈ (s.judged o).readings, ∃ passed, Verdict.mk r.attempt r.phase passed ∈ (s.judged o).verdicts := by
  intro r hr
  obtain ⟨p, hp, rfl⟩ := List.mem_map.mp hr
  obtain ⟨passed, hpassed⟩ := hread p hp
  exact ⟨passed, mem_judged hpassed⟩

/-- The component is done. -/
lemma Inv.ended (h : Inv cfg s ctx) (hpending : s.stage = .pending) {o : Outcome}
    (hread : ∀ p ∈ o.readings, ∃ passed, (p, passed) ∈ o.verdicts) (lost : Bool) (hlost : lost = false → s.lost = false) :
    Inv cfg { s.judged o with stage := .ended, lost := lost } ctx := by
  obtain ⟨hbooks, hpast, -⟩ := h.judged_books hpending o
  exact
    { stored := h.stored
      books := hbooks
      kept := nofun
      recorded := fun hfalse => h.recorded (hlost hfalse)
      past := hpast
      pending := nofun
      completed := nofun
      judged := nofun
      read := judged_read hread }

/-- The next attempt starts with what the superseded one noted. -/
lemma inv_supersede {notes : List Note} (hbooks : Books cfg s.verdicts (s.retries + 1) ctx)
    (hrejudge : s.rejudge = false) (hpast : ∀ v ∈ s.verdicts, v.attempt ≤ s.number)
    (hread : ∀ r ∈ s.readings, ∃ passed, Verdict.mk r.attempt r.phase passed ∈ s.verdicts)
    (hrecorded : s.lost = false → ctx.entries = s.recorded ++ IterationContext.entriesOf s.number notes) :
    Inv cfg (s.supersede notes ctx) (ctx.merge s.readings) where
  stored := IterationContext.fromJson_toJson _
  books := by
    have hmerged := hbooks.merge hread
    simpa [supersede] using hmerged
  kept hkept := absurd (hkept.symm.trans hrejudge) nofun
  recorded hlost := by
    rw [(IterationContext.merge_eq s.readings ctx).2.1]
    exact hrecorded hlost
  past v hv := (hpast v hv).trans (by simp [number, supersede])
  pending _ v hv := (hpast v hv).trans (by simp [number, supersede])
  completed := nofun
  judged := nofun
  read := hread

/-- **An attempt keeps the invariant**, and does not raise. -/
lemma attempt_ok (h : Inv cfg s ctx) (hpending : s.stage = .pending) (a : Answers) :
    ∃ s' ctx', s.attempt cfg a = .ok s' ∧ Inv cfg s' ctx' := by
  have hsound := sound_runGates cfg s.rejudge a
  unfold attempt
  dsimp only
  generalize runGates (gates cfg s.rejudge a) = o at hsound
  obtain ⟨hbooks, hpast, hlast⟩ := h.judged_books hpending o
  cases hending : o.ending with
  | stopped => exact ⟨_, ctx, rfl, h.ended hpending hsound.read s.lost id⟩
  | completed =>
      refine ⟨_, ctx, rfl, ?_⟩
      exact
        { stored := h.stored
          books := hbooks
          kept := nofun
          recorded := h.recorded
          past := hpast
          pending := nofun
          completed := fun _ v hv hattempt => hsound.passed hending _ (hlast v hv hattempt)
          judged := fun _ e he hskip hrank => mem_judged (hsound.judged hending _
            (h.judges he hskip fun hcontract => absurd (hcontract ▸ hrank) (lt_irrefl _)))
          read := judged_read hsound.read }
  | retry notes =>
      obtain ⟨p, verdict, hnotes, hlive, hverdict, hfired, hbefore⟩ := hsound.fired notes hending
      -- the context the result came with
      obtain ⟨given, hgiven, hgivenBooks, hgivenEntries, hgivenRecorded⟩ : ∃ given,
          IterationContext.fromJson ((if a.engineer.isLost && !s.rejudge then none else s.context).getD "\x7b\x7d") =
            .ok given ∧ Books cfg (s.judged o).verdicts s.retries given ∧ (∀ e ∈ given.entries, e ∈ ctx.entries) ∧
              ((s.lost || (a.engineer.isLost && !s.rejudge)) = false → given.entries = s.recorded) := by
        by_cases hlost : (a.engineer.isLost && !s.rejudge) = true
        · rw [if_pos hlost]
          exact ⟨{}, fromJson_empty, Books.empty _ _ _, nofun, fun hfalse => by simp [hlost] at hfalse⟩
        · rw [if_neg hlost]
          refine ⟨ctx, h.stored, hbooks, fun _ => id, fun hfalse => h.recorded ?_⟩
          exact (Bool.or_eq_false_iff.mp hfalse).1
      have hnoted := hgivenBooks.note (Int.natCast_nonneg _) hnotes hlive (fun htrue => mem_judged (hverdict htrue))
        (fun v hv hattempt hfailed => hfired _ (hlast v hv hattempt) hfailed)
        (fun e he hskip hrank => mem_judged (hbefore _ (h.judges (hgivenEntries e he) hskip fun hcontract => by
          -- only a checkpoint ranks above the contract test, and with it there is none
          have hlive' := (h.books.entries e (hgivenEntries e he)).2
          rw [hcontract] at hrank hlive'
          cases p <;> first | exact absurd hrank (by decide) | exact absurd (hlive'.symm.trans hlive) nofun) hrank))
      dsimp only
      rw [hgiven]
      show ∃ s' ctx', retryOrFail cfg _ a.notConverging notes _ = .ok s' ∧ Inv cfg s' ctx'
      unfold retryOrFail
      split_ifs with hretry
      · rw [IterationContext.fromJson_toJson]
        refine ⟨_, _, rfl, inv_supersede hnoted rfl hpast (judged_read hsound.read) fun hfalse => ?_⟩
        rw [IterationContext.foldl_note]
        exact congrArg (· ++ _) (hgivenRecorded hfalse)
      · exact ⟨_, ctx, rfl, h.ended hpending hsound.read _ fun hfalse => (Bool.or_eq_false_iff.mp hfalse).1⟩

/-- **So does a contract failure.** -/
lemma contractFailure_ok (h : Inv cfg s ctx) (hcompleted : s.stage = .completed) (hprs : cfg.componentPrs = false)
    (testOutput : String) : ∃ s' ctx', s.contractFailure testOutput = .ok s' ∧ Inv cfg s' ctx' := by
  have hrejudge : s.rejudge = false := by
    by_contra hkept
    exact absurd (hcompleted.symm.trans (h.kept (Bool.not_eq_false _ ▸ hkept)).2) nofun
  -- the verdicts before stay, and the contract test is the only phase that failed in the attempt
  have hfired : ∀ v ∈ s.verdicts ++ [Verdict.mk s.number .contract false], v.attempt = s.number →
      v.passed = false → v.phase = .contract ∧ true = true := fun v hv hattempt hfailed => by
    rcases List.mem_append.mp hv with hv | hv
    · exact absurd (hfailed.symm.trans (h.completed hcompleted v hv hattempt)) nofun
    · rw [List.mem_singleton.mp hv]
      exact ⟨rfl, rfl⟩
  have hbooks := h.books.append [Verdict.mk s.number .contract false] fun v hv => by
    rw [List.mem_singleton.mp hv]
    exact Int.lt_succ _
  have hnoted := hbooks.note (Int.natCast_nonneg _)
    (NotesOf.failed (String.ofList (testOutput.toList.take 500)) false : NotesOf .contract _ _) hprs
    (fun _ => List.mem_append_right _ (List.mem_singleton_self _)) hfired
    (fun e he hskip hrank => List.mem_append_left _ (h.judged hcompleted e he hskip hrank))
  unfold contractFailure
  rw [h.stored]
  refine ⟨_, _, rfl, inv_supersede hnoted hrejudge (fun v hv => ?_) (fun r hr => ?_) fun hlost => ?_⟩
  · rcases List.mem_append.mp hv with hv | hv
    · exact h.past v hv
    · exact (congrArg Verdict.attempt (List.mem_singleton.mp hv)).le
  · obtain ⟨passed, hpassed⟩ := h.read r hr
    exact ⟨passed, List.mem_append_left _ hpassed⟩
  · have hentries := congrArg IterationContext.entries (IterationContext.foldl_note s.number
      [.entry .contract (String.ofList (testOutput.toList.take 500)) false] ctx)
    exact hentries.trans (congrArg (· ++ _) (h.recorded hlost))

/-- Every step keeps the invariant. -/
lemma inv_next {a : Action} (h : ∃ ctx, Inv cfg s ctx) (hstep : Step cfg s a s') : ∃ ctx, Inv cfg s' ctx := by
  obtain ⟨ctx, hinv⟩ := h
  unfold Step next at hstep
  cases a with
  | attempt a =>
      dsimp only at hstep
      split_ifs at hstep with hpending
      obtain ⟨t, ctx', ht, hinv'⟩ := attempt_ok hinv hpending a
      rw [ht] at hstep
      cases hstep
      exact ⟨ctx', hinv'⟩
  | contractFailure testOutput =>
      dsimp only at hstep
      split_ifs at hstep with hblamed
      obtain ⟨t, ctx', ht, hinv'⟩ := contractFailure_ok hinv hblamed.1 hblamed.2.1 testOutput
      rw [ht] at hstep
      cases hstep
      exact ⟨ctx', hinv'⟩

lemma inv_reaches {retries : ℕ} {rejudge completed : Bool}
    (run : Reaches (Step cfg) Always (init retries rejudge completed) s) : ∃ ctx, Inv cfg s ctx :=
  run.invariant ⟨{}, inv_init retries rejudge completed⟩ fun _ _ _ hinv _ hstep => inv_next hinv hstep

/-- **The retry context.**  Every entry of the context is in one bucket, and it has every entry that was recorded
as long as no result came without its context; the phase of a resolved entry gave a verdict in the latest attempt,
where it was passed or what it reported is current; and the context is read back as it was. -/
theorem buckets_sound {retries : ℕ} {rejudge completed : Bool}
    (run : Reaches (Step cfg) Always (init retries rejudge completed) s) :
    ∃ ctx, IterationContext.fromJson (s.context.getD "\x7b\x7d") = .ok ctx ∧
      IterationContext.fromJson ctx.toJson = .ok ctx ∧ (s.lost = false → ctx.entries = s.recorded) ∧
        (ctx.buckets.current ++ ctx.buckets.notRemeasured ++ ctx.buckets.resolved).Perm ctx.entries ∧
          (ctx.buckets.current.Disjoint ctx.buckets.notRemeasured ∧ ctx.buckets.current.Disjoint ctx.buckets.resolved ∧
            ctx.buckets.notRemeasured.Disjoint ctx.buckets.resolved) ∧
            ∀ e ∈ ctx.buckets.resolved, e.attempt < ctx.buckets.measuredAttempt ∧
              ∃ passed, Verdict.mk ctx.buckets.measuredAttempt e.phase passed ∈ s.verdicts ∧
                (passed = false → ∃ e' ∈ ctx.buckets.current, e'.phase = e.phase ∧ e'.infrastructure = false) := by
  obtain ⟨ctx, hinv⟩ := inv_reaches run
  refine ⟨ctx, hinv.stored, IterationContext.fromJson_toJson ctx, hinv.recorded, IterationContext.buckets_perm ctx,
    IterationContext.buckets_disjoint ctx, fun e he => ?_⟩
  have hmeasured : ctx.buckets.measuredAttempt = ctx.latestAttempt := by
    rw [IterationContext.buckets_eq]
  rw [hmeasured]
  exact hinv.books.judged_of_resolved he

/-! ## Two attempts -/

def oneRetry : AttemptConfig where
  maxRetries := 2
  skipVerification := false
  accepted := false
  componentPrs := false

/-- Phase 1 fails twice over the same test. -/
def failsTwice : List Action := List.replicate 2 (.attempt { verify := .failed "tests: FAIL" })

/-- An attempt that goes on with the context of its worker. -/
lemma next_attempt {a : Answers} {notes : List Note} (hpending : s.stage = .pending)
    (hstored : IterationContext.fromJson (s.context.getD "\x7b\x7d") = .ok ctx) (hengineer : a.engineer.isLost = false)
    (hending : (runGates (gates cfg s.rejudge a)).ending = .retry notes)
    (hretry : s.retries < cfg.maxRetries ∧ ¬a.notConverging) :
    ∃ s', s.next cfg (.attempt a) = some s' ∧ s'.stage = .pending ∧ s'.rejudge = false ∧ s'.retries = s.retries + 1 ∧
      s'.lost = s.lost ∧ IterationContext.fromJson (s'.context.getD "\x7b\x7d") =
        .ok ((notes.foldl (IterationContext.note s.number) ctx).merge
          (s.judged (runGates (gates cfg s.rejudge a))).readings) := by
  refine ⟨supersede { s.judged (runGates (gates cfg s.rejudge a)) with lost := s.lost } notes
    (notes.foldl (IterationContext.note s.number) ctx), ?_, rfl, rfl, rfl, rfl, ?_⟩
  swap
  · exact IterationContext.fromJson_toJson _
  rw [next, if_pos hpending, attempt]
  simp only [hending, hengineer, Bool.false_and, Bool.or_false, Bool.false_eq_true, if_false]
  rw [hstored]
  show (retryOrFail cfg _ a.notConverging notes _).toOption = _
  unfold retryOrFail
  rw [if_pos (by exact hretry), IterationContext.fromJson_toJson]
  rfl

/-- The run of the two attempts, with the context it leaves. -/
lemma failsTwice_run : ∃ s, failsTwice.foldlM (next oneRetry) (init 0 false false) = some s ∧ s.lost = false ∧
    IterationContext.fromJson (s.context.getD "\x7b\x7d") =
      .ok { entries := [⟨1, .verification, "tests: FAIL", false⟩, ⟨2, .verification, "tests: FAIL", false⟩] } := by
  obtain ⟨s, hfirst, hpending, hrejudge, hretries, hlost, hstored⟩ :=
    @next_attempt oneRetry (init 0 false false) {} { verify := .failed "tests: FAIL" }
      [.entry .verification "tests: FAIL" false] rfl fromJson_empty rfl rfl (by decide)
  obtain ⟨s', hsecond, -, -, -, hlost', hstored'⟩ :=
    @next_attempt oneRetry s _ { verify := .failed "tests: FAIL" } [.entry .verification "tests: FAIL" false] hpending
      hstored rfl (by rw [hrejudge]; rfl) (by rw [hretries]; decide)
  refine ⟨s', ?_, hlost'.trans hlost, ?_⟩
  · rw [failsTwice, List.replicate, List.foldlM_cons, hfirst]
    show (s.next oneRetry _ >>= fun s => some s) = some s'
    rw [hsecond]
    rfl
  · rw [hstored', hrejudge, number, hretries]
    rfl

/-- A run of two attempts. -/
theorem buckets_sound_failsTwice : ∃ s, failsTwice.foldlM (next oneRetry) (init 0 false false) = some s ∧
    ∃ ctx, IterationContext.fromJson (s.context.getD "\x7b\x7d") = .ok ctx ∧ ctx.entries = s.recorded ∧
      ∀ e ∈ ctx.buckets.resolved, ∃ passed, Verdict.mk ctx.buckets.measuredAttempt e.phase passed ∈ s.verdicts := by
  obtain ⟨s, hs, hlost, -⟩ := failsTwice_run
  obtain ⟨ctx, hstored, -, hrecorded, -, -, hresolved⟩ := buckets_sound (Reaches.of_foldlM hs)
  refine ⟨s, hs, ctx, hstored, hrecorded hlost, fun e he => ?_⟩
  obtain ⟨-, passed, hverdict, -⟩ := hresolved e he
  exact ⟨passed, hverdict⟩

/-- **A failure that is reported again is resolved**: what the latest attempt reports supersedes it. -/
theorem repeated_failure_resolved : ∃ s ctx, Reaches (Step oneRetry) Always (init 0 false false) s ∧
    IterationContext.fromJson (s.context.getD "\x7b\x7d") = .ok ctx ∧
      ∃ e ∈ ctx.buckets.resolved, ∃ e' ∈ ctx.buckets.current, e'.phase = e.phase ∧ e'.text = e.text := by
  obtain ⟨s, hs, -, hctx⟩ := failsTwice_run
  exact ⟨s, _, Reaches.of_foldlM hs, hctx, ⟨1, .verification, "tests: FAIL", false⟩, by decide,
    ⟨2, .verification, "tests: FAIL", false⟩, by decide, rfl, rfl⟩

end ComponentRun

end Pipeline

end Kstrl
