import Kstrl.Factory.RunLists
import Mathlib.Algebra.Order.BigOperators.Group.List

/-!
# How much a factory run does

What a component may still cost a run, in launches, and what the run has still to do, in steps.

* **`launches_bounded`**: a component is launched once more than it has retries left, at most.
* **`pending_takes_retry`**: whatever sends a component back to `PENDING` takes exactly one retry.
* **`run_ends`**: no run goes on for ever, and one that has not ended has a step to make.
* **`run_parallel`**: no more components run at a time than the configuration allows, and each has its dependencies
  completed all the while.
-/

namespace Kstrl

namespace Factory

namespace Rounds

open Relation Runs

/-! ## What is left of a component -/

/-- The retries a component has left. -/
def left (cfg : RunConfig) (c : Component) : ℕ := (cfg.maxRetries - c.retries).toNat

/-- The launches a component may still come to. -/
def launchesOf (cfg : RunConfig) (c : Component) : ℕ := left cfg c + if c.status = .pending then 1 else 0

/-- The changes of status a component may still come to. -/
def changesOf (cfg : RunConfig) (c : Component) : ℕ :=
  3 * left cfg c + if c.status = .pending then 2 else if c.status = .running then 1 else 0

def launchesLeft (cfg : RunConfig) (m : Manifest) (x : String) : ℕ := ((m.getComponent x).map (launchesOf cfg)).getD 0

def changesLeft (cfg : RunConfig) (m : Manifest) (x : String) : ℕ := ((m.getComponent x).map (changesOf cfg)).getD 0

/-- A manifest that has no more left than another one. -/
structure Spent (cfg : RunConfig) (m m' : Manifest) : Prop where
  ids : m'.ids = m.ids
  launches : ∀ x, launchesLeft cfg m' x ≤ launchesLeft cfg m x
  changes : ∀ x, changesLeft cfg m' x ≤ changesLeft cfg m x

namespace Spent

variable {cfg : RunConfig} {m m' m'' : Manifest}

lemma refl : Spent cfg m m := ⟨rfl, fun _ => le_refl _, fun _ => le_refl _⟩

lemma of_eq (h : m' = m) : Spent cfg m m' := h ▸ refl

lemma trans (h : Spent cfg m m') (h' : Spent cfg m' m'') : Spent cfg m m'' :=
  ⟨h'.ids.trans h.ids, fun x => (h'.launches x).trans (h.launches x), fun x => (h'.changes x).trans (h.changes x)⟩

end Spent

section Component

variable {cfg : RunConfig} {c c' : Component}

/-- A component that keeps its retries, and is not about to be launched. -/
lemma spent_kept (status : ComponentStatus) (hretries : c'.retries = c.retries) (hstatus : c'.status = status)
    (hpending : status ≠ .pending) (hrunning : status ≠ .running) :
    launchesOf cfg c' ≤ launchesOf cfg c ∧ changesOf cfg c' ≤ changesOf cfg c := by
  simp only [launchesOf, changesOf, left, hretries, hstatus, if_neg hpending, if_neg hrunning]
  constructor <;> omega

lemma changes_lt_kept (status : ComponentStatus) (hretries : c'.retries = c.retries) (hstatus : c'.status = status)
    (hpending : status ≠ .pending) (hrunning : status ≠ .running) (hopen : c.status = .pending ∨ c.status = .running) :
    changesOf cfg c' < changesOf cfg c := by
  simp only [changesOf, left, hretries, hstatus, if_neg hpending, if_neg hrunning]
  rcases hopen with h | h <;> simp [h]

/-- A component that goes back with one more retry taken. -/
lemma spent_back (hretries : c'.retries = c.retries + 1) (hleft : c.retries < cfg.maxRetries)
    (hpending : c'.status = .pending) :
    launchesOf cfg c' ≤ launchesOf cfg c ∧ changesOf cfg c' < changesOf cfg c := by
  simp only [launchesOf, changesOf, left, hretries, hpending, if_true]
  constructor <;> omega

/-- The verdict that sends a component back is given with a retry left. -/
lemma lt_of_resolve_back {o : Outcome} {error phase check : String} (h : resolve cfg c o = .back error phase check) :
    c.retries < cfg.maxRetries := by
  cases o with
  | retryOrFail e p k diverging =>
      simp only [resolve] at h
      split_ifs at h with hleft
      exact hleft
  | park asked => cases asked <;> cases h
  | fail e p k => cases h
  | complete => cases h
  | mergePending e => cases h

/-- **What a transition leaves of its component.** -/
lemma spent_change (now : String) (o : Outcome) :
    launchesOf cfg ((resolve cfg c o).change now c) ≤ launchesOf cfg c ∧
      changesOf cfg ((resolve cfg c o).change now c) ≤ changesOf cfg c ∧
      (c.status = .pending ∨ c.status = .running →
        changesOf cfg ((resolve cfg c o).change now c) < changesOf cfg c) := by
  cases hv : resolve cfg c o with
  | back error phase check =>
      obtain ⟨hlaunches, hchanges⟩ := @spent_back cfg c (sendBack error phase check c) rfl (lt_of_resolve_back hv) rfl
      exact ⟨hlaunches, hchanges.le, fun _ => hchanges⟩
  | failed error phase check =>
      obtain ⟨hlaunches, hchanges⟩ := @spent_kept cfg c (failAs now error phase check c) .failed rfl rfl
        (by decide) (by decide)
      exact ⟨hlaunches, hchanges, changes_lt_kept .failed rfl rfl (by decide) (by decide)⟩
  | completed =>
      obtain ⟨hlaunches, hchanges⟩ := @spent_kept cfg c (completeAs now c) .completed rfl rfl (by decide) (by decide)
      exact ⟨hlaunches, hchanges, changes_lt_kept .completed rfl rfl (by decide) (by decide)⟩
  | mergePending error =>
      obtain ⟨hlaunches, hchanges⟩ := @spent_kept cfg c (parkAs .mergePending error c) .mergePending rfl rfl
        (by decide) (by decide)
      exact ⟨hlaunches, hchanges, changes_lt_kept .mergePending rfl rfl (by decide) (by decide)⟩
  | awaitingApproval =>
      obtain ⟨hlaunches, hchanges⟩ := @spent_kept cfg c (parkAs .awaitingApproval awaitingApprovalError c)
        .awaitingApproval rfl rfl (by decide) (by decide)
      exact ⟨hlaunches, hchanges, changes_lt_kept .awaitingApproval rfl rfl (by decide) (by decide)⟩

end Component

/-! ## What a step leaves -/

section Step

variable {cfg : RunConfig} {now : String} {s s' : State} {a : Action} {x : String}

/-- A component changed alone. -/
lemma spent_update {m m' : Manifest} {f : Component → Component} (hf : ∀ c, (f c).id = c.id)
    (hmanifest : m' = m.update x f)
    (hspent : ∀ c, m.getComponent x = some c →
      launchesOf cfg (f c) ≤ launchesOf cfg c ∧ changesOf cfg (f c) ≤ changesOf cfg c) :
    Spent cfg m m' := by
  have hget : ∀ z, m'.getComponent z = if z = x then (m.getComponent z).map f else m.getComponent z := by
    intro z
    rw [hmanifest, Manifest.getComponent_update hf]
  refine ⟨?_, fun z => ?_, fun z => ?_⟩
  · rw [hmanifest, Manifest.update_eq_updateAll, Manifest.ids_updateAll hf]
  · rw [launchesLeft, launchesLeft, hget]
    split_ifs with hz
    · subst hz
      cases hc : m.getComponent z with
      | none => exact le_refl _
      | some c => exact (hspent c hc).1
    · exact le_refl _
  · rw [changesLeft, changesLeft, hget]
    split_ifs with hz
    · subst hz
      cases hc : m.getComponent z with
      | none => exact le_refl _
      | some c => exact (hspent c hc).2
    · exact le_refl _

lemma changesLeft_of_some {m : Manifest} {c : Component} (h : m.getComponent x = some c) :
    changesLeft cfg m x = changesOf cfg c := by
  rw [changesLeft, h]
  rfl

lemma launchesLeft_of_some {m : Manifest} {c : Component} (h : m.getComponent x = some c) :
    launchesLeft cfg m x = launchesOf cfg c := by
  rw [launchesLeft, h]
  rfl

/-- **A settled component.** -/
lemma spent_settles {o : Outcome} {c : Component} (hs : Settles cfg now s x o c s') :
    Spent cfg s.manifest s'.manifest ∧
      (c.status = .pending ∨ c.status = .running → changesLeft cfg s'.manifest x < changesLeft cfg s.manifest x) := by
  have happlied := hs.applied
  have hself := happlied.self
  rw [hs.found, Option.map_some] at hself
  obtain ⟨hlaunches, hchanges, hstrict⟩ := @spent_change cfg c now o
  have hskip : ∀ d : Component, launchesOf cfg (Manifest.skip x now d) ≤ launchesOf cfg d ∧
      changesOf cfg (Manifest.skip x now d) ≤ changesOf cfg d := fun d =>
    spent_kept .skipped rfl rfl (by decide) (by decide)
  have hboth : ∀ z, launchesLeft cfg s'.manifest z ≤ launchesLeft cfg s.manifest z ∧
      changesLeft cfg s'.manifest z ≤ changesLeft cfg s.manifest z := by
    intro z
    by_cases hz : z = x
    · subst hz
      rw [launchesLeft_of_some hself, launchesLeft_of_some hs.found, changesLeft_of_some hself,
        changesLeft_of_some hs.found]
      exact ⟨hlaunches, hchanges⟩
    by_cases hchain : (resolve cfg c o).fails = true ∧ TransGen s.manifest.OpenDependsOn z x
    · have hget := happlied.skips hchain.1 z hchain.2
      cases hd : s.manifest.getComponent z with
      | none =>
          rw [hd] at hget
          simp [launchesLeft, changesLeft, hd, hget]
      | some d =>
          rw [hd, Option.map_some] at hget
          rw [launchesLeft_of_some hget, launchesLeft_of_some hd, changesLeft_of_some hget, changesLeft_of_some hd]
          exact hskip d
    · have hget := happlied.others z hz fun hfails hpath => hchain ⟨hfails, hpath⟩
      rw [launchesLeft, launchesLeft, changesLeft, changesLeft, hget]
      exact ⟨le_refl _, le_refl _⟩
  refine ⟨⟨happlied.ids, fun z => (hboth z).1, fun z => (hboth z).2⟩, fun hopen => ?_⟩
  rw [changesLeft_of_some hself, changesLeft_of_some hs.found]
  exact hstrict hopen

/-- A component whose attempt begins. -/
lemma spent_begin {m m' : Manifest} (hmanifest : m' = m.update x beginAttempt) (hx : HasStatus m .pending x) :
    Spent cfg m m' := by
  refine spent_update (f := beginAttempt) (fun _ => rfl) hmanifest fun c hc => ?_
  have hstatus : c.status = .pending := (hx.unique ⟨c, hc, rfl⟩).symm
  simp [launchesOf, changesOf, left, beginAttempt, hstatus]

lemma begin_lt {m m' : Manifest} (hmanifest : m' = m.update x beginAttempt) (hx : HasStatus m .pending x) :
    changesLeft cfg m' x < changesLeft cfg m x ∧ launchesLeft cfg m' x + 1 = launchesLeft cfg m x := by
  obtain ⟨c, hc, hstatus⟩ := hx
  have hget : m'.getComponent x = some (beginAttempt c) := by
    rw [hmanifest, Manifest.getComponent_update (f := beginAttempt) fun _ => rfl, if_pos rfl, hc, Option.map_some]
  rw [changesLeft_of_some hget, changesLeft_of_some hc, launchesLeft_of_some hget, launchesLeft_of_some hc]
  simp [changesOf, launchesOf, left, beginAttempt, hstatus]

/-- A breaker that goes back. -/
lemma spent_reset (hreset : Reset cfg s s') :
    Spent cfg s.manifest s'.manifest ∧
      ∃ id ∈ s.manifest.ids, changesLeft cfg s'.manifest id < changesLeft cfg s.manifest id := by
  obtain ⟨id, c, error, hreset⟩ := hreset
  have hback : launchesOf cfg (retryBreaker error c) ≤ launchesOf cfg c ∧
      changesOf cfg (retryBreaker error c) < changesOf cfg c := spent_back rfl hreset.left rfl
  have hget : s'.manifest.getComponent id = some (retryBreaker error c) := by
    rw [hreset.manifest, Manifest.getComponent_update (f := retryBreaker error) fun _ => rfl, if_pos rfl, hreset.found,
      Option.map_some]
  refine ⟨spent_update (f := retryBreaker error) (fun _ => rfl) hreset.manifest fun d hd => ?_, id,
    Manifest.mem_ids_of_getComponent hreset.found, ?_⟩
  · rw [hreset.found] at hd
    cases hd
    exact ⟨hback.1, hback.2.le⟩
  · rw [changesLeft_of_some hget, changesLeft_of_some hreset.found]
    exact hback.2

lemma spent_resets (hsteps : TransGen (Reset cfg) s s') :
    Spent cfg s.manifest s'.manifest ∧
      ∃ id ∈ s.manifest.ids, changesLeft cfg s'.manifest id < changesLeft cfg s.manifest id := by
  induction hsteps with
  | single hreset => exact spent_reset hreset
  | tail _ hreset ih =>
      obtain ⟨hspent, id, hid, hlt⟩ := ih
      obtain ⟨hnext, -⟩ := spent_reset hreset
      exact ⟨hspent.trans hnext, id, hid, (hnext.changes id).trans_lt hlt⟩

lemma spent_records (hsteps : ReflTransGen (Record now) s s') : Spent cfg s.manifest s'.manifest := by
  induction hsteps with
  | refl => exact .refl
  | tail _ hrecord ih =>
      obtain ⟨id, c, error, check, hrecord⟩ := hrecord
      exact ih.trans (spent_update (f := failAs now error "contract" check) (fun _ => rfl) hrecord.manifest
        fun d _ => spent_kept .failed rfl rfl (by decide) (by decide))

lemma spent_contractRound (hn : s.manifest.ids.Nodup) (w : Phase3) (baseSha : String) :
    Spent cfg s.manifest (contractRound cfg now w baseSha s).manifest := by
  rcases @contractRound_spec cfg now s hn w baseSha with ⟨s₁, hsteps, hround⟩ | ⟨s₁, hsteps, hround⟩
  · have hspent := (spent_resets hsteps).1
    rw [hround]
    exact hspent
  · have hspent : Spent cfg s.manifest s₁.manifest := spent_records hsteps
    rw [hround]
    exact hspent

/-- **Nothing is given back**: a step leaves no more than there was. -/
theorem spent_next (hsound : Sound s) (hstep : next cfg s now a = some s') : Spent cfg s.manifest s'.manifest := by
  rcases next_effect hsound hstep with ⟨x, o, c, -, hs⟩ | ⟨-, hquiet⟩
  · exact (spent_settles hs).1
  · cases hquiet with
    | still hmanifest _ => exact .of_eq hmanifest
    | start x hpending hmanifest _ => exact spent_begin hmanifest hpending.hasStatus
    | submit x hmanifest _ => exact .of_eq hmanifest
    | contract w baseSha _ hround =>
        rw [hround]
        exact spent_contractRound hsound.graph.unique w baseSha

end Step

/-! ## Launches -/

section Launches

variable {cfg : RunConfig} {now : String} {s s' : State} {a : Action} {x : String}

/-- One while the component is about to be launched. -/
def launching (s : State) (x : String) : ℕ :=
  match s.stage with
  | .launching y _ _ => if y = x then 1 else 0
  | _ => 0

lemma settle_scheduled (x : String) (o : Outcome) :
    (settle cfg now x o s).result.scheduled = s.result.scheduled := by
  unfold settle
  cases s.manifest.getComponent x with
  | none => rfl
  | some c =>
      dsimp only
      cases resolve cfg c o <;> rfl

lemma resets_scheduled (hsteps : TransGen (Reset cfg) s s') : s'.result.scheduled = s.result.scheduled := by
  induction hsteps with
  | single hreset =>
      obtain ⟨id, c, error, hreset⟩ := hreset
      rw [hreset.result]
  | tail _ hreset ih =>
      obtain ⟨id, c, error, hreset⟩ := hreset
      rw [hreset.result, ih]

lemma records_scheduled (hsteps : ReflTransGen (Record now) s s') : s'.result.scheduled = s.result.scheduled := by
  induction hsteps with
  | refl => rfl
  | tail _ hrecord ih =>
      obtain ⟨id, c, error, check, hrecord⟩ := hrecord
      rw [hrecord.result, ih]

/-- A step that launches nothing. -/
lemma launched_le (hidle : launching s' x = 0) (hscheduled : s'.result.scheduled = s.result.scheduled) :
    s'.result.scheduled.count x + launching s' x ≤ s.result.scheduled.count x + launching s x := by
  rw [hidle, hscheduled]
  exact Nat.add_le_add_left (Nat.zero_le _) _

/-- **A launch** is that of a component whose attempt began. -/
lemma launching_next (hsound : Sound s) (hstep : next cfg s now a = some s') (x : String) :
    s'.result.scheduled.count x + launching s' x ≤ s.result.scheduled.count x + launching s x ∨
      HasStatus s.manifest .pending x ∧ s'.manifest = s.manifest.update x beginAttempt ∧ s'.result = s.result ∧
        launching s' x = 1 := by
  have hplaced := hsound.placed
  unfold Placed at hplaced
  cases a with
  | repoll poll =>
      simp only [next] at hstep
      split at hstep <;> cases hstep
      refine .inl (launched_le rfl ?_)
      cases poll.outcome with
      | none => rfl
      | some o => exact settle_scheduled _ o
  | decide decision =>
      simp only [next] at hstep
      split at hstep <;> cases hstep
      refine .inl (launched_le rfl ?_)
      cases decision.outcome with
      | none => rfl
      | some o => exact settle_scheduled _ o
  | repolled | decided | ready | expired | skipContract =>
      simp only [next] at hstep
      split at hstep <;> cases hstep
      exact .inl (launched_le rfl rfl)
  | refuse error phase check =>
      simp only [next] at hstep
      split at hstep <;> cases hstep
      exact .inl (launched_le rfl (settle_scheduled _ _))
  | start =>
      simp only [next] at hstep
      split at hstep <;> cases hstep
      rename_i y rest transitioned hstage
      rw [hstage] at hplaced
      by_cases hx : y = x
      · subst hx
        exact .inr ⟨(hplaced.2 y List.mem_cons_self).hasStatus, rfl, rfl, if_pos rfl⟩
      · exact .inl (launched_le (if_neg hx) rfl)
  | settleEarly outcome =>
      simp only [next] at hstep
      split at hstep <;> cases hstep
      exact .inl (launched_le rfl (settle_scheduled _ _))
  | submit =>
      simp only [next] at hstep
      split at hstep <;> cases hstep
      rename_i y rest transitioned hstage
      refine .inl ?_
      simp only [launching, hstage, List.count_append, List.count_singleton, beq_iff_eq]
      omega
  | filled =>
      simp only [next] at hstep
      split at hstep
      · split_ifs at hstep <;> cases hstep <;> exact .inl (launched_le rfl rfl)
      · cases hstep
  | collect y outcome =>
      simp only [next] at hstep
      split at hstep
      · split_ifs at hstep
        cases hstep
        exact .inl (launched_le rfl (settle_scheduled _ _))
      · cases hstep
  | expire y =>
      simp only [next] at hstep
      split at hstep
      all_goals first
        | cases hstep
        | split_ifs at hstep
          cases hstep
          exact .inl (launched_le rfl (settle_scheduled _ _))
  | stop =>
      simp only [next] at hstep
      split at hstep <;> cases hstep <;> exact .inl (launched_le rfl rfl)
  | abort y reason =>
      simp only [next] at hstep
      split at hstep
      · split_ifs at hstep
        cases hstep
        exact .inl (launched_le rfl (settle_scheduled _ _))
      · cases hstep
  | aborted =>
      simp only [next] at hstep
      split at hstep
      · split_ifs at hstep
        cases hstep
        exact .inl (launched_le rfl rfl)
      · cases hstep
  | contract w baseSha =>
      simp only [next] at hstep
      split at hstep
      · cases hstep
        rcases @contractRound_spec cfg now s hsound.graph.unique w baseSha with
          ⟨s₁, hsteps, hround⟩ | ⟨s₁, hsteps, hround⟩
        · have hscheduled := resets_scheduled hsteps
          rw [hround]
          exact .inl (launched_le rfl hscheduled)
        · have hscheduled := records_scheduled hsteps
          rw [hround]
          exact .inl (launched_le rfl hscheduled)
      · cases hstep

/-- **What was launched and what may be launched** never grow together. -/
lemma launches_next (hsound : Sound s) (hstep : next cfg s now a = some s') (x : String) :
    s'.result.scheduled.count x + launching s' x + launchesLeft cfg s'.manifest x ≤
      s.result.scheduled.count x + launching s x + launchesLeft cfg s.manifest x := by
  rcases launching_next hsound hstep x with hle | ⟨hpending, hmanifest, hresult, hone⟩
  · exact Nat.add_le_add hle ((spent_next hsound hstep).launches x)
  · have hbegin := (@begin_lt cfg x _ _ hmanifest hpending).2
    rw [hresult, hone]
    omega

end Launches

/-! ## Steps -/

section Measure

variable {cfg : RunConfig} {now : String} {s s' : State} {a : Action} {x : String}

/-- Whether the run is at the decisions of its start. -/
def phase (s : State) : ℕ :=
  match s.stage with
  | .repolling _ => 2
  | .deciding _ => 1
  | _ => 0

/-- The changes of status that are left. -/
def fuel (cfg : RunConfig) (s : State) : ℕ := (s.manifest.ids.map (changesLeft cfg s.manifest)).sum

/-- The steps until a status changes again. -/
def rank (s : State) : ℕ :=
  match s.stage with
  | .repolling rest | .deciding rest => rest.length
  | .launching _ _ _ => 6
  | .filling _ true | .expiring => 5
  | .top => 4
  | .filling _ false => 3
  | .waiting | .contract => 2
  | .aborting => 1
  | .ended => 0

/-- What gets less with every step. -/
def toDo (cfg : RunConfig) (s : State) : ℕ × ℕ × ℕ := (phase s, fuel cfg s, rank s)

def Less : ℕ × ℕ × ℕ → ℕ × ℕ × ℕ → Prop := Prod.Lex (· < ·) (Prod.Lex (· < ·) (· < ·))

lemma less_wellFounded : WellFounded Less :=
  wellFounded_lt.prod_lex (wellFounded_lt.prod_lex wellFounded_lt)

lemma fuel_le (h : Spent cfg s.manifest s'.manifest) : fuel cfg s' ≤ fuel cfg s := by
  rw [fuel, fuel, h.ids]
  exact List.sum_le_sum fun x _ => h.changes x

lemma fuel_lt (h : Spent cfg s.manifest s'.manifest) (hx : x ∈ s.manifest.ids)
    (hlt : changesLeft cfg s'.manifest x < changesLeft cfg s.manifest x) : fuel cfg s' < fuel cfg s := by
  rw [fuel, fuel, h.ids]
  exact List.sum_lt_sum _ _ (fun x _ => h.changes x) ⟨x, hx, hlt⟩

lemma less_of_phase (h : phase s' < phase s) : Less (toDo cfg s') (toDo cfg s) := Prod.Lex.left _ _ h

lemma less_of_fuel (hphase : phase s' = phase s) (h : fuel cfg s' < fuel cfg s) :
    Less (toDo cfg s') (toDo cfg s) := by
  rw [toDo, toDo, hphase]
  exact Prod.Lex.right _ (Prod.Lex.left _ _ h)

lemma less_of_rank (hphase : phase s' = phase s) (hfuel : fuel cfg s' ≤ fuel cfg s) (h : rank s' < rank s) :
    Less (toDo cfg s') (toDo cfg s) := by
  rcases hfuel.lt_or_eq with hlt | heq
  · exact less_of_fuel hphase hlt
  · rw [toDo, toDo, hphase, heq]
    exact Prod.Lex.right _ (Prod.Lex.right _ h)

/-- A component that runs, or is about to, is settled. -/
lemma fuel_settles (hsound : Sound s) (hx : Stands s.manifest .pending x ∨ Stands s.manifest .running x) (o : Outcome)
    (hmanifest : s'.manifest = (settle cfg now x o s).manifest) (hresult : s'.result = (settle cfg now x o s).result) :
    fuel cfg s' < fuel cfg s := by
  have hids : x ∈ s.manifest.ids := hx.elim Stands.mem_ids Stands.mem_ids
  obtain ⟨y, o', c, hsame, hs⟩ := @settles_of cfg now s s' hsound x hids (.inr hx) o hmanifest hresult
  cases hsame
  obtain ⟨hspent, hstrict⟩ := spent_settles hs
  refine fuel_lt hspent hids (hstrict ?_)
  rcases hx with hx | hx
  · exact .inl (hx.hasStatus.unique ⟨c, hs.found, rfl⟩).symm
  · exact .inr (hx.hasStatus.unique ⟨c, hs.found, rfl⟩).symm

/-- **Every step brings the run closer to its end.** -/
theorem toDo_next (hsound : Sound s) (hstep : next cfg s now a = some s') :
    Less (toDo cfg s') (toDo cfg s) := by
  have hfuel : fuel cfg s' ≤ fuel cfg s := fuel_le (spent_next hsound hstep)
  have hplaced := hsound.placed
  unfold Placed at hplaced
  cases a with
  | repoll poll =>
      simp only [next] at hstep
      split at hstep <;> cases hstep
      rename_i x rest hstage
      exact less_of_rank (by simp [phase, hstage]) hfuel (by simp [rank, hstage])
  | repolled =>
      simp only [next] at hstep
      split at hstep <;> cases hstep
      rename_i hstage
      exact less_of_phase (by simp [phase, hstage])
  | decide decision =>
      simp only [next] at hstep
      split at hstep <;> cases hstep
      rename_i x rest hstage
      exact less_of_rank (by simp [phase, hstage]) hfuel (by simp [rank, hstage])
  | decided =>
      simp only [next] at hstep
      split at hstep <;> cases hstep
      rename_i hstage
      exact less_of_phase (by simp [phase, hstage])
  | ready =>
      simp only [next] at hstep
      split at hstep <;> cases hstep
      rename_i hstage
      exact less_of_rank (by simp [phase, hstage]) hfuel (by simp [rank, hstage])
  | refuse error phase check =>
      simp only [next] at hstep
      split at hstep <;> cases hstep
      rename_i x rest transitioned hstage
      rw [hstage] at hplaced
      exact less_of_fuel (by simp [Rounds.phase, hstage])
        (fuel_settles hsound (.inl (hplaced.2 x List.mem_cons_self)) _ rfl rfl)
  | start =>
      simp only [next] at hstep
      split at hstep <;> cases hstep
      rename_i x rest transitioned hstage
      rw [hstage] at hplaced
      have hx := hplaced.2 x List.mem_cons_self
      exact less_of_fuel (by simp [phase, hstage])
        (fuel_lt (spent_begin rfl hx.hasStatus) hx.mem_ids (begin_lt rfl hx.hasStatus).1)
  | settleEarly outcome =>
      simp only [next] at hstep
      split at hstep <;> cases hstep
      rename_i x rest transitioned hstage
      rw [hstage] at hplaced
      exact less_of_fuel (by simp [phase, hstage]) (fuel_settles hsound (.inr hplaced.1) _ rfl rfl)
  | submit =>
      simp only [next] at hstep
      split at hstep <;> cases hstep
      rename_i x rest transitioned hstage
      exact less_of_rank (by simp [phase, hstage]) hfuel (by cases transitioned <;> simp [rank, hstage])
  | filled =>
      simp only [next] at hstep
      split at hstep
      · rename_i transitioned hstage
        split_ifs at hstep with hrunning htransitioned <;> cases hstep
        · exact less_of_rank (by simp [phase, hstage]) hfuel (by cases transitioned <;> simp [rank, hstage])
        · exact less_of_rank (by simp [phase, hstage]) hfuel (by simp [rank, hstage, htransitioned])
        · rw [Bool.not_eq_true] at htransitioned
          exact less_of_rank (by simp [phase, hstage]) hfuel (by simp [rank, hstage, htransitioned])
      · cases hstep
  | collect x outcome =>
      simp only [next] at hstep
      split at hstep
      · rename_i hstage
        split_ifs at hstep with hx
        cases hstep
        exact less_of_fuel (by simp [phase, hstage]) (fuel_settles hsound (.inr (hsound.runs x hx)) _ rfl rfl)
      · cases hstep
  | expire x =>
      simp only [next] at hstep
      split at hstep
      all_goals first
        | cases hstep
        | rename_i hstage
          split_ifs at hstep with hx
          cases hstep
          exact less_of_fuel (by simp [phase, hstage]) (fuel_settles hsound (.inr (hsound.runs x hx)) _ rfl rfl)
  | expired =>
      simp only [next] at hstep
      split at hstep <;> cases hstep
      rename_i hstage
      exact less_of_rank (by simp [phase, hstage]) hfuel (by simp [rank, hstage])
  | stop =>
      simp only [next] at hstep
      split at hstep
      all_goals first
        | cases hstep
          rename_i hstage
          exact less_of_rank (by simp [phase, hstage]) hfuel (by simp [rank, hstage])
        | cases hstep
  | abort x reason =>
      simp only [next] at hstep
      split at hstep
      · rename_i hstage
        split_ifs at hstep with hx
        cases hstep
        exact less_of_fuel (by simp [phase, hstage]) (fuel_settles hsound (.inr (hsound.runs x hx)) _ rfl rfl)
      · cases hstep
  | aborted =>
      simp only [next] at hstep
      split at hstep
      · rename_i hstage
        split_ifs at hstep
        cases hstep
        exact less_of_rank (by simp [phase, hstage]) hfuel (by simp [rank, hstage])
      · cases hstep
  | contract w baseSha =>
      simp only [next] at hstep
      split at hstep
      · rename_i hstage
        cases hstep
        rcases @contractRound_spec cfg now s hsound.graph.unique w baseSha with
          ⟨s₁, hsteps, hround⟩ | ⟨s₁, hsteps, hround⟩
        · obtain ⟨hspent, id, hid, hlt⟩ := spent_resets hsteps
          rw [hround]
          exact less_of_fuel (by simp [phase, hstage]) (fuel_lt hspent hid hlt)
        · rw [hround] at hfuel ⊢
          exact less_of_rank (by simp [phase, hstage]) hfuel (by simp [rank, hstage])
      · cases hstep
  | skipContract =>
      simp only [next] at hstep
      split at hstep <;> cases hstep
      rename_i hstage
      exact less_of_rank (by simp [phase, hstage]) hfuel (by simp [rank, hstage])

end Measure

/-- A run that waits has something to wait for. -/
lemma waiting_next (hsound : Sound s) (hstep : next cfg s now a = some s') (hwaiting : s'.stage = .waiting) :
    s'.running ≠ [] := by
  cases a with
  | filled =>
      simp only [next] at hstep
      split at hstep
      · split_ifs at hstep with hrunning htransitioned <;> cases hstep
        · exact hrunning
        · cases hwaiting
        · cases hwaiting
      · cases hstep
  | contract w baseSha =>
      simp only [next] at hstep
      split at hstep
      · cases hstep
        rcases @contractRound_spec cfg now s hsound.graph.unique w baseSha with ⟨s₁, -, hround⟩ | ⟨s₁, -, hround⟩ <;>
        · rw [hround] at hwaiting
          cases hwaiting
      · cases hstep
  | collect x outcome | expire x | abort x reason | aborted =>
      simp only [next] at hstep
      split at hstep
      all_goals first
        | cases hstep
        | split_ifs at hstep
          cases hstep
          cases hwaiting
  | repoll _ | repolled | decide _ | decided | ready | refuse _ _ _ | start | settleEarly _ | submit | expired | stop
  | skipContract =>
      simp only [next] at hstep
      split at hstep <;> cases hstep <;> cases hwaiting

/-- **A run that has not ended has a step to make**, the stop of the operator apart. -/
lemma can_step (hwaits : s.stage = .waiting → s.running ≠ []) (hend : s.stage ≠ .ended) (now : String) :
    ∃ a s', a ≠ .stop ∧ next cfg s now a = some s' := by
  cases hstage : s.stage with
  | repolling rest =>
      cases rest with
      | nil => exact ⟨.repolled, _, by rintro ⟨⟩, by simp only [next, hstage]; rfl⟩
      | cons x rest => exact ⟨.repoll .unknown, _, by rintro ⟨⟩, by simp only [next, hstage]; rfl⟩
  | deciding rest =>
      cases rest with
      | nil => exact ⟨.decided, _, by rintro ⟨⟩, by simp only [next, hstage]; rfl⟩
      | cons x rest => exact ⟨.decide .waiting, _, by rintro ⟨⟩, by simp only [next, hstage]; rfl⟩
  | top => exact ⟨.ready, _, by rintro ⟨⟩, by simp only [next, hstage]; rfl⟩
  | filling ready transitioned =>
      cases ready with
      | cons x rest => exact ⟨.start, _, by rintro ⟨⟩, by simp only [next, hstage]; rfl⟩
      | nil =>
          refine ⟨.filled, ?_⟩
          simp only [next, hstage]
          split_ifs <;> exact ⟨_, by rintro ⟨⟩, rfl⟩
  | launching x rest transitioned => exact ⟨.submit, _, by rintro ⟨⟩, by simp only [next, hstage]; rfl⟩
  | waiting =>
      obtain ⟨x, hx⟩ := List.exists_mem_of_ne_nil _ (hwaits hstage)
      exact ⟨.expire x, _, by rintro ⟨⟩, by simp only [next, hstage, if_pos hx]; rfl⟩
  | expiring => exact ⟨.expired, _, by rintro ⟨⟩, by simp only [next, hstage]; rfl⟩
  | aborting =>
      by_cases hidle : s.running = []
      · exact ⟨.aborted, _, by rintro ⟨⟩, by simp only [next, hstage, if_pos hidle]; rfl⟩
      · obtain ⟨x, hx⟩ := List.exists_mem_of_ne_nil _ hidle
        exact ⟨.abort x "", _, by rintro ⟨⟩, by simp only [next, hstage, if_pos hx]; rfl⟩
  | contract => exact ⟨.skipContract, _, by rintro ⟨⟩, by simp only [next, hstage]; rfl⟩
  | ended => exact absurd hstage hend

/-! ## How many run -/

section Parallel

variable {cfg : RunConfig} {now : String} {s s' : State} {a : Action} {x : String}

/-- No more components run, or are about to, than there are slots. -/
def Fits (cfg : RunConfig) (s : State) : Prop :=
  match s.stage with
  | .filling ready _ => s.running.length + ready.length ≤ cfg.slotsCap
  | .launching _ ready _ => s.running.length + ready.length + 1 ≤ cfg.slotsCap
  | _ => s.running.length ≤ cfg.slotsCap

lemma Fits.running_le (h : Fits cfg s) : s.running.length ≤ cfg.slotsCap := by
  unfold Fits at h
  split at h <;> omega

lemma length_erase_le (x : String) : (s.running.erase x).length ≤ s.running.length := List.length_erase_le

lemma settle_running_length (x : String) (o : Outcome) :
    (settle cfg now x o s).running.length = s.running.length := congrArg List.length (settle_running x o)

lemma contractRound_running (hn : s.manifest.WellFormedGraph) (w : Phase3) (baseSha : String) :
    (contractRound cfg now w baseSha s).running = s.running ∧
      ((contractRound cfg now w baseSha s).stage = .top ∨ (contractRound cfg now w baseSha s).stage = .ended) := by
  rcases @contractRound_spec cfg now s hn.unique w baseSha with ⟨s₁, hsteps, hround⟩ | ⟨s₁, hsteps, hround⟩
  · rw [hround]
    exact ⟨(graph_reset hn hsteps).2, .inl rfl⟩
  · rw [hround]
    exact ⟨(graph_record hn hsteps).2, .inr rfl⟩

/-- **The slots are kept to.** -/
lemma fits_next (hsound : Sound s) (h : Fits cfg s) (hstep : next cfg s now a = some s') : Fits cfg s' := by
  have hrunning := h.running_le
  unfold Fits at h
  cases a with
  | repoll poll =>
      simp only [next] at hstep
      split at hstep <;> cases hstep
      cases poll.outcome with
      | none => exact hrunning
      | some o => exact (settle_running_length _ o).trans_le hrunning
  | decide decision =>
      simp only [next] at hstep
      split at hstep <;> cases hstep
      cases decision.outcome with
      | none => exact hrunning
      | some o => exact (settle_running_length _ o).trans_le hrunning
  | repolled | decided | expired | skipContract =>
      simp only [next] at hstep
      split at hstep <;> cases hstep
      exact hrunning
  | ready =>
      simp only [next] at hstep
      split at hstep <;> cases hstep
      show s.running.length + (List.map _ (List.take _ _)).length ≤ cfg.slotsCap
      rw [List.length_map, List.length_take]
      omega
  | refuse error phase check =>
      simp only [next] at hstep
      split at hstep <;> cases hstep
      rename_i x rest transitioned hstage
      rw [hstage] at h
      show (settle cfg now x _ s).running.length + rest.length ≤ cfg.slotsCap
      rw [settle_running_length]
      simp only [List.length_cons] at h
      omega
  | start =>
      simp only [next] at hstep
      split at hstep <;> cases hstep
      rename_i x rest transitioned hstage
      rw [hstage] at h
      exact h
  | settleEarly outcome =>
      simp only [next] at hstep
      split at hstep <;> cases hstep
      rename_i x rest transitioned hstage
      rw [hstage] at h
      show (settle cfg now x _ s).running.length + rest.length ≤ cfg.slotsCap
      rw [settle_running_length]
      dsimp only at h
      omega
  | submit =>
      simp only [next] at hstep
      split at hstep <;> cases hstep
      rename_i x rest transitioned hstage
      rw [hstage] at h
      show (s.running ++ [x]).length + rest.length ≤ cfg.slotsCap
      rw [List.length_append, List.length_singleton]
      dsimp only at h
      omega
  | filled =>
      simp only [next] at hstep
      split at hstep
      · split_ifs at hstep <;> cases hstep <;> exact hrunning
      · cases hstep
  | collect x outcome =>
      simp only [next] at hstep
      split at hstep
      · split_ifs at hstep
        cases hstep
        exact (length_erase_le x).trans hrunning
      · cases hstep
  | expire x =>
      simp only [next] at hstep
      split at hstep
      all_goals first
        | cases hstep
        | split_ifs at hstep
          cases hstep
          exact (length_erase_le x).trans hrunning
  | stop =>
      simp only [next] at hstep
      split at hstep <;> cases hstep <;> exact hrunning
  | abort x reason =>
      simp only [next] at hstep
      split at hstep
      · split_ifs at hstep
        cases hstep
        exact (length_erase_le x).trans hrunning
      · cases hstep
  | aborted =>
      simp only [next] at hstep
      split at hstep
      · split_ifs at hstep
        cases hstep
        exact hrunning
      · cases hstep
  | contract w baseSha =>
      simp only [next] at hstep
      split at hstep
      · cases hstep
        obtain ⟨hsame, hstage⟩ := @contractRound_running cfg now s hsound.graph w baseSha
        unfold Fits
        rcases hstage with hstage | hstage <;> rw [hstage, hsame] <;> exact hrunning
      · cases hstep

end Parallel

/-! ## Returns to `PENDING` -/

section Pending

variable {cfg : RunConfig} {now : String} {s s' : State} {a : Action}

/-- A component that is as it was, or was sent back with a retry taken. -/
def Retried (cfg : RunConfig) (c c' : Component) : Prop :=
  c' = c ∨ c.status = .completed ∧ c'.status = .pending ∧ c.retries < cfg.maxRetries ∧ c'.retries = c.retries + 1

lemma retried_reset {s s' : State} (hreset : Reset cfg s s') {x : String} {c : Component}
    (hc : s.manifest.getComponent x = some c) : ∃ c', s'.manifest.getComponent x = some c' ∧ Retried cfg c c' := by
  obtain ⟨id, d, error, hreset⟩ := hreset
  have hget := Manifest.getComponent_update (m := s.manifest) (f := retryBreaker error) (fun _ => rfl) id x
  rw [← hreset.manifest, hc] at hget
  by_cases hx : x = id
  · subst hx
    rw [if_pos rfl, Option.map_some] at hget
    have hsame : d = c := Option.some.inj (hreset.found.symm.trans hc)
    subst hsame
    exact ⟨_, hget, .inr ⟨hreset.completed, rfl, hreset.left, rfl⟩⟩
  · rw [if_neg hx] at hget
    exact ⟨c, hget, .inl rfl⟩

lemma retried_resets (hsteps : TransGen (Reset cfg) s s') {x : String} {c : Component}
    (hc : s.manifest.getComponent x = some c) : ∃ c', s'.manifest.getComponent x = some c' ∧ Retried cfg c c' := by
  induction hsteps with
  | single hreset => exact retried_reset hreset hc
  | tail _ hreset ih =>
      obtain ⟨c', hc', hretried⟩ := ih
      obtain ⟨c'', hc'', hretried'⟩ := retried_reset hreset hc'
      refine ⟨c'', hc'', ?_⟩
      rcases hretried with rfl | hback
      · exact hretried'
      · rcases hretried' with rfl | ⟨hcompleted, -⟩
        · exact .inr hback
        · rw [hback.2.1] at hcompleted
          cases hcompleted

/-- A breaker that fails is not pending. -/
lemma kept_records (hsteps : ReflTransGen (Record now) s s') {x : String} {c : Component}
    (hc : s.manifest.getComponent x = some c) :
    ∃ c', s'.manifest.getComponent x = some c' ∧ (c' = c ∨ c'.status = .failed) := by
  induction hsteps with
  | refl => exact ⟨c, hc, .inl rfl⟩
  | @tail t _ _ hrecord ih =>
      obtain ⟨c', hc', hkept⟩ := ih
      obtain ⟨id, d, error, check, hrecord⟩ := hrecord
      have hget := Manifest.getComponent_update (m := t.manifest) (f := failAs now error "contract" check)
        (fun _ => rfl) id x
      rw [← hrecord.manifest, hc'] at hget
      split_ifs at hget
      · exact ⟨_, hget, .inr rfl⟩
      · exact ⟨c', hget, hkept⟩

/-- The verdict that makes a component pending takes a retry. -/
lemma pending_change {o : Outcome} {c : Component} (h : ((resolve cfg c o).change now c).status = .pending) :
    c.retries < cfg.maxRetries ∧ ((resolve cfg c o).change now c).retries = c.retries + 1 := by
  cases hv : resolve cfg c o with
  | back error phase check => exact ⟨lt_of_resolve_back hv, rfl⟩
  | failed error phase check =>
      rw [hv] at h
      cases h
  | completed =>
      rw [hv] at h
      cases h
  | mergePending error =>
      rw [hv] at h
      cases h
  | awaitingApproval =>
      rw [hv] at h
      cases h

/-- **One step** makes a component pending only by taking a retry. -/
lemma pending_next (hsound : Sound s) (hstep : next cfg s now a = some s') {x : String} {c c' : Component}
    (hc : s.manifest.getComponent x = some c) (hc' : s'.manifest.getComponent x = some c') (hbefore : c.status ≠ .pending)
    (hafter : c'.status = .pending) : c.retries < cfg.maxRetries ∧ c'.retries = c.retries + 1 := by
  have hsame : ∀ {d : Component}, s'.manifest.getComponent x = some d → d ≠ c := by
    rintro d hd rfl
    rw [hc'] at hd
    cases hd
    exact hbefore hafter
  rcases next_effect hsound hstep with ⟨y, o, d, -, hs⟩ | ⟨-, hquiet⟩
  · have happlied := hs.applied
    by_cases hx : x = y
    · subst hx
      have hself := happlied.self
      rw [hs.found, Option.map_some, hc'] at hself
      cases hself
      have hd : d = c := Option.some.inj (hs.found.symm.trans hc)
      subst hd
      exact pending_change hafter
    · by_cases hchain : (resolve cfg d o).fails = true ∧ TransGen s.manifest.OpenDependsOn x y
      · have hskip := happlied.skips hchain.1 x hchain.2
        rw [hc, hc', Option.map_some] at hskip
        cases hskip
        cases hafter
      · have hkept := happlied.others x hx fun hfails hpath => hchain ⟨hfails, hpath⟩
        exact absurd rfl (hsame (hkept.trans hc))
  · cases hquiet with
    | still hmanifest _ => exact absurd rfl (hsame (hmanifest ▸ hc))
    | start y _ hmanifest _ =>
        have hget := Manifest.getComponent_update (m := s.manifest) (f := beginAttempt) (fun _ => rfl) y x
        rw [← hmanifest, hc, hc'] at hget
        split_ifs at hget
        · cases hget
          cases hafter
        · cases hget
          exact absurd hafter hbefore
    | submit y hmanifest _ => exact absurd rfl (hsame (hmanifest ▸ hc))
    | contract w baseSha _ hround =>
        rcases @contractRound_spec cfg now s hsound.graph.unique w baseSha with
          ⟨s₁, hsteps, hcontract⟩ | ⟨s₁, hsteps, hcontract⟩
        · obtain ⟨d, hd, hretried⟩ := retried_resets hsteps hc
          have hsame' : s'.manifest.getComponent x = some d := by rw [hround, hcontract, ← hd]
          have hdc : d = c' := Option.some.inj (hsame'.symm.trans hc')
          subst hdc
          rcases hretried with rfl | ⟨-, -, hleft, hretries⟩
          · exact absurd hafter hbefore
          · exact ⟨hleft, hretries⟩
        · obtain ⟨d, hd, hkept⟩ := kept_records hsteps hc
          have hsame' : s'.manifest.getComponent x = some d := by rw [hround, hcontract, ← hd]
          have hdc : d = c' := Option.some.inj (hsame'.symm.trans hc')
          subst hdc
          rcases hkept with rfl | hfailed
          · exact absurd hafter hbefore
          · rw [hafter] at hfailed
            cases hfailed

end Pending

/-! ## Whole runs -/

section Runs

variable {cfg : RunConfig} {m : Manifest} {s : State}

lemma sound_run (hm : m.validateDag = []) (hrun : Reaches (Step cfg) Always (init m) s) : Sound s :=
  hrun.invariant (sound_init (Manifest.validateDag_eq_nil.mp hm)) fun _ _ _ ht _ hstep => sound_next ht hstep

/-- A component at the start of a run. -/
lemma launchesLeft_init (hm : m.ids.Nodup) {c : Component} (hc : c ∈ m.components) :
    launchesLeft cfg (init m).manifest c.id ≤ (cfg.maxRetries - c.retries).toNat + 1 := by
  have hf : ∀ c : Component, ({ c with status := .pending } : Component).id = c.id := fun _ => rfl
  have hget := Manifest.getComponent_updateAll (m := m) hf (idsIn m .running ++ idsIn m .verifying) c.id
  rw [Manifest.getComponent_id hm hc, Option.map_some] at hget
  rw [launchesLeft, init, resumed, hget]
  simp only [Option.map_some, Option.getD_some, launchesOf, left]
  split_ifs <;> simp

/-- **A component is launched once more than it has retries left, at most**, in whatever way its attempts end and
however often the contract rounds send it back. -/
theorem launches_bounded (hm : m.validateDag = []) (hrun : Reaches (Step cfg) Always (init m) s) :
    ∀ c ∈ m.components, s.result.scheduled.count c.id ≤ (cfg.maxRetries - c.retries).toNat + 1 := by
  intro c hc
  have hgraph := Manifest.validateDag_eq_nil.mp hm
  have hbound : Sound s ∧ s.result.scheduled.count c.id + launching s c.id + launchesLeft cfg s.manifest c.id ≤
      launchesLeft cfg (init m).manifest c.id := by
    refine hrun.invariant (I := fun t => Sound t ∧ t.result.scheduled.count c.id + launching t c.id +
      launchesLeft cfg t.manifest c.id ≤ launchesLeft cfg (init m).manifest c.id) ⟨sound_init hgraph, ?_⟩ ?_
    · show List.count _ [] + 0 + _ ≤ _
      simp
    · rintro t a u ⟨hsound, hle⟩ - hstep
      exact ⟨sound_next hsound hstep, (launches_next hsound hstep c.id).trans hle⟩
  have hinit := @launchesLeft_init cfg m hgraph.unique c hc
  omega

/-- **Every return to `PENDING` takes exactly one retry**, and none is made where none is left. -/
theorem pending_takes_retry (hm : m.validateDag = []) (hrun : Reaches (Step cfg) Always (init m) s)
    {a : String × Action} {s' : State} (hstep : Step cfg s a s') :
    ∀ x c c', s.manifest.getComponent x = some c → s'.manifest.getComponent x = some c' → c.status ≠ .pending →
      c'.status = .pending → c.retries < cfg.maxRetries ∧ c'.retries = c.retries + 1 :=
  fun _ _ _ hc hc' hbefore hafter => pending_next (sound_run hm hrun) hstep hc hc' hbefore hafter

/-- **Every run ends**: none goes on for ever, and none that has not ended is stuck. -/
theorem run_ends (hm : m.validateDag = []) :
    (¬ ∃ run : ℕ → State, run 0 = init m ∧ ∀ n, ∃ a, Step cfg (run n) a (run (n + 1))) ∧
      ∀ s, Reaches (Step cfg) Always (init m) s → s.stage ≠ .ended →
        ∀ now, ∃ a s', a ≠ .stop ∧ next cfg s now a = some s' := by
  constructor
  · rintro ⟨run, hstart, hsteps⟩
    have hsound : ∀ n, Sound (run n) := by
      intro n
      induction n with
      | zero => exact hstart ▸ sound_init (Manifest.validateDag_eq_nil.mp hm)
      | succ n ih =>
          obtain ⟨a, hstep⟩ := hsteps n
          exact sound_next ih hstep
    have hwf : IsWellFounded (ℕ × ℕ × ℕ) Less := ⟨less_wellFounded⟩
    obtain ⟨n, hnot⟩ := WellFounded.not_rel_apply_succ (r := Less) fun n => toDo cfg (run n)
    obtain ⟨a, hstep⟩ := hsteps n
    exact hnot (toDo_next (hsound n) hstep)
  · intro s hrun hend now
    refine can_step ?_ hend now
    cases hrun with
    | refl => exact fun hstage => by cases hstage
    | tail hrun _ hstep => exact waiting_next (sound_run hm hrun) hstep

/-- **No more components run than there are slots**, each once, and each with its dependencies completed. -/
theorem run_parallel (hm : m.validateDag = []) (hrun : Reaches (Step cfg) Always (init m) s) :
    s.running.length ≤ cfg.slotsCap ∧ s.running.Nodup ∧ ∀ x ∈ s.running, Stands s.manifest .running x := by
  have hboth : Sound s ∧ Fits cfg s := by
    refine hrun.invariant (I := fun t => Sound t ∧ Fits cfg t)
      ⟨sound_init (Manifest.validateDag_eq_nil.mp hm), Nat.zero_le _⟩ ?_
    rintro t a u ⟨hsound, hfits⟩ - hstep
    exact ⟨sound_next hsound hstep, fits_next hsound hfits hstep⟩
  exact ⟨hboth.2.running_le, hboth.1.once, hboth.1.runs⟩

end Runs

/-! ### A breaker that fails in the end -/

/-- **The bound is reached**: `api` has one retry, and the contract round makes it two launches. -/
theorem launches_bounded_breaker :
    ∃ s, Reaches (Step oneRetry) Always (init apiThenWeb) s ∧ s.result.scheduled = ["api", "web", "api"] ∧
      ∀ c ∈ apiThenWeb.components, s.result.scheduled.count c.id ≤ (oneRetry.maxRetries - c.retries).toNat + 1 := by
  have hlaunched : ((timed apiFailsLater).foldlM (fun s a => next oneRetry s a.1 a.2) (init apiThenWeb)).map
      (fun s => s.result.scheduled) = some ["api", "web", "api"] := by decide +kernel
  obtain ⟨s, hrun, hs⟩ := Option.map_eq_some_iff.mp hlaunched
  have hreaches : Reaches (Step oneRetry) Always (init apiThenWeb) s := Reaches.of_foldlM hrun
  exact ⟨s, hreaches, hs, launches_bounded (by decide +kernel) hreaches⟩

/-- **The retry of a breaker**: the contract round sends `api` back, and takes the retry it had. -/
theorem pending_takes_retry_breaker :
    ∃ s s', next oneRetry s "2026-01-01T00:00:00Z" (.contract apiBreaks "") = some s' ∧
      ∀ x c c', s.manifest.getComponent x = some c → s'.manifest.getComponent x = some c' → c.status ≠ .pending →
        c'.status = .pending → c.retries < oneRetry.maxRetries ∧ c'.retries = c.retries + 1 := by
  have hbuilt : ((timed ([.repolled, .decided] ++ attempt "api" .complete ++
      attempt "web" (.fail "tests red" "verify" "tests") ++ [.ready, .filled])).foldlM
        (fun s a => next oneRetry s a.1 a.2) (init apiThenWeb)).map
      (fun s => (next oneRetry s "2026-01-01T00:00:00Z" (.contract apiBreaks "")).isSome) = some true := by
    decide +kernel
  obtain ⟨s, hrun, hs⟩ := Option.map_eq_some_iff.mp hbuilt
  obtain ⟨s', hstep⟩ := Option.isSome_iff_exists.mp hs
  exact ⟨s, s', hstep, pending_takes_retry (a := ("2026-01-01T00:00:00Z", .contract apiBreaks ""))
    (by decide +kernel) (Reaches.of_foldlM hrun) hstep⟩

theorem run_ends_apiThenWeb :
    (¬ ∃ run : ℕ → State, run 0 = init apiThenWeb ∧ ∀ n, ∃ a, Step oneRetry (run n) a (run (n + 1))) ∧
      ∀ s, Reaches (Step oneRetry) Always (init apiThenWeb) s → s.stage ≠ .ended →
        ∀ now, ∃ a s', a ≠ .stop ∧ next oneRetry s now a = some s' :=
  run_ends (by decide +kernel)

/-- **One slot**: `api` runs in it alone. -/
theorem run_parallel_first :
    ∃ s, Reaches (Step oneRetry) Always (init apiThenWeb) s ∧ s.running = ["api"] ∧
      s.running.length ≤ oneRetry.slotsCap ∧ s.running.Nodup ∧ ∀ x ∈ s.running, Stands s.manifest .running x := by
  have hrunning : ((timed [.repolled, .decided, .ready, .start, .submit]).foldlM
      (fun s a => next oneRetry s a.1 a.2) (init apiThenWeb)).map (fun s => s.running) = some ["api"] := by
    decide +kernel
  obtain ⟨s, hrun, hs⟩ := Option.map_eq_some_iff.mp hrunning
  have hreaches : Reaches (Step oneRetry) Always (init apiThenWeb) s := Reaches.of_foldlM hrun
  exact ⟨s, hreaches, hs, run_parallel (by decide +kernel) hreaches⟩

end Rounds

end Factory

end Kstrl
