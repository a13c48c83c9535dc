import Kstrl.Factory.Rounds

/-!
# The lists of a run's result

`FactoryResult.completed`, `failed` and `skipped` against the statuses of the components, in every state of a run.

* **`lists_agree`**: over any run of a valid manifest in which no failure has a failed component among those it skips,
  and no decision of the start is about a component that an earlier one skipped, the lists agree with the statuses and
  a failure stays as it was recorded.
* `failure_overwritten` is a run in which a component is failed and skipped.
-/

namespace Kstrl

namespace Factory

namespace Rounds

open Relation Runs

/-- No component stands twice in the lists, and each has the status of its list. -/
structure Consistent (s : State) : Prop where
  once : (s.result.completed ++ s.result.failed ++ s.result.skipped).Nodup
  completed : ∀ x ∈ s.result.completed, HasStatus s.manifest .completed x
  failed : ∀ x ∈ s.result.failed, HasStatus s.manifest .failed x
  skipped : ∀ x ∈ s.result.skipped, HasStatus s.manifest .skipped x

/-- A failed component keeps its status and its error. -/
def KeepsFailed (s s' : State) : Prop :=
  ∀ x c, s.manifest.getComponent x = some c → c.status = .failed →
    ∃ c', s'.manifest.getComponent x = some c' ∧ c'.status = .failed ∧ c'.error = c.error

/-- The component is parked where the decisions of the start are made. -/
def StillParked (s : State) (c : Component) : Prop :=
  match s.stage with
  | .repolling _ => c.status = .mergePending
  | .deciding _ => c.status = .awaitingApproval
  | _ => True

/-- A step that fails no component with an open chain of dependencies from a failed one, and decides no component that
has left its park. -/
def Clean (cfg : RunConfig) (s : State) (a : Action) : Prop :=
  ∀ x o c, settled s a = some (x, o) → s.manifest.getComponent x = some c →
    StillParked s c ∧
      ((resolve cfg c o).fails = true →
        ∀ z, HasStatus s.manifest .failed z → ¬ TransGen s.manifest.OpenDependsOn z x)

/-- A state that is reached by clean steps. -/
def CleanRun (cfg : RunConfig) (s s' : State) : Prop := Reaches (Step cfg) (fun s a => Clean cfg s a.2) s s'

/-! ## One step -/

section Step

variable {cfg : RunConfig} {now : String} {s s' : State} {a : Action} {x : String} {o : Outcome} {c : Component}

lemma consistent_of (hcompleted : s.result.completed.Nodup) (hfailed : s.result.failed.Nodup)
    (hskipped : s.result.skipped.Nodup) (hc : ∀ x ∈ s.result.completed, HasStatus s.manifest .completed x)
    (hf : ∀ x ∈ s.result.failed, HasStatus s.manifest .failed x)
    (hs : ∀ x ∈ s.result.skipped, HasStatus s.manifest .skipped x) : Consistent s := by
  refine ⟨?_, hc, hf, hs⟩
  rw [List.nodup_append, List.nodup_append]
  refine ⟨⟨hcompleted, hfailed, ?_⟩, hskipped, ?_⟩
  · rintro x hx y hy rfl
    exact absurd ((hc x hx).unique (hf x hy)) (by decide)
  · rintro x hx y hy rfl
    rcases List.mem_append.mp hx with hx | hx
    · exact absurd ((hc x hx).unique (hs x hy)) (by decide)
    · exact absurd ((hf x hx).unique (hs x hy)) (by decide)

namespace Consistent

lemma nodup (h : Consistent s) : s.result.completed.Nodup ∧ s.result.failed.Nodup ∧ s.result.skipped.Nodup := by
  have honce := h.once
  rw [List.nodup_append, List.nodup_append] at honce
  exact ⟨honce.1.1, honce.1.2.1, honce.2.1⟩

lemma of_same (h : Consistent s) (hmanifest : s'.manifest = s.manifest)
    (hcompleted : s'.result.completed = s.result.completed) (hfailed : s'.result.failed = s.result.failed)
    (hskipped : s'.result.skipped = s.result.skipped) : Consistent s' := by
  obtain ⟨honce, hc, hf, hs⟩ := h
  constructor
  · rwa [hcompleted, hfailed, hskipped]
  · rwa [hcompleted, hmanifest]
  · rwa [hfailed, hmanifest]
  · rwa [hskipped, hmanifest]

end Consistent

lemma KeepsFailed.trans {s₁ s₂ s₃ : State} (h : KeepsFailed s₁ s₂) (h' : KeepsFailed s₂ s₃) : KeepsFailed s₁ s₃ := by
  intro x c hc hstatus
  obtain ⟨c', hc', hstatus', herror⟩ := h x c hc hstatus
  obtain ⟨c'', hc'', hstatus'', herror'⟩ := h' x c' hc' hstatus'
  exact ⟨c'', hc'', hstatus'', herror'.trans herror⟩

lemma keepsFailed_of_same (hmanifest : s'.manifest = s.manifest) : KeepsFailed s s' :=
  fun _ c hc hstatus => ⟨c, by rw [hmanifest, hc], hstatus, rfl⟩

/-- A change of a component that has not failed. -/
lemma keepsFailed_update {f : Component → Component} (hf : ∀ c, (f c).id = c.id)
    (hmanifest : s'.manifest = s.manifest.update x f) {status : ComponentStatus} (hx : HasStatus s.manifest status x)
    (hne : status ≠ .failed) : KeepsFailed s s' := by
  intro z d hd hstatus
  refine ⟨d, ?_, hstatus, rfl⟩
  rw [hmanifest, Manifest.getComponent_update hf, if_neg, hd]
  rintro rfl
  exact hne (hx.unique ⟨d, hd, hstatus⟩)

/-- **A component is settled** that is in none of the lists, and skips no failed one. -/
lemma consistent_settles (h : Consistent s) (hs : Settles cfg now s x o c s') (hcompleted : c.status ≠ .completed)
    (hfailed : c.status ≠ .failed) (hskipped : c.status ≠ .skipped)
    (hclean : (resolve cfg c o).fails = true → ∀ z, HasStatus s.manifest .failed z → ¬ TransGen s.manifest.OpenDependsOn z x) :
    Consistent s' ∧ KeepsFailed s s' := by
  have happlied := hs.applied
  have hx : HasStatus s.manifest c.status x := ⟨c, hs.found, rfl⟩
  have hself := happlied.self
  rw [hs.found, Option.map_some] at hself
  -- what is in a list is another component, and keeps its status
  have hkept : ∀ {status : ComponentStatus} {z : String}, HasStatus s.manifest status z → c.status ≠ status →
      ((resolve cfg c o).fails = true → ¬ TransGen s.manifest.OpenDependsOn z x) → HasStatus s'.manifest status z := by
    intro status z hz hne hchain
    obtain ⟨d, hd, hstatus⟩ := id hz
    refine ⟨d, ?_, hstatus⟩
    rw [happlied.others z (fun hsame => hne (hx.unique (hsame ▸ hz))) hchain, hd]
  have hnotMem : ∀ {l : List String} {status : ComponentStatus}, (∀ z ∈ l, HasStatus s.manifest status z) →
      c.status ≠ status → x ∉ l := fun hl hne hmem => hne (hx.unique (hl x hmem))
  obtain ⟨hnc, hnf, hns⟩ := h.nodup
  obtain ⟨skipped, hsk, hskNodup, hskMem⟩ := happlied.skipped
  constructor
  · refine consistent_of ?_ ?_ ?_ ?_ ?_ ?_
    · rw [happlied.completed]
      split_ifs
      · exact nodup_snoc hnc (hnotMem h.completed hcompleted)
      · rwa [List.append_nil]
    · rw [happlied.failed]
      split_ifs
      · exact nodup_snoc hnf (hnotMem h.failed hfailed)
      · rwa [List.append_nil]
    · rw [hsk, List.nodup_append]
      refine ⟨hns, hskNodup, ?_⟩
      rintro z hz y hy rfl
      exact not_chain_of_closed (h.skipped z hz) (.inr rfl) ((hskMem z).mp hy).2
    · intro z hz
      rw [happlied.completed] at hz
      rcases List.mem_append.mp hz with hz | hz
      · exact hkept (h.completed z hz) hcompleted fun _ => not_chain_of_closed (h.completed z hz) (.inl rfl)
      · split_ifs at hz with hv
        · rw [List.mem_singleton.mp hz]
          exact ⟨_, hself, by rw [hv]; rfl⟩
        · cases hz
    · intro z hz
      rw [happlied.failed] at hz
      rcases List.mem_append.mp hz with hz | hz
      · exact hkept (h.failed z hz) hfailed fun hfails => hclean hfails z (h.failed z hz)
      · split_ifs at hz with hv
        · rw [List.mem_singleton.mp hz]
          refine ⟨_, hself, ?_⟩
          cases hresolve : resolve cfg c o <;> rw [hresolve] at hv <;> cases hv
          rfl
        · cases hz
    · intro z hz
      rw [hsk] at hz
      rcases List.mem_append.mp hz with hz | hz
      · exact hkept (h.skipped z hz) hskipped fun _ => not_chain_of_closed (h.skipped z hz) (.inr rfl)
      · obtain ⟨hfails, hchain⟩ := (hskMem z).mp hz
        obtain ⟨d, hd, -⟩ := open_of_chain hchain
        exact ⟨_, by rw [happlied.skips hfails z hchain, hd, Option.map_some], rfl⟩
  · intro z d hd hstatus
    have hz : HasStatus s.manifest .failed z := ⟨d, hd, hstatus⟩
    refine ⟨d, ?_, hstatus, rfl⟩
    rw [happlied.others z (fun hsame => hfailed (hx.unique (hsame ▸ hz))) fun hfails => hclean hfails z hz, hd]

/-- A breaker is sent back. -/
lemma consistent_reset (h : Consistent s) (hreset : Reset cfg s s') : Consistent s' ∧ KeepsFailed s s' := by
  obtain ⟨id, c, error, hreset⟩ := hreset
  have hid : HasStatus s.manifest .completed id := ⟨c, hreset.found, hreset.completed⟩
  have hother : ∀ {status : ComponentStatus} {z : String}, HasStatus s.manifest status z → z ≠ id →
      HasStatus s'.manifest status z := by
    intro status z hz hne
    rw [hreset.manifest]
    exact hz.update_of_ne (f := retryBreaker error) (fun _ => rfl) hne
  obtain ⟨hnc, hnf, hns⟩ := h.nodup
  refine ⟨?_, keepsFailed_update (f := retryBreaker error) (fun _ => rfl) hreset.manifest hid (by decide)⟩
  refine consistent_of ?_ ?_ ?_ ?_ ?_ ?_
  all_goals rw [hreset.result]
  · exact hnc.erase id
  · exact hnf
  · exact hns
  · intro z hz
    obtain ⟨hne, hmem⟩ := hnc.mem_erase_iff.mp hz
    exact hother (h.completed z hmem) hne
  · intro z hz
    refine hother (h.failed z hz) ?_
    rintro rfl
    exact absurd (hid.unique (h.failed z hz)) (by decide)
  · intro z hz
    refine hother (h.skipped z hz) ?_
    rintro rfl
    exact absurd (hid.unique (h.skipped z hz)) (by decide)

/-- A breaker fails. -/
lemma consistent_record (h : Consistent s) (hrecord : Record now s s') : Consistent s' ∧ KeepsFailed s s' := by
  obtain ⟨id, c, error, check, hrecord⟩ := hrecord
  have hid : HasStatus s.manifest .completed id := ⟨c, hrecord.found, hrecord.completed⟩
  have hother : ∀ {status : ComponentStatus} {z : String}, HasStatus s.manifest status z → z ≠ id →
      HasStatus s'.manifest status z := by
    intro status z hz hne
    rw [hrecord.manifest]
    exact hz.update_of_ne (f := failAs now error "contract" check) (fun _ => rfl) hne
  have hnot : id ∉ s.result.failed := fun hmem => absurd (hid.unique (h.failed id hmem)) (by decide)
  obtain ⟨hnc, hnf, hns⟩ := h.nodup
  refine ⟨?_, keepsFailed_update (f := failAs now error "contract" check) (fun _ => rfl) hrecord.manifest hid
    (by decide)⟩
  refine consistent_of ?_ ?_ ?_ ?_ ?_ ?_
  all_goals rw [hrecord.result]
  · exact hnc.erase id
  · dsimp only
    rw [if_neg hnot]
    exact nodup_snoc hnf hnot
  · exact hns
  · intro z hz
    obtain ⟨hne, hmem⟩ := hnc.mem_erase_iff.mp hz
    exact hother (h.completed z hmem) hne
  · intro z hz
    dsimp only at hz
    rw [if_neg hnot] at hz
    rcases List.mem_append.mp hz with hz | hz
    · exact hother (h.failed z hz) (ne_of_mem_of_not_mem hz hnot)
    · have hf : ∀ c, (failAs now error "contract" check c).id = c.id := fun _ => rfl
      rw [List.mem_singleton.mp hz, hrecord.manifest]
      exact ⟨_, by rw [Manifest.getComponent_update hf, if_pos rfl, hrecord.found, Option.map_some], rfl⟩
  · intro z hz
    refine hother (h.skipped z hz) ?_
    rintro rfl
    exact absurd (hid.unique (h.skipped z hz)) (by decide)

lemma consistent_resets (h : Consistent s) (hsteps : TransGen (Reset cfg) s s') : Consistent s' ∧ KeepsFailed s s' := by
  induction hsteps with
  | single hreset => exact consistent_reset h hreset
  | tail _ hreset ih =>
      have hnext := consistent_reset ih.1 hreset
      exact ⟨hnext.1, ih.2.trans hnext.2⟩

lemma consistent_records (h : Consistent s) (hsteps : ReflTransGen (Record now) s s') :
    Consistent s' ∧ KeepsFailed s s' := by
  induction hsteps with
  | refl => exact ⟨h, keepsFailed_of_same rfl⟩
  | tail _ hrecord ih =>
      have hnext := consistent_record ih.1 hrecord
      exact ⟨hnext.1, ih.2.trans hnext.2⟩

lemma consistent_contractRound (h : Consistent s) (hn : s.manifest.ids.Nodup) (w : Phase3) (baseSha : String) :
    Consistent (contractRound cfg now w baseSha s) ∧ KeepsFailed s (contractRound cfg now w baseSha s) := by
  rcases @contractRound_spec cfg now s hn w baseSha with ⟨s₁, hsteps, hround⟩ | ⟨s₁, hsteps, hround⟩
  · have hrun := consistent_resets h hsteps
    rw [hround]
    exact ⟨hrun.1.of_same rfl rfl rfl rfl, hrun.2.trans (keepsFailed_of_same rfl)⟩
  · have hrun := consistent_records h hsteps
    rw [hround]
    exact ⟨hrun.1.of_same rfl rfl rfl rfl, hrun.2.trans (keepsFailed_of_same rfl)⟩

/-- **A clean step** keeps the lists and the failures. -/
theorem consistent_next (hsound : Sound s) (h : Consistent s) (hclean : Clean cfg s a)
    (hstep : next cfg s now a = some s') : Consistent s' ∧ KeepsFailed s s' := by
  rcases next_effect hsound hstep with ⟨x, o, c, hsettled, hs⟩ | ⟨-, hquiet⟩
  · obtain ⟨hparked, hchain⟩ := hclean x o c hsettled hs.found
    have hopen : c.status ≠ .completed ∧ c.status ≠ .failed ∧ c.status ≠ .skipped := by
      rcases hs.source with hstarting | hpending | hrunning
      · unfold State.starting at hstarting
        unfold StillParked at hparked
        split at hstarting
        · rename_i hstage
          rw [hstage] at hparked
          simp [hparked]
        · rename_i hstage
          rw [hstage] at hparked
          simp [hparked]
        · cases hstarting
      · have hstatus := hpending.hasStatus.unique ⟨c, hs.found, rfl⟩
        simp [← hstatus]
      · have hstatus := hrunning.hasStatus.unique ⟨c, hs.found, rfl⟩
        simp [← hstatus]
    exact consistent_settles h hs hopen.1 hopen.2.1 hopen.2.2 hchain
  · cases hquiet with
    | still hmanifest hresult =>
        exact ⟨h.of_same hmanifest (by rw [hresult]) (by rw [hresult]) (by rw [hresult]), keepsFailed_of_same hmanifest⟩
    | start x hpending hmanifest hresult =>
        have hx := hpending.hasStatus
        refine ⟨?_, keepsFailed_update (f := beginAttempt) (fun _ => rfl) hmanifest hx (by decide)⟩
        have hother : ∀ {status : ComponentStatus} {z : String}, HasStatus s.manifest status z → status ≠ .pending →
            HasStatus s'.manifest status z := by
          intro status z hz hne
          rw [hmanifest]
          refine hz.update_of_ne (f := beginAttempt) (fun _ => rfl) ?_
          rintro rfl
          exact hne (hz.unique hx)
        obtain ⟨hnc, hnf, hns⟩ := h.nodup
        refine consistent_of ?_ ?_ ?_ ?_ ?_ ?_
        all_goals rw [hresult]
        · exact hnc
        · exact hnf
        · exact hns
        · exact fun z hz => hother (h.completed z hz) (by decide)
        · exact fun z hz => hother (h.failed z hz) (by decide)
        · exact fun z hz => hother (h.skipped z hz) (by decide)
    | submit x hmanifest hresult =>
        exact ⟨h.of_same hmanifest (by rw [hresult]) (by rw [hresult]) (by rw [hresult]), keepsFailed_of_same hmanifest⟩
    | contract w baseSha _ hround =>
        rw [hround]
        exact consistent_contractRound h hsound.graph.unique w baseSha

end Step

/-! ## Whole runs -/

section Run

variable {cfg : RunConfig} {m : Manifest} {s s' : State}

lemma consistent_init : Consistent (init m) :=
  consistent_of .nil .nil .nil (List.forall_mem_nil _) (List.forall_mem_nil _) (List.forall_mem_nil _)

lemma consistent_run (hsound : Sound s) (h : Consistent s) (hrun : CleanRun cfg s s') :
    Sound s' ∧ Consistent s' ∧ KeepsFailed s s' := by
  refine Reaches.invariant (I := fun t => Sound t ∧ Consistent t ∧ KeepsFailed s t) hrun
    ⟨hsound, h, keepsFailed_of_same rfl⟩ ?_
  rintro t a u ⟨ht, hlists, hkept⟩ hclean hstep
  obtain ⟨hnext, hnextKept⟩ := consistent_next ht hlists hclean hstep
  exact ⟨sound_next ht hstep, hnext, hkept.trans hnextKept⟩

/-- **The lists of the result** agree with the statuses in every state of a clean run, and a failed component stays
failed, with its error, to the end of it. -/
theorem lists_agree (hm : m.validateDag = []) (hrun : CleanRun cfg (init m) s) (hlater : CleanRun cfg s s') :
    Consistent s ∧ KeepsFailed s s' := by
  obtain ⟨hsound, hlists, -⟩ := consistent_run (sound_init (Manifest.validateDag_eq_nil.mp hm)) consistent_init hrun
  exact ⟨hlists, (consistent_run hsound hlists hlater).2.2⟩

end Run

/-! ### Two components -/

/-- Two components, `web` on top of `api`, both still to build. -/
def apiThenWeb : Manifest where
  components := [
    { id := "api", branchName := "kstrl/api" },
    { id := "web", branchName := "kstrl/web", dependencies := ["api"] }]

/-- One retry, and contract tests tier by tier. -/
def oneRetry : RunConfig where
  maxRetries := 1
  maxParallel := 1
  contractMode := .tier
  componentsMerged := false

/-- A component is launched and collected. -/
def attempt (x : String) (o : Outcome) : List Action := [.ready, .start, .submit, .filled, .collect x o]

/-- Actions, each at the same time. -/
def timed (actions : List Action) : List (String × Action) := actions.map fun a => ("2026-01-01T00:00:00Z", a)

/-- A step with nothing failed before it, and no decision of the start. -/
def calm (s : State) (a : String × Action) : Bool :=
  (s.manifest.components.all fun c => c.status ≠ .failed) &&
    ((settled s a.2).isNone || match s.stage with
      | .repolling _ | .deciding _ => false
      | _ => true)

lemma clean_of_calm {cfg : RunConfig} {s : State} {a : String × Action} (h : calm s a = true) : Clean cfg s a.2 := by
  intro x o c hsettled hc
  rw [calm, hsettled, Bool.and_eq_true, Option.isNone_some, Bool.false_or] at h
  obtain ⟨hnone, hstage⟩ := h
  constructor
  · unfold StillParked
    split at hstage
    · cases hstage
    · cases hstage
    · trivial
  · intro hfails z hz
    obtain ⟨d, hd, hfailed⟩ := hz
    have hmem := List.all_eq_true.mp hnone d (List.mem_of_find?_eq_some hd)
    exact absurd hfailed (of_decide_eq_true hmem)

/-- **The first failure** skips what is built on it. -/
theorem lists_agree_first :
    ∃ s, CleanRun oneRetry (init apiThenWeb) s ∧ s.result.failed = ["api"] ∧ s.result.skipped = ["web"] ∧
      Consistent s := by
  have hlists : ((timed ([.repolled, .decided] ++ attempt "api" (.fail "no diff" "engineer" "diff"))).foldlM
      (fun s a => if calm s a = true then next oneRetry s a.1 a.2 else none) (init apiThenWeb)).map
        (fun s => (s.result.failed, s.result.skipped)) = some (["api"], ["web"]) := by decide +kernel
  obtain ⟨s, hrun, hs⟩ := Option.map_eq_some_iff.mp hlists
  obtain ⟨hfailed, hskipped⟩ := Prod.mk.inj hs
  have hclean : CleanRun oneRetry (init apiThenWeb) s :=
    (Reaches.of_foldlM_if hrun).mono fun s a => clean_of_calm
  exact ⟨s, hclean, hfailed, hskipped, (lists_agree (by decide +kernel) hclean .refl).1⟩

/-- `api` is built, `web` fails on it, the contract round sends `api` back, and then `api` fails. -/
def apiFailsLater : List Action :=
  [.repolled, .decided] ++ attempt "api" .complete ++ attempt "web" (.fail "tests red" "verify" "tests") ++
    [.ready, .filled, .contract apiBreaks ""] ++ attempt "api" (.fail "no diff" "engineer" "diff")

/-- **A failed component is skipped**: the failure of `web` is overwritten when `api`, which it is built on, fails. -/
theorem failure_overwritten :
    ¬ ∀ (cfg : RunConfig) (m : Manifest) (s : State), m.validateDag = [] →
      Reaches (Step cfg) Always (init m) s → Consistent s := by
  intro h
  have hlists : ((timed apiFailsLater).foldlM (fun s a => next oneRetry s a.1 a.2) (init apiThenWeb)).map
      (fun s => (s.result.failed, s.result.skipped)) = some (["web", "api"], ["web"]) := by decide +kernel
  obtain ⟨s, hrun, hs⟩ := Option.map_eq_some_iff.mp hlists
  obtain ⟨hfailed, hskipped⟩ := Prod.mk.inj hs
  have honce := (h oneRetry apiThenWeb s (by decide +kernel) (Reaches.of_foldlM hrun)).once
  rw [hfailed, hskipped, List.append_assoc, List.nodup_append] at honce
  exact absurd honce.2.1 (by decide)

end Rounds

end Factory

end Kstrl
