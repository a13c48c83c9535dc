import Kstrl.Base.JsonPrefix
import Kstrl.Base.PyText
import Kstrl.Base.TextLines

/-!
# Proving a sandbox zone

How a zone is judged from what its canaries report (`kstrl/acceptance/isolation.py`).

One process attempts each canary's operation inside the sandbox and one outside, and each reports a text a
canary.  A sandboxed operation that failed with an errno is *contained*, provided the same operation meant
something outside; a verdict is a text too, and a zone is refused unless every verdict that gates it begins
with `contained`.

* **`refusal_eq_empty`**: which verdicts leave a zone unrefused.
* **`proveRung_sound_iff`**: an unrefused zone has the evidence for every report, except for reports that pass
  for a verdict themselves.
-/

namespace Kstrl

open TextLines

namespace Acceptance

namespace Isolation

/-! ## Reports -/

/-- One bounded child: its exit status and its output, or why there is none. -/
inductive Ran where
  | done (code : ℤ) (stdout : String)
  | timeout
  | undecodable
  | couldNotStart (exc : String)

namespace Ran

def code : Ran → Option ℤ
  | done code _ => some code
  | _ => none

def stdout : Ran → String
  | done _ stdout => stdout
  | _ => ""

def why : Ran → String
  | done _ _ => ""
  | timeout => "timeout"
  | undecodable => "undecodable output"
  | couldNotStart exc => "could not start: " ++ exc

/-- The exit status as a message shows it. -/
def codeText (ran : Ran) : String :=
  match ran.code with
  | none => "None"
  | some code => toString code

end Ran

/-- What each canary reported, by its name. -/
abbrev Reports : Type := String → String

/-- Each canary's raw outcome, or the failure of the process for all of them.  `readJson` is `none` where it
    raises. -/
def outcomes (readJson : String → Option Json) (ran : Ran) : Reports :=
  let failure := if ran.why ≠ "" then ran.why
    else "no report (exit " ++ ran.codeText ++ ")"
  let lines := splitlines (PyText.strip ran.stdout).toList
  match lines.getLast?.bind fun line => readJson (String.ofList line) with
  | some (.obj fields) => fun name => match fields.lookup name with
      | some value => value.pyStr
      | none => failure
  | _ => fun _ => failure

/-! ## Verdicts -/

/-- `text.startswith(start)` -/
def startsWith (text start : String) : Bool := start.toList.isPrefixOf text.toList

/-- `errno.EPERM` -/
def eperm : ℤ := 1

def contained (name outcome : String) : Bool :=
  if name = "egress" then outcome = "errno " ++ toString eperm else startsWith outcome "errno "

def controlInformative (name control : String) : Bool :=
  if name = "egress" then
    control = "ok" || control = "timeout" || (startsWith control "errno " && !contained name control)
  else control = "ok"

def verdict (name sandboxed control : String) : String :=
  if controlInformative name control = false then "uninformative: control " ++ control
  else if sandboxed = "timeout" then "timeout"
  else if contained name sandboxed then "contained: " ++ sandboxed
  else if sandboxed = "ok" then "escaped" else sandboxed

inductive Zone where
  | setup
  | test
  deriving DecidableEq, Repr

/-- Where the canaries of a zone point. -/
structure Layout where
  zone : String
  outside : String
  planted : String
  token : String
  /-- `xdg_state_home()` -/
  stateHome : String
  /-- `Path.home()` -/
  home : String

/-- The canaries and the positive controls that the canary process runs: a name, a kind and a target. -/
def plan (zone : Zone) (layout : Layout) : List (String × String × String) :=
  [("write_outside", "write", layout.outside ++ "/canary"),
   ("write_tmp", "write", "/private/tmp/kstrl-canary-" ++ layout.token),
   ("write_state_parent", "write", layout.stateHome ++ "/kstrl-canary-" ++ layout.token),
   ("read_planted", "read", layout.planted ++ "/canary"),
   ("list_ssh", "list", layout.home ++ "/.ssh")] ++
  (match zone with
    | .setup => []
    | .test => [("egress", "connect", "192.0.2.1:80"),
        ("dns", "resolve", "k" ++ layout.token ++ ".10.9.8.7.nip.io")]) ++
  [("scratch_write", "write", layout.zone ++ "/canary-" ++ layout.token),
   ("loopback", "loopback", ""),
   ("env_reaches", "env", "CDPATH=" ++ layout.token)]

def positiveControls : List String := ["scratch_write", "loopback", "env_reaches", "exit_127", "sigterm"]

def hostCheckedWrites : List String := ["write_outside", "write_tmp", "write_state_parent"]

def nonGatingCanaries : List String := ["dns"]

/-- The targets the host is checked for. -/
def writeTargets (zone : Zone) (layout : Layout) : List (String × String) :=
  (plan zone layout).filterMap fun e =>
    if e.1 ∈ hostCheckedWrites ∧ e.2.1 = "write" then some (e.1, e.2.2) else none

/-- What is seen of the host between the two runs: whether a path exists. -/
def hostEscaped (zone : Zone) (layout : Layout) (present : String → Bool) (name : String) : Bool :=
  ((writeTargets zone layout).lookup name).any present

/-- A contained write is downgraded when the host check caught it. -/
def canaryVerdict (sandboxed control : Reports) (escaped : String → Bool) (name : String) : String :=
  if name ∈ positiveControls then sandboxed name
  else
    let judged := verdict name (sandboxed name) (control name)
    if escaped name && startsWith judged "contained" then "escaped" else judged

/-- The verdict of an extra probe. -/
def probeVerdict (codes : List ℤ) (ran : Ran) : String :=
  if ran.code.any (· ∈ codes) then "ok"
  else if ran.why ≠ "" then ran.why
  else "exit " ++ ran.codeText

/-- What is seen while a zone is proven. -/
structure Observed where
  sandboxed : Reports
  control : Reports
  present : String → Bool
  missing : Ran
  killed : Ran

def runCanaries (zone : Zone) (layout : Layout) (seen : Observed) : List (String × String) :=
  (plan zone layout).map (fun e =>
      (e.1, canaryVerdict seen.sandboxed seen.control (hostEscaped zone layout seen.present) e.1)) ++
    [("exit_127", probeVerdict [127] seen.missing), ("sigterm", probeVerdict [143, -15] seen.killed)]

/-- Whether a verdict leaves the zone unrefused. -/
def passes (name judged : String) : Bool :=
  if name ∈ nonGatingCanaries then true
  else if name ∈ positiveControls then judged = "ok" else startsWith judged "contained"

def refusal (canaries : List (String × String)) : String :=
  let failed := (canaries.filter fun e => !passes e.1 e.2).map fun e => e.1 ++ " (" ++ e.2 ++ ")"
  if failed = [] then "" else "refused: " ++ String.intercalate ", " failed

/-- `HOST_LABEL` -/
def hostLabel : String := "none: ran on the host"

/-- What proving a zone comes to. -/
structure ProvenRung where
  zone : Zone
  canaries : List (String × String)
  refusal : String
  label : String

def label (zone : Zone) (version : String) (canaries : List (String × String)) : String :=
  match zone with
  | .test => version ++ ", test zone: writes confined, egress blocked, this host only, not loopback only" ++
      if (canaries.lookup "dns").getD "" = "escaped" then ", DNS open" else ""
  | .setup => version ++ ", setup zone: writes confined, egress open"

/-- Prove a zone.  `refused` is a refusal reached before any canary ran. -/
def proveRung (zone : Zone) (layout : Layout) (version refused : String) (seen : Observed) :
    ProvenRung :=
  let canaries := if refused = "" then runCanaries zone layout seen else []
  let refusal := if refused = "" then refusal canaries else refused
  { zone, canaries, refusal, label := if refusal = "" then label zone version canaries else hostLabel }

/-! ## What passes -/

/-- The canaries that gate a zone. -/
def gating : Zone → List String
  | .setup => ["write_outside", "write_tmp", "write_state_parent", "read_planted", "list_ssh"]
  | .test => ["write_outside", "write_tmp", "write_state_parent", "read_planted", "list_ssh", "egress"]

/-- The positive controls that the canary process runs. -/
def reportedControls : List String := ["scratch_write", "loopback", "env_reaches"]

/-- The names of a plan: the canaries that gate, the one that does not, and the controls. -/
lemma mem_plan_iff (zone : Zone) (layout : Layout) (name : String) :
    (∃ e ∈ plan zone layout, e.1 = name) ↔
      name ∈ gating zone ∨ (zone = .test ∧ name = "dns") ∨ name ∈ reportedControls := by
  cases zone <;> simp [plan, gating, reportedControls, eq_comm] <;> tauto

lemma gating_plain {zone : Zone} {name : String} (h : name ∈ gating zone) :
    name ∉ positiveControls ∧ name ∉ nonGatingCanaries := by
  revert name
  cases zone <;> decide

lemma reportedControls_plain {name : String} (h : name ∈ reportedControls) :
    name ∈ positiveControls ∧ name ∉ nonGatingCanaries := by
  revert name
  decide

/-- A text with another first character. -/
lemma append_ne_of_head {start text : String} (rest : String) (hstart : start.toList ≠ [])
    (h : start.toList.head? ≠ text.toList.head?) : start ++ rest ≠ text := by
  rintro rfl
  rw [String.toList_append] at h
  cases hs : start.toList with
  | nil => exact hstart hs
  | cons c cs => exact h (by rw [hs]; rfl)

lemma refusal_eq_empty (canaries : List (String × String)) :
    refusal canaries = "" ↔ ∀ e ∈ canaries, passes e.1 e.2 = true := by
  unfold refusal
  dsimp only
  split_ifs with hfailed
  · rw [List.map_eq_nil_iff, List.filter_eq_nil_iff] at hfailed
    exact iff_of_true rfl fun e he => by simpa using hfailed e he
  · refine iff_of_false (append_ne_of_head _ (by decide) (by decide)) fun h => hfailed ?_
    · rw [List.map_eq_nil_iff, List.filter_eq_nil_iff]
      exact fun e he => by simp [h e he]

/-- A report that lets a canary's verdict begin with `contained`. -/
def standing (name outcome : String) : Bool := contained name outcome || startsWith outcome "contained"

lemma startsWith_append (start rest : String) : startsWith (start ++ rest) start = true := by
  rw [startsWith, String.toList_append]
  exact List.isPrefixOf_iff_prefix.mpr (List.prefix_append _ _)

/-- **A verdict begins with `contained`** for a report that stands against an informative control. -/
lemma startsWith_verdict (name sandboxed control : String) :
    startsWith (verdict name sandboxed control) "contained" = true ↔
      controlInformative name control = true ∧ standing name sandboxed = true := by
  have hdetail : ∀ t : String, startsWith ("uninformative: control " ++ t) "contained" = false := fun t => by
    rw [startsWith, String.toList_append]
    rfl
  have hcontained : ∀ t : String, startsWith ("contained: " ++ t) "contained" = true := fun t => by
    rw [startsWith, String.toList_append]
    rfl
  unfold verdict standing
  split_ifs with hinformative htimeout hc hok
  · simp [hdetail, hinformative]
  · subst htimeout
    simp only [Bool.not_eq_false] at hinformative
    have hnot : contained name "timeout" = false := by
      unfold contained
      split_ifs <;> rfl
    rw [hnot, hinformative]
    decide
  · simp [hcontained, hc]
    simpa using hinformative
  · subst hok
    have hnot : contained name "ok" = false := by simpa using hc
    have hescaped : startsWith "escaped" "contained" = false := by decide
    have hok : startsWith "ok" "contained" = false := by decide
    simp [hnot, hescaped, hok]
  · simp only [Bool.not_eq_false] at hinformative
    simp [hinformative, hc]

/-- What a canary that gates has to come to. -/
lemma passes_gating {zone : Zone} {name : String} (h : name ∈ gating zone) (sandboxed control : Reports)
    (escaped : String → Bool) :
    passes name (canaryVerdict sandboxed control escaped name) = true ↔
      escaped name = false ∧ controlInformative name (control name) = true ∧
        standing name (sandboxed name) = true := by
  obtain ⟨hcontrol, hgates⟩ := gating_plain h
  simp only [passes, canaryVerdict, if_neg hcontrol, if_neg hgates]
  rw [← startsWith_verdict]
  cases hescaped : escaped name with
  | false => simp
  | true =>
      cases hjudged : startsWith (verdict name (sandboxed name) (control name)) "contained" with
      | false => simp [hjudged]
      | true =>
          simp
          decide

/-! ## What an unrefused zone has shown -/

/-- The outcome of an operation that failed with an errno. -/
def IsErrno (outcome : String) : Prop := ∃ number : ℤ, outcome = "errno " ++ toString number

/-- **The evidence** for a zone. -/
structure Evidence (zone : Zone) (layout : Layout) (seen : Observed) : Prop where
  errno : ∀ name ∈ gating zone, IsErrno (seen.sandboxed name)
  eperm : "egress" ∈ gating zone → seen.sandboxed "egress" = "errno " ++ toString eperm
  informative : ∀ name ∈ gating zone, controlInformative name (seen.control name) = true
  absent : ∀ e ∈ writeTargets zone layout, seen.present e.2 = false
  controls : ∀ name ∈ reportedControls, seen.sandboxed name = "ok"
  missing : seen.missing.code = some 127
  killed : seen.killed.code = some 143 ∨ seen.killed.code = some (-15)

/-- The condition on the reports of a sandboxed run: if all of them stand, each canary that gates reported an
    errno, and none a text that only reads like one or like a verdict. -/
def Plainspoken (zone : Zone) (sandboxed : Reports) : Prop :=
  (∀ name ∈ gating zone, standing name (sandboxed name) = true) →
    (∀ name ∈ reportedControls, sandboxed name = "ok") → ∀ name ∈ gating zone, IsErrno (sandboxed name)

lemma not_startsWith_of_isErrno {outcome : String} (h : IsErrno outcome) : startsWith outcome "contained" = false := by
  obtain ⟨number, rfl⟩ := h
  rw [startsWith, String.toList_append]
  rfl

lemma contained_of_isErrno {name outcome : String} (h : IsErrno outcome) (hname : name ≠ "egress") :
    contained name outcome = true := by
  obtain ⟨number, rfl⟩ := h
  rw [contained, if_neg hname]
  exact startsWith_append _ _

lemma why_ne_ok (ran : Ran) : ran.why ≠ "ok" := by
  cases ran with
  | done code stdout =>
      show "" ≠ "ok"
      decide
  | timeout => decide
  | undecodable => decide
  | couldNotStart exc => exact append_ne_of_head exc (by decide) (by decide)

lemma probeVerdict_ok {codes : List ℤ} {ran : Ran} : probeVerdict codes ran = "ok" ↔ ran.code.any (· ∈ codes) = true := by
  unfold probeVerdict
  split_ifs with hcode hwhy
  · exact iff_of_true rfl hcode
  · exact iff_of_false (why_ne_ok ran) hcode
  · exact iff_of_false (append_ne_of_head ran.codeText (by decide) (by decide)) hcode

lemma writeTargets_eq (zone : Zone) (layout : Layout) :
    writeTargets zone layout =
      [("write_outside", layout.outside ++ "/canary"),
       ("write_tmp", "/private/tmp/kstrl-canary-" ++ layout.token),
       ("write_state_parent", layout.stateHome ++ "/kstrl-canary-" ++ layout.token)] := by
  cases zone <;> rfl

/-- What the host check sees. -/
lemma hostEscaped_eq_false {zone : Zone} {layout : Layout} {present : String → Bool} :
    (∀ name ∈ gating zone, hostEscaped zone layout present name = false) ↔
      ∀ e ∈ writeTargets zone layout, present e.2 = false := by
  simp only [hostEscaped, writeTargets_eq, List.forall_mem_cons]
  cases zone <;> simp [gating, List.lookup_cons]

/-- **An unrefused zone**, canary by canary. -/
lemma refusal_runCanaries (zone : Zone) (layout : Layout) (seen : Observed) :
    refusal (runCanaries zone layout seen) = "" ↔
      ((∀ name ∈ gating zone, standing name (seen.sandboxed name) = true) ∧
        ∀ name ∈ reportedControls, seen.sandboxed name = "ok") ∧
      (∀ name ∈ gating zone, controlInformative name (seen.control name) = true) ∧
      (∀ e ∈ writeTargets zone layout, seen.present e.2 = false) ∧
      seen.missing.code.any (· ∈ [127]) = true ∧ seen.killed.code.any (· ∈ [143, -15]) = true := by
  have hcanaries : (∀ e ∈ plan zone layout, passes e.1 (canaryVerdict seen.sandboxed seen.control
        (hostEscaped zone layout seen.present) e.1) = true) ↔
      (∀ name ∈ gating zone, passes name (canaryVerdict seen.sandboxed seen.control
        (hostEscaped zone layout seen.present) name) = true) ∧
      ∀ name ∈ reportedControls, seen.sandboxed name = "ok" := by
    have hcontrol : ∀ name ∈ reportedControls, (passes name (canaryVerdict seen.sandboxed seen.control
        (hostEscaped zone layout seen.present) name) = true ↔ seen.sandboxed name = "ok") := fun name hname => by
      obtain ⟨hpos, hgates⟩ := reportedControls_plain hname
      simp [passes, canaryVerdict, hpos, hgates]
    constructor
    · intro h
      refine ⟨fun name hname => ?_, fun name hname => (hcontrol name hname).mp ?_⟩
      · obtain ⟨e, he, rfl⟩ := (mem_plan_iff zone layout name).mpr (Or.inl hname)
        exact h e he
      · obtain ⟨e, he, rfl⟩ := (mem_plan_iff zone layout name).mpr (Or.inr (Or.inr hname))
        exact h e he
    · rintro ⟨hgating, hcontrols⟩ e he
      rcases (mem_plan_iff zone layout e.1).mp ⟨e, he, rfl⟩ with hname | ⟨_, hname⟩ | hname
      · exact hgating _ hname
      · rw [hname]
        rfl
      · exact (hcontrol _ hname).mpr (hcontrols _ hname)
  rw [refusal_eq_empty, runCanaries]
  have hgating : (∀ name ∈ gating zone, passes name (canaryVerdict seen.sandboxed seen.control
        (hostEscaped zone layout seen.present) name) = true) ↔
      (∀ e ∈ writeTargets zone layout, seen.present e.2 = false) ∧
        (∀ name ∈ gating zone, controlInformative name (seen.control name) = true) ∧
          ∀ name ∈ gating zone, standing name (seen.sandboxed name) = true := by
    rw [← hostEscaped_eq_false, ← forall₂_and, ← forall₂_and]
    exact forall₂_congr fun name hname => passes_gating hname _ _ _
  have hmissing : passes "exit_127" (probeVerdict [127] seen.missing) = true ↔
      seen.missing.code.any (· ∈ [127]) = true := by
    rw [← probeVerdict_ok]
    exact decide_eq_true_iff
  have hkilled : passes "sigterm" (probeVerdict [143, -15] seen.killed) = true ↔
      seen.killed.code.any (· ∈ [143, -15]) = true := by
    rw [← probeVerdict_ok]
    exact decide_eq_true_iff
  rw [List.forall_mem_append, List.forall_mem_map, hcanaries, hgating, List.forall_mem_cons,
    List.forall_mem_singleton, hmissing, hkilled]
  tauto

lemma standing_egress {outcome : String} (hstands : standing "egress" outcome = true) (herrno : IsErrno outcome) :
    outcome = "errno " ++ toString eperm := by
  rw [standing, not_startsWith_of_isErrno herrno, Bool.or_false, contained, if_pos rfl] at hstands
  exact of_decide_eq_true hstands

lemma proveRung_unrefused {zone : Zone} {layout : Layout} {version refused : String} {seen : Observed}
    (h : (proveRung zone layout version refused seen).refusal = "") : refusal (runCanaries zone layout seen) = "" := by
  by_cases hrefused : refused = ""
  · simpa [proveRung, hrefused] using h
  · simp [proveRung, hrefused] at h

/-- **What an unrefused zone has shown**, once what reads like an errno is one. -/
lemma evidence_of_plainspoken {zone : Zone} {layout : Layout} {seen : Observed}
    (hplain : Plainspoken zone seen.sandboxed) (h : refusal (runCanaries zone layout seen) = "") :
    Evidence zone layout seen := by
  obtain ⟨⟨hstands, hcontrols⟩, hinformative, habsent, hmissing, hkilled⟩ :=
    (refusal_runCanaries zone layout seen).mp h
  have herrno := hplain hstands hcontrols
  exact
    { errno := herrno
      eperm := fun hmem => standing_egress (hstands _ hmem) (herrno _ hmem)
      informative := hinformative
      absent := habsent
      controls := hcontrols
      missing := by
        obtain ⟨code, hcode, hmem⟩ := (Option.any_eq_true _ _).mp hmissing
        simp only [List.mem_singleton, decide_eq_true_eq] at hmem
        rw [hcode, hmem]
      killed := by
        obtain ⟨code, hcode, hmem⟩ := (Option.any_eq_true _ _).mp hkilled
        simp only [List.mem_cons, List.not_mem_nil, or_false, decide_eq_true_eq] at hmem
        rw [hcode]
        exact hmem.imp (congrArg some) (congrArg some) }

/-- A sandboxed run's reports are all that is left to refuse where everything else goes well. -/
def Observed.calm (sandboxed : Reports) : Observed where
  sandboxed
  control _ := "ok"
  present _ := false
  missing := .done 127 ""
  killed := .done 143 ""

@[simp] lemma Observed.calm_sandboxed (sandboxed : Reports) : (Observed.calm sandboxed).sandboxed = sandboxed := rfl

lemma refusal_calm {zone : Zone} {sandboxed : Reports} (layout : Layout)
    (hstands : ∀ name ∈ gating zone, standing name (sandboxed name) = true)
    (hcontrols : ∀ name ∈ reportedControls, sandboxed name = "ok") :
    refusal (runCanaries zone layout (.calm sandboxed)) = "" := by
  have hall : ∀ name ∈ gating zone, controlInformative name "ok" = true := by
    cases zone <;> decide
  have hmissing : (some (127 : ℤ)).any (· ∈ [127]) = true := by decide
  have hkilled : (some (143 : ℤ)).any (· ∈ [143, -15]) = true := by decide
  rw [refusal_runCanaries]
  exact ⟨⟨hstands, hcontrols⟩, hall, fun _ _ => rfl, hmissing, hkilled⟩

/-- **Soundness of an unrefused zone**, for what one sandboxed run printed: whatever the control reported and
    the host shows, the zone has its evidence, exactly when no report of the run passes for containment without
    being an errno. -/
theorem proveRung_sound_iff (readJson : String → Option Json) (zone : Zone) (ran : Ran) :
    (∀ (layout : Layout) (version refused : String) (seen : Observed), seen.sandboxed = outcomes readJson ran →
        (proveRung zone layout version refused seen).refusal = "" → Evidence zone layout seen) ↔
      Plainspoken zone (outcomes readJson ran) := by
  constructor
  · intro h hstands hcontrols
    have hrefusal : (proveRung zone ⟨"", "", "", "", "", ""⟩ "" "" (.calm (outcomes readJson ran))).refusal = "" := by
      simp only [proveRung, if_true]
      exact refusal_calm _ hstands hcontrols
    have hevidence := h _ "" "" (.calm (outcomes readJson ran)) (Observed.calm_sandboxed _) hrefusal
    simpa only [Observed.calm_sandboxed] using hevidence.errno
  · intro hplain layout version refused seen hseen h
    exact evidence_of_plainspoken (hseen ▸ hplain) (proveRung_unrefused h)

lemma isLineBreak_of_printable {c : Char} (h : Json.Printable c) : isLineBreak c = false :=
  isLineBreak_eq_false h (by decide)

/-- **What the canary process prints** is what is read of it: one object, a text for each name. -/
lemma outcomes_print {fields : List (String × Json)} (hj : (Json.obj fields).WellFormed) (code : ℤ) (name : String) :
    outcomes Json.loads (.done code (String.ofList (Json.Layout.spaced.write 0 (.obj fields) ++ ['\n']))) name =
      match fields.lookup name with
      | some value => value.pyStr
      | none => "no report (exit " ++ toString code ++ ")" := by
  set text := Json.Layout.spaced.write 0 (.obj fields) with htext
  obtain ⟨tail, hfirst⟩ := Json.Layout.spaced.write_obj 0 fields
  obtain ⟨init, hlast⟩ := Json.Layout.spaced.write_obj_last 0 fields
  have hstrip : PyText.strip (String.ofList (text ++ ['\n'])) = String.ofList text := by
    have hright : PyText.rstrip (String.ofList (text ++ ['\n'])) = PyText.rstrip (String.ofList text) := by
      rw [PyText.rstrip, String.toList_ofList, List.reverse_append, List.reverse_singleton, List.singleton_append,
        List.dropWhile_cons_of_pos (by decide), PyText.rstrip, String.toList_ofList]
    rw [PyText.strip, hright, ← PyText.strip]
    exact PyText.strip_eq hfirst hlast (by decide) (by decide)
  have hsolid : ∀ c ∈ text, isLineBreak c = false := fun c hc => by
    have hprintable := Json.Layout.spaced.write_forall Json.spaced_characters (.obj fields) hj 0 c hc
    exact isLineBreak_of_printable hprintable
  have hlines : splitlines text = [text] := by
    rw [splitlines, splitFrom_tail hsolid, List.nil_append, if_neg (by rw [htext, hfirst]; exact List.cons_ne_nil _ _)]
  have hread : Json.loads (String.ofList text) = some (.obj fields) := Json.Layout.spaced.loads_line _ hj
  simp only [outcomes, Ran.stdout, hstrip, String.toList_ofList, hlines, List.getLast?_singleton, Option.bind_some, hread]
  rfl

/-- What a sandboxed run of the setup zone reports where the first write names its outcome as a verdict does. -/
def sayingContained : List (String × Json) :=
  [("write_outside", .str "contained"), ("write_tmp", .str "errno 1"), ("write_state_parent", .str "errno 1"),
   ("read_planted", .str "errno 1"), ("list_ssh", .str "errno 1"), ("scratch_write", .str "ok"),
   ("loopback", .str "ok"), ("env_reaches", .str "ok")]

/-- The run that prints it. -/
def sayingContainedRan : Ran :=
  .done 0 (String.ofList (Json.Layout.spaced.write 0 (.obj sayingContained) ++ ['\n']))

/-- A zone is left unrefused on a report that is no errno. -/
theorem unrefused_without_errno :
    (proveRung .setup ⟨"/s/zone", "/s/outside", "/s/zone/planted", "0a", "/h/.state", "/h"⟩ "nono 0.79" ""
        (.calm (outcomes Json.loads sayingContainedRan))).refusal = "" ∧
      "write_outside" ∈ gating .setup ∧ ¬ IsErrno (outcomes Json.loads sayingContainedRan "write_outside") := by
  have hwell : (Json.obj sayingContained).WellFormed := by
    simp [sayingContained, Json.WellFormed, Json.FieldsWellFormed]
  have hreport : ∀ name, outcomes Json.loads sayingContainedRan name = _ := outcomes_print hwell 0
  have hstands : ∀ name ∈ gating .setup, standing name (outcomes Json.loads sayingContainedRan name) = true := by
    simp only [hreport]
    decide +kernel
  have hcontrols : ∀ name ∈ reportedControls, outcomes Json.loads sayingContainedRan name = "ok" := by
    simp only [hreport]
    decide +kernel
  refine ⟨?_, by decide, fun h => ?_⟩
  · simp only [proveRung, if_true]
    exact refusal_calm _ hstands hcontrols
  · have hstart := not_startsWith_of_isErrno h
    rw [hreport] at hstart
    exact absurd hstart (by decide +kernel)

end Isolation

end Acceptance

end Kstrl
