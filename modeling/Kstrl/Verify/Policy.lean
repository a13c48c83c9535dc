import Mathlib.Data.List.Lex
import Kstrl.Base.Rows
import Kstrl.Verify.DiffText

/-!
# The policy envelope

`kstrl/verify/policy.py` without its configuration file: the globs, the scan of the added lines for secrets
and `evaluate_policy`.

The compiler of the secret patterns is a parameter.  It gives the lines a pattern is found in, or the text of
the `PolicyConfigError`.  So is the hash of a line.
-/

namespace Kstrl

namespace Verify

open PyCodec

/-! ## Texts -/

/-- `", ".join(parts)` and the like. -/
def join (sep : String) (parts : List PyStr) : PyStr := (lit sep).intercalate parts

/-- `sorted(texts)`: by code points. -/
def sortTexts (texts : List PyStr) : List PyStr :=
  texts.mergeSort fun a b => decide (a.map PyChar.code ≤ b.map PyChar.code)

/-- `s.split(sep)[0]`. -/
def beforeFirst (sep : PyStr) : PyStr → PyStr
  | [] => []
  | c :: rest => if sep.isPrefixOf (c :: rest) then [] else c :: beforeFirst sep rest

/-! ## Globs -/

/-- A part of the regular expression a glob is translated to. -/
inductive GlobPiece where
  /-- `(?:.*/)?` -/
  | dirs
  /-- `.*` -/
  | anything
  /-- `[^/]*` -/
  | segment
  /-- `[^/]` -/
  | one
  | char (c : Char)
  deriving DecidableEq, Repr

/-- `_glob_to_regex`. -/
def globToRegex : List Char → List GlobPiece
  | '*' :: '*' :: '/' :: rest => .dirs :: globToRegex rest
  | '*' :: '*' :: rest => .anything :: globToRegex rest
  | '*' :: rest => .segment :: globToRegex rest
  | '?' :: rest => .one :: globToRegex rest
  | c :: rest => .char c :: globToRegex rest
  | [] => []

def slash : PyChar := .char '/'

/-- `re.match`; `.` is no line feed, and the end may stand before a last one. -/
def matchPieces : List GlobPiece → PyStr → Bool
  | [], s => s = [] ∨ s = [lf]
  | .char c :: rest, s => s.head? = some (.char c) ∧ matchPieces rest s.tail
  | .one :: rest, s => s ≠ [] ∧ s.head? ≠ some slash ∧ matchPieces rest s.tail
  | .segment :: rest, s =>
      (List.range (s.length + 1)).any fun n => slash ∉ s.take n ∧ matchPieces rest (s.drop n)
  | .anything :: rest, s =>
      (List.range (s.length + 1)).any fun n => lf ∉ s.take n ∧ matchPieces rest (s.drop n)
  | .dirs :: rest, s =>
      matchPieces rest s ||
        (List.range s.length).any fun n =>
          lf ∉ s.take n ∧ s[n]? = some slash ∧ matchPieces rest (s.drop (n + 1))

/-- `match_glob`. -/
def matchGlob (path : PyStr) (patterns : List String) : Option String :=
  patterns.find? fun pattern => matchPieces (globToRegex pattern.toList) path

/-! ## The configuration -/

def enforcementMachineryPaths : List String :=
  [".github/workflows/**", "kstrl.toml", "**/kstrl/verify/verify.py", "**/kstrl/proc/scrubbed_run.py",
    "**/kstrl/verify/verify_model.py", "**/kstrl/verify/verify_commands.py",
    "**/kstrl/verify/verify_diff.py", "**/kstrl/verify/policy.py", "**/kstrl/verify/guards.py",
    "**/kstrl/learning/autonomy.py", "**/kstrl/learning/autonomy_config.py",
    "**/kstrl/learning/autonomy_transitions.py", "**/kstrl/io/statedir.py", "**/kstrl/owner/waivers.py",
    "**/kstrl/verify/__init__.py", "**/kstrl/proc/__init__.py", "**/kstrl/learning/__init__.py",
    "**/kstrl/io/__init__.py", "**/kstrl/owner/__init__.py", "**/.kstrl/autonomy.json",
    ".kstrl/autonomy.json", "**/.kstrl/inbox.jsonl", ".kstrl/inbox.jsonl", "**/.kstrl/queue/spend.json",
    ".kstrl/queue/spend.json", "**/.kstrl/queue/pause.json", ".kstrl/queue/pause.json",
    "**/.kstrl/queue/github_processed.json", ".kstrl/queue/github_processed.json"]

def defaultPathsDeny : List String := [".github/workflows/**", "kstrl.toml", ".kstrl/**", "**/*.pem", "**/.env*"]

def defaultSecretPatterns : List String :=
  ["AKIA[0-9A-Z]\x7b16\x7d", "-----BEGIN (?:RSA |EC )?PRIVATE KEY-----", "sk-[a-zA-Z0-9]\x7b20,\x7d",
    "ghp_[a-zA-Z0-9]\x7b36\x7d", "xox[bpoas]-[a-zA-Z0-9-]+"]

/-- `PolicyConfig`. -/
structure PolicyConfig where
  enabled : Bool := false
  pathsDeny : List String := defaultPathsDeny
  maxFilesChanged : ℤ := 40
  maxLinesChanged : ℤ := 1500
  secretPatterns : List String := defaultSecretPatterns
  enforcementPathsExtra : List String := []

/-! ## Secrets -/

/-- The lines a pattern is found in, or the text of the error that it does not compile with. -/
abbrev Compiler := String → Except PyStr (PyStr → Bool)

/-- The hashes of a path's lines. -/
abbrev SecretHits := List (PyStr × List String)

/-- `hits.setdefault(path, set()).add(digest)`. -/
def addHit (path : PyStr) (digest : String) (hits : SecretHits) : SecretHits :=
  Rows.touch Prod.fst (fun path => (path, [])) path (fun row => (row.1, row.2.insert digest)) hits

/-- `_scan_secrets`. -/
def scanSecrets (compile : Compiler) (digest : PyStr → String) (added : List (PyStr × PyStr))
    (patterns : List String) : Except PyStr SecretHits :=
  (patterns.mapM compile).map fun compiled =>
    added.foldl (fun hits line =>
      if compiled.any fun found => found line.2 then addHit line.1 (digest line.2) hits else hits) []

/-! ## The evaluation -/

/-- `PolicyViolation`. -/
structure PolicyViolation where
  category : String
  explanation : PyStr
  location : PyStr := []
  severity : String := "high"
  suggestion : String := ""

def PolicyViolation.blocking (v : PolicyViolation) : Bool := v.severity ≠ "advisory"

/-- `PolicyEvaluation`. -/
structure PolicyEvaluation where
  ok : Bool
  summary : String
  details : List PyStr
  machineryHit : Bool
  violations : List PolicyViolation

/-- A row of `git diff --numstat`. -/
abbrev NumstatRow := Option ℕ × Option ℕ × PyStr

/-- `count_diff_size`. -/
def countDiffSize (numstat : List NumstatRow) : ℕ × ℕ :=
  (numstat.length, (numstat.map fun row => row.1.getD 0 + row.2.1.getD 0).sum)

def machineryViolations (machinery : List PyStr) : List PolicyViolation :=
  if machinery = [] then []
  else [{ category := "enforcement_machinery"
          severity := "critical"
          location := join ", " ((sortTexts machinery).take 5)
          explanation := lit ("HALT: enforcement-machinery paths modified (non-overridable, "
            ++ "blocks at every autonomy level): ") ++ join ", " (sortTexts machinery)
          suggestion := "Revert these paths. Changes to the policy file, CI workflows, or verifier code "
            ++ "must be made by a human, never inside an automated run." }]

def denyViolations (denyHits : List PyStr) : List PolicyViolation :=
  if denyHits = [] then []
  else [{ category := "paths_deny"
          location := join ", " ((sortTexts (denyHits.map (beforeFirst (lit " (")))).take 5)
          explanation := lit "Denied paths modified: " ++ join "; " (sortTexts denyHits)
          suggestion := "Revert these paths or widen [policy] paths_deny." }]

/-- A cap; a negative one is off. -/
def capViolations (category what : String) (count : ℕ) (cap : ℤ) : List PolicyViolation :=
  if 0 ≤ cap ∧ cap < count then
    [{ category := category
       explanation := lit s!"Too many {what} changed: {count} > {category} {cap}"
       suggestion := "Split the change into smaller components." }]
  else []

/-- The hashes of a path, as the finding lists them. -/
def listHit (hit : PyStr × List String) : PyStr :=
  hit.1 ++ lit "#" ++ join "," (sortTexts (hit.2.map lit))

def secretViolations (hits : SecretHits) : List PolicyViolation :=
  if hits = [] then []
  else [{ category := "secret_pattern"
          location := join ", " ((sortTexts (hits.map Prod.fst)).take 5)
          explanation := lit "Possible secrets in added lines: " ++ join ", "
            ((hits.mergeSort fun a b => decide (a.1.map PyChar.code ≤ b.1.map PyChar.code)).map listHit)
          suggestion := "Remove the credential and rotate it; load secrets from the environment instead." }]

/-- What `evaluate_policy` raises. -/
inductive EvaluationError where
  /-- a secret pattern that does not compile -/
  | config (message : PyStr)
  /-- a header path a codec raises on -/
  | decode (path : PyStr)

/-- `evaluate_policy`. -/
def evaluatePolicy (charNamed : List UInt8 → Option ℕ) (compile : Compiler) (digest : PyStr → String)
    (changedFiles : List PyStr) (numstat : List NumstatRow) (diffText : PyStr) (config : PolicyConfig) :
    Except EvaluationError PolicyEvaluation := do
  let machinery := changedFiles.filter fun f =>
    (matchGlob f (enforcementMachineryPaths ++ config.enforcementPathsExtra)).isSome
  let denyHits := (changedFiles.filter (· ∉ machinery)).filterMap fun path =>
    (matchGlob path config.pathsDeny).map fun pattern => path ++ lit s!" (deny '{pattern}')"
  let size := countDiffSize numstat
  let added ← (parseAddedLines charNamed diffText).mapError .decode
  let hits ← (scanSecrets compile digest added config.secretPatterns).mapError .config
  let violations := machineryViolations machinery ++ denyViolations denyHits ++
    capViolations "max_files_changed" "files" size.1 config.maxFilesChanged ++
    capViolations "max_lines_changed" "lines" size.2 config.maxLinesChanged ++ secretViolations hits
  let ok := !violations.any PolicyViolation.blocking
  .ok {
    ok := ok
    summary :=
      if ok then s!"policy envelope satisfied ({size.1} files, {size.2} lines, within limits)"
      else s!"{violations.length} policy violation(s)" ++
        if machinery = [] then "" else " including enforcement-machinery halt"
    details := violations.map PolicyViolation.explanation
    machineryHit := machinery ≠ []
    violations := violations }

/-! ## What the scan finds -/

section Scan

variable {compile : Compiler} {digest : PyStr → String}

/-- A pattern that compiles is among the compiled ones. -/
lemma mem_compiled {patterns : List String} {compiled : List (PyStr → Bool)}
    (h : patterns.mapM compile = .ok compiled) {pattern : String} (hpattern : pattern ∈ patterns)
    {found : PyStr → Bool} (hfound : compile pattern = .ok found) : found ∈ compiled := by
  induction patterns generalizing compiled with
  | nil => cases hpattern
  | cons p rest ih =>
      rw [List.mapM_cons] at h
      cases hp : compile p with
      | error text =>
          rw [hp] at h
          cases h
      | ok found' =>
          cases hrest : rest.mapM compile with
          | error text =>
              rw [hp, hrest] at h
              cases h
          | ok compiled' =>
              rw [hp, hrest] at h
              cases h
              rcases List.mem_cons.mp hpattern with rfl | hmem
              · rw [hp] at hfound
                cases hfound
                exact List.mem_cons_self
              · exact List.mem_cons_of_mem _ (ih hrest hmem)

/-- The paths that are hit. -/
lemma mem_scan {compiled : List (PyStr → Bool)} {added : List (PyStr × PyStr)} {hits : SecretHits}
    {path : PyStr} :
    path ∈ (added.foldl (fun hits line =>
        if compiled.any fun found => found line.2 then addHit line.1 (digest line.2) hits else hits)
      hits).map Prod.fst ↔
      path ∈ hits.map Prod.fst ∨ ∃ text, (path, text) ∈ added ∧ ∃ found ∈ compiled, found text = true := by
  induction added generalizing hits with
  | nil => simp
  | cons line rest ih =>
      obtain ⟨path', text'⟩ := line
      rw [List.foldl_cons, ih]
      have htouch : path ∈ (addHit path' (digest text') hits).map Prod.fst ↔
          path = path' ∨ path ∈ hits.map Prod.fst := by
        rw [List.mem_map, List.mem_map]
        exact Rows.exists_touch (fun _ => rfl) rfl
      constructor
      · rintro (hmem | ⟨text, hmem, hfound⟩)
        · split_ifs at hmem with hany
          · rcases htouch.mp hmem with rfl | hmem
            · exact Or.inr ⟨text', List.mem_cons_self, List.any_eq_true.mp hany⟩
            · exact Or.inl hmem
          · exact Or.inl hmem
        · exact Or.inr ⟨text, List.mem_cons_of_mem _ hmem, hfound⟩
      · rintro (hmem | ⟨text, hmem, hfound⟩)
        · left
          split_ifs
          · exact htouch.mpr (Or.inr hmem)
          · exact hmem
        · rcases List.mem_cons.mp hmem with he | hmem
          · cases he
            left
            rw [if_pos (List.any_eq_true.mpr hfound)]
            exact htouch.mpr (Or.inl rfl)
          · exact Or.inr ⟨text, hmem, hfound⟩

/-- **A path is hit where a line filed under it is found.** -/
lemma mem_scanSecrets {patterns : List String} {added : List (PyStr × PyStr)} {hits : SecretHits}
    (h : scanSecrets compile digest added patterns = .ok hits) :
    ∃ compiled, patterns.mapM compile = .ok compiled ∧ ∀ path, path ∈ hits.map Prod.fst ↔
      ∃ text, (path, text) ∈ added ∧ ∃ found ∈ compiled, found text = true := by
  unfold scanSecrets at h
  cases hcompiled : patterns.mapM compile with
  | error text =>
      rw [hcompiled] at h
      cases h
  | ok compiled =>
      rw [hcompiled] at h
      cases h
      exact ⟨compiled, rfl, fun path => mem_scan.trans (by simp)⟩

/-- **The envelope says that there is a secret where a path is hit.** -/
lemma evaluatePolicy_secret {charNamed : List UInt8 → Option ℕ} {changedFiles : List PyStr}
    {numstat : List NumstatRow} {diffText : PyStr} {config : PolicyConfig} {evaluation : PolicyEvaluation}
    (h : evaluatePolicy charNamed compile digest changedFiles numstat diffText config = .ok evaluation) :
    ∃ added hits, parseAddedLines charNamed diffText = .ok added ∧
      scanSecrets compile digest added config.secretPatterns = .ok hits ∧
      (hits ≠ [] → ∃ v ∈ evaluation.violations, v.category = "secret_pattern") := by
  unfold evaluatePolicy at h
  cases hadded : parseAddedLines charNamed diffText with
  | error path =>
      rw [hadded] at h
      cases h
  | ok added =>
      cases hhits : scanSecrets compile digest added config.secretPatterns with
      | error text =>
          simp only [hadded, Except.mapError, bind, Except.bind, hhits] at h
          cases h
      | ok hits =>
          simp only [hadded, Except.mapError, bind, Except.bind, hhits] at h
          cases h
          refine ⟨added, hits, rfl, hhits, fun hne => ?_⟩
          simp only [secretViolations, if_neg hne]
          exact ⟨_, List.mem_append_right _ (List.mem_singleton_self _), rfl⟩

end Scan

end Verify

end Kstrl
