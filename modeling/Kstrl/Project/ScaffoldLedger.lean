import Kstrl.Base.CrashProg
import Kstrl.Base.Keyed
import Kstrl.Base.TextLines
import Kstrl.Io.LinkTree

/-!
# Upgrading the scaffolded files

The scaffold ledger (`kstrl/project/scaffold_ledger.py`): how a file is recognised as one that `ks init` wrote, and
what `ks init --upgrade-prompts` does with it.  The tree is one of directory entries, inodes and symbolic links.

The digest is a parameter.  The ledger of the source has the digests of the bodies that were shipped; here a template
has the bodies, and `history` is their digests.  A rewrite is one write: the temporary file beside it is left out.

* **`UpgradeKeeps`**: whatever writes fail or are cut off, an entry is changed only if it is a file of one name inside
  the project whose bytes are an older body of the template of its name, and then it holds the current body.
* **`upgrade_keeps_iff`**: this holds unless a file that would be upgraded is such a body with carriage returns, which
  the reader takes away before the digest is taken.
-/

namespace Kstrl.Scaffold

open CrashProg LinkTree PyCodec TextLines

abbrev Bytes := List UInt8

/-- A file `ks init` writes from a harness constant. -/
structure ScaffoldedTemplate where
  filename : String
  constantName : String
  body : List Char
  /-- every body the constant has had and the label it shipped under, the current one last -/
  shipped : List (Bytes × String)
  bodies : (shipped.map Prod.fst).Nodup
  labels : (shipped.map Prod.snd).Nodup
  last : (shipped.getLast?.map Prod.fst) = some (encode body)

def ScaffoldedTemplate.currentLabel (t : ScaffoldedTemplate) : String := (t.shipped.getLast?.map Prod.snd).getD ""

/-- The files `ks init` scaffolds. -/
def scaffoldNames : List String :=
  ["prompt.md", "understand_prompt.md", "feature_understand_prompt.md", "golden-patterns.md", "memory.md",
    "codebase_map.md"]

/-- `SCAFFOLDED_TEMPLATES` -/
structure Ledger where
  templates : List ScaffoldedTemplate
  names : templates.map (·.filename) = scaffoldNames

/-- An older body kstrl shipped under the name of the template. -/
def OlderBody (t : ScaffoldedTemplate) (bytes : Bytes) : Prop := bytes ∈ t.shipped.dropLast.map Prod.fst

/-- What a digest is taken of: the shipped bodies, and what the files of the tree read as. -/
def hashed (ledger : Ledger) (fs : FileTree Bytes) : Set Bytes :=
  {bytes | (∃ t ∈ ledger.templates, bytes ∈ t.shipped.map Prod.fst) ∨
    ∃ inode text, decodeUtf8 (fs.bytes inode) = some text ∧ bytes = encode (translate text)}

section Reading

variable (sha256 : Bytes → String)

/-- The digest of every body, with its label. -/
def ScaffoldedTemplate.history (t : ScaffoldedTemplate) : List (String × String) :=
  t.shipped.map fun row => (sha256 row.1, row.2)

/-- `dict(rows).get(key)` -/
def dictGet (rows : List (String × String)) (key : String) : Option String := rows.reverse.lookup key

/-- `text.rstrip("\n")` -/
def rstripNewlines (text : List Char) : List Char := text.rdropWhile (· = '\n')

/-- The label of the shipped body the text is. -/
def shippedLabel (ledger : Ledger) (filename : String) (text : List Char) (ignoreTrailingNewlines : Bool := false) :
    Option String := do
  let template ← ledger.templates.find? fun t => t.filename = filename
  let candidates := if ignoreTrailingNewlines then [text, rstripNewlines text ++ ['\n']] else [text]
  candidates.findSome? fun candidate => dictGet (template.history sha256) (sha256 (encode candidate))

inductive TemplateStatus where
  | absent
  | current
  | stale
  | unrecognised
  deriving DecidableEq, Repr

/-- What a scaffolded file on disk is, against the shipped history. -/
structure TemplateState where
  template : ScaffoldedTemplate
  path : Path
  status : TemplateStatus
  shippedLabel : Option String := none

variable (fs : FileTree Bytes)

/-- `path.read_text(encoding="utf-8")`, none when it cannot be read as text. -/
def readTextOrNone (path : Path) : Option (List Char) := do
  let inode ← fs.inode? path
  let text ← decodeUtf8 (fs.bytes inode)
  pure (translate text)

def classify (ledger : Ledger) (template : ScaffoldedTemplate) (path : Path) : TemplateState :=
  if (fs.resolve path).isNone then { template, path, status := .absent }
  else
    match (readTextOrNone fs path).bind fun text => shippedLabel sha256 ledger template.filename text with
    | none => { template, path, status := .unrecognised }
    | some label =>
        { template, path, status := if label = template.currentLabel then .current else .stale
          shippedLabel := some label }

/-- Where `ks init` writes a template. -/
def scaffoldPath (root : Path) (template : ScaffoldedTemplate) : Path := root ++ ["scripts", "kstrl", template.filename]

def classifyScaffold (ledger : Ledger) (root : Path) : List TemplateState :=
  ledger.templates.map fun t => classify sha256 fs ledger t (scaffoldPath root t)

end Reading

/-! ## Rewriting -/

def showPath (p : Path) : String := "/" ++ "/".intercalate p

/-- A path with every link followed, as a message shows it. -/
def resolved (fs : FileTree Bytes) (p : Path) : Path := (fs.resolve p).getD p

/-- The reason that lies in the entry itself. -/
def linkBlocker (fs : FileTree Bytes) (path : Path) : List String :=
  if fs.isLink path then ["a symlink to " ++ showPath (resolved fs path)]
  else
    let links := ((fs.inode? path).map fs.nlink).getD 1
    if 1 < links then ["a hard link shared with " ++ toString (links - 1) ++ " other name(s)"] else []

/-- Every reason the upgrade would not rewrite the path. -/
def rewriteBlockers (fs : FileTree Bytes) (path : Path) (root : Option Path) : List String :=
  linkBlocker fs path ++
    (match root with
      | some root =>
          if resolved fs root <+: resolved fs path ∧ resolved fs root ≠ resolved fs path then []
          else ["outside this project, at " ++ showPath (resolved fs path)]
      | none => []) ++
    if ["scripts", "kstrl"] <:+ path.dropLast then []
    else ["not the copy under scripts/kstrl/ that `ks init` upgrades"]

inductive UpgradeError where
  /-- `FileNotFoundError` of `_atomic_replace` -/
  | missing (path : Path)
  /-- `OSError` of the write -/
  | os
  deriving Repr

/-- A rename over the last name of a path. -/
def replaceAt (fs : FileTree Bytes) (path : Path) (content : Bytes) : FileTree Bytes :=
  match fs.place path with
  | some place => fs.replace place content
  | none => fs

/-- Replace an existing file's bytes. -/
def atomicReplace (path : Path) (content : List Char) : Prog (FileTree Bytes) UpgradeError Unit := do
  let fs ← read
  require ((fs.inode? path).isSome = true) (.missing path)
  write (fun fs => replaceAt fs path (encode content)) .os

def upgradeOne (root : Path) (state : TemplateState) : Prog (FileTree Bytes) UpgradeError Unit := do
  let fs ← read
  if state.status = .stale ∧ rewriteBlockers fs state.path (some root) = [] then
    atomicReplace state.path state.template.body
  else pure ()

/-- Rewrite pristine older scaffolds with the body kstrl ships now. -/
def upgradeScaffoldedTemplates (sha256 : Bytes → String) (ledger : Ledger) (root : Path) :
    Prog (FileTree Bytes) UpgradeError Unit := do
  let fs ← read
  (classifyScaffold sha256 fs ledger root).foldlM (fun _ state => upgradeOne root state) ()

/-! ## Recognising a file -/

section Recognised

variable {sha256 : Bytes → String} {ledger : Ledger} {fs : FileTree Bytes} {t t' : ScaffoldedTemplate}

lemma Ledger.nodup (ledger : Ledger) : (ledger.templates.map (·.filename)).Nodup := by
  rw [ledger.names]
  decide

lemma Ledger.eq_of_filename (ht : t ∈ ledger.templates) (ht' : t' ∈ ledger.templates)
    (h : t.filename = t'.filename) : t = t' :=
  List.inj_on_of_nodup_map ledger.nodup ht ht' h

lemma Ledger.filename_plain (ht : t ∈ ledger.templates) : t.filename ∉ ["", ".", ".."] := by
  have hmem : t.filename ∈ scaffoldNames := ledger.names ▸ List.mem_map_of_mem ht
  have hall : ∀ name ∈ scaffoldNames, name ∉ ["", ".", ".."] := by decide
  exact hall _ hmem

lemma Ledger.find_filename (ht : t ∈ ledger.templates) :
    ledger.templates.find? (fun u => u.filename = t.filename) = some t := by
  cases hfind : ledger.templates.find? (fun u => u.filename = t.filename) with
  | none => exact absurd (by simp) (List.find?_eq_none.mp hfind t ht)
  | some u =>
      rw [Ledger.eq_of_filename (List.mem_of_find?_eq_some hfind) ht (by simpa using List.find?_some hfind)]

/-- A row of a table in which each key stands once. -/
lemma dictGet_eq_some {rows : List (String × String)} (hkeys : (rows.map Prod.fst).Nodup) {key label : String} :
    dictGet rows key = some label ↔ (key, label) ∈ rows := by
  rw [dictGet, ← List.mem_reverse]
  constructor
  · intro h
    obtain ⟨front, back, hrows, -⟩ := List.lookup_eq_some_iff.mp h
    rw [hrows]
    simp
  · intro h
    refine Keyed.lookup_of_mem ?_ h
    rwa [List.map_reverse, List.nodup_reverse]

lemma hashed_of_shipped (ht : t ∈ ledger.templates) {row : Bytes × String} (hrow : row ∈ t.shipped) :
    row.1 ∈ hashed ledger fs :=
  Or.inl ⟨t, ht, List.mem_map_of_mem hrow⟩

lemma hashed_of_read {path : Path} {text : List Char} (htext : readTextOrNone fs path = some text) :
    encode text ∈ hashed ledger fs := by
  obtain ⟨inode, -, hread⟩ := Option.bind_eq_some_iff.mp htext
  obtain ⟨raw, hraw, htranslate⟩ := Option.bind_eq_some_iff.mp hread
  exact Or.inr ⟨inode, raw, hraw, by rw [Option.some.inj htranslate]⟩

/-- The label of a text is that of the body it is. -/
lemma shippedLabel_eq_some (hinj : Set.InjOn sha256 (hashed ledger fs)) (ht : t ∈ ledger.templates)
    {text : List Char} (htext : encode text ∈ hashed ledger fs) {label : String} :
    shippedLabel sha256 ledger t.filename text = some label ↔ (encode text, label) ∈ t.shipped := by
  have hkeys : ((t.history sha256).map Prod.fst).Nodup := by
    have hmap : (t.history sha256).map Prod.fst = (t.shipped.map Prod.fst).map sha256 := by
      simp [ScaffoldedTemplate.history]
    rw [hmap]
    exact t.bodies.map_on fun b hb b' hb' => hinj (Or.inl ⟨t, ht, hb⟩) (Or.inl ⟨t, ht, hb'⟩)
  have hlabel : shippedLabel sha256 ledger t.filename text =
      dictGet (t.history sha256) (sha256 (encode text)) := by
    simp only [shippedLabel, Ledger.find_filename ht]
    cases h : dictGet (t.history sha256) (sha256 (encode text)) with
    | none => simp [h]
    | some found => simp [h]
  rw [hlabel, dictGet_eq_some hkeys, ScaffoldedTemplate.history, List.mem_map]
  constructor
  · rintro ⟨row, hrow, heq⟩
    obtain ⟨hsha, rfl⟩ := Prod.mk.inj heq
    rwa [← hinj (hashed_of_shipped ht hrow) htext hsha]
  · intro h
    exact ⟨_, h, rfl⟩

/-- The shipped bodies are the older ones and the current one. -/
lemma ScaffoldedTemplate.shipped_eq (t : ScaffoldedTemplate) :
    t.shipped = t.shipped.dropLast ++ [(encode t.body, t.currentLabel)] := by
  obtain ⟨row, hrow, hbody⟩ := Option.map_eq_some_iff.mp t.last
  have hlabel : t.currentLabel = row.2 := by rw [ScaffoldedTemplate.currentLabel, hrow]; rfl
  obtain ⟨front, hfront⟩ := List.getLast?_eq_some_iff.mp hrow
  rw [hfront, List.dropLast_concat, hlabel, ← hbody]

/-- The labels other than the current one are those of the older bodies. -/
lemma olderBody_iff {bytes : Bytes} :
    OlderBody t bytes ↔ ∃ label, (bytes, label) ∈ t.shipped ∧ label ≠ t.currentLabel := by
  have hlabels := t.labels
  rw [t.shipped_eq, List.map_append, List.nodup_append] at hlabels
  obtain ⟨-, -, hlabels⟩ := hlabels
  constructor
  · intro h
    obtain ⟨row, hrow, rfl⟩ := List.mem_map.mp h
    refine ⟨row.2, t.shipped_eq ▸ List.mem_append_left _ hrow, ?_⟩
    exact hlabels _ (List.mem_map_of_mem hrow) _ (by simp)
  · rintro ⟨label, hmem, hne⟩
    rw [t.shipped_eq] at hmem
    rcases List.mem_append.mp hmem with hmem | hmem
    · exact List.mem_map.mpr ⟨_, hmem, rfl⟩
    · exact absurd (Prod.mk.inj (List.mem_singleton.mp hmem)).2 hne

lemma classify_fields (sha256 : Bytes → String) (fs : FileTree Bytes) (ledger : Ledger) (t : ScaffoldedTemplate)
    (path : Path) : (classify sha256 fs ledger t path).template = t ∧ (classify sha256 fs ledger t path).path = path := by
  unfold classify
  split_ifs
  · exact ⟨rfl, rfl⟩
  · split <;> exact ⟨rfl, rfl⟩

/-- **A file is stale** if it reads as an older body. -/
lemma classify_stale (hinj : Set.InjOn sha256 (hashed ledger fs)) (ht : t ∈ ledger.templates) {path : Path} :
    (classify sha256 fs ledger t path).status = .stale ↔
      ∃ text, readTextOrNone fs path = some text ∧ OlderBody t (encode text) := by
  have hresolve : ∀ text, readTextOrNone fs path = some text → (fs.resolve path).isNone = false := by
    intro text h
    cases hr : fs.resolve path with
    | none => simp [readTextOrNone, FileTree.inode?, hr] at h
    | some p => rfl
  constructor
  · intro h
    unfold classify at h
    split_ifs at h with habsent
    split at h
    · cases h
    · next label hlabel =>
        obtain ⟨text, htext, hlabel⟩ := Option.bind_eq_some_iff.mp hlabel
        refine ⟨text, htext, olderBody_iff.mpr ⟨label, ?_, fun he => ?_⟩⟩
        · exact (shippedLabel_eq_some hinj ht (hashed_of_read htext)).mp hlabel
        · simp [he] at h
  · rintro ⟨text, htext, hold⟩
    obtain ⟨label, hmem, hne⟩ := olderBody_iff.mp hold
    have hlabel : ((readTextOrNone fs path).bind fun text => shippedLabel sha256 ledger t.filename text) =
        some label := by
      rw [htext, Option.bind_some, (shippedLabel_eq_some hinj ht (hashed_of_read htext)).mpr hmem]
    rw [classify, if_neg (by rw [hresolve text htext]; exact Bool.false_ne_true), hlabel]
    exact if_neg hne

end Recognised

/-! ## What is rewritten -/

/-- The file behind an entry. -/
def contents (fs : FileTree Bytes) (p : Path) : Option Bytes :=
  match fs.entry p with
  | some (.file inode) => some (fs.bytes inode)
  | _ => none

/-- The entry is as it was: its link, or its file with its bytes and its names. -/
def Kept (fs fs' : FileTree Bytes) (p : Path) : Prop :=
  fs'.entry p = fs.entry p ∧ ∀ inode, fs.entry p = some (.file inode) →
    fs'.bytes inode = fs.bytes inode ∧ fs'.nlink inode = fs.nlink inode

/-- A file the upgrade may change: a file of one name inside the project whose bytes are an older body of the
    template of that name. -/
structure Pristine (ledger : Ledger) (fs : FileTree Bytes) (root : Path) (t : ScaffoldedTemplate) (p : Path)
    (inode : ℕ) : Prop where
  mem : t ∈ ledger.templates
  entry : fs.entry p = some (.file inode)
  name : p.getLast? = some t.filename
  alone : fs.nlink inode = 1
  inside : ∃ r, fs.resolve root = some r ∧ r <+: p ∧ r ≠ p
  older : OlderBody t (fs.bytes inode)

/-- **The claim of the upgrade**, for every pattern of failed and cut off writes. -/
def UpgradeKeeps (sha256 : Bytes → String) (ledger : Ledger) (fs : FileTree Bytes) (root : Path) : Prop :=
  ∀ fs', Leaves (upgradeScaffoldedTemplates sha256 ledger root) fs fs' → ∀ p,
    Kept fs fs' p ∨ ∃ t inode, Pristine ledger fs root t p inode ∧ contents fs' p = some (encode t.body)

/-- A file that is upgraded: no link, one name, inside the project, and read as an older body. -/
structure Upgradable (ledger : Ledger) (fs : FileTree Bytes) (root : Path) (t : ScaffoldedTemplate) (p : Path)
    (inode : ℕ) : Prop where
  mem : t ∈ ledger.templates
  leads : fs.resolve (scaffoldPath root t) = some p
  entry : fs.entry p = some (.file inode)
  free : rewriteBlockers fs (scaffoldPath root t) (some root) = []
  reads : ∃ text, decodeUtf8 (fs.bytes inode) = some text ∧ OlderBody t (encode (translate text))

section Upgrading

variable {sha256 : Bytes → String} {ledger : Ledger} {fs fs' : FileTree Bytes} {root : Path} {t : ScaffoldedTemplate}
  {p : Path} {inode : ℕ}

lemma scaffoldPath_eq (root : Path) (t : ScaffoldedTemplate) :
    scaffoldPath root t = (root ++ ["scripts", "kstrl"]) ++ [t.filename] := by
  simp [scaffoldPath]

lemma inode_of_leads {path : Path} (hleads : fs.resolve path = some p) (hentry : fs.entry p = some (.file inode)) :
    fs.inode? path = some inode := by
  simp [FileTree.inode?, hleads, hentry]

lemma leads_of_inode {path : Path} (h : fs.inode? path = some inode) :
    ∃ p, fs.resolve path = some p ∧ fs.entry p = some (.file inode) := by
  unfold FileTree.inode? at h
  cases hleads : fs.resolve path with
  | none => rw [hleads] at h; cases h
  | some p =>
      rw [hleads, Option.bind_some] at h
      cases hentry : fs.entry p with
      | none => rw [hentry] at h; cases h
      | some e =>
          rw [hentry] at h
          cases e with
          | file i => exact ⟨p, rfl, by rw [hentry, Option.some.inj h]⟩
          | dir | link | special => cases h

/-- What no reason stands against. -/
lemma of_no_blockers {path : Path} (hleads : fs.resolve path = some p) (hentry : fs.entry p = some (.file inode))
    (hfree : rewriteBlockers fs path (some root) = []) :
    fs.isLink path = false ∧ fs.nlink inode = 1 ∧ resolved fs root <+: p ∧ resolved fs root ≠ p := by
  simp only [rewriteBlockers, List.append_eq_nil_iff] at hfree
  obtain ⟨⟨hlink, hroot⟩, -⟩ := hfree
  have hresolved : resolved fs path = p := by rw [resolved, hleads, Option.getD_some]
  rw [hresolved] at hroot
  have hplain : fs.isLink path = false := by
    by_contra hne
    rw [linkBlocker, if_pos (by simpa using hne)] at hlink
    cases hlink
  refine ⟨hplain, ?_, ?_⟩
  · rw [linkBlocker, hplain, if_neg Bool.false_ne_true, inode_of_leads hleads hentry] at hlink
    have hpos := FileTree.nlink_pos hentry
    simp only [Option.map_some, Option.getD_some] at hlink
    split_ifs at hlink with hmany
    omega
  · by_contra hne
    rw [if_neg hne] at hroot
    cases hroot

/-- An upgradable file is at the place its path names. -/
lemma Upgradable.place (h : Upgradable ledger fs root t p inode) :
    fs.place (scaffoldPath root t) = some p ∧ p.getLast? = some t.filename := by
  obtain ⟨hlink, -⟩ := of_no_blockers h.leads h.entry h.free
  have hleads := h.leads
  rw [scaffoldPath_eq] at hleads hlink ⊢
  exact FileTree.place_of_resolve (Ledger.filename_plain h.mem) hleads hlink

/-- Without carriage returns, a file that reads as a body is that body. -/
lemma Upgradable.pristine (h : Upgradable ledger fs root t p inode)
    (hplain : (13 : UInt8) ∉ fs.bytes inode ∨ OlderBody t (fs.bytes inode)) :
    Pristine ledger fs root t p inode := by
  obtain ⟨-, halone, hfront, hne⟩ := of_no_blockers h.leads h.entry h.free
  have hroot : (fs.resolve root).isSome = true := by
    refine FileTree.resolve_append_isSome (b := ["scripts", "kstrl", t.filename]) ?_
    have hleads := h.leads
    rw [scaffoldPath] at hleads
    rw [hleads]
    rfl
  obtain ⟨r, hr⟩ := Option.isSome_iff_exists.mp hroot
  have hresolved : resolved fs root = r := by rw [resolved, hr, Option.getD_some]
  refine ⟨h.mem, h.entry, h.place.2, halone, ⟨r, hr, hresolved ▸ hfront, hresolved ▸ hne⟩, ?_⟩
  rcases hplain with hplain | hold
  · obtain ⟨text, htext, hold⟩ := h.reads
    have hbytes := encode_of_decode htext
    have hreturn : '\r' ∉ text := by
      intro hmem
      refine hplain (hbytes ▸ List.mem_flatMap.mpr ⟨'\r', hmem, ?_⟩)
      decide
    rwa [translate_of_plain hreturn, hbytes] at hold
  · exact hold

/-! ## A run -/

/-- The tree once these templates were gone through. -/
structure Upgraded (ledger : Ledger) (fs : FileTree Bytes) (root : Path) (done : List ScaffoldedTemplate)
    (s : FileTree Bytes) : Prop where
  shape : ∀ q, (s.entry q).map Entry.shape = (fs.entry q).map Entry.shape
  kept : ∀ q, (∀ t ∈ done, ∀ inode, ¬ Upgradable ledger fs root t q inode) → Kept fs s q
  new : ∀ t ∈ done, ∀ q inode, Upgradable ledger fs root t q inode →
    contents s q = some (encode t.body) ∧ s.entry q ≠ fs.entry q

variable {done : List ScaffoldedTemplate} {s : FileTree Bytes}

lemma Upgraded.refl : Upgraded ledger fs root [] fs :=
  ⟨fun _ => rfl, fun _ _ => ⟨rfl, fun _ _ => ⟨rfl, rfl⟩⟩, fun _ h => absurd h List.not_mem_nil⟩

/-- The place of a template that was not gone through is as it was. -/
lemma Upgraded.kept_of_name (h : Upgraded ledger fs root done s) (hname : p.getLast? = some t.filename)
    (hnew : ∀ t' ∈ done, t'.filename ≠ t.filename) : Kept fs s p := by
  refine h.kept p fun t' ht' inode hup => hnew t' ht' ?_
  exact Option.some.inj (hup.place.2.symm.trans hname)

/-- The reasons against a rewrite are those at the start. -/
lemma Upgraded.blockers_iff (h : Upgraded ledger fs root done s) (ht : t ∈ ledger.templates)
    (hnew : ∀ t' ∈ done, t'.filename ≠ t.filename) (hleads : fs.resolve (scaffoldPath root t) = some p)
    (hentry : fs.entry p = some (.file inode)) :
    rewriteBlockers s (scaffoldPath root t) (some root) = [] ↔
      rewriteBlockers fs (scaffoldPath root t) (some root) = [] := by
  have hlink := FileTree.isLink_congr h.shape (scaffoldPath root t)
  have hresolved : ∀ path, resolved s path = resolved fs path := fun path => by
    rw [resolved, resolved, FileTree.resolve_congr h.shape]
  cases hfs : fs.isLink (scaffoldPath root t) with
  | true =>
      rw [hfs] at hlink
      refine iff_of_false (fun hfree => ?_) fun hfree => ?_
      · simp [rewriteBlockers, linkBlocker, hlink] at hfree
      · simp [rewriteBlockers, linkBlocker, hfs] at hfree
  | false =>
      have hleads' := hleads
      rw [scaffoldPath_eq] at hleads' hfs
      obtain ⟨-, hname⟩ := FileTree.place_of_resolve (Ledger.filename_plain ht) hleads' hfs
      rw [← scaffoldPath_eq] at hfs
      obtain ⟨hsame, hfile⟩ := h.kept_of_name hname hnew
      have hinode : s.inode? (scaffoldPath root t) = fs.inode? (scaffoldPath root t) := by
        rw [inode_of_leads hleads hentry, inode_of_leads ((FileTree.resolve_congr h.shape _).trans hleads)
          (hsame.trans hentry)]
      simp only [rewriteBlockers, linkBlocker, hlink, hresolved, hinode, inode_of_leads hleads hentry,
        Option.map_some, (hfile inode hentry).2]

/-- **One rewrite.** -/
lemma Upgraded.step (h : Upgraded ledger fs root done s) (hup : Upgradable ledger fs root t p inode)
    (hnew : ∀ t' ∈ done, t'.filename ≠ t.filename) :
    Upgraded ledger fs root (t :: done) (s.replace p (encode t.body)) := by
  obtain ⟨hsame, hfile⟩ := h.kept_of_name hup.place.2 hnew
  have hentry : s.entry p = some (.file inode) := hsame.trans hup.entry
  obtain ⟨-, halone, -⟩ := of_no_blockers hup.leads hup.entry hup.free
  refine ⟨fun q => (FileTree.shape_replace _ hentry q).trans (h.shape q), fun q hq => ?_, fun t' ht' q i hup' => ?_⟩
  · have hne : q ≠ p := fun he => hq t (List.mem_cons_self ..) inode (he ▸ hup)
    obtain ⟨hqsame, hqfile⟩ := h.kept q fun t' ht' => hq t' (List.mem_cons_of_mem _ ht')
    refine ⟨(FileTree.entry_replace_ne _ hne).trans hqsame, fun i hi => ?_⟩
    have hqi : s.entry q = some (.file i) := hqsame.trans hi
    have hother : i ≠ inode := fun he => hne (FileTree.eq_of_nlink hup.entry (he ▸ hi) halone)
    rw [FileTree.bytes_replace _ hqi, FileTree.nlink_replace _ hentry hother
      (ne_of_lt (s.lt_fresh (FileTree.lookup_of_file hqi)))]
    exact hqfile i hi
  · rcases List.mem_cons.mp ht' with rfl | ht'
    · obtain rfl : q = p := Option.some.inj (hup'.leads.symm.trans hup.leads)
      rw [contents, FileTree.entry_replace_self _ hentry, hup.entry]
      refine ⟨congrArg some (FileTree.bytes_replace_self _ hentry), fun he => ?_⟩
      have hlt := s.lt_fresh (FileTree.lookup_of_file hentry)
      rw [Entry.file.inj (Option.some.inj he)] at hlt
      exact absurd hlt (lt_irrefl _)
    · have hne : q ≠ p := by
        rintro rfl
        exact hnew t' ht' (Option.some.inj (hup'.place.2.symm.trans hup.place.2))
      obtain ⟨hcontents, hentry'⟩ := h.new t' ht' q i hup'
      rw [contents, FileTree.entry_replace_ne _ hne]
      refine ⟨?_, hentry'⟩
      unfold contents at hcontents
      cases he : s.entry q with
      | none => rw [he] at hcontents; cases hcontents
      | some e =>
          rw [he] at hcontents
          cases e with
          | file j =>
              rw [← hcontents]
              exact congrArg some (FileTree.bytes_replace _ he)
          | dir | link | special => cases hcontents

lemma Upgraded.skip (h : Upgraded ledger fs root done s)
    (hno : ∀ q inode, ¬ Upgradable ledger fs root t q inode) : Upgraded ledger fs root (t :: done) s := by
  refine ⟨h.shape, fun q hq => h.kept q fun t' ht' => hq t' (List.mem_cons_of_mem _ ht'), fun t' ht' q i hup => ?_⟩
  rcases List.mem_cons.mp ht' with rfl | ht'
  · exact absurd hup (hno q i)
  · exact h.new t' ht' q i hup

/-- **What the upgrade does with one template**: one write, if its file is upgradable, and nothing else. -/
lemma upgradeOne_run (hinj : Set.InjOn sha256 (hashed ledger fs)) (h : Upgraded ledger fs root done s)
    (ht : t ∈ ledger.templates) (hnew : ∀ t' ∈ done, t'.filename ≠ t.filename) :
    (∃ p inode, Upgradable ledger fs root t p inode ∧ ∃ f : FileTree Bytes → FileTree Bytes,
        f s = s.replace p (encode t.body) ∧ ∀ faults,
          upgradeOne root (classify sha256 fs ledger t (scaffoldPath root t)) faults s = write f .os faults s) ∨
      (∀ p inode, ¬ Upgradable ledger fs root t p inode) ∧ ∀ faults,
        upgradeOne root (classify sha256 fs ledger t (scaffoldPath root t)) faults s = (.done (), faults, s) := by
  set state := classify sha256 fs ledger t (scaffoldPath root t) with hstate
  obtain ⟨htemplate, hpath⟩ := classify_fields sha256 fs ledger t (scaffoldPath root t)
  rw [← hstate] at htemplate hpath
  by_cases hex : ∃ p inode, Upgradable ledger fs root t p inode
  · obtain ⟨p, inode, hup⟩ := hex
    have hstale : state.status = .stale := by
      obtain ⟨text, htext, hold⟩ := hup.reads
      refine (classify_stale hinj ht).mpr ⟨translate text, ?_, hold⟩
      simp [readTextOrNone, inode_of_leads hup.leads hup.entry, htext]
    have hfree := (h.blockers_iff ht hnew hup.leads hup.entry).mpr hup.free
    have hsame := (h.kept_of_name hup.place.2 hnew).1
    have hinode := inode_of_leads ((FileTree.resolve_congr h.shape _).trans hup.leads) (hsame.trans hup.entry)
    refine Or.inl ⟨p, inode, hup, fun s => replaceAt s (scaffoldPath root t) (encode t.body), ?_, fun faults => ?_⟩
    · simp only [replaceAt, FileTree.place_congr h.shape, hup.place.1]
    · show (if state.status = .stale ∧ rewriteBlockers s state.path (some root) = [] then
        atomicReplace state.path state.template.body else pure ()) faults s = _
      rw [if_pos ⟨hstale, hpath ▸ hfree⟩, htemplate, hpath]
      show (require ((s.inode? (scaffoldPath root t)).isSome = true) _ >>= fun _ => _) faults s = _
      rw [require_pos (by rw [hinode]; rfl)]
      rfl
  · refine Or.inr ⟨fun p inode hup => hex ⟨p, inode, hup⟩, fun faults => ?_⟩
    show (if state.status = .stale ∧ rewriteBlockers s state.path (some root) = [] then
      atomicReplace state.path state.template.body else pure ()) faults s = _
    rw [if_neg]
    · rfl
    · rintro ⟨hstale, hfree⟩
      obtain ⟨text, htext, hold⟩ := (classify_stale hinj ht).mp hstale
      obtain ⟨inode, hinode, hread⟩ := Option.bind_eq_some_iff.mp htext
      obtain ⟨raw, hraw, htranslate⟩ := Option.bind_eq_some_iff.mp hread
      obtain ⟨p, hleads, hentry⟩ := leads_of_inode hinode
      rw [hpath] at hfree
      refine hex ⟨p, inode, ht, hleads, hentry, (h.blockers_iff ht hnew hleads hentry).mp hfree, raw, hraw, ?_⟩
      rwa [Option.some.inj htranslate]

/-- Two programs that end alike can be followed by the same. -/
lemma bind_congr {σ ε α β : Type} {c c' : Prog σ ε α} {faults : List Fault} {s : σ} (k : α → Prog σ ε β)
    (h : c faults s = c' faults s) : (c >>= k) faults s = (c' >>= k) faults s := by
  show Prog.bind c k faults s = Prog.bind c' k faults s
  rw [Prog.bind, Prog.bind, h]

/-- **A run of the upgrade** from any template on, with the writes `faults` lets pass. -/
lemma run_upgraded (hinj : Set.InjOn sha256 (hashed ledger fs)) (ts : List ScaffoldedTemplate)
    (hts : ∀ t ∈ ts, t ∈ ledger.templates) (hnodup : (ts.map (·.filename)).Nodup)
    (hnew : ∀ t ∈ ts, ∀ t' ∈ done, t'.filename ≠ t.filename) (h : Upgraded ledger fs root done s)
    (faults : List Fault) :
    ∃ done', (∀ t ∈ done', t ∈ done ∨ t ∈ ts) ∧ Upgraded ledger fs root done'
        (((ts.map fun t => classify sha256 fs ledger t (scaffoldPath root t)).foldlM
          (fun _ state => upgradeOne root state) ()) faults s).2.2 ∧
      (faults = [] → ∀ t, t ∈ done ∨ t ∈ ts → t ∈ done') := by
  induction ts generalizing done s faults with
  | nil => exact ⟨done, fun t ht => Or.inl ht, h, fun _ t ht => ht.resolve_right List.not_mem_nil⟩
  | cons t ts ih =>
      obtain ⟨hfresh, hnodup⟩ := List.nodup_cons.mp hnodup
      have htl := hts t (List.mem_cons_self ..)
      have hnewt := hnew t (List.mem_cons_self ..)
      have hrest : ∀ u ∈ ts, ∀ t' ∈ t :: done, t'.filename ≠ u.filename := by
        intro u hu t' ht'
        rcases List.mem_cons.mp ht' with rfl | ht'
        · exact fun he => hfresh (List.mem_map.mpr ⟨u, hu, he.symm⟩)
        · exact hnew u (List.mem_cons_of_mem _ hu) t' ht'
      have hmem : ∀ u, (u ∈ t :: done ∨ u ∈ ts) ↔ (u ∈ done ∨ u ∈ t :: ts) := by
        intro u
        simp only [List.mem_cons]
        tauto
      rw [List.map_cons, List.foldlM_cons]
      set rest : Prog (FileTree Bytes) UpgradeError Unit :=
        (ts.map fun t => classify sha256 fs ledger t (scaffoldPath root t)).foldlM
          (fun _ state => upgradeOne root state) () with hrestdef
      have hgo : ∀ s' faults', Upgraded ledger fs root (t :: done) s' → ∃ done',
          (∀ u ∈ done', u ∈ done ∨ u ∈ t :: ts) ∧ Upgraded ledger fs root done' (rest faults' s').2.2 ∧
            (faults' = [] → ∀ u, u ∈ done ∨ u ∈ t :: ts → u ∈ done') := by
        intro s' faults' hs'
        obtain ⟨done', hsub, hup, hall⟩ := ih (fun u hu => hts u (List.mem_cons_of_mem _ hu)) hnodup hrest hs' faults'
        exact ⟨done', fun u hu => (hmem u).mp (hsub u hu), hup, fun he u hu => hall he u ((hmem u).mpr hu)⟩
      have hstay : ∃ done', (∀ u ∈ done', u ∈ done ∨ u ∈ t :: ts) ∧ Upgraded ledger fs root done' s :=
        ⟨done, fun u hu => Or.inl hu, h⟩
      rcases upgradeOne_run hinj h htl hnewt with ⟨p, inode, hup, f, hf, hrun⟩ | ⟨hno, hrun⟩
      · have hstep := hf ▸ h.step hup hnewt
        rw [bind_congr _ (hrun faults)]
        obtain ⟨done', hsub, hdone⟩ := hstay
        match faults with
        | [] => exact hgo (f s) [] hstep
        | .pass :: faults =>
            obtain ⟨done', hsub, hup, _⟩ := hgo (f s) faults hstep
            exact ⟨done', hsub, hup, nofun⟩
        | .error :: _ => exact ⟨done', hsub, hdone, nofun⟩
        | .crash :: _ => exact ⟨done', hsub, hdone, nofun⟩
      · rw [@bind_congr _ _ _ _ _ (pure ()) _ _ _ (hrun faults)]
        exact hgo s faults (h.skip hno)

end Upgrading

/-- **The upgrade keeps what is the operator's**, whatever writes fail or are cut off, exactly if every file it would
    rewrite has no carriage return or is an older body with them. -/
theorem upgrade_keeps_iff (sha256 : Bytes → String) (ledger : Ledger) (fs : FileTree Bytes) (root : Path)
    (hinj : Set.InjOn sha256 (hashed ledger fs)) :
    UpgradeKeeps sha256 ledger fs root ↔ ∀ t p inode, Upgradable ledger fs root t p inode →
      (13 : UInt8) ∉ fs.bytes inode ∨ OlderBody t (fs.bytes inode) := by
  have hstart : Upgraded ledger fs root [] fs := Upgraded.refl
  have hrun := run_upgraded hinj ledger.templates (fun _ h => h) ledger.nodup
    (fun _ _ _ h => absurd h List.not_mem_nil) hstart
  constructor
  · intro hkeeps t p inode hup
    obtain ⟨done, -, hdone, hall⟩ := hrun []
    obtain ⟨-, hchanged⟩ := hdone.new t (hall rfl t (Or.inr hup.mem)) p inode hup
    rcases hkeeps _ ⟨[], rfl⟩ p with hkept | ⟨t', inode', hpristine, -⟩
    · exact absurd hkept.1 hchanged
    · have hname := hup.place.2.symm.trans hpristine.name
      obtain rfl := Ledger.eq_of_filename hup.mem hpristine.mem (Option.some.inj hname)
      have hentry := hup.entry.symm.trans hpristine.entry
      obtain rfl := Entry.file.inj (Option.some.inj hentry)
      exact Or.inr hpristine.older
  · rintro hplain fs' ⟨faults, rfl⟩ p
    obtain ⟨done, -, hdone, -⟩ := hrun faults
    by_cases hex : ∃ t ∈ done, ∃ inode, Upgradable ledger fs root t p inode
    · obtain ⟨t, ht, inode, hup⟩ := hex
      exact Or.inr ⟨t, inode, hup.pristine (hplain t p inode hup), (hdone.new t ht p inode hup).1⟩
    · exact Or.inl (hdone.kept p fun t ht inode hup => hex ⟨t, ht, inode, hup⟩)

/-! ## A body with carriage returns -/

def sampleTemplate (filename : String) : ScaffoldedTemplate where
  filename
  constantName := "DEFAULT_PROMPT"
  body := ['n', 'e', 'w', '\n']
  shipped := [(encode ['o', 'l', 'd', '\n'], "1.0"), (encode ['n', 'e', 'w', '\n'], "2.0")]
  bodies := by decide
  labels := by decide
  last := by decide

def sampleLedger : Ledger where
  templates := scaffoldNames.map sampleTemplate
  names := by decide

def sampleEntries : AList fun _ : Path => Entry :=
  ([⟨["app"], .dir⟩, ⟨["app", "scripts"], .dir⟩, ⟨["app", "scripts", "kstrl"], .dir⟩,
    ⟨["app", "scripts", "kstrl", "prompt.md"], .file 0⟩] : List (Σ _ : Path, Entry)).toAList

lemma sampleEntries_parents (p : Path) (name : String) (hmem : (p ++ [name]) ∈ sampleEntries) (hp : p ≠ []) :
    sampleEntries.lookup p = some .dir := by
  have hall : ∀ q ∈ sampleEntries.keys, q.dropLast ≠ [] → sampleEntries.lookup q.dropLast = some .dir := by
    decide +kernel
  have hdir := hall _ (AList.mem_keys.mp hmem)
  rw [List.dropLast_concat] at hdir
  exact hdir hp

/-- A project whose agent prompt has this content. -/
def sampleTree (content : List Char) : FileTree Bytes where
  entries := sampleEntries
  bytes := fun _ => encode content
  parents := sampleEntries_parents

/-- A digest that has no collisions. -/
def sampleDigest (bytes : Bytes) : String := String.ofList (bytes.map fun b => Char.ofNat b.toNat)

lemma sampleDigest_injective : Function.Injective sampleDigest := by
  intro bytes bytes' h
  refine List.map_injective_iff.mpr ?_ (String.ofList_injective h)
  intro b b' h
  have hval : ∀ n < 256, (Char.ofNat n).toNat = n := by decide +kernel
  have hnat := congrArg Char.toNat h
  rw [hval _ b.toNat_lt, hval _ b'.toNat_lt] at hnat
  exact UInt8.toNat_inj.mp hnat

/-- An older body is rewritten, and nothing is lost. -/
theorem upgrade_keeps_sample :
    Set.InjOn sampleDigest (hashed sampleLedger (sampleTree ['o', 'l', 'd', '\n'])) ∧
      UpgradeKeeps sampleDigest sampleLedger (sampleTree ['o', 'l', 'd', '\n']) ["app"] := by
  refine ⟨sampleDigest_injective.injOn, ?_⟩
  rw [upgrade_keeps_iff _ _ _ _ sampleDigest_injective.injOn]
  intro t p inode _
  left
  show (13 : UInt8) ∉ encode ['o', 'l', 'd', '\n']
  decide

/-- The same body with CRLF line ends is overwritten, though kstrl never shipped these bytes. -/
theorem upgrade_loses_returns :
    ¬ ∀ (sha256 : Bytes → String) (ledger : Ledger) (fs : FileTree Bytes) (root : Path),
      Set.InjOn sha256 (hashed ledger fs) → UpgradeKeeps sha256 ledger fs root := by
  intro h
  have hkeeps := h sampleDigest sampleLedger (sampleTree ['o', 'l', 'd', '\r', '\n']) ["app"]
    sampleDigest_injective.injOn _ ⟨[], rfl⟩ ["app", "scripts", "kstrl", "prompt.md"]
  rcases hkeeps with hkept | ⟨t, inode, hpristine, -⟩
  · have hentry := hkept.1
    revert hentry
    decide +kernel
  · obtain ⟨name, -, rfl⟩ := List.mem_map.mp hpristine.mem
    have holder := hpristine.older
    revert holder
    show ¬ encode ['o', 'l', 'd', '\r', '\n'] ∈ [encode ['o', 'l', 'd', '\n']]
    decide

end Kstrl.Scaffold
