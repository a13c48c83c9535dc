import Kstrl.Base.Keyed
import Kstrl.Knowledge.Facts

/-!
# The store of knowledge facts

The directory of a component: one directory for each run, and in it one file for each fact (`kstrl/knowledge/knowledge_facts.py`).

A run that writes a fact again replaces it in its own directory, and hides the one of an earlier run.  A store of
facts has the facts themselves where the directory has their files.

* **`writeFacts_files`**: writing to the directory is writing to the store of facts.
* **`readFacts_files`**: reading the directory is reading the store of facts.
* **`readFacts_stored`**: what is read after any number of runs.
-/

namespace Kstrl.Knowledge

open TextLines (translate)

section

-- `_is_injection_attempt`, and the integer that a `float` is cut to
variable (isInjectionAttempt : String → Bool) (floatInt : String → Option ℤ)

/-! ## The store -/

/-- A directory of files, and a directory of such directories, by name. -/
abbrev Files : Type := List (String × List Char)

abbrev ComponentRoot : Type := List (String × Files)

def Fact.fileName (f : Fact) : String := f.id ++ ".md"

/-- `write_facts`, where no write fails. -/
def writeFacts (facts : List Fact) (runId : String) (root : ComponentRoot) : ComponentRoot :=
  if facts = [] then root
  else
    let files := facts.foldl (fun files f => Keyed.set f.fileName (renderFactMd f) files) ((root.lookup runId).getD [])
    Keyed.set runId files root

/-- Entries in the order of their names. -/
def byName {α : Type} (entries : List (String × α)) : List (String × α) :=
  entries.mergeSort fun a b => decide (a.1 ≤ b.1)

def runDirs (root : ComponentRoot) : ComponentRoot :=
  byName (root.filter fun e => e.1.toList.head? ≠ some '_')

/-- What a directory of a run holds, by the id of each fact; a file that is rejected is left out. -/
def runFacts (files : Files) : List (String × Fact) :=
  (byName (files.filter fun e => ".md".toList.isSuffixOf e.1.toList)).filterMap fun e =>
    match parseFactMd isInjectionAttempt floatInt (translate e.2) with
    | .ok fact => some (fact.id, fact)
    | .error _ => none

def readFacts (root : ComponentRoot) : List Fact :=
  (Keyed.dict ((runDirs root).flatMap fun e => runFacts isInjectionAttempt floatInt e.2)).map Prod.snd

/-! ## A store of facts -/

/-- The facts of each run, by the name of their file. -/
abbrev Shelf : Type := List (String × List (String × Fact))

def Shelf.put (facts : List Fact) (runId : String) (shelf : Shelf) : Shelf :=
  if facts = [] then shelf
  else Keyed.set runId (facts.foldl (fun files f => Keyed.set f.fileName f files) ((shelf.lookup runId).getD [])) shelf

/-- Run by run, and file by file, the last fact under each id in the place of the first. -/
def Shelf.facts (shelf : Shelf) : List Fact :=
  (Keyed.dict ((byName (shelf.filter fun e => e.1.toList.head? ≠ some '_')).flatMap fun e =>
    (byName e.2).map fun file => (file.2.id, file.2))).map Prod.snd

def filesOf (facts : List (String × Fact)) : Files := facts.map fun file => (file.1, renderFactMd file.2)

def Shelf.files (shelf : Shelf) : ComponentRoot := shelf.map fun e => (e.1, filesOf e.2)

lemma foldl_files (facts : List Fact) (files : List (String × Fact)) :
    facts.foldl (fun files f => Keyed.set f.fileName (renderFactMd f) files) (filesOf files) =
      filesOf (facts.foldl (fun files f => Keyed.set f.fileName f files) files) := by
  induction facts generalizing files with
  | nil => rfl
  | cons f facts ih =>
      have hset : Keyed.set f.fileName (renderFactMd f) (filesOf files) = filesOf (Keyed.set f.fileName f files) :=
        Keyed.set_map renderFactMd f.fileName f files
      rw [List.foldl_cons, List.foldl_cons, hset, ih]

/-- **Writing to the directory** is writing to the store. -/
theorem writeFacts_files (facts : List Fact) (runId : String) (shelf : Shelf) :
    writeFacts facts runId shelf.files = (shelf.put facts runId).files := by
  have hlookup : (shelf.files.lookup runId).getD [] = filesOf ((shelf.lookup runId).getD []) := by
    rw [Shelf.files, Keyed.lookup_map filesOf]
    cases shelf.lookup runId <;> rfl
  rw [writeFacts, Shelf.put]
  split_ifs
  · rfl
  · rw [hlookup, foldl_files]
    exact Keyed.set_map filesOf runId _ shelf

/-- Facts whose files can be read. -/
def Shelf.Readable (shelf : Shelf) : Prop :=
  ∀ e ∈ shelf, ∀ file ∈ e.2, file.1 = file.2.fileName ∧ Accepted isInjectionAttempt file.2 ∧
    Durable isInjectionAttempt file.2

lemma byName_map {α β : Type} (f : α → β) (entries : List (String × α)) :
    byName (entries.map fun e => (e.1, f e.2)) = (byName entries).map fun e => (e.1, f e.2) := by
  rw [byName, byName]
  exact (List.map_mergeSort (r := fun a b : String × α => decide (a.1 ≤ b.1))
    (s := fun a b : String × β => decide (a.1 ≤ b.1)) fun _ _ _ _ => rfl).symm

lemma suffix_fileName (f : Fact) : ".md".toList.isSuffixOf f.fileName.toList = true := by
  rw [Fact.fileName, String.toList_append]
  exact List.isSuffixOf_iff_suffix.mpr (List.suffix_append _ _)

/-- What a directory of a run holds is its facts. -/
lemma runFacts_filesOf {files : List (String × Fact)} (h : ∀ file ∈ files, file.1 = file.2.fileName ∧
    Accepted isInjectionAttempt file.2 ∧ Durable isInjectionAttempt file.2) :
    runFacts isInjectionAttempt floatInt (filesOf files) = (byName files).map fun file => (file.2.id, file.2) := by
  have hfilter : (filesOf files).filter (fun e => ".md".toList.isSuffixOf e.1.toList) = filesOf files := by
    refine List.filter_eq_self.mpr fun e he => ?_
    obtain ⟨file, hfile, rfl⟩ := List.mem_map.mp he
    rw [(h file hfile).1]
    exact suffix_fileName file.2
  rw [runFacts, hfilter, filesOf, byName_map, List.filterMap_map, ← List.filterMap_eq_map]
  refine List.filterMap_congr fun file hfile => ?_
  obtain ⟨-, haccepted, hdurable⟩ := h file (List.mem_mergeSort.mp hfile)
  simp only [Function.comp_apply, parseFactMd_render isInjectionAttempt floatInt haccepted hdurable]

/-- **Reading the directory** is reading the store. -/
theorem readFacts_files {shelf : Shelf} (h : shelf.Readable isInjectionAttempt) :
    readFacts isInjectionAttempt floatInt shelf.files = shelf.facts := by
  have hdirs : runDirs shelf.files =
      (byName (shelf.filter fun e => e.1.toList.head? ≠ some '_')).map fun e => (e.1, filesOf e.2) := by
    rw [runDirs, Shelf.files, List.filter_map, byName_map]
    rfl
  rw [readFacts, hdirs, List.flatMap_map, Shelf.facts]
  congr 2
  refine List.flatMap_congr fun e he => ?_
  exact runFacts_filesOf isInjectionAttempt floatInt (h e (List.mem_of_mem_filter (List.mem_mergeSort.mp he)))

/-! ## The facts of all runs -/

/-- A write of the facts that a reply yields, with the confidence that they keep. -/
def Distilled (write : String × List Fact) : Prop :=
  ∃ (reply : Json) (componentId : String) (iterationCount maxFacts : ℤ) (citesExistingPath : List String → Bool)
    (reviewPassed : Option Bool),
    write.2 = (coerceFacts isInjectionAttempt (rawFacts reply) componentId iterationCount write.1 maxFacts).map
      (settleConfidence citesExistingPath reviewPassed)

lemma Distilled.accepted {write : String × List Fact} (h : Distilled isInjectionAttempt write) :
    AllAccepted isInjectionAttempt write.2 := by
  obtain ⟨reply, componentId, iterationCount, maxFacts, citesExistingPath, reviewPassed, hfacts⟩ := h
  obtain ⟨haccepted, hids⟩ :=
    coerceFacts_accepted isInjectionAttempt (rawFacts reply) componentId write.1 iterationCount maxFacts
  rw [hfacts]
  constructor
  · intro f hf
    obtain ⟨g, hg, rfl⟩ := List.mem_map.mp hf
    exact (haccepted g hg).settleConfidence _ _ _
  · rw [List.map_map]
    simpa only [Function.comp_def, settleConfidence_id] using hids

/-- Where each entry of a run comes from. -/
lemma mem_foldl_files {facts : List Fact} {files : List (String × Fact)} {file : String × Fact}
    (h : file ∈ facts.foldl (fun files f => Keyed.set f.fileName f files) files) :
    file ∈ files ∨ file.1 = file.2.fileName ∧ file.2 ∈ facts := by
  induction facts generalizing files with
  | nil => exact Or.inl h
  | cons f facts ih =>
      rcases ih h with hmem | ⟨hname, hmem⟩
      · rcases Keyed.mem_of_mem_set hmem with rfl | hold
        · exact Or.inr ⟨rfl, List.mem_cons_self⟩
        · exact Or.inl hold
      · exact Or.inr ⟨hname, List.mem_cons_of_mem _ hmem⟩

lemma mem_getD_lookup {shelf : Shelf} {runId : String} {file : String × Fact}
    (h : file ∈ (shelf.lookup runId).getD []) : (runId, (shelf.lookup runId).getD []) ∈ shelf := by
  cases hfind : shelf.lookup runId with
  | none => simp [hfind] at h
  | some files => exact Keyed.mem_of_lookup hfind

/-- What holds of the files of a shelf and of the facts that are written holds of the files after the write. -/
lemma Shelf.put_forall {P : String × Fact → Prop} {shelf : Shelf} {facts : List Fact} {runId : String}
    (hshelf : ∀ e ∈ shelf, ∀ file ∈ e.2, P file) (hfacts : ∀ f ∈ facts, P (f.fileName, f)) :
    ∀ e ∈ shelf.put facts runId, ∀ file ∈ e.2, P file := by
  intro e he file hfile
  rw [Shelf.put] at he
  split_ifs at he
  · exact hshelf e he file hfile
  · rcases Keyed.mem_of_mem_set he with rfl | hold
    · rcases mem_foldl_files hfile with hmem | ⟨hname, hmem⟩
      · exact hshelf _ (mem_getD_lookup hmem) file hmem
      · have hentry : file = (file.2.fileName, file.2) := Prod.ext hname rfl
        rw [hentry]
        exact hfacts _ hmem
    · exact hshelf e hold file hfile

def shelfOf (writes : List (String × List Fact)) : Shelf := writes.foldl (fun shelf w => shelf.put w.2 w.1) []

lemma shelfOf_concat (writes : List (String × List Fact)) (w : String × List Fact) :
    shelfOf (writes ++ [w]) = (shelfOf writes).put w.2 w.1 := by
  rw [shelfOf, List.foldl_append]
  rfl

lemma shelfOf_forall {P : String × Fact → Prop} {writes : List (String × List Fact)}
    (h : ∀ w ∈ writes, ∀ f ∈ w.2, P (f.fileName, f)) : ∀ e ∈ shelfOf writes, ∀ file ∈ e.2, P file := by
  induction writes using List.reverseRecOn with
  | nil => exact nofun
  | append_singleton writes w ih =>
      rw [shelfOf_concat]
      exact Shelf.put_forall (ih fun v hv => h v (List.mem_append_left _ hv))
        (h w (List.mem_append_right _ List.mem_cons_self))

lemma writeFacts_shelfOf (writes : List (String × List Fact)) :
    writes.foldl (fun root w => writeFacts w.2 w.1 root) [] = (shelfOf writes).files := by
  induction writes using List.reverseRecOn with
  | nil => rfl
  | append_singleton writes w ih =>
      rw [List.foldl_append, ih, shelfOf_concat, ← writeFacts_files]
      rfl

/-- A file stays what it is, unless a fact that is written has its name. -/
lemma lookup_foldl_files {facts : List Fact} {files : List (String × Fact)} {f : Fact}
    (hunique : ∀ g ∈ facts, g.fileName = f.fileName → g = f)
    (h : files.lookup f.fileName = some f ∨ f ∈ facts) :
    (facts.foldl (fun files f => Keyed.set f.fileName f files) files).lookup f.fileName = some f := by
  induction facts generalizing files with
  | nil => exact h.resolve_right List.not_mem_nil
  | cons g facts ih =>
      refine ih (fun g' hg' => hunique g' (List.mem_cons_of_mem _ hg')) ?_
      rw [Keyed.lookup_set]
      split_ifs with hname
      · exact Or.inl (congrArg some (hunique g List.mem_cons_self (beq_iff_eq.mp hname).symm))
      · rcases h with hold | hmem
        · exact Or.inl hold
        · rcases List.mem_cons.mp hmem with rfl | hmem
          · exact absurd (beq_iff_eq.mpr rfl) hname
          · exact Or.inr hmem

/-- The file of a fact, after the write of its run and any that has no other fact under its name. -/
lemma lookup_shelfOf {writes : List (String × List Fact)} {w : String × List Fact} (hw : w ∈ writes) {f : Fact}
    (hf : f ∈ w.2) (hunique : ∀ v ∈ writes, ∀ g ∈ v.2, g.fileName = f.fileName → g = f) :
    (((shelfOf writes).lookup w.1).getD []).lookup f.fileName = some f := by
  induction writes using List.reverseRecOn with
  | nil => cases hw
  | append_singleton writes v ih =>
      have hlast := hunique v (List.mem_append_right _ List.mem_cons_self)
      have hbefore : w ∈ writes → (((shelfOf writes).lookup w.1).getD []).lookup f.fileName = some f :=
        fun hmem => ih hmem fun u hu => hunique u (List.mem_append_left _ hu)
      rw [shelfOf_concat, Shelf.put]
      split_ifs with hempty
      · refine hbefore ((List.mem_append.mp hw).resolve_right fun hmem => ?_)
        rw [List.mem_singleton.mp hmem, hempty] at hf
        cases hf
      · rw [Keyed.lookup_set]
        split_ifs with hrun
        · rw [Option.getD_some]
          refine lookup_foldl_files hlast ?_
          rcases List.mem_append.mp hw with hmem | hmem
          · rw [← beq_iff_eq.mp hrun]
            exact Or.inl (hbefore hmem)
          · exact Or.inr (List.mem_singleton.mp hmem ▸ hf)
        · refine hbefore ((List.mem_append.mp hw).resolve_right fun hmem => ?_)
          exact hrun (beq_iff_eq.mpr (congrArg Prod.fst (List.mem_singleton.mp hmem)))

lemma fileName_inj {f g : Fact} (h : f.fileName = g.fileName) : f.id = g.id := by
  have hlist := congrArg String.toList h
  rw [Fact.fileName, Fact.fileName, String.toList_append, String.toList_append] at hlist
  exact String.toList_inj.mp (List.append_cancel_right hlist)

lemma mem_shelf_facts {writes : List (String × List Fact)} {w : String × List Fact} (hw : w ∈ writes)
    (hrun : w.1.toList.head? ≠ some '_') {f : Fact} (hf : f ∈ w.2)
    (hunique : ∀ v ∈ writes, ∀ g ∈ v.2, g.id = f.id → g = f) : f ∈ (shelfOf writes).facts := by
  have hfile := lookup_shelfOf hw hf fun v hv g hg hname => hunique v hv g hg (fileName_inj hname)
  have hrunEntry := mem_getD_lookup (Keyed.mem_of_lookup hfile)
  have hvalues := shelfOf_forall (P := fun file => file.2.id = f.id → file.2 = f) hunique
  have hflat : (f.id, f) ∈ (byName ((shelfOf writes).filter fun e => e.1.toList.head? ≠ some '_')).flatMap fun e =>
      (byName e.2).map fun file => (file.2.id, file.2) := by
    refine List.mem_flatMap.mpr ⟨(w.1, ((shelfOf writes).lookup w.1).getD []), ?_, ?_⟩
    · exact List.mem_mergeSort.mpr (List.mem_filter.mpr ⟨hrunEntry, decide_eq_true hrun⟩)
    · exact List.mem_map.mpr ⟨(f.fileName, f), List.mem_mergeSort.mpr (Keyed.mem_of_lookup hfile), rfl⟩
  refine List.mem_map.mpr ⟨_, Keyed.mem_dict hflat fun entry hentry hid => ?_, rfl⟩
  obtain ⟨e, he, hmem⟩ := List.mem_flatMap.mp hentry
  obtain ⟨file, hfile, rfl⟩ := List.mem_map.mp hmem
  exact hvalues e (List.mem_of_mem_filter (List.mem_mergeSort.mp he)) file (List.mem_mergeSort.mp hfile) hid

/-- **What is read after any number of runs** is what the store of their facts has: run by run and file by file, in
    the order of the names, and a fact under an id that was read before in the place of that one.  A fact whose id no
    other fact of the component has is read as it was written. -/
theorem readFacts_stored {writes : List (String × List Fact)} (hwrites : ∀ w ∈ writes, Distilled isInjectionAttempt w)
    (hdurable : ∀ w ∈ writes, ∀ f ∈ w.2, Durable isInjectionAttempt f) :
    readFacts isInjectionAttempt floatInt (writes.foldl (fun root w => writeFacts w.2 w.1 root) []) =
        (shelfOf writes).facts ∧
      ∀ w ∈ writes, w.1.toList.head? ≠ some '_' → ∀ f ∈ w.2,
        (∀ v ∈ writes, ∀ g ∈ v.2, g.id = f.id → g = f) →
          f ∈ readFacts isInjectionAttempt floatInt (writes.foldl (fun root w => writeFacts w.2 w.1 root) []) := by
  have hreadable : (shelfOf writes).Readable isInjectionAttempt :=
    shelfOf_forall fun w hw f hf => ⟨rfl, (hwrites w hw).accepted.1 f hf, hdurable w hw f hf⟩
  rw [writeFacts_shelfOf, readFacts_files isInjectionAttempt floatInt hreadable]
  exact ⟨rfl, fun w hw hrun f hf hunique => mem_shelf_facts hw hrun hf hunique⟩

end

/-! ### Two facts -/

/-- A reply with two facts, the later one first. -/
def twoFactsReply : Json :=
  .obj [("facts", .arr (["fact-002", "fact-001"].map fun id => .obj [("id", .str id), ("scope", .str "gotcha"),
    ("confidence", .str "asserted"), ("evidence", .arr [.str "a:1"]), ("claim", .str "b")]))]

def twoFacts : List Fact := coerceFacts (fun _ => false) (rawFacts twoFactsReply) "a" 1 "r" 5

lemma twoFacts_durable : ∀ f ∈ twoFacts, Durable (fun _ => false) f := by
  have hclaims : ∀ f ∈ twoFacts, '\r' ∉ f.claim.toList := by decide +kernel
  exact fun f hf => ⟨hclaims f hf, rfl, fun _ _ => rfl⟩

lemma settle_twoFacts : twoFacts.map (settleConfidence (fun _ => true) (some true)) = twoFacts := by decide +kernel

theorem readFacts_two : readFacts (fun _ => false) (fun _ => none) (writeFacts twoFacts "r" []) =
    (shelfOf [("r", twoFacts)]).facts :=
  (@readFacts_stored (fun _ => false) (fun _ => none) [("r", twoFacts)]
    (fun w hw => by
      rw [List.mem_singleton.mp hw]
      exact ⟨twoFactsReply, "a", 1, 5, fun _ => true, some true, settle_twoFacts.symm⟩)
    (fun w hw => by
      rw [List.mem_singleton.mp hw]
      exact twoFacts_durable)).1

lemma byName_singleton {α : Type} (a : String × α) : byName [a] = [a] := List.mergeSort_singleton a

lemma byName_swap {α : Type} {a b : String × α} (h : ¬a.1 ≤ b.1) : byName [a, b] = [b, a] := by
  simp [byName, List.mergeSort, List.MergeSort.Internal.splitInTwo, h]

/-- Two facts are read in the order of their ids, not in the one they were written in. -/
theorem twoFacts_reordered :
    readFacts (fun _ => false) (fun _ => none) (writeFacts twoFacts "r" []) ≠ twoFacts := by
  have hreadable : (shelfOf [("r", twoFacts)]).Readable fun _ => false := by
    have haccepted := coerceFacts_accepted (fun _ => false) (rawFacts twoFactsReply) "a" "r" 1 5
    refine shelfOf_forall fun w hw f hf => ?_
    rw [List.mem_singleton.mp hw] at hf
    exact ⟨rfl, haccepted.1 f hf, twoFacts_durable f hf⟩
  have hstored : writeFacts twoFacts "r" [] = (shelfOf [("r", twoFacts)]).files := writeFacts_shelfOf [("r", twoFacts)]
  obtain ⟨f, g, hfacts, hf, hg⟩ : ∃ f g, twoFacts = [f, g] ∧ f.id = "fact-002" ∧ g.id = "fact-001" :=
    ⟨_, _, rfl, by decide +kernel, by decide +kernel⟩
  have hname : ¬f.fileName ≤ g.fileName ∧ f.fileName ≠ g.fileName := by
    rw [Fact.fileName, Fact.fileName, hf, hg]
    decide
  have hshelf : shelfOf [("r", [f, g])] = [("r", [(f.fileName, f), (g.fileName, g)])] := by
    simp [shelfOf, Shelf.put, Keyed.set, hname]
  have hsorted : byName [(f.fileName, f), (g.fileName, g)] = [(g.fileName, g), (f.fileName, f)] := byName_swap hname.1
  have hread : (shelfOf [("r", [f, g])]).facts = [g, f] := by
    simp [hshelf, Shelf.facts, byName_singleton, hsorted, Keyed.dict, Keyed.set, hf, hg]
  rw [hstored, readFacts_files _ _ hreadable, hfacts, hread]
  simp only [ne_eq, List.cons.injEq, and_true]
  rintro ⟨rfl, -⟩
  exact absurd (hf.symm.trans hg) (by decide)

end Kstrl.Knowledge
