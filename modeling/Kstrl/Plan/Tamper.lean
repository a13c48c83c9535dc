import Kstrl.Plan.Prd
import Mathlib.Data.List.Sort

/-!
# What the comparison of two PRDs sees

`PRD.tamper_changes` of `kstrl/plan/prd.py` on the documents `PRD.load` reads.

* **`tamperChanges_exact_iff`**: an empty answer means that branch and stories are untouched, except where stories
  only change their order, or hide behind a later story of the same id, or write a priority as a truth value.
-/

namespace Kstrl

/-! ## PRD documents -/

/-- The `priority` of a story; `isinstance(value, int)` takes a truth value, too. -/
inductive Priority where
  | int (n : ℤ)
  | bool (b : Bool)
  deriving DecidableEq, Repr

/-- The number a priority is equal to. -/
def Priority.value : Priority → ℤ
  | int n => n
  | bool b => if b then 1 else 0

/-- A story of a document without schema errors. -/
structure StoryDocument where
  id : String
  title : String
  acceptanceCriteria : List String
  priority : Priority
  passes : Bool
  notes : String
  deriving DecidableEq, Repr

/-- A document without schema errors. -/
structure PrdDocument where
  branchName : String
  userStories : List StoryDocument
  allowedPaths : Option (List String) := none
  specIssues : Option (List Json) := none

/-- A story as it is loaded; a truth value is compared as its number. -/
def StoryDocument.load (s : StoryDocument) : UserStory where
  id := s.id
  title := s.title
  acceptanceCriteria := s.acceptanceCriteria
  priority := s.priority.value
  passes := s.passes
  notes := s.notes

/-- `PRD.load`. -/
def PrdDocument.load (d : PrdDocument) : Prd where
  branchName := d.branchName
  userStories := d.userStories.map StoryDocument.load
  allowedPaths := d.allowedPaths
  specIssues := d.specIssues

/-- A story without what an engineer writes. -/
def StoryDocument.pinned (s : StoryDocument) : StoryDocument := { s with passes := false, notes := "" }

/-- Branch and stories agree apart from what an engineer writes: order, number and every field. -/
def Untouched (document preRun : PrdDocument) : Prop :=
  preRun.branchName = document.branchName ∧
    preRun.userStories.map StoryDocument.pinned = document.userStories.map StoryDocument.pinned

/-! ## What the comparison sees -/

/-- A story, as pinned and loaded, that no later story of the document has the id of. -/
def PrdDocument.Shows (d : PrdDocument) (s : UserStory) : Prop :=
  ∃ before after, d.userStories.map (fun t => t.load.pinned) = before ++ s :: after ∧ ∀ t ∈ after, t.id ≠ s.id

lemma mem_pinnedStories {d : PrdDocument} {s : UserStory} : s ∈ d.load.pinnedStories ↔ d.Shows s := by
  have hmap : d.load.userStories.map UserStory.pinned = d.userStories.map fun t => t.load.pinned := List.map_map
  rw [Prd.pinnedStories, LatestLog.mem_latest_iff, hmap]
  rfl

lemma moved_eq_nil {before after : UserStory} : before.moved after = [] ↔ before = after := by
  constructor
  · intro h
    simp only [UserStory.moved, List.filterMap_eq_nil_iff, List.forall_mem_cons, List.not_mem_nil, false_imp_iff,
      implies_true, and_true, ite_eq_right_iff, decide_eq_true_eq, reduceCtorEq, imp_false, not_not] at h
    obtain ⟨hid, htitle, hcriteria, hpriority, hpasses, hnotes⟩ := h
    cases before
    cases after
    congr
  · rintro rfl
    exact UserStory.moved_self before

lemma mem_storyIds {stories : List UserStory} {id : String} : id ∈ Prd.storyIds stories ↔ ∃ s ∈ stories, s.id = id := by
  rw [Prd.storyIds, SortedSet.mem_toList_ofList, List.mem_map]

/-- Two views of stories, one story an id: no clause means the same stories. -/
lemma storyClauses_eq_nil {before after : List UserStory} (hb : before.Pairwise fun a b => a.id ≠ b.id)
    (ha : after.Pairwise fun a b => a.id ≠ b.id) :
    (Prd.storyIds before = Prd.storyIds after ∧ (Prd.storyIds before).filterMap (Prd.storyChange before after) = []) ↔
      ∀ s, s ∈ before ↔ s ∈ after := by
  have hfind : ∀ {stories : List UserStory}, (stories.Pairwise fun a b => a.id ≠ b.id) → ∀ {s : UserStory}, s ∈ stories →
      stories.find? (·.id = s.id) = some s := by
    intro stories hstories s hs
    induction stories with
    | nil => cases hs
    | cons t rest ih =>
        obtain ⟨ht, hrest⟩ := List.pairwise_cons.mp hstories
        rcases List.mem_cons.mp hs with rfl | hs
        · exact List.find?_cons_of_pos (by simp)
        · rw [List.find?_cons_of_neg (by simpa using ht s hs)]
          exact ih hrest hs
  constructor
  · rintro ⟨hids, hclauses⟩
    have hsame : ∀ {s t : UserStory}, s ∈ before → t ∈ after → s.id = t.id → s = t := by
      intro s t hs ht hid
      have hclause := List.filterMap_eq_nil_iff.mp hclauses s.id (mem_storyIds.mpr ⟨s, hs, rfl⟩)
      rw [Prd.storyChange, hfind hb hs, hid, hfind ha ht] at hclause
      by_contra hne
      dsimp only at hclause
      rw [if_neg fun h => hne (moved_eq_nil.mp h)] at hclause
      cases hclause
    intro s
    constructor
    · intro hs
      have hmem := mem_storyIds.mpr ⟨s, hs, rfl⟩
      rw [hids] at hmem
      obtain ⟨t, ht, hid⟩ := mem_storyIds.mp hmem
      rw [hsame hs ht hid.symm]
      exact ht
    · intro hs
      have hmem := mem_storyIds.mpr ⟨s, hs, rfl⟩
      rw [← hids] at hmem
      obtain ⟨t, ht, hid⟩ := mem_storyIds.mp hmem
      rw [← hsame ht hs hid]
      exact ht
  · intro hsame
    refine ⟨?_, List.filterMap_eq_nil_iff.mpr fun id hid => ?_⟩
    · refine List.Pairwise.eq_of_mem_iff (SortedSet.sorted _) (SortedSet.sorted _) fun id => ?_
      show id ∈ Prd.storyIds before ↔ id ∈ Prd.storyIds after
      simp only [mem_storyIds, hsame]
    · obtain ⟨s, hs, rfl⟩ := mem_storyIds.mp hid
      rw [Prd.storyChange, hfind hb hs, hfind ha ((hsame s).mp hs)]
      exact if_pos (UserStory.moved_self s)

/-- **What the comparison sees**: the branch, and the stories that show. -/
lemma tamperChanges_eq_nil_iff {document preRun : PrdDocument} :
    document.load.tamperChanges preRun.load = [] ↔
      preRun.branchName = document.branchName ∧ ∀ s, preRun.Shows s ↔ document.Shows s := by
  have hstories := storyClauses_eq_nil (LatestLog.pairwise_latest (preRun.load.userStories.map UserStory.pinned))
    (LatestLog.pairwise_latest (document.load.userStories.map UserStory.pinned))
  have hshows : (∀ s, preRun.Shows s ↔ document.Shows s) ↔
      ∀ s, s ∈ preRun.load.pinnedStories ↔ s ∈ document.load.pinnedStories := by simp only [mem_pinnedStories]
  rw [hshows, ← Prd.pinnedStories, ← Prd.pinnedStories] at *
  rw [← hstories, Prd.tamperChanges, List.append_eq_nil_iff]
  refine and_congr ?_ ?_
  · show (if preRun.branchName ≠ document.branchName then _ else _) = [] ↔ _
    by_cases hbranch : preRun.branchName = document.branchName
    · rw [if_neg (not_not.mpr hbranch)]
      exact iff_of_true rfl hbranch
    · rw [if_pos hbranch]
      exact iff_of_false (List.cons_ne_nil _ _) hbranch
  · by_cases hids : Prd.storyIds preRun.load.pinnedStories = Prd.storyIds document.load.pinnedStories
    · rw [if_neg (not_not.mpr hids), and_iff_right hids]
    · rw [if_pos hids]
      exact iff_of_false (List.cons_ne_nil _ _) fun h => hids h.1

lemma shows_of_untouched {document preRun : PrdDocument} (h : Untouched document preRun) (s : UserStory) :
    preRun.Shows s ↔ document.Shows s := by
  have hload : ∀ d : PrdDocument, d.userStories.map (fun t => t.load.pinned)
      = (d.userStories.map StoryDocument.pinned).map StoryDocument.load := fun d => by
    rw [List.map_map]
    rfl
  rw [PrdDocument.Shows, PrdDocument.Shows, hload, hload, h.2]

/-- **How far an empty answer means that nothing was touched.**  It does for two documents exactly if, where they have
the same branch and show the same stories, they are the same in every pinned respect. -/
theorem tamperChanges_exact_iff (document preRun : PrdDocument) :
    (document.load.tamperChanges preRun.load = [] ↔ Untouched document preRun) ↔
      (preRun.branchName = document.branchName → (∀ s, preRun.Shows s ↔ document.Shows s) →
        preRun.userStories.map StoryDocument.pinned = document.userStories.map StoryDocument.pinned) := by
  rw [tamperChanges_eq_nil_iff]
  constructor
  · exact fun h hbranch hshows => (h.mp ⟨hbranch, hshows⟩).2
  · intro h
    exact ⟨fun hsame => ⟨hsame.1, h hsame.1 hsame.2⟩, fun huntouched => ⟨huntouched.1, shows_of_untouched huntouched⟩⟩

/-- A document with the stories of these titles and priorities. -/
def documentOf (stories : List (String × String × Priority)) : PrdDocument where
  branchName := "main"
  userStories := stories.map fun s => ⟨s.1, s.2.1, [], s.2.2, false, ""⟩

/-- Stories that change places, a story hidden behind another of its id, and a priority that becomes a truth value. -/
theorem tamperChanges_blind :
    ((documentOf [("a", "", .int 1), ("b", "", .int 1)]).load.tamperChanges
          (documentOf [("b", "", .int 1), ("a", "", .int 1)]).load = [] ∧
        ¬ Untouched (documentOf [("a", "", .int 1), ("b", "", .int 1)]) (documentOf [("b", "", .int 1), ("a", "", .int 1)])) ∧
      ((documentOf [("a", "y", .int 1)]).load.tamperChanges
          (documentOf [("a", "x", .int 1), ("a", "y", .int 1)]).load = [] ∧
        ¬ Untouched (documentOf [("a", "y", .int 1)]) (documentOf [("a", "x", .int 1), ("a", "y", .int 1)])) ∧
      (documentOf [("a", "", .bool true)]).load.tamperChanges (documentOf [("a", "", .int 1)]).load = [] ∧
        ¬ Untouched (documentOf [("a", "", .bool true)]) (documentOf [("a", "", .int 1)]) := by
  refine ⟨⟨by decide, fun h => absurd h.2 (by decide)⟩, ⟨by decide, fun h => absurd h.2 (by decide)⟩, by decide,
    fun h => absurd h.2 (by decide)⟩

end Kstrl
