import Mathlib.Data.Finset.Card
import Mathlib.Data.List.AList
import Mathlib.Tactic.Common

/-!
# A file tree with links

Directory entries that name inodes, symbolic links, and the walk of a path along them.  Two entries that name one
inode are two names of one file.

* **`FileTree.resolve`** is the entry a path leads to, with every link followed; `FileTree.place` leaves the last one.
* **`FileTree.replace`** puts a new file in the place of an entry, as a rename over it does.  It changes that entry and
  nothing else: where paths lead (`resolve_replace`), the other entries (`entry_replace_ne`), what their inodes hold
  (`bytes_replace`) and how many names these have (`nlink_replace`).
-/

namespace LinkTree

/-- The names from the root on. -/
abbrev Path := List String

inductive Entry where
  | file (inode : ℕ)
  | dir
  /-- a symbolic link -/
  | link (absolute : Bool) (names : Path)
  /-- a fifo, a socket or a device -/
  | special
  deriving DecidableEq, Repr

/-- The entry without the file it names. -/
def Entry.shape : Entry → Entry
  | .file _ => .file 0
  | e => e

structure FileTree (β : Type) where
  entries : AList fun _ : Path => Entry
  /-- the content of an inode -/
  bytes : ℕ → β
  /-- an entry is in a directory -/
  parents : ∀ p name, (p ++ [name]) ∈ entries → p ≠ [] → entries.lookup p = some .dir

namespace FileTree

variable {β : Type} (t : FileTree β)

/-- The entry at a place; the root is a directory. -/
def entry (p : Path) : Option Entry := if p = [] then some .dir else t.entries.lookup p

/-- How many entries name an inode. -/
def nlink (inode : ℕ) : ℕ := (t.entries.keys.toFinset.filter fun p => t.entries.lookup p = some (.file inode)).card

/-! ## Walking -/

/-- A walk along names from a directory.  At a link it goes on as `jump` says. -/
def walkNames (jump : Path → Path → Option Path) : Path → Path → Option Path
  | cur, [] => some cur
  | cur, name :: rest =>
      if name = "" ∨ name = "." then walkNames jump cur rest
      else if name = ".." then walkNames jump cur.dropLast rest
      else
        match t.entry (cur ++ [name]) with
        | some (.link absolute names) => jump (if absolute then [] else cur) (names ++ rest)
        | some .dir => walkNames jump (cur ++ [name]) rest
        | some _ => if rest = [] then some (cur ++ [name]) else none
        | none => none

/-- A walk that follows so many links. -/
def walk (t : FileTree β) : ℕ → Path → Path → Option Path
  | 0 => t.walkNames fun _ _ => none
  | n + 1 => t.walkNames (walk t n)

/-- The links the system follows in one path. -/
def maxLinks : ℕ := 40

/-- Where a path leads; `none` where there is nothing. -/
def resolve (p : Path) : Option Path := t.walk maxLinks [] p

/-- The place of the last name of a path, whatever is there. -/
def place (p : Path) : Option Path := do
  let name ← p.getLast?
  let dir ← t.resolve p.dropLast
  pure (dir ++ [name])

/-- `os.path.islink` -/
def isLink (p : Path) : Bool :=
  match (t.place p).bind t.entry with
  | some (.link ..) => true
  | _ => false

/-- The inode a path leads to. -/
def inode? (p : Path) : Option ℕ :=
  match (t.resolve p).bind t.entry with
  | some (.file inode) => some inode
  | _ => none

/-! ## Replacing a file -/

/-- An inode no entry names. -/
def fresh : ℕ :=
  (t.entries.entries.map fun e => match e.2 with | .file inode => inode + 1 | _ => 0).foldr max 0

lemma lt_fresh {p : Path} {inode : ℕ} (h : t.entries.lookup p = some (.file inode)) : inode < t.fresh := by
  have hmem : (⟨p, .file inode⟩ : Σ _ : Path, Entry) ∈ t.entries.entries :=
    AList.mem_lookup_iff.mp (Option.mem_def.mpr h)
  unfold fresh
  generalize t.entries.entries = es at hmem
  induction es with
  | nil => cases hmem
  | cons e es ih =>
      rw [List.map_cons, List.foldr_cons]
      rcases List.mem_cons.mp hmem with rfl | hmem
      · exact lt_of_lt_of_le (Nat.lt_succ_self _) (le_max_left _ _)
      · exact lt_of_lt_of_le (ih hmem) (le_max_right _ _)

/-- Whether the entry names a file. -/
def isFileAt (p : Path) : Bool :=
  match t.entries.lookup p with
  | some (.file _) => true
  | _ => false

lemma isFileAt_iff {p : Path} : t.isFileAt p = true ↔ ∃ inode, t.entries.lookup p = some (.file inode) := by
  unfold isFileAt
  cases h : t.entries.lookup p with
  | none => simp
  | some e => cases e <;> simp

lemma parents_insert {p : Path} (h : t.isFileAt p = true) (inode : ℕ) :
    ∀ q name, (q ++ [name]) ∈ t.entries.insert p (.file inode) → q ≠ [] →
      (t.entries.insert p (.file inode)).lookup q = some .dir := by
  obtain ⟨old, hold⟩ := (isFileAt_iff t).mp h
  intro q name hmem hq
  have hmem' : (q ++ [name]) ∈ t.entries := by
    rcases (AList.mem_insert _).mp hmem with rfl | hmem
    · exact AList.lookup_isSome.mp (by rw [hold]; rfl)
    · exact hmem
  have hdir := t.parents q name hmem' hq
  rw [AList.lookup_insert_ne, hdir]
  rintro rfl
  rw [hold] at hdir
  cases hdir

/-- A new file in the place of one. -/
def replace (p : Path) (content : β) : FileTree β :=
  if h : t.isFileAt p = true then
    { entries := t.entries.insert p (.file t.fresh)
      bytes := Function.update t.bytes t.fresh content
      parents := t.parents_insert h t.fresh }
  else t

section Replace

variable {t} {p : Path} {inode : ℕ} (content : β)

lemma ne_nil_of_file (h : t.entry p = some (.file inode)) : p ≠ [] := by
  rintro rfl
  cases h

lemma lookup_of_file (h : t.entry p = some (.file inode)) : t.entries.lookup p = some (.file inode) := by
  rwa [entry, if_neg (ne_nil_of_file h)] at h

lemma entry_replace_self (h : t.entry p = some (.file inode)) :
    (t.replace p content).entry p = some (.file t.fresh) := by
  have hfile : t.isFileAt p = true := (isFileAt_iff t).mpr ⟨inode, lookup_of_file h⟩
  rw [replace, dif_pos hfile, entry, if_neg (ne_nil_of_file h)]
  exact AList.lookup_insert _

lemma entry_replace_ne {q : Path} (hne : q ≠ p) : (t.replace p content).entry q = t.entry q := by
  unfold replace
  split_ifs with hfile
  · unfold entry
    split_ifs with hq
    · rfl
    · exact AList.lookup_insert_ne hne
  · rfl

/-- The files entries name hold what they held. -/
lemma bytes_replace {q : Path} {i : ℕ} (h : t.entry q = some (.file i)) :
    (t.replace p content).bytes i = t.bytes i := by
  unfold replace
  split_ifs with hfile
  · exact Function.update_of_ne (ne_of_lt (t.lt_fresh (lookup_of_file h))) _ _
  · rfl

lemma bytes_replace_self (h : t.entry p = some (.file inode)) :
    (t.replace p content).bytes t.fresh = content := by
  have hfile : t.isFileAt p = true := (isFileAt_iff t).mpr ⟨inode, lookup_of_file h⟩
  rw [replace, dif_pos hfile]
  exact Function.update_self ..

/-- The other files have the names they had. -/
lemma nlink_replace (h : t.entry p = some (.file inode)) {i : ℕ} (hi : i ≠ inode) (hfresh : i ≠ t.fresh) :
    (t.replace p content).nlink i = t.nlink i := by
  have hlook := lookup_of_file h
  have hfile : t.isFileAt p = true := (isFileAt_iff t).mpr ⟨inode, hlook⟩
  have hp : p ∈ t.entries := AList.lookup_isSome.mp (by rw [hlook]; rfl)
  unfold nlink
  rw [replace, dif_pos hfile]
  congr 1
  ext q
  simp only [Finset.mem_filter, List.mem_toFinset]
  by_cases hq : q = p
  · subst hq
    simp [hlook, hi.symm, hfresh.symm]
  · simp [hq, AList.lookup_insert_ne hq]

lemma shape_replace (h : t.entry p = some (.file inode)) (q : Path) :
    ((t.replace p content).entry q).map Entry.shape = (t.entry q).map Entry.shape := by
  by_cases hq : q = p
  · subst hq
    rw [entry_replace_self content h, h]
    rfl
  · rw [entry_replace_ne content hq]

end Replace

/-! ## Trees of one shape -/

variable {t} {t' : FileTree β}

lemma walkNames_congr (h : ∀ q, (t'.entry q).map Entry.shape = (t.entry q).map Entry.shape)
    (jump : Path → Path → Option Path) (cur rest : Path) :
    t'.walkNames jump cur rest = t.walkNames jump cur rest := by
  induction rest generalizing cur with
  | nil => rfl
  | cons name rest ih =>
      rw [walkNames, walkNames, ih, ih, ih]
      have hstep := h (cur ++ [name])
      cases he : t.entry (cur ++ [name]) with
      | none =>
          rw [he, Option.map_none, Option.map_eq_none_iff] at hstep
          rw [hstep]
      | some e =>
          obtain ⟨e', he', hshape⟩ := Option.map_eq_some_iff.mp (hstep.trans (by rw [he, Option.map_some]))
          rw [he']
          cases e <;> cases e' <;> simp_all [Entry.shape]

lemma walk_congr (h : ∀ q, (t'.entry q).map Entry.shape = (t.entry q).map Entry.shape) (n : ℕ) :
    t'.walk n = t.walk n := by
  induction n with
  | zero =>
      funext cur rest
      exact walkNames_congr h _ cur rest
  | succ n ih =>
      funext cur rest
      rw [walk, walk, ih]
      exact walkNames_congr h _ cur rest

/-- **Where paths lead** depends on the shape of the tree only. -/
theorem resolve_congr (h : ∀ q, (t'.entry q).map Entry.shape = (t.entry q).map Entry.shape) (p : Path) :
    t'.resolve p = t.resolve p := by
  rw [resolve, resolve, walk_congr h]

lemma place_congr (h : ∀ q, (t'.entry q).map Entry.shape = (t.entry q).map Entry.shape) (p : Path) :
    t'.place p = t.place p := by
  simp only [place, resolve_congr h]

lemma isLink_congr (h : ∀ q, (t'.entry q).map Entry.shape = (t.entry q).map Entry.shape) (p : Path) :
    t'.isLink p = t.isLink p := by
  rw [isLink, isLink, place_congr h]
  cases t.place p with
  | none => rfl
  | some q =>
      have hq := h q
      rw [Option.bind_some, Option.bind_some]
      cases he : t.entry q with
      | none =>
          rw [he, Option.map_none, Option.map_eq_none_iff] at hq
          rw [hq]
      | some e =>
          obtain ⟨e', he', hshape⟩ := Option.map_eq_some_iff.mp (hq.trans (by rw [he, Option.map_some]))
          rw [he']
          cases e <;> cases e' <;> simp_all [Entry.shape]

lemma mem_names {p : Path} {inode : ℕ} (h : t.entry p = some (.file inode)) :
    p ∈ t.entries.keys.toFinset.filter fun q => t.entries.lookup q = some (.file inode) := by
  have hlook := lookup_of_file h
  refine Finset.mem_filter.mpr ⟨List.mem_toFinset.mpr ?_, hlook⟩
  exact AList.mem_keys.mp (AList.lookup_isSome.mp (by rw [hlook]; rfl))

lemma nlink_pos {p : Path} {inode : ℕ} (h : t.entry p = some (.file inode)) : 0 < t.nlink inode :=
  Finset.card_pos.mpr ⟨p, mem_names h⟩

/-- A file of one name has one name. -/
lemma eq_of_nlink {p q : Path} {inode : ℕ} (hp : t.entry p = some (.file inode)) (hq : t.entry q = some (.file inode))
    (hone : t.nlink inode = 1) : q = p :=
  Finset.card_le_one.mp hone.le q (mem_names hq) p (mem_names hp)

/-! ## The last name of a path -/

variable (t) {name : String} {p : Path}

/-- The place is a symbolic link. -/
def LinkAt (q : Path) : Prop := ∃ absolute names, t.entry q = some (.link absolute names)

/-- A walk that goes on has come that far. -/
lemma walkNames_append {jump : Path → Path → Option Path}
    (hjump : ∀ c x y, (jump c (x ++ y)).isSome = true → (jump c x).isSome = true) (cur a b : Path)
    (h : (t.walkNames jump cur (a ++ b)).isSome = true) : (t.walkNames jump cur a).isSome = true := by
  induction a generalizing cur with
  | nil => rfl
  | cons m a ih =>
      rw [List.cons_append, walkNames] at h
      rw [walkNames]
      by_cases hskip : m = "" ∨ m = "."
      · rw [if_pos hskip] at h ⊢
        exact ih cur h
      rw [if_neg hskip] at h ⊢
      by_cases hup : m = ".."
      · rw [if_pos hup] at h ⊢
        exact ih cur.dropLast h
      · rw [if_neg hup] at h ⊢
        cases he : t.entry (cur ++ [m]) with
        | none => rw [he] at h; exact h
        | some e =>
            rw [he] at h
            cases e with
            | link absolute names =>
                simp only [← List.append_assoc] at h
                exact hjump _ _ _ h
            | dir => exact ih _ h
            | file | special =>
                have hnil : a ++ b = [] := by
                  by_contra hne
                  simp only [if_neg hne] at h
                  cases h
                simp only [if_pos (List.append_eq_nil_iff.mp hnil).1]
                rfl

lemma walk_append (n : ℕ) (cur a b : Path) (h : (t.walk n cur (a ++ b)).isSome = true) :
    (t.walk n cur a).isSome = true := by
  induction n generalizing cur a b with
  | zero => exact walkNames_append t (fun _ _ _ h => by cases h) cur a b h
  | succ n ih => exact walkNames_append t (fun c x y => ih c x y) cur a b h

/-- A path that leads somewhere leads to its last name, unless this is a link. -/
lemma walkNames_last (hname : name ∉ ["", ".", ".."]) {jump : Path → Path → Option Path}
    (hjump : ∀ c x, jump c (x ++ [name]) = some p → ∃ d, jump c x = some d ∧ (t.LinkAt (d ++ [name]) ∨ p = d ++ [name]))
    (cur a : Path) (h : t.walkNames jump cur (a ++ [name]) = some p) :
    ∃ d, t.walkNames jump cur a = some d ∧ (t.LinkAt (d ++ [name]) ∨ p = d ++ [name]) := by
  induction a generalizing cur with
  | nil =>
      refine ⟨cur, rfl, ?_⟩
      simp only [List.mem_cons, List.not_mem_nil, or_false, not_or] at hname
      rw [List.nil_append, walkNames, if_neg (not_or.mpr ⟨hname.1, hname.2.1⟩), if_neg hname.2.2] at h
      cases he : t.entry (cur ++ [name]) with
      | none => rw [he] at h; cases h
      | some e =>
          rw [he] at h
          cases e with
          | link absolute names => exact Or.inl ⟨absolute, names, he⟩
          | dir | file | special => exact Or.inr (Option.some.inj h).symm
  | cons m a ih =>
      rw [List.cons_append, walkNames] at h
      rw [walkNames]
      by_cases hskip : m = "" ∨ m = "."
      · rw [if_pos hskip] at h ⊢
        exact ih cur h
      rw [if_neg hskip] at h ⊢
      by_cases hup : m = ".."
      · rw [if_pos hup] at h ⊢
        exact ih cur.dropLast h
      · rw [if_neg hup] at h ⊢
        cases he : t.entry (cur ++ [m]) with
        | none => rw [he] at h; cases h
        | some e =>
            rw [he] at h
            cases e with
            | link absolute names =>
                simp only [← List.append_assoc] at h
                exact hjump _ _ h
            | dir => exact ih _ h
            | file | special =>
                simp only [if_neg (List.append_ne_nil_of_right_ne_nil a (List.cons_ne_nil name []))] at h
                cases h

lemma walk_last (hname : name ∉ ["", ".", ".."]) (n : ℕ) (cur a : Path)
    (h : t.walk n cur (a ++ [name]) = some p) :
    ∃ d, t.walk n cur a = some d ∧ (t.LinkAt (d ++ [name]) ∨ p = d ++ [name]) := by
  induction n generalizing cur a with
  | zero => exact walkNames_last t hname (fun _ _ h => by cases h) cur a h
  | succ n ih => exact walkNames_last t hname (fun c x => ih c x) cur a h

variable {t}

/-- **The end of a path that is no link** is where the path leads. -/
theorem place_of_resolve {dir : Path} (hname : name ∉ ["", ".", ".."])
    (h : t.resolve (dir ++ [name]) = some p) (hlink : t.isLink (dir ++ [name]) = false) :
    t.place (dir ++ [name]) = some p ∧ p.getLast? = some name := by
  obtain ⟨d, hd, hend⟩ := walk_last t hname maxLinks [] dir h
  have hplace : t.place (dir ++ [name]) = some (d ++ [name]) := by
    simp only [place, List.getLast?_concat, List.dropLast_concat, resolve, hd, Option.bind_eq_bind, Option.bind_some,
      Option.pure_def]
  rcases hend with ⟨absolute, names, he⟩ | rfl
  · rw [isLink, hplace, Option.bind_some, he] at hlink
    cases hlink
  · exact ⟨hplace, List.getLast?_concat⟩

lemma resolve_append_isSome {a b : Path} (h : (t.resolve (a ++ b)).isSome = true) : (t.resolve a).isSome = true :=
  walk_append t maxLinks [] a b h

end FileTree

end LinkTree
