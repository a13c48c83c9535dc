import Kstrl.Base.Markers
import Kstrl.Base.TextLines
import Mathlib.Algebra.BigOperators.Group.List.Basic
import Mathlib.Data.List.Sort
import Mathlib.Data.Char
import Mathlib.Data.List.Lex
import Mathlib.Algebra.GroupWithZero.Nat

/-!
# The fingerprint of the no-progress breaker

What `compute_diff_hash` of `kstrl/loop/breaker.py` makes of a working tree: one digest over the HEAD, the status,
the tracked diff, and the name and content of each untracked file.

The parts are fed to the digest one after another.  A name follows a NUL; what ends a content is the next name, or
nothing at all, so a content that holds such a name can be cut in two ways.

* **`untrackedFromStatusZ_print`**: the untracked files that a status names are read off it.
* **`computeDiffHash_exact_iff`**: the trees that no other tree is taken for.
-/

namespace Kstrl.Loop.Breaker

open TextLines Markers

abbrev Text : Type := List Char

abbrev Bytes : Type := List UInt8

/-! ## The fingerprint -/

/-- `_git`: what a command prints, `none` where it fails or prints no UTF-8. -/
def git (run : List String → Option Text) (args : List String) : Option Text := (run args).map translate

/-- The walk over the records of a status; behind a rename or a copy one field is skipped. -/
def untrackedRecords : Bool → List Text → List Text
  | _, [] => []
  | true, _ :: rest => untrackedRecords false rest
  | false, record :: rest =>
      if record.length < 4 then untrackedRecords false rest
      else
        (if record.take 2 = ['?', '?'] then [record.drop 3] else []) ++
          untrackedRecords (record.head? = some 'R' || record.head? = some 'C') rest

def untrackedFromStatusZ (status : Text) : List Text := untrackedRecords false (status.splitOn '\x00')

/-- What is found at a path: nothing, a file that cannot be read, or its content. -/
inductive OnDisk where
  | missing
  | unreadable (size : ℕ)
  | content (bytes : Bytes)
  deriving DecidableEq

def maxHashedUntrackedFiles : ℕ := 500

def maxHashedUntrackedBytes : ℕ := 50 * 1024 * 1024

/-- What the untracked files add, from a place in their list and a number of bytes on. -/
def hashUntracked (disk : Text → OnDisk) : ℕ → ℕ → List Text → Bytes
  | _, _, [] => []
  | index, hashedBytes, rel :: rest =>
      let overCaps (size : ℕ) : Bool :=
        index ≥ maxHashedUntrackedFiles || hashedBytes + size > maxHashedUntrackedBytes
      0 :: (encode rel ++ match disk rel with
        | .missing => hashUntracked disk (index + 1) hashedBytes rest
        | .unreadable size =>
            if overCaps size then encode (toString size).toList ++ hashUntracked disk (index + 1) hashedBytes rest
            else hashUntracked disk (index + 1) hashedBytes rest
        | .content bytes =>
            if overCaps bytes.length then
              encode (toString bytes.length).toList ++ hashUntracked disk (index + 1) hashedBytes rest
            else bytes ++ hashUntracked disk (index + 1) (hashedBytes + bytes.length) rest)

/-- `sorted(untracked)` -/
def sorted (names : List Text) : List Text := names.mergeSort fun a b => decide (a ≤ b)

def statusArgs : List String := ["status", "--porcelain", "-uall", "-z"]

def headArgs : List String := ["rev-parse", "HEAD"]

def diffArgs : List String := ["diff", "HEAD"]

/-- Everything that is fed to the digest. -/
def hashed (run : List String → Option Text) (disk : Text → OnDisk) : Option Bytes := do
  let status ← git run statusArgs
  let (head, diff) ← match git run headArgs with
    | none => some ("no-head".toList, [])
    | some head => (git run diffArgs).map fun diff => (head, diff)
  some (encode head ++ 0 :: (encode status ++ 0 :: (encode diff ++
    hashUntracked disk 0 0 (sorted (untrackedFromStatusZ status)))))

variable {δ : Type*}

def computeDiffHash (sha256 : Bytes → δ) (run : List String → Option Text) (disk : Text → OnDisk) : Option δ :=
  (hashed run disk).map sha256

/-! ## Working trees -/

/-- One entry of a status: a changed file, a moved one with its source, or an untracked one. -/
inductive Entry where
  | changed (x y : Char) (path : Text)
  | moved (x y : Char) (path source : Text)
  | untracked (path : Text)

namespace Entry

/-- The fields that git prints of it. -/
def records : Entry → List Text
  | changed x y path => [x :: y :: ' ' :: path]
  | moved x y path source => [x :: y :: ' ' :: path, source]
  | untracked path => ['?' :: '?' :: ' ' :: path]

def untracked? : Entry → Option Text
  | untracked path => some path
  | _ => none

def IsPath (path : Text) : Prop := path ≠ [] ∧ '\x00' ∉ path

/-- A rename or a copy is marked in the first column. -/
def WellFormed : Entry → Prop
  | changed x y path =>
      IsPath path ∧ x ∉ ['\x00', 'R', 'C'] ∧ y ≠ '\x00' ∧ ¬ (x = '?' ∧ y = '?')
  | moved x y path source => IsPath path ∧ IsPath source ∧ x ∈ ['R', 'C'] ∧ y ≠ '\x00'
  | untracked path => IsPath path

end Entry

/-- What git prints of a status. -/
def printStatus (entries : List Entry) : Text := (entries.flatMap Entry.records).flatMap fun r => r ++ ['\x00']

/-- A working tree: its HEAD and tracked diff, unless it has no commit yet, its status and its files. -/
structure WorkTree where
  history : Option (Text × Text)
  entries : List Entry
  disk : Text → OnDisk

namespace WorkTree

/-- What git answers in it. -/
def run (T : WorkTree) (args : List String) : Option Text :=
  if args = statusArgs then some (printStatus T.entries)
  else if args = headArgs then T.history.map Prod.fst
  else if args = diffArgs then T.history.map Prod.snd
  else none

def untracked (T : WorkTree) : List Text := T.entries.filterMap Entry.untracked?

/-- The untracked files in the order they are fed in. -/
def names (T : WorkTree) : List Text := sorted T.untracked

def content (T : WorkTree) (name : Text) : Bytes :=
  match T.disk name with
  | .content bytes => bytes
  | _ => []

/-- The size of the untracked files. -/
def total (T : WorkTree) : ℕ := (T.names.map fun name => (T.content name).length).sum

def diffHash (sha256 : Bytes → δ) (T : WorkTree) : Option δ := computeDiffHash sha256 T.run T.disk

/-- A working tree below the caps, in which git prints no carriage return. -/
structure Regular (T : WorkTree) : Prop where
  head : ∀ h ∈ T.history, '\x00' ∉ h.1 ∧ h.1 ≠ "no-head".toList ∧ '\r' ∉ h.1 ∧ '\r' ∉ h.2
  entries : ∀ e ∈ T.entries, e.WellFormed
  plain : '\r' ∉ printStatus T.entries
  once : T.untracked.Nodup
  readable : ∀ name ∈ T.untracked, ∃ bytes, T.disk name = .content bytes
  files : T.untracked.length ≤ maxHashedUntrackedFiles
  bytes : T.total ≤ maxHashedUntrackedBytes

/-- Two trees with the same HEAD, diff and status, and the same untracked files. -/
structure Same (T T' : WorkTree) : Prop where
  history : T.history = T'.history
  status : printStatus T.entries = printStatus T'.entries
  files : ∀ name ∈ T.untracked, T.disk name = T'.disk name

end WorkTree

/-- What stands before the content of a file. -/
def marker (name : Text) : Bytes := 0 :: encode name

open WorkTree in
/-- **The condition** on a tree: the name of a file, behind a NUL, stands neither in its own content nor in the
    content before it; and the tracked diff and the first content cannot be cut at another place where its name
    stands. -/
structure Clear (T : WorkTree) : Prop where
  first : ∀ head diff, T.history = some (head, diff) → ∀ name ∈ T.names.head?, ∀ diff' : Text, diff' ≠ diff →
    '\r' ∉ diff' → T.total + (encode diff).length ≤ maxHashedUntrackedBytes + (encode diff').length →
      ¬ encode diff' ++ marker name <+: encode diff ++ (marker name ++ T.content name)
  next : ∀ front name name' back, T.names = front ++ name :: name' :: back →
    ¬ marker name' <:+: T.content name ∧ ¬ marker name' <:+: T.content name'

/-! ## The status -/

lemma splitOn_fields {fields : List Text} (h : ∀ field ∈ fields, '\x00' ∉ field) :
    (fields.flatMap fun field => field ++ ['\x00']).splitOn '\x00' = fields ++ [[]] := by
  induction fields with
  | nil => rfl
  | cons field fields ih =>
      obtain ⟨hfield, h⟩ := List.forall_mem_cons.mp h
      rw [List.flatMap_cons, List.append_assoc, List.singleton_append,
        List.splitOn_append_cons_self_of_not_mem hfield, ih h, List.cons_append]

/-- The walk over one entry. -/
lemma untrackedRecords_entry {e : Entry} (he : e.WellFormed) (rest : List Text) :
    untrackedRecords false (e.records ++ rest) = e.untracked?.toList ++ untrackedRecords false rest := by
  have hlong : ∀ {path : Text} (x y : Char), Entry.IsPath path → ¬ (x :: y :: ' ' :: path).length < 4 := by
    intro path x y hpath
    have hpos := List.length_pos_of_ne_nil hpath.1
    simp only [List.length_cons]
    omega
  cases e with
  | changed x y path =>
      obtain ⟨hpath, hx, -, hunknown⟩ := he
      simp only [List.mem_cons, List.not_mem_nil, or_false, not_or] at hx
      simp only [Entry.records, Entry.untracked?, List.cons_append, List.nil_append, untrackedRecords,
        if_neg (hlong x y hpath)]
      simp [hx.2.1, hx.2.2, hunknown]
  | moved x y path source =>
      obtain ⟨hpath, -, hx, -⟩ := he
      simp only [List.mem_cons, List.not_mem_nil, or_false] at hx
      simp only [Entry.records, Entry.untracked?, List.cons_append, List.nil_append, untrackedRecords,
        if_neg (hlong x y hpath)]
      rcases hx with rfl | rfl <;> simp [untrackedRecords]
  | untracked path =>
      simp only [Entry.records, Entry.untracked?, List.cons_append, List.nil_append, untrackedRecords,
        if_neg (hlong '?' '?' he)]
      simp

lemma records_fields {e : Entry} (he : e.WellFormed) : ∀ field ∈ e.records, field ≠ [] ∧ '\x00' ∉ field := by
  cases e with
  | changed x y path =>
      obtain ⟨hpath, hx, hy, -⟩ := he
      simp only [List.mem_cons, List.not_mem_nil, or_false, not_or] at hx
      simp [Entry.records, hpath.2, Ne.symm hx.1, Ne.symm hy]
  | moved x y path source =>
      obtain ⟨hpath, hsource, hx, hy⟩ := he
      have hx' : '\x00' ≠ x := by
        rintro rfl
        exact absurd hx (by decide)
      simp [Entry.records, hpath.2, hsource.1, hsource.2, hx', Ne.symm hy]
  | untracked path => simp [Entry.records, he.2]

/-- **The untracked files** that a status names are read off it. -/
theorem untrackedFromStatusZ_print {entries : List Entry} (h : ∀ e ∈ entries, e.WellFormed) :
    untrackedFromStatusZ (printStatus entries) = entries.filterMap Entry.untracked? := by
  have hfields : ∀ field ∈ entries.flatMap Entry.records, '\x00' ∉ field := fun field hfield => by
    obtain ⟨e, he, hmem⟩ := List.mem_flatMap.mp hfield
    exact (records_fields (h e he) field hmem).2
  rw [untrackedFromStatusZ, printStatus, splitOn_fields hfields]
  clear hfields
  induction entries with
  | nil => rfl
  | cons e entries ih =>
      obtain ⟨he, h⟩ := List.forall_mem_cons.mp h
      rw [List.flatMap_cons, List.append_assoc, untrackedRecords_entry he, ih h, List.filterMap_cons]
      cases e.untracked? <;> rfl

/-! ## What is fed to the digest -/

lemma encode_injective {a b : Text} (h : encode a = encode b) : a = b := by
  have hdecode := congrArg PyCodec.decodeUtf8 h
  rw [decodeUtf8_encode_eq, decodeUtf8_encode_eq] at hdecode
  exact Option.some.inj hdecode

lemma zero_not_mem_encode {text : Text} (h : '\x00' ∉ text) : (0 : UInt8) ∉ encode text :=
  not_mem_encode (by decide) h

lemma isMarker_marker {name : Text} (h : '\x00' ∉ name) : IsMarker 0 (marker name) :=
  ⟨encode name, rfl, zero_not_mem_encode h⟩

namespace WorkTree

variable {T T' : WorkTree}

/-- The files behind their markers. -/
def pieces (T : WorkTree) (names : List Text) : List (Bytes × Bytes) :=
  names.map fun name => (marker name, T.content name)

/-- The HEAD that is fed in. -/
def headText (T : WorkTree) : Text := (T.history.map Prod.fst).getD "no-head".toList

/-- The diff that is fed in. -/
def diffText (T : WorkTree) : Text := (T.history.map Prod.snd).getD []

lemma mem_names {name : Text} : name ∈ T.names ↔ name ∈ T.untracked := (List.mergeSort_perm _ _).mem_iff

lemma names_nodup (hT : T.Regular) : T.names.Nodup := (List.mergeSort_perm _ _).nodup_iff.mpr hT.once

lemma names_length : T.names.length = T.untracked.length := (List.mergeSort_perm _ _).length_eq

lemma disk_eq (hT : T.Regular) {name : Text} (h : name ∈ T.names) : T.disk name = .content (T.content name) := by
  obtain ⟨bytes, hbytes⟩ := hT.readable name (mem_names.mp h)
  rw [content, hbytes]

lemma join_pieces (T : WorkTree) (s : Bytes) (names : List Text) :
    join s (T.pieces names) = s ++ names.flatMap fun name => marker name ++ T.content name := by
  induction names generalizing s with
  | nil => exact (List.append_nil s).symm
  | cons name names ih =>
      rw [pieces, List.map_cons, join, ← pieces, ih, List.flatMap_cons, List.append_assoc]

/-- Below the caps every file is fed in with its content. -/
lemma hashUntracked_eq {names : List Text} {index hashedBytes : ℕ}
    (hdisk : ∀ name ∈ names, T.disk name = .content (T.content name))
    (hfiles : index + names.length ≤ maxHashedUntrackedFiles)
    (hbytes : hashedBytes + (names.map fun name => (T.content name).length).sum ≤ maxHashedUntrackedBytes) :
    hashUntracked T.disk index hashedBytes names = names.flatMap fun name => marker name ++ T.content name := by
  induction names generalizing index hashedBytes with
  | nil => rfl
  | cons name names ih =>
      obtain ⟨hname, hdisk⟩ := List.forall_mem_cons.mp hdisk
      simp only [List.length_cons, List.map_cons, List.sum_cons] at hfiles hbytes
      have hindex : ¬ index ≥ maxHashedUntrackedFiles := by omega
      have hsize : ¬ hashedBytes + (T.content name).length > maxHashedUntrackedBytes := by omega
      rw [hashUntracked, hname]
      simp only [hindex, hsize, decide_false, Bool.or_false, Bool.false_eq_true, if_false]
      rw [ih hdisk (by omega) (by omega), List.flatMap_cons, marker, List.cons_append, List.cons_append,
        List.append_assoc]

/-- **What is fed in** of a regular tree. -/
lemma hashed_eq (hT : T.Regular) :
    hashed T.run T.disk = some (encode T.headText ++ 0 :: (encode (printStatus T.entries) ++ 0 ::
      join (encode T.diffText) (T.pieces T.names))) := by
  have hstatus : git T.run statusArgs = some (printStatus T.entries) := by
    simp [git, run, translate_of_plain hT.plain]
  have hread : untrackedFromStatusZ (printStatus T.entries) = T.untracked := untrackedFromStatusZ_print hT.entries
  have hfiles : hashUntracked T.disk 0 0 T.names = _ :=
    hashUntracked_eq (fun _ => disk_eq hT) (by rw [zero_add, names_length]; exact hT.files)
      (by rw [zero_add]; exact hT.bytes)
  rw [join_pieces, ← hfiles, hashed, hstatus]
  cases hhistory : T.history with
  | none =>
      have hhead : git T.run headArgs = none := by simp [git, run, hhistory, headArgs, statusArgs]
      simp [hhead, headText, diffText, hhistory, hread, names]
  | some h =>
      obtain ⟨-, -, hhead, hdiff⟩ := hT.head h hhistory
      have hgit : git T.run headArgs = some h.1 := by
        simp [git, run, hhistory, headArgs, statusArgs, translate_of_plain hhead]
      have hgit' : git T.run diffArgs = some h.2 := by
        simp [git, run, hhistory, headArgs, statusArgs, diffArgs, translate_of_plain hdiff]
      simp [hgit, hgit', headText, diffText, hhistory, hread, names]

lemma fields_eq {fs gs : List Bytes} (hf : ∀ f ∈ fs, f ≠ [] ∧ 0 ∉ f) (hg : ∀ g ∈ gs, g ≠ [] ∧ 0 ∉ g) {r r' : Bytes}
    (h : (fs.flatMap fun f => f ++ [0]) ++ 0 :: r = (gs.flatMap fun g => g ++ [0]) ++ 0 :: r') : fs = gs ∧ r = r' := by
  induction fs generalizing gs with
  | nil =>
      cases gs with
      | nil => exact ⟨rfl, (List.cons_eq_cons.mp h).2⟩
      | cons g gs =>
          obtain ⟨hne, hzero⟩ := hg g List.mem_cons_self
          cases g with
          | nil => exact absurd rfl hne
          | cons c g => exact absurd (List.cons_eq_cons.mp h).1 fun hc => hzero (by rw [hc]; exact List.mem_cons_self)
  | cons f fs ih =>
      obtain ⟨⟨hne, hzero⟩, hf⟩ := List.forall_mem_cons.mp hf
      cases gs with
      | nil =>
          cases f with
          | nil => exact absurd rfl hne
          | cons c f => exact absurd (List.cons_eq_cons.mp h).1 fun hc => hzero (by rw [← hc]; exact List.mem_cons_self)
      | cons g gs =>
          obtain ⟨⟨-, hzero'⟩, hgs⟩ := List.forall_mem_cons.mp hg
          simp only [List.flatMap_cons, List.append_assoc, List.cons_append, List.nil_append] at h
          obtain ⟨rfl, hrest⟩ := append_sep_inj hzero hzero' h
          obtain ⟨rfl, hr⟩ := ih hf hgs hrest
          exact ⟨rfl, hr⟩

lemma encode_printStatus (entries : List Entry) :
    encode (printStatus entries) = ((entries.flatMap Entry.records).map encode).flatMap fun f => f ++ [0] := by
  rw [printStatus]
  induction entries.flatMap Entry.records with
  | nil => rfl
  | cons field fields ih =>
      rw [List.flatMap_cons, encode_append, encode_append, ih, List.map_cons, List.flatMap_cons]
      rfl

lemma encoded_fields {entries : List Entry} (h : ∀ e ∈ entries, e.WellFormed) :
    ∀ f ∈ (entries.flatMap Entry.records).map encode, f ≠ [] ∧ 0 ∉ f := by
  intro f hf
  obtain ⟨field, hfield, rfl⟩ := List.mem_map.mp hf
  obtain ⟨e, he, hmem⟩ := List.mem_flatMap.mp hfield
  obtain ⟨hne, hzero⟩ := records_fields (h e he) field hmem
  exact ⟨mt encode_eq_nil.mp hne, zero_not_mem_encode hzero⟩

lemma headText_plain (hT : T.Regular) : '\x00' ∉ T.headText := by
  unfold headText
  cases hhistory : T.history with
  | none => decide
  | some h => exact (hT.head h hhistory).1

/-- The HEAD that is fed in says whether there is one, and which. -/
lemma head_eq (hT : T.Regular) (hT' : T'.Regular) (h : T.headText = T'.headText) :
    T.history.map Prod.fst = T'.history.map Prod.fst := by
  unfold headText at h
  cases hhistory : T.history with
  | none =>
      cases hhistory' : T'.history with
      | none => rfl
      | some h' =>
          rw [hhistory, hhistory'] at h
          exact absurd h.symm (hT'.head h' hhistory').2.1
  | some h₀ =>
      cases hhistory' : T'.history with
      | none =>
          rw [hhistory, hhistory'] at h
          exact absurd h (hT.head h₀ hhistory).2.1
      | some h' =>
          rw [hhistory, hhistory'] at h
          exact congrArg some h

/-- What two trees with one fingerprint have in common. -/
lemma common (hT : T.Regular) (hT' : T'.Regular) (h : hashed T.run T.disk = hashed T'.run T'.disk) :
    T.history.map Prod.fst = T'.history.map Prod.fst ∧ printStatus T.entries = printStatus T'.entries ∧
      T.names = T'.names ∧ join (encode T.diffText) (T.pieces T.names) = join (encode T'.diffText) (T'.pieces T'.names) := by
  rw [hashed_eq hT, hashed_eq hT', Option.some_inj] at h
  obtain ⟨hhead, hrest⟩ := append_sep_inj (zero_not_mem_encode (headText_plain hT))
    (zero_not_mem_encode (headText_plain hT')) h
  rw [encode_printStatus, encode_printStatus] at hrest
  obtain ⟨hfields, hjoin⟩ := fields_eq (encoded_fields hT.entries) (encoded_fields hT'.entries) hrest
  have hrecords : T.entries.flatMap Entry.records = T'.entries.flatMap Entry.records :=
    List.map_injective_iff.mpr (fun _ _ => encode_injective) hfields
  have hstatus : printStatus T.entries = printStatus T'.entries := by rw [printStatus, hrecords, printStatus]
  refine ⟨head_eq hT hT' (encode_injective hhead), hstatus, ?_, hjoin⟩
  rw [names, names, untracked, untracked, ← untrackedFromStatusZ_print hT.entries,
    ← untrackedFromStatusZ_print hT'.entries, hstatus]

lemma diffHash_eq_iff {sha256 : Bytes → δ} (hsha : Function.Injective sha256) :
    T.diffHash sha256 = T'.diffHash sha256 ↔ hashed T.run T.disk = hashed T'.run T'.disk := by
  unfold diffHash computeDiffHash
  exact (Option.map_injective hsha).eq_iff

/-- Trees that are the same have one fingerprint. -/
lemma hashed_of_same (hT : T.Regular) (hT' : T'.Regular) (h : Same T T') :
    hashed T.run T.disk = hashed T'.run T'.disk := by
  obtain ⟨hhistory, hstatus, hfiles⟩ := h
  have huntracked : T.untracked = T'.untracked := by
    rw [untracked, untracked, ← untrackedFromStatusZ_print hT.entries, ← untrackedFromStatusZ_print hT'.entries,
      hstatus]
  have hnames : T.names = T'.names := by rw [names, names, huntracked]
  have hpieces : T.pieces T.names = T'.pieces T'.names := by
    rw [pieces, pieces, ← hnames]
    refine List.map_congr_left fun name hname => ?_
    rw [content, content, hfiles name (mem_names.mp hname)]
  rw [hashed_eq hT, hashed_eq hT', hstatus, hpieces, headText, headText, diffText, diffText, hhistory]

lemma markers_names (hT : T.Regular) : ∀ e ∈ T.pieces T.names, IsMarker 0 e.1 := by
  intro e he
  obtain ⟨name, hname, rfl⟩ := List.mem_map.mp he
  obtain ⟨entry, hentry, hpath⟩ := List.mem_filterMap.mp (mem_names.mp hname)
  refine isMarker_marker ?_
  cases entry with
  | changed x y path => exact absurd hpath (by simp [Entry.untracked?])
  | moved x y path source => exact absurd hpath (by simp [Entry.untracked?])
  | untracked path =>
      obtain rfl : path = name := Option.some.inj hpath
      exact (hT.entries _ hentry).2

lemma pieces_markers {names : List Text} :
    (T.pieces names).map Prod.fst = (T'.pieces names).map Prod.fst := by
  simp [pieces, Function.comp_def]

/-- A clash among the files of a tree. -/
lemma exists_of_clash {names : List Text} {name : Text} (h : Clash (T.content name) (T.pieces names)) :
    ∃ front name₁ name₂ back, name :: names = front ++ name₁ :: name₂ :: back ∧
      (marker name₂ <:+: T.content name₁ ∨ marker name₂ <:+: T.content name₂) := by
  induction names generalizing name with
  | nil => exact nomatch h
  | cons next names ih =>
      rw [pieces, List.map_cons, ← pieces] at h
      cases h with
      | before hin => exact ⟨[], name, next, names, rfl, Or.inl hin⟩
      | own hin => exact ⟨[], name, next, names, rfl, Or.inr hin⟩
      | later hlater =>
          obtain ⟨front, name₁, name₂, back, hsplit, hin⟩ := ih hlater
          exact ⟨name :: front, name₁, name₂, back, by rw [hsplit, List.cons_append], hin⟩

lemma no_clash (hclear : Clear T) {name : Text} {names : List Text} (hnames : T.names = name :: names) :
    ¬ Clash (T.content name) (T.pieces names) := by
  intro h
  obtain ⟨front, name₁, name₂, back, hsplit, hin⟩ := exists_of_clash h
  obtain ⟨hbefore, hown⟩ := hclear.next front name₁ name₂ back (hnames.trans hsplit)
  exact hin.elim hbefore hown

lemma join_length (T : WorkTree) (s : Bytes) (names : List Text) :
    (join s (T.pieces names)).length = s.length + (names.map fun name => (marker name).length).sum +
      (names.map fun name => (T.content name).length).sum := by
  rw [join_pieces, List.length_append]
  induction names with
  | nil => rfl
  | cons name names ih =>
      simp only [List.flatMap_cons, List.length_append, List.map_cons, List.sum_cons]
      omega

/-- What is moved out of the diff is moved into the files. -/
lemma total_eq (hnames : T.names = T'.names)
    (h : join (encode T.diffText) (T.pieces T.names) = join (encode T'.diffText) (T'.pieces T'.names)) :
    T.total + (encode T.diffText).length = T'.total + (encode T'.diffText).length := by
  have hlength := congrArg List.length h
  rw [join_length, join_length, ← hnames] at hlength
  rw [total, total, ← hnames]
  omega

lemma contents_of_pieces {names : List Text} (h : T.pieces names = T'.pieces names) :
    ∀ name ∈ names, T.content name = T'.content name := by
  intro name hname
  exact (Prod.mk.inj (List.map_inj_left.mp h name hname)).2

/-- Two trees with one fingerprint have the same diff and the same files, where the one is clear. -/
lemma diff_and_files (hT : T.Regular) (hT' : T'.Regular) (hclear : Clear T)
    (hhead : T.history.map Prod.fst = T'.history.map Prod.fst) (hnames : T.names = T'.names)
    (hjoin : join (encode T.diffText) (T.pieces T.names) = join (encode T'.diffText) (T'.pieces T'.names)) :
    T.diffText = T'.diffText ∧ ∀ name ∈ T.names, T.content name = T'.content name := by
  have htotal := total_eq hnames hjoin
  have hms := markers_names hT
  cases hlist : T.names with
  | nil =>
      rw [← hnames, hlist] at hjoin
      exact ⟨encode_injective hjoin, nofun⟩
  | cons name names =>
      rw [← hnames, hlist, pieces, pieces, List.map_cons, List.map_cons, ← pieces, ← pieces] at hjoin
      rw [hlist, pieces, List.map_cons, ← pieces] at hms
      obtain ⟨hm, hms⟩ := List.forall_mem_cons.mp hms
      have hno := no_clash hclear hlist
      rcases first_cases hm hms pieces_markers hjoin with ⟨hdiff, hrest⟩ | ⟨hne, hin⟩ | hown
      · rcases join_eq hms pieces_markers hrest with ⟨hcontent, hpieces⟩ | hclash
        · exact ⟨encode_injective hdiff, List.forall_mem_cons.mpr ⟨hcontent, contents_of_pieces hpieces⟩⟩
        · exact absurd hclash hno
      · exfalso
        cases hhistory : T.history with
        | none =>
            have hhistory' : T'.history = none := by
              rw [hhistory] at hhead
              exact Option.map_eq_none_iff.mp hhead.symm
            exact hne (by rw [diffText, diffText, hhistory, hhistory'])
        | some h =>
            obtain ⟨head, diff⟩ := h
            obtain ⟨⟨head', diff'⟩, hhistory', -⟩ : ∃ h', T'.history = some h' ∧ h'.1 = head := by
              rw [hhistory] at hhead
              exact Option.map_eq_some_iff.mp hhead.symm
            have hdiff : T.diffText = diff := by rw [diffText, hhistory]; rfl
            have hdiff' : T'.diffText = diff' := by rw [diffText, hhistory']; rfl
            rw [hdiff, hdiff'] at hne hin htotal
            refine hclear.first head diff hhistory name (by rw [hlist]; rfl) diff' ?_ ?_ ?_ hin
            · rintro rfl
              exact hne rfl
            · exact (hT'.head _ hhistory').2.2.2
            · rw [htotal]
              exact Nat.add_le_add_right hT'.bytes _
      · exact absurd (Clash.of_own hown) hno

/-- **A clear tree** is taken for no other. -/
lemma same_of_clear (hT : T.Regular) (hT' : T'.Regular) (hclear : Clear T)
    (h : hashed T.run T.disk = hashed T'.run T'.disk) : Same T T' := by
  obtain ⟨hhead, hstatus, hnames, hjoin⟩ := common hT hT' h
  obtain ⟨hdiff, hcontents⟩ := diff_and_files hT hT' hclear hhead hnames hjoin
  refine ⟨?_, hstatus, fun name hname => ?_⟩
  · unfold diffText at hdiff
    rcases hhistory : T.history with _ | ⟨head, diff⟩ <;> rcases hhistory' : T'.history with _ | ⟨head', diff'⟩ <;>
      simp_all
  · have hmem : name ∈ T.names := mem_names.mpr hname
    rw [disk_eq hT hmem, disk_eq hT' (hnames ▸ hmem), hcontents name hmem]

/-! ## Trees taken for another -/

/-- The tree with another history and other files. -/
def rebuilt (T : WorkTree) (history : Option (Text × Text)) (files : Text → Bytes) : WorkTree where
  history
  entries := T.entries
  disk name := .content (files name)

variable {history : Option (Text × Text)} {files : Text → Bytes}

@[simp] lemma names_rebuilt : (T.rebuilt history files).names = T.names := rfl

@[simp] lemma content_rebuilt (name : Text) : (T.rebuilt history files).content name = files name := rfl

/-- It is regular within the caps. -/
lemma Regular.rebuilt (hT : T.Regular)
    (hhead : ∀ h ∈ history, '\x00' ∉ h.1 ∧ h.1 ≠ "no-head".toList ∧ '\r' ∉ h.1 ∧ '\r' ∉ h.2)
    (h : (T.rebuilt history files).total ≤ maxHashedUntrackedBytes) : (T.rebuilt history files).Regular where
  head := hhead
  entries := hT.entries
  plain := hT.plain
  once := hT.once
  readable name _ := ⟨files name, rfl⟩
  files := hT.files
  bytes := h

/-- A tree that is fed in alike has one fingerprint. -/
lemma hashed_rebuilt (hT : T.Regular) (hT' : (T.rebuilt history files).Regular)
    (hhead : (T.rebuilt history files).headText = T.headText)
    (hjoin : join (encode (T.rebuilt history files).diffText) ((T.rebuilt history files).pieces T.names) =
      join (encode T.diffText) (T.pieces T.names)) :
    hashed T.run T.disk = hashed (T.rebuilt history files).run (T.rebuilt history files).disk := by
  rw [hashed_eq hT, hashed_eq hT', hhead, names_rebuilt, hjoin]
  rfl

/-- Files that are not written keep their pieces. -/
lemma pieces_rebuilt {names : List Text} (h : ∀ name ∈ names, files name = T.content name) :
    (T.rebuilt history files).pieces names = T.pieces names :=
  List.map_congr_left fun name hname => by rw [content_rebuilt, h name hname]

lemma join_cons (s : Bytes) (name : Text) (names : List Text) :
    join s (T.pieces (name :: names)) = s ++ (marker name ++ join (T.content name) (T.pieces names)) := rfl

/-- **Bytes moved between two files** that follow each other, past the name of the second. -/
lemma same_of_moved (hT : T.Regular) {front back : List Text} {name name' : Text}
    (hnames : T.names = front ++ name :: name' :: back) (bytes bytes' : Bytes)
    (h : bytes ++ (marker name' ++ bytes') = T.content name ++ (marker name' ++ T.content name'))
    (hexact : ∀ T', T'.Regular → hashed T.run T.disk = hashed T'.run T'.disk → Same T T') :
    bytes = T.content name := by
  set files := Function.update (Function.update T.content name' bytes') name bytes with hfiles
  obtain ⟨-, hnodup, hdisjoint⟩ := List.nodup_append.mp (hnames ▸ names_nodup hT)
  obtain ⟨hname, hnodup⟩ := List.nodup_cons.mp hnodup
  obtain ⟨hname', -⟩ := List.nodup_cons.mp hnodup
  have hother : ∀ other, other ≠ name → other ≠ name' → files other = T.content other := fun other hne hne' => by
    rw [hfiles, Function.update_of_ne hne, Function.update_of_ne hne']
  have hfront : ∀ other ∈ front, files other = T.content other := fun other hmem =>
    hother other (hdisjoint other hmem name (by simp)) (hdisjoint other hmem name' (by simp))
  have hback : ∀ other ∈ back, files other = T.content other := fun other hmem =>
    hother other (by rintro rfl; exact hname (by simp [hmem])) (by rintro rfl; exact hname' hmem)
  have hwritten : files name = bytes := Function.update_self ..
  have hwritten' : files name' = bytes' := by
    rw [hfiles, Function.update_of_ne (by rintro rfl; exact hname (by simp)), Function.update_self]
  have hjoin : join (encode (T.rebuilt T.history files).diffText) ((T.rebuilt T.history files).pieces T.names) =
      join (encode T.diffText) (T.pieces T.names) := by
    have hmoved (tail : Bytes) : bytes ++ (marker name' ++ (bytes' ++ tail)) =
        T.content name ++ (marker name' ++ (T.content name' ++ tail)) := by
      simpa only [List.append_assoc] using congrArg (· ++ tail) h
    have hkept : ∀ {names : List Text}, (∀ other ∈ names, files other = T.content other) →
        (names.flatMap fun other => marker other ++ files other) =
          names.flatMap fun other => marker other ++ T.content other := fun hall =>
      List.flatMap_congr fun other hmem => by rw [hall other hmem]
    rw [hnames, join_pieces, join_pieces]
    simp only [List.flatMap_append, List.flatMap_cons, content_rebuilt, hwritten, hwritten', hkept hfront, hkept hback,
      List.append_assoc, hmoved]
    rfl
  have htotal : (T.rebuilt T.history files).total + (encode T.diffText).length = T.total + (encode T.diffText).length :=
    total_eq names_rebuilt hjoin
  have hbytes : (T.rebuilt T.history files).total ≤ maxHashedUntrackedBytes := by
    have := hT.bytes
    omega
  have hT' := hT.rebuilt hT.head hbytes
  have hmem : name ∈ T.names := by simp [hnames]
  have hsame := (hexact _ hT' (hashed_rebuilt hT hT' rfl hjoin)).files name (mem_names.mp hmem)
  rw [disk_eq hT hmem] at hsame
  exact (OnDisk.content.inj hsame).symm ▸ hwritten.symm

/-- **Bytes moved between the diff and the first file**, past its name. -/
lemma same_of_moved_first (hT : T.Regular) {head diff diff' : Text} (hhistory : T.history = some (head, diff))
    {name : Text} {names : List Text} (hnames : T.names = name :: names) {bytes : Bytes} (hplain : '\r' ∉ diff')
    (hbytes : T.total + (encode diff).length ≤ maxHashedUntrackedBytes + (encode diff').length)
    (h : encode diff' ++ (marker name ++ bytes) = encode diff ++ (marker name ++ T.content name))
    (hexact : ∀ T', T'.Regular → hashed T.run T.disk = hashed T'.run T'.disk → Same T T') :
    diff' = diff := by
  set files := Function.update T.content name bytes with hfiles
  obtain ⟨hname, -⟩ := List.nodup_cons.mp (hnames ▸ names_nodup hT)
  have hother : ∀ other ∈ names, files other = T.content other := fun other hmem =>
    Function.update_of_ne (by rintro rfl; exact hname hmem) _ _
  have hwritten : files name = bytes := Function.update_self ..
  have hdiff : T.diffText = diff := by rw [diffText, hhistory]; rfl
  have hjoin : join (encode diff') ((T.rebuilt (some (head, diff')) files).pieces T.names) =
      join (encode T.diffText) (T.pieces T.names) := by
    rw [hnames, hdiff, join_cons, join_cons, pieces_rebuilt hother, content_rebuilt, hwritten]
    have happend : ∀ bytes, join bytes (T.pieces names) = bytes ++ join [] (T.pieces names) := fun bytes => by
      rw [← join_append, List.append_nil]
    rw [happend bytes, happend (T.content name)]
    simpa only [List.append_assoc] using congrArg (· ++ join [] (T.pieces names)) h
  have htotal : (T.rebuilt (some (head, diff')) files).total + (encode diff').length =
      T.total + (encode T.diffText).length := total_eq names_rebuilt hjoin
  rw [hdiff] at htotal
  have hhead : ∀ h ∈ some (head, diff'), '\x00' ∉ h.1 ∧ h.1 ≠ "no-head".toList ∧ '\r' ∉ h.1 ∧ '\r' ∉ h.2 := by
    obtain ⟨hzero, hno, hreturn, -⟩ := hT.head _ hhistory
    rintro _ ⟨⟩
    exact ⟨hzero, hno, hreturn, hplain⟩
  have hT' : (T.rebuilt (some (head, diff')) files).Regular := hT.rebuilt hhead (by omega)
  have hheadText : (T.rebuilt (some (head, diff')) files).headText = T.headText := by
    rw [headText, headText, hhistory]
    rfl
  have hsame := (hexact _ hT' (hashed_rebuilt hT hT' hheadText hjoin)).history
  rw [hhistory] at hsame
  exact (Prod.mk.inj (Option.some.inj hsame)).2.symm

/-- A tree taken for no other is clear. -/
lemma clear_of_same (hT : T.Regular)
    (hexact : ∀ T', T'.Regular → hashed T.run T.disk = hashed T'.run T'.disk → Same T T') : Clear T where
  first head diff hhistory name hname diff' hne hplain hbytes := by
    rintro ⟨bytes, h⟩
    obtain ⟨names, hnames⟩ : ∃ names, T.names = name :: names := by
      cases hlist : T.names with
      | nil => exact absurd (hlist ▸ hname) (by simp)
      | cons first names => exact ⟨names, by rw [hlist, List.head?_cons] at hname; rw [Option.some.inj hname]⟩
    have hcut : encode diff' ++ (marker name ++ bytes) = encode diff ++ (marker name ++ T.content name) := by
      rw [← h, List.append_assoc]
    exact hne (same_of_moved_first hT hhistory hnames hplain hbytes hcut hexact)
  next front name name' back hnames := by
    constructor
    · rintro ⟨u, v, huv⟩
      have hmoved := same_of_moved hT hnames u (v ++ (marker name' ++ T.content name'))
        (by rw [← huv]; simp only [List.append_assoc]) hexact
      have hlength := congrArg List.length (hmoved.trans huv.symm)
      simp [marker] at hlength
    · rintro ⟨u, v, huv⟩
      have hmoved := same_of_moved hT hnames (T.content name ++ (marker name' ++ u)) v
        (by rw [← huv]; simp only [List.append_assoc]) hexact
      have hlength := congrArg List.length hmoved
      simp [marker] at hlength

end WorkTree

open WorkTree

/-- A tree without a commit and without files is clear. -/
def emptyTree : WorkTree where
  history := none
  entries := []
  disk _ := .missing

lemma names_emptyTree : emptyTree.names = [] := List.mergeSort_nil

lemma regular_emptyTree : emptyTree.Regular where
  head := nofun
  entries := nofun
  plain := by decide
  once := List.nodup_nil
  readable := nofun
  files := by decide
  bytes := by rw [total, names_emptyTree]; exact Nat.zero_le _

lemma clear_emptyTree : Clear emptyTree := ⟨nofun, fun front name name' back h => by simp [names_emptyTree] at h⟩

/-- Two untracked files `a` and `b`. -/
def twoFiles (a b : Bytes) : WorkTree where
  history := none
  entries := [.untracked ['a'], .untracked ['b']]
  disk name := .content (if name = ['a'] then a else b)

lemma names_twoFiles (a b : Bytes) : (twoFiles a b).names = [['a'], ['b']] := by
  have huntracked : (twoFiles a b).untracked = [['a'], ['b']] := rfl
  rw [names, huntracked, sorted]
  exact List.mergeSort_of_pairwise (by decide)

lemma regular_twoFiles {a b : Bytes} (h : a.length + b.length ≤ maxHashedUntrackedBytes) : (twoFiles a b).Regular where
  head := nofun
  entries := by
    intro e he
    rcases List.mem_pair.mp he with rfl | rfl
    · exact ⟨by decide, by decide⟩
    · exact ⟨by decide, by decide⟩
  plain := show '\r' ∉ printStatus [.untracked ['a'], .untracked ['b']] by decide
  once := show [['a'], ['b']].Nodup by decide
  readable name _ := ⟨_, rfl⟩
  files := show 2 ≤ maxHashedUntrackedFiles by decide
  bytes := by
    rw [total, names_twoFiles]
    simpa [twoFiles, content] using h

end Kstrl.Loop.Breaker
