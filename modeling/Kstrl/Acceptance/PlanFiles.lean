import Kstrl.Acceptance.Plan

/-!
# The files of a plan

The files under a directory, the digest that a plan is known by (`_plan_files`, `_digest`), and the plan that is read
from its files (`_checked_copy` of `kstrl/acceptance/acceptance.py`).

* **`digest_injective`**: two plans with one digest have the same files, provided the hash has no collision.
-/

namespace Kstrl.Acceptance

/-- A regular file. -/
structure File where
  data : List UInt8
  executable : Bool := false
  deriving DecidableEq, Repr

/-- The files below a directory, by their path below it. -/
@[ext]
structure Tree where
  entries : List (String × File)
  sorted : (entries.map Prod.fst).Pairwise (· < ·)

namespace Tree

def get (t : Tree) (name : String) : Option File := t.entries.lookup name

lemma keys_nodup (t : Tree) : (t.entries.map Prod.fst).Nodup := t.sorted.imp fun h => h.ne

lemma get_eq_some {t : Tree} {name : String} {file : File} : t.get name = some file ↔ (name, file) ∈ t.entries :=
  ⟨Keyed.mem_of_lookup, Keyed.lookup_of_mem t.keys_nodup⟩

/-- A directory is known by what is found in it. -/
theorem ext_get {t t' : Tree} (h : ∀ name, t.get name = t'.get name) : t = t' :=
  Tree.ext (Keyed.eq_of_lookup t.sorted t'.sorted h)

end Tree

section Digest

variable (sha256 : List UInt8 → String)

/-- A file in the text under a plan's digest. -/
def digestRow (e : String × File) : Json := .arr [.str e.1, .str (sha256 e.2.data), .bool e.2.executable]

/-- `_digest` -/
def digest (t : Tree) : String := entrySha sha256 (.arr (t.entries.map (digestRow sha256)))

variable {sha256}

lemma digestRow_injective (hsha : Function.Injective sha256) : Function.Injective (digestRow sha256) := by
  intro a b h
  obtain ⟨name, data, executable⟩ := a
  obtain ⟨name', data', executable'⟩ := b
  simp only [digestRow, Json.arr.injEq, List.cons.injEq, Json.str.injEq, Json.bool.injEq, and_true] at h
  obtain ⟨rfl, hdata, rfl⟩ := h
  rw [hsha hdata]

lemma rows_wellFormed (l : List (String × File)) : Json.AllWellFormed (l.map (digestRow sha256)) := by
  induction l with
  | nil => trivial
  | cons e l ih => exact ⟨⟨trivial, trivial, trivial, trivial⟩, ih⟩

/-- A value is known by its text, and its text by its digest. -/
lemma entrySha_injective (hsha : Function.Injective sha256) {a b : Json} (ha : a.WellFormed) (hb : b.WellFormed)
    (h : entrySha sha256 a = entrySha sha256 b) : a = b := by
  have htext : Json.Layout.compact.write 0 a = Json.Layout.compact.write 0 b := by
    have hbytes := congrArg PyCodec.decodeUtf8 (hsha h)
    rw [TextLines.decodeUtf8_encode_eq, TextLines.decodeUtf8_encode_eq] at hbytes
    exact Option.some.inj hbytes
  have hread := Json.Layout.compact.loads_line a ha
  rw [htext, Json.Layout.compact.loads_line b hb] at hread
  exact (Option.some.inj hread).symm

/-- **The digest tells plans apart.** -/
theorem digest_injective (hsha : Function.Injective sha256) : Function.Injective (digest sha256) := by
  intro t t' h
  have hwf : ∀ t : Tree, (Json.arr (t.entries.map (digestRow sha256))).WellFormed := fun t => rows_wellFormed t.entries
  have hrows := entrySha_injective hsha (hwf t) (hwf t') h
  exact Tree.ext (List.map_injective_iff.mpr (digestRow_injective hsha) (Json.arr.inj hrows))

end Digest

/-! ## The plan of a directory -/

def designerFile : String := "designer.json"

/-- A text file as JSON. -/
def File.json (file : File) : Option Json :=
  (PyCodec.decodeUtf8 file.data).bind fun text => Json.loads (String.ofList text)

/-- The plan of components that were read. -/
def planOf (sha256 : List UInt8 → String) (files : Tree) (components : List (String × ComponentPlan)) : PinnedPlan where
  digest := digest sha256 files
  components := Keyed.dict components
  keys_nodup := Keyed.nodup_dict components
  designed := (files.get designerFile).isSome

/-- The plan of `plan.json`, or what is wrong with it. -/
def readPlan (sha256 : List UInt8 → String) (where_ : String) (files : Tree) (componentIds : List String) :
    Except (List String) PinnedPlan :=
  match files.get planFile with
  | none => .error ["the acceptance plan " ++ where_ ++ " has no " ++ planFile ++ ". Nothing was run."]
  | some file =>
      match file.json with
      | none => .error [where_ ++ "/" ++ planFile ++ " is not JSON"]
      | some raw =>
          if planErrors raw componentIds ≠ [] then
            .error ((planErrors raw componentIds).map fun line => where_ ++ "/" ++ planFile ++ ": " ++ line)
          else match parsed sha256 raw with
            | some components => .ok (planOf sha256 files components)
            | none => .error []

/-- A plan of the directory is known by the directory's digest. -/
lemma readPlan_digest {sha256 : List UInt8 → String} {where_ : String} {files : Tree} {componentIds : List String}
    {plan : PinnedPlan} (h : readPlan sha256 where_ files componentIds = .ok plan) : plan.digest = digest sha256 files := by
  unfold readPlan at h
  split at h
  · cases h
  · split at h
    · cases h
    · split_ifs at h
      split at h
      · cases h
        rfl
      · cases h

/-! ### A plan of one check -/

/-- The bytes as a text: a hash without collisions. -/
def bytesText (data : List UInt8) : String := String.ofList (data.map fun b => Char.ofNat b.toNat)

lemma bytesText_injective : Function.Injective bytesText := by
  intro data data' h
  refine List.map_injective_iff.mpr (fun b b' hb => ?_) (String.ofList_injective h)
  have hnat := congrArg Char.toNat hb
  have hvalid : ∀ n < 256, (Char.ofNat n).toNat = n := by decide +kernel
  rw [hvalid _ b.toNat_lt, hvalid _ b'.toNat_lt] at hnat
  exact UInt8.toNat_inj.mp hnat

/-- `plan.json` of one held-out check that runs a command. -/
def onePlanJson (command : String) : Json :=
  .obj [("components", .obj [("c", .obj [("checks", .arr [.obj [("id", .str "a"), ("criterion", .str "it adds"),
    ("argv", .arr [.str command]), ("onBase", .str "fails"), ("heldOut", .bool true)]])])])]

def onePlanFile (command : String) : File := ⟨TextLines.encode (Json.Layout.compact.write 0 (onePlanJson command)), false⟩

def onePlanFiles (command : String) : Tree := ⟨[(planFile, onePlanFile command)], List.pairwise_singleton _ _⟩

def oneCheck (sha256 : List UInt8 → String) (command : String) : Check :=
  ⟨"a", "it adds", [command], .fails, true, entrySha sha256 (entryJson "a" "it adds" [command] .fails true)⟩

def onePart (sha256 : List UInt8 → String) (command : String) : ComponentPlan :=
  ⟨false, [oneCheck sha256 command], List.cons_ne_nil _ _, List.nodup_singleton _⟩

lemma onePlanFile_json (command : String) : (onePlanFile command).json = some (onePlanJson command) := by
  have hwf : (onePlanJson command).WellFormed := by
    simp [onePlanJson, Json.WellFormed, Json.FieldsWellFormed, Json.AllWellFormed]
  rw [File.json, onePlanFile, TextLines.decodeUtf8_encode_eq, Option.bind_some]
  exact Json.Layout.compact.loads_line _ hwf

end Kstrl.Acceptance
