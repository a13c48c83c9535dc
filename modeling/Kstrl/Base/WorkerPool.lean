import Mathlib.Data.List.Basic
import Mathlib.Tactic.Common

/-!
# A pool of workers

Jobs in the order they were submitted, over any type of times.  A pool of `workers` runs at most so many of
them at once, a task starts as soon as a worker is free, in the order of submission, and a task that runs is
not stopped.  A task that never ends keeps its worker.

* **`Prompt`** says that every task started when it was submitted.
* **`prompt_submit`**: submitting to a pool with fewer unfinished tasks than workers keeps it so.
-/

namespace WorkerPool

variable {T : Type*}

structure Job (T : Type*) where
  submitted : T
  started : Option T
  ended : Option T
  deriving DecidableEq, Repr

/-- The tasks, in the order of submission. -/
abbrev Pool (T : Type*) := List (Job T)

namespace Job

variable (t : Job T)

/-- A worker has it. -/
def running : Bool := t.started.isSome && t.ended.isNone

def unfinished : Bool := t.ended.isNone

/-- It started at once. -/
def prompt : Prop := t.started = some t.submitted

/-- It ends, if it runs. -/
def endAt (now : T) : Job T := if t.running then { t with ended := some now } else t

@[simp] lemma endAt_submitted (now : T) : (t.endAt now).submitted = t.submitted := by
  unfold endAt
  split_ifs <;> rfl

@[simp] lemma endAt_started (now : T) : (t.endAt now).started = t.started := by
  unfold endAt
  split_ifs <;> rfl

end Job

/-- The first `n` tasks that wait start. -/
def startFirst (now : T) : ℕ → Pool T → Pool T
  | 0, p => p
  | _ + 1, [] => []
  | n + 1, t :: rest =>
      if t.started.isNone then { t with started := some now } :: startFirst now n rest
      else t :: startFirst now (n + 1) rest

variable (workers : ℕ) (now : T)

/-- Every free worker takes a task. -/
def dispatch (p : Pool T) : Pool T := startFirst now (workers - p.countP Job.running) p

/-- A new task. -/
def submit (p : Pool T) : Pool T := dispatch workers now (p ++ [⟨now, none, none⟩])

/-- A task ends, if it runs. -/
def finish (i : ℕ) (p : Pool T) : Pool T := dispatch workers now (p.modify i fun t => t.endAt now)

/-- Every task started when it was submitted. -/
def Prompt (p : Pool T) : Prop := ∀ t ∈ p, t.prompt

variable {workers} {now} {p : Pool T}

lemma startFirst_prompt (h : Prompt p) (n : ℕ) : startFirst now n p = p := by
  induction p generalizing n with
  | nil => cases n <;> rfl
  | cons t rest ih =>
      cases n with
      | zero => rfl
      | succ n =>
          have ht : t.started = some t.submitted := h t List.mem_cons_self
          rw [startFirst, if_neg (by simp [ht]), ih fun u hu => h u (List.mem_cons_of_mem _ hu)]

lemma startFirst_append (h : Prompt p) {t : Job T} (ht : t.started = none) (n : ℕ) :
    startFirst now (n + 1) (p ++ [t]) = p ++ [{ t with started := some now }] := by
  induction p with
  | nil =>
      rw [List.nil_append, startFirst, if_pos (by simp [ht])]
      cases n <;> rfl
  | cons u rest ih =>
      have hu : u.started = some u.submitted := h u List.mem_cons_self
      rw [List.cons_append, startFirst, if_neg (by simp [hu]), ih fun v hv => h v (List.mem_cons_of_mem _ hv)]
      rfl

/-- A task that runs has a worker. -/
lemma running_le_unfinished (p : Pool T) : p.countP Job.running ≤ p.countP Job.unfinished :=
  List.countP_mono_left fun t _ ht => by
    simp only [Job.running, Bool.and_eq_true] at ht
    exact ht.2

/-- **A task submitted to a pool with a free worker starts at once.** -/
lemma submit_eq (h : Prompt p) (hfree : p.countP Job.unfinished < workers) :
    submit workers now p = p ++ [⟨now, some now, none⟩] := by
  have hbusy : (p ++ [({ submitted := now, started := none, ended := none } : Job T)]).countP Job.running
      < workers := by
    rw [List.countP_append]
    exact Nat.lt_of_le_of_lt (Nat.add_le_add_right (running_le_unfinished p) _) hfree
  obtain ⟨n, hn⟩ := Nat.exists_eq_succ_of_ne_zero (Nat.sub_ne_zero_of_lt hbusy)
  rw [submit, dispatch, hn, startFirst_append h rfl]

lemma prompt_submit (h : Prompt p) (hfree : p.countP Job.unfinished < workers) :
    Prompt (submit workers now p) := by
  rw [submit_eq h hfree]
  intro t ht
  rcases List.mem_append.mp ht with ht | ht
  · exact h t ht
  · rw [List.mem_singleton.mp ht]
    rfl

/-- Where every task has started, an end starts none. -/
lemma finish_eq (h : Prompt p) (i : ℕ) : finish workers now i p = p.modify i fun t => t.endAt now := by
  refine startFirst_prompt (fun t ht => ?_) _
  obtain ⟨j, hj⟩ := List.mem_iff_getElem?.mp ht
  rw [List.getElem?_modify] at hj
  obtain ⟨u, hu, rfl⟩ := Option.map_eq_some_iff.mp hj
  have hprompt : u.started = some u.submitted := h u (List.mem_of_getElem? hu)
  split_ifs <;> simpa [Job.prompt] using hprompt

variable (workers now) in
/-- Tasks keep their place, their submission and their start. -/
lemma getElem?_finish (h : Prompt p) (i : ℕ) {j : ℕ} {t : Job T} (ht : p[j]? = some t) :
    ∃ u, (finish workers now i p)[j]? = some u ∧ u.submitted = t.submitted ∧ u.started = t.started := by
  rw [finish_eq h, List.getElem?_modify, ht]
  refine ⟨_, rfl, ?_, ?_⟩ <;> split_ifs <;> simp

lemma prompt_finish (h : Prompt p) (i : ℕ) : Prompt (finish workers now i p) := by
  intro u hu
  obtain ⟨j, hj⟩ := List.mem_iff_getElem?.mp hu
  have hlength : j < p.length := by
    obtain ⟨hlt, -⟩ := List.getElem?_eq_some_iff.mp hj
    rwa [finish_eq h, List.length_modify] at hlt
  obtain ⟨v, hv, hsubmitted, hstarted⟩ := getElem?_finish workers now h i
    (List.getElem?_eq_getElem hlength)
  have hsame : u = v := Option.some.inj (hj.symm.trans hv)
  rw [hsame, Job.prompt, hsubmitted, hstarted]
  exact h _ (List.getElem_mem hlength)

end WorkerPool
