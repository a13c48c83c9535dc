import Kstrl.Base.CrashProg

/-!
# One run of a crash program, write by write

`CrashProg.Triple` says what holds at every end of a program.  Here one run is followed: what a program
does with the faults it is given, part by part.

* **`through n fs`**: the next `n` writes are carried out.
* **`run_write_bind_stopped`, `run_writeQuiet_bind`**: where a run stops, and what is left then.
-/

namespace CrashProg
variable {σ ε α β : Type}

/-- Whether the next `n` writes are carried out. -/
def through (n : ℕ) (fs : List Fault) : Bool := (fs.take n).all (· = .pass)

section Single

variable {c : Prog σ ε α} {k : α → Prog σ ε β} {fs fs' : List Fault} {s t : σ}

lemma run_bind_done {a : α} (h : c fs s = (.done a, fs', t)) : (c >>= k) fs s = k a fs' t := by
  show Prog.bind c k fs s = _
  rw [Prog.bind, h]

lemma run_bind_raised {e : ε} (h : c fs s = (.raised e, fs', t)) :
    (c >>= k) fs s = (.raised e, fs', t) := by
  show Prog.bind c k fs s = _
  rw [Prog.bind, h]

lemma run_bind_crashed (h : c fs s = (.crashed, fs', t)) : (c >>= k) fs s = (.crashed, fs', t) := by
  show Prog.bind c k fs s = _
  rw [Prog.bind, h]

lemma run_require_pos {p : Prop} [Decidable p] (h : p) (e : ε) (k : Unit → Prog σ ε α) :
    (require p e >>= k) fs s = k () fs s := by
  rw [require_pos h]
  rfl

lemma run_require_neg {p : Prop} [Decidable p] (h : ¬ p) (e : ε) (k : Unit → Prog σ ε α) :
    (require p e >>= k) fs s = (.raised e, fs, s) := by
  rw [require_neg h]
  rfl

lemma run_read_bind (k : σ → Prog σ ε α) : (read >>= k) fs s = k s fs s := rfl

lemma run_catching_done {a : α} {h : ε → Prog σ ε α} (hc : c fs s = (.done a, fs', t)) :
    catching c h fs s = (.done a, fs', t) := by
  rw [catching, hc]

lemma run_catching_raised {e : ε} {h : ε → Prog σ ε α} (hc : c fs s = (.raised e, fs', t)) :
    catching c h fs s = h e fs' t := by
  rw [catching, hc]

lemma run_catching_crashed {h : ε → Prog σ ε α} (hc : c fs s = (.crashed, fs', t)) :
    catching c h fs s = (.crashed, fs', t) := by
  rw [catching, hc]

/-- A quiet write stops the program only by a crash. -/
lemma run_writeQuiet_bind (f : σ → σ) (k : Unit → Prog σ ε α) :
    (fs.head? = some .crash ∧ (writeQuiet f >>= k) fs s = (.crashed, fs.tail, s)) ∨
      (fs.head? ≠ some .crash ∧ ∃ t, (t = s ∨ t = f s) ∧ (writeQuiet f >>= k) fs s = k () fs.tail t) := by
  match fs with
  | [] => exact Or.inr ⟨by simp, _, Or.inr rfl, rfl⟩
  | .pass :: _ => exact Or.inr ⟨by simp, _, Or.inr rfl, rfl⟩
  | .error :: _ => exact Or.inr ⟨by simp, _, Or.inl rfl, rfl⟩
  | .crash :: _ => exact Or.inl ⟨rfl, rfl⟩

lemma through_succ (n : ℕ) (fs : List Fault) : through (n + 1) fs = (through 1 fs && through n fs.tail) := by
  cases fs with
  | nil => simp [through]
  | cons f fs => simp [through]

lemma run_write (f : σ → σ) (e : ε) (h : through 1 fs = true) : write f e fs s = (.done (), fs.tail, f s) := by
  match fs with
  | [] => rfl
  | .pass :: _ => rfl

/-- A write that is not carried out. -/
lemma run_write_stopped (f : σ → σ) (e : ε) (h : through 1 fs = false) :
    write f e fs s = (.raised e, fs.tail, s) ∨ write f e fs s = (.crashed, fs.tail, s) := by
  match fs with
  | .error :: _ => exact Or.inl rfl
  | .crash :: _ => exact Or.inr rfl

/-- A program that stops at its first write. -/
lemma run_write_bind_stopped (f : σ → σ) (e : ε) (k : Unit → Prog σ ε α) (h : through 1 fs = false) :
    (write f e >>= k) fs s = (.raised e, fs.tail, s) ∨ (write f e >>= k) fs s = (.crashed, fs.tail, s) :=
  (run_write_stopped f e h).imp run_bind_raised run_bind_crashed

end Single
end CrashProg
