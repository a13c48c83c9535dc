import Mathlib.Algebra.BigOperators.Group.List.Basic
import Mathlib.Data.List.Basic
import Mathlib.Logic.Basic
import Mathlib.Tactic.Common
import Mathlib.Algebra.GroupWithZero.Nat

/-!
# Programs that a crash can cut off between two writes

A program over a store `σ` reads the store freely and changes it only by `write`.  The
environment decides, write by write, what happens: the write is carried out, it fails (and the
program sees an error it may catch), or the process dies in front of it.  That decision is a
list of `Fault`s consumed from the left; an exhausted list means that no further write fails.
So a program stays a function, every crash point is one particular list, and a statement about
all crash points is a statement about all lists.

* **`Prog`**: the programs, a monad with exceptions; a crash is no exception and nothing
  catches it.
* **`Triple P c Q E C`**: from a store with `P`, the program either finishes with `Q`, or
  raises with `E`, or is cut off with `C`.  `C` is what holds at every crash point, so it plays
  the part of the crash condition of crash Hoare logic.
* **`Leaves c s t`**: some choice of faults makes `c`, started in `s`, leave the store `t`.
-/

namespace CrashProg

/-- What the environment does with one write. -/
inductive Fault where
  /-- the write is carried out -/
  | pass
  /-- the write fails and the program gets an error -/
  | error
  /-- the process dies in front of the write -/
  | crash
  deriving DecidableEq, Repr

/-- How a program came to an end. -/
inductive Exit (ε α : Type) where
  | done (a : α)
  | raised (e : ε)
  | crashed
  deriving Repr

/-- A program over the store `σ`. -/
def Prog (σ ε α : Type) : Type :=
  List Fault → σ → Exit ε α × List Fault × σ

variable {σ ε α β : Type}

/-- End normally, the store untouched. -/
def Prog.pure (a : α) : Prog σ ε α := fun fs s => (.done a, fs, s)

/-- Run `c`, then the program its result names; an error or a crash of `c` ends the whole. -/
def Prog.bind (c : Prog σ ε α) (k : α → Prog σ ε β) : Prog σ ε β := fun fs s =>
  match c fs s with
  | (.done a, fs', s') => k a fs' s'
  | (.raised e, fs', s') => (.raised e, fs', s')
  | (.crashed, fs', s') => (.crashed, fs', s')

instance : Monad (Prog σ ε) where
  pure := Prog.pure
  bind := Prog.bind

/-- The store as it is now. -/
def read : Prog σ ε σ := fun fs s => (.done s, fs, s)

/-- Stop with an error. -/
def raise (e : ε) : Prog σ ε α := fun fs s => (.raised e, fs, s)

/-- Go on only if `p` holds. -/
def require (p : Prop) [Decidable p] (e : ε) : Prog σ ε Unit :=
  if p then Prog.pure () else raise e

/-- One write: `f` applied to the store, or the error `e`, or the end of the process. -/
def write (f : σ → σ) (e : ε) : Prog σ ε Unit := fun fs s =>
  match fs with
  | [] => (.done (), [], f s)
  | .pass :: fs' => (.done (), fs', f s)
  | .error :: fs' => (.raised e, fs', s)
  | .crash :: fs' => (.crashed, fs', s)

/-- One write whose failure the program swallows. -/
def writeQuiet (f : σ → σ) : Prog σ ε Unit := fun fs s =>
  match fs with
  | [] => (.done (), [], f s)
  | .pass :: fs' => (.done (), fs', f s)
  | .error :: fs' => (.done (), fs', s)
  | .crash :: fs' => (.crashed, fs', s)

/-- Run `c` and hand an error of it to `h`.  A crash passes through. -/
def catching (c : Prog σ ε α) (h : ε → Prog σ ε α) : Prog σ ε α := fun fs s =>
  match c fs s with
  | (.raised e, fs', s') => h e fs' s'
  | r => r

lemma require_pos {p : Prop} [Decidable p] (h : p) (e : ε) :
    (require p e : Prog σ ε Unit) = Pure.pure () := if_pos h

lemma require_neg {p : Prop} [Decidable p] (h : ¬ p) (e : ε) :
    (require p e : Prog σ ε Unit) = raise e := if_neg h

/-! ## Running -/

/-- `c` can leave the store `t` when it is started in `s`: at its end, at an error, or because
    it was cut off. -/
def Leaves (c : Prog σ ε α) (s t : σ) : Prop := ∃ fs, (c fs s).2.2 = t

/-- The store after an undisturbed run. -/
def after (c : Prog σ ε α) (s : σ) : σ := (c [] s).2.2

lemma leaves_after (c : Prog σ ε α) (s : σ) : Leaves c s (after c s) := ⟨[], rfl⟩

lemma leaves_pure {a : α} {s t : σ} :
    Leaves (Pure.pure a : Prog σ ε α) s t ↔ t = s :=
  ⟨fun ⟨_, h⟩ => h.symm, fun h => ⟨[], h.symm⟩⟩

lemma leaves_raise {e : ε} {s t : σ} : Leaves (raise e : Prog σ ε α) s t ↔ t = s :=
  ⟨fun ⟨_, h⟩ => h.symm, fun h => ⟨[], h.symm⟩⟩

lemma leaves_read_bind {k : σ → Prog σ ε β} {s t : σ} :
    Leaves (read >>= k) s t ↔ Leaves (k s) s t := Iff.rfl

/-- Bind is associative. -/
lemma bind_bind {γ : Type} (c : Prog σ ε α) (k : α → Prog σ ε β) (l : β → Prog σ ε γ) :
    (c >>= k) >>= l = c >>= fun a => k a >>= l := by
  funext fs s
  show Prog.bind (Prog.bind c k) l fs s = Prog.bind c (fun a => Prog.bind (k a) l) fs s
  unfold Prog.bind
  rcases c fs s with ⟨_ | _ | _, fs', t⟩ <;> rfl

lemma leaves_pure_bind {a : α} {k : α → Prog σ ε β} {s t : σ} :
    Leaves ((Pure.pure a : Prog σ ε α) >>= k) s t ↔ Leaves (k a) s t := Iff.rfl

/-- A program behind a check leaves the store alone when the check fails. -/
lemma leaves_require_bind {p : Prop} [Decidable p] {e : ε} {k : Unit → Prog σ ε β} {s t : σ} :
    Leaves (require p e >>= k) s t ↔ (p ∧ Leaves (k ()) s t) ∨ (¬ p ∧ t = s) := by
  by_cases hp : p
  · rw [require_pos hp]
    exact ⟨fun h => Or.inl ⟨hp, h⟩, fun h => (h.resolve_right fun hn => hn.1 hp).2⟩
  · rw [require_neg hp]
    exact ⟨fun ⟨_, h⟩ => Or.inr ⟨hp, h.symm⟩,
      fun h => ⟨[], (h.resolve_left fun hn => hp hn.1).2.symm⟩⟩

/-- A write leaves the store alone, or is carried out and followed by the rest. -/
lemma leaves_write_bind {f : σ → σ} {e : ε} {k : Unit → Prog σ ε β} {s t : σ}
    (h : Leaves (write f e >>= k) s t) : t = s ∨ Leaves (k ()) (f s) t := by
  obtain ⟨fs, hfs⟩ := h
  match fs, hfs with
  | [], hfs => exact Or.inr ⟨[], hfs⟩
  | .pass :: fs, hfs => exact Or.inr ⟨fs, hfs⟩
  | .error :: _, hfs => exact Or.inl hfs.symm
  | .crash :: _, hfs => exact Or.inl hfs.symm

lemma leaves_ite {p : Prop} [Decidable p] {c d : Prog σ ε α} {s t : σ} :
    Leaves (if p then c else d) s t ↔ (p ∧ Leaves c s t) ∨ (¬ p ∧ Leaves d s t) := by
  by_cases hp : p <;> simp [hp]

/-- A second part that never writes leaves what the first one left. -/
lemma leaves_bind_of_reads {c : Prog σ ε α} {k : α → Prog σ ε β} {s t : σ}
    (hk : ∀ a u v, Leaves (k a) u v → v = u) (h : Leaves (c >>= k) s t) : Leaves c s t := by
  obtain ⟨fs, hfs⟩ := h
  have hbind : (c >>= k) fs s = match c fs s with
      | (.done a, fs', s') => k a fs' s'
      | (.raised e, fs', s') => (.raised e, fs', s')
      | (.crashed, fs', s') => (.crashed, fs', s') := rfl
  refine ⟨fs, ?_⟩
  rw [hbind] at hfs
  revert hfs
  rcases c fs s with ⟨a | _ | _, fs', u⟩
  · exact fun hfs => hfs ▸ (hk a u _ ⟨fs', rfl⟩).symm
  · exact id
  · exact id

/-- What is made of the result changes nothing on the store. -/
lemma leaves_map {c : Prog σ ε α} {f : α → β} {s t : σ} :
    Leaves (c >>= fun a => (Pure.pure (f a) : Prog σ ε β)) s t ↔ Leaves c s t := by
  have h : ∀ fs, ((c >>= fun a => (Pure.pure (f a) : Prog σ ε β)) fs s).2.2 = (c fs s).2.2 := by
    intro fs
    show (Prog.bind c (fun a => Prog.pure (f a)) fs s).2.2 = _
    unfold Prog.bind
    rcases c fs s with ⟨_ | _ | _, fs', t⟩ <;> rfl
  simp only [Leaves, h]

/-- Forgetting the result changes nothing on the store. -/
lemma leaves_map_unit {c : Prog σ ε α} {s t : σ} :
    Leaves (c >>= fun _ => (Pure.pure () : Prog σ ε Unit)) s t ↔ Leaves c s t := leaves_map

/-! ## Undisturbed runs -/

section After

variable {s : σ}

@[simp] lemma after_pure (a : α) : after (Pure.pure a : Prog σ ε α) s = s := rfl

@[simp] lemma after_raise (e : ε) : after (raise e : Prog σ ε α) s = s := rfl

@[simp] lemma after_read_bind (k : σ → Prog σ ε β) : after (read >>= k) s = after (k s) s := rfl

@[simp] lemma after_write_bind (f : σ → σ) (e : ε) (k : Unit → Prog σ ε β) :
    after (write f e >>= k) s = after (k ()) (f s) := rfl

@[simp] lemma after_writeQuiet_bind (f : σ → σ) (k : Unit → Prog σ ε β) :
    after (writeQuiet f >>= k) s = after (k ()) (f s) := rfl

@[simp] lemma after_map (c : Prog σ ε α) (f : α → β) :
    after (c >>= fun a => (Pure.pure (f a) : Prog σ ε β)) s = after c s := by
  show (Prog.bind c (fun a => Prog.pure (f a)) [] s).2.2 = _
  unfold after Prog.bind
  rcases c [] s with ⟨_ | _ | _, fs', t⟩ <;> rfl

lemma after_require_bind {p : Prop} [Decidable p] {e : ε} {k : Unit → Prog σ ε β} :
    after (require p e >>= k) s = if p then after (k ()) s else s := by
  by_cases hp : p
  · rw [require_pos hp, if_pos hp]
    rfl
  · rw [require_neg hp, if_neg hp]
    rfl

/-- Past a part that ends normally, the rest goes on from the store it left. -/
lemma after_bind_of_done {c : Prog σ ε α} {k : α → Prog σ ε β} {a : α} {t : σ}
    (h : c [] s = (.done a, [], t)) : after (c >>= k) s = after (k a) t := by
  have hbind : (c >>= k) [] s = match c [] s with
      | (.done a, fs', s') => k a fs' s'
      | (.raised e, fs', s') => (.raised e, fs', s')
      | (.crashed, fs', s') => (.crashed, fs', s') := rfl
  rw [after, hbind, h]
  rfl

/-- A loop of writes, undisturbed. -/
lemma foldlM_write_undisturbed {γ : Type} (f : γ → σ → σ) (e : γ → ε) (xs : List γ) :
    (xs.foldlM (fun (_ : Unit) x => write (f x) (e x)) ()) [] s
      = (.done (), [], xs.foldl (fun s x => f x s) s) := by
  induction xs generalizing s with
  | nil => rfl
  | cons x xs ih =>
      rw [List.foldlM_cons]
      exact ih

end After

/-! ## Traces -/

/-- The run of `c` in which the process dies in front of write `n + 1`, if `c` has so many. -/
def cutRun (n : ℕ) (c : Prog σ ε α) (s : σ) : Exit ε α × List Fault × σ :=
  c (List.replicate n .pass ++ [.crash]) s

/-- The store that run leaves. -/
def cutAfter (n : ℕ) (c : Prog σ ε α) (s : σ) : σ := (cutRun n c s).2.2

lemma leaves_cutAfter (n : ℕ) (c : Prog σ ε α) (s : σ) : Leaves c s (cutAfter n c s) := ⟨_, rfl⟩

/-- Undisturbed, `c` takes `s` through the stores `ws`, one a write, and returns `a`. -/
structure Trace (c : Prog σ ε α) (s : σ) (ws : List σ) (a : α) : Prop where
  undisturbed : c [] s = (.done a, [], ws.getLastD s)
  whole : ∀ fs, c (List.replicate ws.length .pass ++ fs) s = (.done a, fs, ws.getLastD s)
  cut : ∀ n < ws.length, ∀ fs,
    c (List.replicate n .pass ++ .crash :: fs) s = (.crashed, fs, (ws.take n).getLastD s)

namespace Trace

variable {c : Prog σ ε α} {s : σ} {ws : List σ} {a : α}

lemma after (h : Trace c s ws a) : after c s = ws.getLastD s := by
  rw [CrashProg.after, h.undisturbed]

/-- **Every crash point** of a program with a trace. -/
lemma cutAfter (h : Trace c s ws a) (n : ℕ) : cutAfter n c s = (ws.take n).getLastD s := by
  unfold CrashProg.cutAfter cutRun
  by_cases hn : n < ws.length
  · rw [h.cut n hn]
  · obtain ⟨k, rfl⟩ : ∃ k, n = ws.length + k := ⟨n - ws.length, by omega⟩
    rw [List.replicate_add, List.append_assoc, h.whole, List.take_of_length_le (by omega)]

lemma pure (a : α) (s : σ) : Trace (Pure.pure a : Prog σ ε α) s [] a :=
  ⟨rfl, fun _ => rfl, fun n hn => absurd hn (by simp)⟩

lemma read (s : σ) : Trace (CrashProg.read : Prog σ ε σ) s [] s :=
  ⟨rfl, fun _ => rfl, fun n hn => absurd hn (by simp)⟩

lemma require {p : Prop} [Decidable p] (h : p) (e : ε) (s : σ) :
    Trace (CrashProg.require p e : Prog σ ε Unit) s [] () := by
  unfold CrashProg.require
  rw [if_pos h]
  exact Trace.pure () s

lemma write (f : σ → σ) (e : ε) (s : σ) : Trace (CrashProg.write f e) s [f s] () :=
  ⟨rfl, fun _ => rfl, fun n hn fs => by
    obtain rfl : n = 0 := by simpa using hn
    rfl⟩

lemma writeQuiet (f : σ → σ) (s : σ) :
    Trace (CrashProg.writeQuiet f : Prog σ ε Unit) s [f s] () :=
  ⟨rfl, fun _ => rfl, fun n hn fs => by
    obtain rfl : n = 0 := by simpa using hn
    rfl⟩

lemma getLastD_append (us ws : List σ) (s : σ) :
    (us ++ ws).getLastD s = ws.getLastD (us.getLastD s) := by
  induction us generalizing s with
  | nil => rfl
  | cons u us ih =>
      rw [List.cons_append, List.getLastD_cons, List.getLastD_cons, ih]

lemma bind {k : α → Prog σ ε β} {us : List σ} {b : β} (hc : Trace c s ws a)
    (hk : Trace (k a) (ws.getLastD s) us b) : Trace (c >>= k) s (ws ++ us) b := by
  have hbind : ∀ fs, (c >>= k) fs s = match c fs s with
      | (.done a, fs', s') => k a fs' s'
      | (.raised e, fs', s') => (.raised e, fs', s')
      | (.crashed, fs', s') => (.crashed, fs', s') := fun _ => rfl
  refine ⟨?_, fun fs => ?_, fun n hn fs => ?_⟩
  · rw [hbind, hc.undisturbed, getLastD_append]
    exact hk.undisturbed
  · rw [hbind, List.length_append, List.replicate_add, List.append_assoc, hc.whole,
      getLastD_append]
    exact hk.whole fs
  · rw [hbind]
    by_cases hlt : n < ws.length
    · rw [hc.cut n hlt, List.take_append_of_le_length (by omega)]
    · -- the cut is in the second part
      obtain ⟨j, rfl⟩ : ∃ j, n = ws.length + j := ⟨n - ws.length, by omega⟩
      rw [List.replicate_add, List.append_assoc, hc.whole, List.take_length_add_append,
        getLastD_append]
      exact hk.cut j (by rw [List.length_append] at hn; omega) fs

/-- **A cut behind a part with a trace** is in that part, or in the rest. -/
lemma cut_bind (h : Trace c s ws a) (k : α → Prog σ ε β) (n : ℕ) :
    (n < ws.length ∧ cutRun n (c >>= k) s = (.crashed, [], (ws.take n).getLastD s)) ∨
      ∃ m, n = ws.length + m ∧ cutRun n (c >>= k) s = cutRun m (k a) (ws.getLastD s) := by
  have hbind : ∀ fs, (c >>= k) fs s = match c fs s with
      | (.done a, fs', s') => k a fs' s'
      | (.raised e, fs', s') => (.raised e, fs', s')
      | (.crashed, fs', s') => (.crashed, fs', s') := fun _ => rfl
  unfold cutRun
  by_cases hn : n < ws.length
  · exact Or.inl ⟨hn, by rw [hbind, h.cut n hn]⟩
  · obtain ⟨m, rfl⟩ : ∃ m, n = ws.length + m := ⟨n - ws.length, by omega⟩
    refine Or.inr ⟨m, rfl, ?_⟩
    rw [hbind, List.replicate_add, List.append_assoc, h.whole]

end Trace

section CutRun

variable {s : σ} (n : ℕ)

lemma cutRun_pure_bind (a : α) (k : α → Prog σ ε β) :
    cutRun n ((Pure.pure a : Prog σ ε α) >>= k) s = cutRun n (k a) s := rfl

lemma cutRun_read_bind (k : σ → Prog σ ε β) :
    cutRun n (CrashProg.read >>= k) s = cutRun n (k s) s := rfl

/-- What is made of the result changes neither the store of a cut run nor its error. -/
lemma cutRun_map (c : Prog σ ε α) (f : α → β) :
    (cutRun n (c >>= fun a => (Pure.pure (f a) : Prog σ ε β)) s).2 = (cutRun n c s).2 ∧
      ∀ e, (cutRun n (c >>= fun a => (Pure.pure (f a) : Prog σ ε β)) s).1 = .raised e ↔
        (cutRun n c s).1 = .raised e := by
  unfold cutRun
  generalize List.replicate n Fault.pass ++ [Fault.crash] = fs
  show (Prog.bind c (fun a => Prog.pure (f a)) fs s).2 = _ ∧
    ∀ e, (Prog.bind c (fun a => Prog.pure (f a)) fs s).1 = .raised e ↔ _
  unfold Prog.bind
  rcases c fs s with ⟨_ | _ | _, fs', t⟩
  · exact ⟨rfl, fun e => iff_of_false (fun h => nomatch h) fun h => nomatch h⟩
  · exact ⟨rfl, fun e => by simp⟩
  · exact ⟨rfl, fun e => iff_of_false (fun h => nomatch h) fun h => nomatch h⟩

lemma bind_pure_self (c : Prog σ ε α) : c >>= Pure.pure = c := by
  funext fs s
  show Prog.bind c Prog.pure fs s = c fs s
  unfold Prog.bind
  rcases c fs s with ⟨_ | _ | _, fs', t⟩ <;> rfl

end CutRun

/-! ### Cuts of a loop -/

/-- Where a loop is cut after `n` writes, when the turn of `x` makes `cost x` of them: the turn, and
    the writes made in it. -/
def cutIn {γ : Type} (cost : γ → ℕ) : ℕ → List γ → Option (γ × ℕ)
  | _, [] => none
  | n, x :: xs => if n < cost x then some (x, n) else cutIn cost (n - cost x) xs

/-- No write of the loop is left out: the cut comes after it. -/
lemma cutIn_append {γ : Type} (cost : γ → ℕ) (xs ys : List γ) (n : ℕ) :
    cutIn cost n (xs ++ ys) = match cutIn cost n xs with
      | some cut => some cut
      | none => cutIn cost (n - (xs.map cost).sum) ys := by
  induction xs generalizing n with
  | nil => simp [cutIn]
  | cons x xs ih =>
      rw [List.cons_append, cutIn, cutIn]
      split_ifs with hn
      · rfl
      · rw [ih, List.map_cons, List.sum_cons, Nat.sub_sub]

lemma cutIn_mem {γ : Type} {cost : γ → ℕ} {xs : List γ} {n j : ℕ} {x : γ}
    (h : cutIn cost n xs = some (x, j)) : x ∈ xs := by
  induction xs generalizing n with
  | nil => cases h
  | cons y ys ih =>
      rw [cutIn] at h
      split_ifs at h
      · cases h
        exact List.mem_cons_self
      · exact List.mem_cons_of_mem _ (ih h)

/-- **A cut of a loop.**  `I` holds in front of each turn, `C x j` of a cut in the turn of `x` after `j`
    writes.  Runs that end with an error are left aside. -/
theorem cut_foldlM {γ : Type} {f : β → γ → Prog σ ε β} {cost : γ → ℕ} {I : List γ → σ → Prop}
    {C : γ → ℕ → σ → Prop}
    (turn : ∀ x xs b s (k : β → Prog σ ε α) n, I (x :: xs) s →
      (∀ e, (cutRun n (f b x >>= k) s).1 ≠ .raised e) →
      (n < cost x ∧ ∃ t, cutRun n (f b x >>= k) s = (.crashed, [], t) ∧ C x n t) ∨
        ∃ m b' t, n = cost x + m ∧ cutRun n (f b x >>= k) s = cutRun m (k b') t ∧ I xs t)
    (xs : List γ) (b : β) (s : σ) (k : β → Prog σ ε α) (n : ℕ) (hI : I xs s)
    (hraised : ∀ e, (cutRun n (xs.foldlM f b >>= k) s).1 ≠ .raised e) :
    (∃ x j t, cutIn cost n xs = some (x, j) ∧
        cutRun n (xs.foldlM f b >>= k) s = (.crashed, [], t) ∧ C x j t) ∨
      cutIn cost n xs = none ∧ ∃ m b' t, n = (xs.map cost).sum + m ∧
        cutRun n (xs.foldlM f b >>= k) s = cutRun m (k b') t ∧ I [] t := by
  induction xs generalizing b s n with
  | nil => exact Or.inr ⟨rfl, n, b, s, by simp, rfl, hI⟩
  | cons x xs ih =>
      rw [List.foldlM_cons, bind_bind] at hraised ⊢
      rcases turn x xs b s _ n hI hraised with ⟨hn, t, hrun, hC⟩ | ⟨m, b', t, rfl, hrun, hI'⟩
      · exact Or.inl ⟨x, n, t, by rw [cutIn, if_pos hn], hrun, hC⟩
      · have hcut : cutIn cost (cost x + m) (x :: xs) = cutIn cost m xs := by
          rw [cutIn, if_neg (by omega), Nat.add_sub_cancel_left]
        rw [hcut, hrun]
        rw [hrun] at hraised
        rcases ih b' t m hI' hraised with hcrash | ⟨hnone, j, b'', u, rfl, hrest⟩
        · exact Or.inl hcrash
        · exact Or.inr ⟨hnone, j, b'', u, by simp [Nat.add_assoc], hrest⟩

/-! ### Scripts -/

/-- Writes one after another, each with the error it raises when it fails. -/
def script : List ((σ → σ) × ε) → Prog σ ε Unit
  | [] => Pure.pure ()
  | step :: steps => write step.1 step.2 >>= fun _ => script steps

/-- The store after the writes of a script. -/
def applied (steps : List ((σ → σ) × ε)) (s : σ) : σ := steps.foldl (fun t step => step.1 t) s

lemma script_singleton (step : (σ → σ) × ε) : script [step] = write step.1 step.2 := bind_pure_self _

lemma script_append (steps more : List ((σ → σ) × ε)) :
    (script (steps ++ more) : Prog σ ε Unit) = script steps >>= fun _ => script more := by
  induction steps with
  | nil => rfl
  | cons step steps ih => rw [List.cons_append, script, script, bind_bind, ih]

lemma applied_append (steps more : List ((σ → σ) × ε)) (s : σ) :
    applied (steps ++ more) s = applied more (applied steps s) := List.foldl_append ..

/-- What every write of a script keeps is kept. -/
lemma applied_keeps {β : Type*} (get : σ → β) {steps : List ((σ → σ) × ε)}
    (h : ∀ step ∈ steps, ∀ s, get (step.1 s) = get s) (s : σ) : get (applied steps s) = get s := by
  induction steps generalizing s with
  | nil => rfl
  | cons step steps ih =>
      have hrest := ih (fun e he => h e (List.mem_cons_of_mem _ he)) (step.1 s)
      exact hrest.trans (h step (List.mem_cons_self ..) s)

/-- How a run of a script ends: with every write carried out, or at the first one that is not. -/
theorem script_cases (steps : List ((σ → σ) × ε)) (fs : List Fault) (s : σ) :
    script steps fs s = (.done (), fs.drop steps.length, applied steps s) ∨
      ∃ n step, steps[n]? = some step ∧ (∀ m < n, fs[m]? = some .pass) ∧
        (fs[n]? = some .error ∧ script steps fs s = (.raised step.2, fs.drop (n + 1), applied (steps.take n) s) ∨
          fs[n]? = some .crash ∧ script steps fs s = (.crashed, fs.drop (n + 1), applied (steps.take n) s)) := by
  induction steps generalizing fs s with
  | nil => exact Or.inl rfl
  | cons step steps ih =>
      match fs with
      | [] =>
          rcases ih [] (step.1 s) with hdone | ⟨n, _, _, _, ⟨h, _⟩ | ⟨h, _⟩⟩
          · exact Or.inl (by rw [List.drop_nil] at hdone ⊢; exact hdone)
          · simp at h
          · simp at h
      | .pass :: fs =>
          rcases ih fs (step.1 s) with hdone | ⟨n, last, hlast, hbefore, hend⟩
          · exact Or.inl hdone
          · refine Or.inr ⟨n + 1, last, hlast, fun m hm => ?_, hend⟩
            cases m with
            | zero => rfl
            | succ m => exact hbefore m (by omega)
      | .error :: fs => exact Or.inr ⟨0, step, rfl, fun m hm => absurd hm (by omega), Or.inl ⟨rfl, rfl⟩⟩
      | .crash :: fs => exact Or.inr ⟨0, step, rfl, fun m hm => absurd hm (by omega), Or.inr ⟨rfl, rfl⟩⟩

/-- A script of which one write fails. -/
lemma script_error {steps : List ((σ → σ) × ε)} {n : ℕ} {step : (σ → σ) × ε} (h : steps[n]? = some step) (s : σ) :
    script steps (List.replicate n .pass ++ [.error]) s = (.raised step.2, [], applied (steps.take n) s) := by
  induction steps generalizing n s with
  | nil => simp at h
  | cons first steps ih =>
      cases n with
      | zero =>
          obtain rfl := Option.some.inj h
          rfl
      | succ n => exact ih h (first.1 s)

/-- A script that ends before the write that would fail. -/
lemma script_before_error {steps : List ((σ → σ) × ε)} {n : ℕ} (h : steps.length ≤ n) (s : σ) :
    script steps (List.replicate n .pass ++ [.error]) s =
      (.done (), List.replicate (n - steps.length) .pass ++ [.error], applied steps s) := by
  induction steps generalizing n s with
  | nil => rfl
  | cons first steps ih =>
      obtain ⟨n, rfl⟩ : ∃ m, n = m + 1 := ⟨n - 1, by simp only [List.length_cons] at h; omega⟩
      rw [List.length_cons, Nat.add_sub_add_right]
      exact ih (by simpa using h) (first.1 s)

/-! ## Triples -/

/-- **Crash triples.**  `Q` is the postcondition of a normal end, `E` of an error, `C` of a
    crash. -/
def Triple (P : σ → Prop) (c : Prog σ ε α) (Q : α → σ → Prop) (E : ε → σ → Prop)
    (C : σ → Prop) : Prop :=
  ∀ fs s, P s →
    match c fs s with
    | (.done a, _, t) => Q a t
    | (.raised e, _, t) => E e t
    | (.crashed, _, t) => C t

section Rules

variable {P P' : σ → Prop} {Q Q' : α → σ → Prop} {E E' : ε → σ → Prop} {C C' : σ → Prop}

theorem Triple.conseq {c : Prog σ ε α} (h : Triple P c Q E C) (hP : ∀ s, P' s → P s)
    (hQ : ∀ a s, Q a s → Q' a s) (hE : ∀ e s, E e s → E' e s) (hC : ∀ s, C s → C' s) :
    Triple P' c Q' E' C' := by
  intro fs s hs
  have h' := h fs s (hP s hs)
  revert h'
  rcases c fs s with ⟨_ | _ | _, fs', t⟩
  · exact hQ _ _
  · exact hE _ _
  · exact hC _

/-- A part of the precondition that does not speak of the store. -/
theorem Triple.given {c : Prog σ ε α} {p : Prop} (h : p → Triple P c Q E C) :
    Triple (fun s => p ∧ P s) c Q E C := fun fs s hs => h hs.1 fs s hs.2

/-- Two triples of one program hold together. -/
theorem Triple.and {c : Prog σ ε α} (h : Triple P c Q E C) (h' : Triple P c Q' E' C') :
    Triple P c (fun a s => Q a s ∧ Q' a s) (fun e s => E e s ∧ E' e s) (fun s => C s ∧ C' s) := by
  intro fs s hs
  have h := h fs s hs
  have h' := h' fs s hs
  revert h h'
  rcases c fs s with ⟨_ | _ | _, fs', t⟩ <;> exact fun h h' => ⟨h, h'⟩

theorem Triple.pure {a : α} (h : ∀ s, P s → Q a s) : Triple P (Pure.pure a : Prog σ ε α) Q E C :=
  fun _ s hs => h s hs

theorem Triple.bind {c : Prog σ ε α} {k : α → Prog σ ε β} {R : β → σ → Prop}
    (hc : Triple P c Q E C) (hk : ∀ a, Triple (Q a) (k a) R E C) : Triple P (c >>= k) R E C := by
  intro fs s hs
  have h := hc fs s hs
  show match Prog.bind c k fs s with
    | (.done a, _, t) => R a t
    | (.raised e, _, t) => E e t
    | (.crashed, _, t) => C t
  unfold Prog.bind
  revert h
  rcases c fs s with ⟨a | e | _, fs', t⟩
  · exact fun h => hk a fs' t h
  · exact id
  · exact id

theorem Triple.read {Q : σ → σ → Prop} (h : ∀ s, P s → Q s s) :
    Triple P (CrashProg.read : Prog σ ε σ) Q E C :=
  fun _ s hs => h s hs

theorem Triple.raise {e : ε} (h : ∀ s, P s → E e s) :
    Triple P (CrashProg.raise e : Prog σ ε α) Q E C :=
  fun _ s hs => h s hs

theorem Triple.require {p : Prop} [Decidable p] {e : ε} (hE : ¬ p → ∀ s, P s → E e s) :
    Triple P (CrashProg.require p e : Prog σ ε Unit) (fun _ s => P s ∧ p) E C := by
  intro fs s hs
  unfold CrashProg.require
  by_cases hp : p
  · rw [if_pos hp]; exact ⟨hs, hp⟩
  · rw [if_neg hp]; exact hE hp s hs

theorem Triple.write {f : σ → σ} {e : ε} {Q : Unit → σ → Prop} (hQ : ∀ s, P s → Q () (f s))
    (hE : ∀ s, P s → E e s) (hC : ∀ s, P s → C s) : Triple P (CrashProg.write f e) Q E C := by
  intro fs s hs
  match fs with
  | [] => exact hQ s hs
  | .pass :: _ => exact hQ s hs
  | .error :: _ => exact hE s hs
  | .crash :: _ => exact hC s hs

theorem Triple.writeQuiet {f : σ → σ} {Q : Unit → σ → Prop} (hQ : ∀ s, P s → Q () (f s))
    (hS : ∀ s, P s → Q () s) (hC : ∀ s, P s → C s) :
    Triple P (CrashProg.writeQuiet f : Prog σ ε Unit) Q E C := by
  intro fs s hs
  match fs with
  | [] => exact hQ s hs
  | .pass :: _ => exact hQ s hs
  | .error :: _ => exact hS s hs
  | .crash :: _ => exact hC s hs

theorem Triple.catching {c : Prog σ ε α} {h : ε → Prog σ ε α} {M : ε → σ → Prop}
    (hc : Triple P c Q M C) (hh : ∀ e, Triple (M e) (h e) Q E C) :
    Triple P (CrashProg.catching c h) Q E C := by
  intro fs s hs
  have h' := hc fs s hs
  unfold CrashProg.catching
  revert h'
  rcases c fs s with ⟨a | e | _, fs', t⟩
  · exact id
  · exact fun h' => hh e fs' t h'
  · exact id

theorem Triple.ite {p : Prop} [Decidable p] {c d : Prog σ ε α}
    (hc : p → Triple P c Q E C) (hd : ¬ p → Triple P d Q E C) :
    Triple P (if p then c else d) Q E C := by
  by_cases hp : p
  · rw [if_pos hp]; exact hc hp
  · rw [if_neg hp]; exact hd hp

/-- A loop over a list, with an invariant that speaks of the part still to come. -/
theorem Triple.foldlM {γ : Type} {f : β → γ → Prog σ ε β} {I : List γ → β → σ → Prop}
    (step : ∀ x xs b, Triple (I (x :: xs) b) (f b x) (fun b' s => I xs b' s) E C) :
    ∀ (xs : List γ) (b : β), Triple (I xs b) (xs.foldlM f b) (fun b' s => I [] b' s) E C
  | [], _ => Triple.pure fun _ hs => hs
  | x :: xs, b => by
      rw [List.foldlM_cons]
      exact Triple.bind (step x xs b) fun b' => Triple.foldlM step xs b'

/-- What holds of every store a program can leave holds at each of its ends. -/
theorem Triple.of_leaves {c : Prog σ ε α} {R : σ → Prop}
    (h : ∀ s t, P s → Leaves c s t → R t) : Triple P c (fun _ => R) (fun _ => R) R := by
  intro fs s hs
  have h' := h s _ hs ⟨fs, rfl⟩
  revert h'
  rcases c fs s with ⟨_ | _ | _, fs', t⟩ <;> exact id

/-- Whatever a program can leave behind satisfies the matching postcondition. -/
theorem Triple.leaves {c : Prog σ ε α} {R : σ → Prop}
    (h : Triple P c (fun _ => R) (fun _ => R) R) {s t : σ} (hs : P s) (hl : Leaves c s t) :
    R t := by
  obtain ⟨fs, rfl⟩ := hl
  have h' := h fs s hs
  revert h'
  rcases c fs s with ⟨_ | _ | _, fs', t⟩ <;> exact id

end Rules

end CrashProg
