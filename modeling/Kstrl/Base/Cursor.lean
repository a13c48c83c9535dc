import Mathlib.Order.Basic
import Mathlib.Order.Defs.LinearOrder

/-!
# Reading a feed by a cursor

A feed stamps what it is given with its clock, and a reader asks it for what is stamped at or after a
cursor.  Some of the rows are **open**: the reader still has to act on them.  `Tracks` says what the reader
knows of the rows that are open, once it has seen some stamps: a row is not behind any of them, or the reader
holds it.

With one stamp and nothing held this says that a cursor skips nothing, so the same three rules carry a whole
round, from the fetch to the new cursor.

* **`Tracks.fetch`**: what a fetch establishes.
* **`Tracks.step`**: what any later step keeps, as long as a row that becomes open is stamped by the clock.
* **`Tracks.advance`**: a seen stamp below everything that is still held is a cursor that skips nothing.
-/

namespace Cursor

variable {ρ α : Type*} [Preorder α]

/-- No open row is behind a stamp that was seen, unless it is held; and the stamps are of the past. -/
structure Tracks (now : α) (stamp : ρ → α) (isOpen : ρ → Prop) (seen : List α) (held : ρ → Prop) : Prop where
  past : ∀ s ∈ seen, s ≤ now
  ahead : ∀ r, isOpen r → (∀ s ∈ seen, s ≤ stamp r) ∨ held r

/-- A cursor that skips nothing. -/
abbrev SkipsNone (now : α) (stamp : ρ → α) (isOpen : ρ → Prop) (cursor : α) : Prop :=
  Tracks now stamp isOpen [cursor] fun _ => False

variable {now now' cursor : α} {stamp : ρ → α} {isOpen isOpen' : ρ → Prop} {seen : List α}
  {held held' : ρ → Prop}

lemma SkipsNone.le (h : SkipsNone now stamp isOpen cursor) : cursor ≤ now := h.past cursor List.mem_cons_self

lemma SkipsNone.le_stamp (h : SkipsNone now stamp isOpen cursor) {r : ρ} (hr : isOpen r) : cursor ≤ stamp r :=
  (h.ahead r hr).elim (fun h => h cursor List.mem_cons_self) False.elim

lemma SkipsNone.intro (hnow : cursor ≤ now) (h : ∀ r, isOpen r → cursor ≤ stamp r) :
    SkipsNone now stamp isOpen cursor where
  past s hs := by rwa [List.mem_singleton.mp hs]
  ahead r hr := Or.inl fun s hs => by rw [List.mem_singleton.mp hs]; exact h r hr

/-- **A fetch** since a cursor that skips nothing returns every open row. -/
theorem Tracks.fetch (hcursor : SkipsNone now stamp isOpen cursor) (hpast : ∀ s ∈ seen, s ≤ now)
    (hheld : ∀ r, isOpen r → cursor ≤ stamp r → held r) : Tracks now stamp isOpen seen held where
  past := hpast
  ahead r hr := Or.inr (hheld r hr (hcursor.le_stamp hr))

/-- **A step**: the clock goes on, what becomes open is stamped by it, and what is held stays held. -/
theorem Tracks.step (h : Tracks now stamp isOpen seen held) (hnow : now ≤ now')
    (hopen : ∀ r, isOpen' r → isOpen r ∨ now ≤ stamp r) (hheld : ∀ r, isOpen' r → held r → held' r) :
    Tracks now' stamp isOpen' seen held' where
  past s hs := (h.past s hs).trans hnow
  ahead r hr := by
    rcases hopen r hr with hold | hnew
    · exact (h.ahead r hold).imp_right (hheld r hr)
    · exact Or.inl fun s hs => (h.past s hs).trans hnew

/-- **An advance** to a stamp that was seen, below everything that is still held. -/
theorem Tracks.advance (h : Tracks now stamp isOpen seen held) (hcursor : cursor ∈ seen)
    (hbelow : ∀ r, isOpen r → held r → cursor ≤ stamp r) : SkipsNone now stamp isOpen cursor :=
  SkipsNone.intro (h.past cursor hcursor) fun r hr =>
    (h.ahead r hr).elim (fun h => h cursor hcursor) (hbelow r hr)

end Cursor
