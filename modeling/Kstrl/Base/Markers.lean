import Mathlib.Data.List.Infix
import Mathlib.Tactic.Common

/-!
# Pieces between markers

A sequence of pieces written one after another, each behind a marker of its own, without their lengths.  A
marker begins with a separator that is nowhere else in it; a piece may hold anything.

* **`join_eq`**: two sequences with the same markers that are written alike are equal, unless a marker stands in
  its own piece or in the piece before it.
-/

namespace Markers

variable {α : Type*}

/-- A text up to the first separator. -/
lemma append_sep_inj {sep : α} {x y u v : List α} (hx : sep ∉ x) (hy : sep ∉ y) (h : x ++ sep :: u = y ++ sep :: v) :
    x = y ∧ u = v := by
  rcases List.append_eq_append_iff.mp h with ⟨a, rfl, ha⟩ | ⟨a, rfl, ha⟩
  · cases a with
    | nil => exact ⟨(List.append_nil x).symm, (List.cons_eq_cons.mp ha).2⟩
    | cons c a => exact absurd (by rw [(List.cons_eq_cons.mp ha).1]; simp) hy
  · cases a with
    | nil => exact ⟨List.append_nil y, (List.cons_eq_cons.mp ha).2.symm⟩
    | cons c a => exact absurd (by rw [(List.cons_eq_cons.mp ha).1]; simp) hx

/-- A piece, and the pieces behind it with their markers. -/
def join (piece : List α) : List (List α × List α) → List α
  | [] => piece
  | (marker, next) :: rest => piece ++ (marker ++ join next rest)

lemma join_append (a b : List α) (rest : List (List α × List α)) : join (a ++ b) rest = a ++ join b rest := by
  cases rest with
  | nil => rfl
  | cons e rest => simp only [join, List.append_assoc]

/-- The separator begins a marker and is not in the rest of it. -/
def IsMarker (sep : α) (marker : List α) : Prop := ∃ name, marker = sep :: name ∧ sep ∉ name

/-- A marker stands in its own piece, or in the piece before it. -/
inductive Clash : List α → List (List α × List α) → Prop
  | before {piece marker next rest} (h : marker <:+: piece) : Clash piece ((marker, next) :: rest)
  | own {piece marker next rest} (h : marker <:+: next) : Clash piece ((marker, next) :: rest)
  | later {piece marker next rest} (h : Clash next rest) : Clash piece ((marker, next) :: rest)

lemma Clash.of_own {piece : List α} {rest : List (List α × List α)} (h : ∃ e ∈ rest, e.1 <:+: e.2) :
    Clash piece rest := by
  induction rest generalizing piece with
  | nil =>
      obtain ⟨e, he, -⟩ := h
      exact absurd he List.not_mem_nil
  | cons e rest ih =>
      obtain ⟨e', he', hin⟩ := h
      rcases List.mem_cons.mp he' with rfl | he'
      · exact .own hin
      · exact .later (ih ⟨e', he', hin⟩)

/-- A marker that begins inside a text before another one ends there too. -/
lemma prefix_of_append_eq {sep : α} {a u v marker marker' : List α} (hm : IsMarker sep marker)
    (hm' : IsMarker sep marker') (hne : a ≠ []) (h : marker ++ u = a ++ (marker' ++ v)) : marker <+: a := by
  obtain ⟨name, rfl, hname⟩ := hm
  obtain ⟨name', rfl, -⟩ := hm'
  rcases List.append_eq_append_iff.mp h with ⟨d, ha, -⟩ | ⟨d, hmarker, hrest⟩
  · exact ⟨d, ha.symm⟩
  · cases d with
    | nil => exact ⟨[], by rw [hmarker]; simp⟩
    | cons c d =>
        have hc : c = sep := (List.cons_eq_cons.mp hrest).1.symm
        cases a with
        | nil => exact absurd rfl hne
        | cons e a =>
            have hin : name = a ++ c :: d := (List.cons_eq_cons.mp hmarker).2
            exact absurd (by rw [hin, hc]; simp) hname

/-- A marker inside the tail of a marker and a piece is inside the piece. -/
lemma infix_of_infix_tail {sep : α} {name piece marker : List α} (hm : IsMarker sep marker) (hname : sep ∉ name)
    (h : marker <:+: name ++ piece) : marker <:+: piece := by
  obtain ⟨own, rfl, -⟩ := hm
  obtain ⟨s, t, hst⟩ := h
  rw [List.append_assoc] at hst
  rcases List.append_eq_append_iff.mp hst with ⟨d, hd, hrest⟩ | ⟨d, hs, hrest⟩
  · cases d with
    | nil => exact ⟨[], t, hrest⟩
    | cons c d =>
        have hc : c = sep := (List.cons_eq_cons.mp hrest).1.symm
        exact absurd (by rw [hd, hc]; simp) hname
  · exact ⟨d, t, by rw [List.append_assoc, hrest]⟩

/-- Where a marker more is read than there are, it is read out of the first piece, or a marker is in its own
    piece. -/
lemma late {sep : α} {ps qs : List (List α × List α)} (hms : ∀ e ∈ ps, IsMarker sep e.1)
    (hsame : ps.map Prod.fst = qs.map Prod.fst) {marker x y z : List α} (hm : IsMarker sep marker)
    (h : join x ps = join y ((marker, z) :: qs)) : y ++ marker <+: x ∨ ∃ e ∈ ps, e.1 <:+: e.2 := by
  induction ps generalizing qs x y z marker with
  | nil =>
      left
      rw [show x = join y ((marker, z) :: qs) from h, join, ← List.append_assoc]
      exact List.prefix_append _ _
  | cons e ps ih =>
      obtain ⟨marker', c⟩ := e
      obtain ⟨hm', hlater⟩ := List.forall_mem_cons.mp hms
      cases qs with
      | nil => exact absurd hsame (by simp)
      | cons e' qs =>
          obtain ⟨marker'', c'⟩ := e'
          obtain ⟨rfl, hrest⟩ : marker' = marker'' ∧ ps.map Prod.fst = qs.map Prod.fst := by simpa using hsame
          obtain ⟨name', rfl, hname'⟩ := hm'
          -- where the marker begins behind the first piece, the next one is read out of place in its turn
          have hbehind : ∀ a, (sep :: name') ++ join c ps = a ++ (marker ++ join z ((sep :: name', c') :: qs)) →
              ∃ e ∈ (sep :: name', c) :: ps, e.1 <:+: e.2 := by
            intro a ha
            obtain ⟨y', hy'⟩ : ∃ y', name' ++ join c ps = join y' ((sep :: name', c') :: qs) := by
              cases a with
              | nil =>
                  obtain ⟨name, rfl, -⟩ := hm
                  exact ⟨name ++ z, by rw [join_append]; exact (List.cons_eq_cons.mp ha).2⟩
              | cons d a =>
                  refine ⟨a ++ (marker ++ z), ?_⟩
                  rw [join_append, join_append]
                  exact (List.cons_eq_cons.mp ha).2
            rw [← join_append] at hy'
            rcases ih hlater hrest ⟨name', rfl, hname'⟩ hy' with hin | ⟨e, he, hin⟩
            · have hinside : (sep :: name') <:+: name' ++ c := (List.suffix_append _ _).isInfix.trans hin.isInfix
              exact ⟨_, List.mem_cons_self, infix_of_infix_tail ⟨name', rfl, hname'⟩ hname' hinside⟩
            · exact ⟨e, List.mem_cons_of_mem _ he, hin⟩
          rcases List.append_eq_append_iff.mp h with ⟨a, -, ha⟩ | ⟨a, hx, ha⟩
          · exact Or.inr (hbehind a ha)
          · by_cases hempty : a = []
            · subst hempty
              exact Or.inr (hbehind [] ha.symm)
            · have hin := prefix_of_append_eq hm ⟨name', rfl, hname'⟩ hempty ha
              exact Or.inl (hx ▸ (List.prefix_append_right_inj y).mpr hin)

/-- **The first piece** of two sequences that are written alike. -/
lemma first_cases {sep : α} {marker s s' c c' : List α} {ps qs : List (List α × List α)} (hm : IsMarker sep marker)
    (hms : ∀ e ∈ ps, IsMarker sep e.1) (hsame : ps.map Prod.fst = qs.map Prod.fst)
    (h : join s ((marker, c) :: ps) = join s' ((marker, c') :: qs)) :
    (s = s' ∧ join c ps = join c' qs) ∨ (s ≠ s' ∧ s' ++ marker <+: s ++ (marker ++ c)) ∨
      ∃ e ∈ ps, e.1 <:+: e.2 := by
  have hequal : s = s' → join c ps = join c' qs := by
    rintro rfl
    exact List.append_cancel_left (List.append_cancel_left h)
  by_cases hs : s = s'
  · exact Or.inl ⟨hs, hequal hs⟩
  · refine Or.inr ?_
    rcases List.append_eq_append_iff.mp h with ⟨a, rfl, ha⟩ | ⟨a, rfl, ha⟩
    · cases a with
      | nil => exact absurd (List.append_nil s).symm hs
      | cons d a =>
          obtain ⟨name, rfl, hname⟩ := hm
          have htail : join (name ++ c) ps = join a ((sep :: name, c') :: qs) := by
            rw [join_append]
            exact (List.cons_eq_cons.mp ha).2
          have hd : sep = d := (List.cons_eq_cons.mp ha).1
          refine (late hms hsame ⟨name, rfl, hname⟩ htail).imp_left fun hin => ⟨hs, ?_⟩
          subst hd
          rw [List.append_assoc, List.cons_append, List.prefix_append_right_inj, List.cons_append]
          exact List.cons_prefix_cons.mpr ⟨rfl, hin⟩
    · have hne : a ≠ [] := by
        rintro rfl
        exact hs (List.append_nil s')
      refine Or.inl ⟨hs, ?_⟩
      rw [List.append_assoc, List.prefix_append_right_inj]
      exact (prefix_of_append_eq hm hm hne ha).trans (List.prefix_append _ _)

/-- A marker read at another place around the first piece stands in that piece or in its own. -/
lemma inside_of_front {sep : α} {marker s s' c : List α} (hm : IsMarker sep marker) (hs : s ≠ s')
    (h : s' ++ marker <+: s ++ (marker ++ c)) : marker <:+: s ∨ marker <:+: c := by
  obtain ⟨t, ht⟩ := h
  rw [List.append_assoc] at ht
  rcases List.append_eq_append_iff.mp ht with ⟨a, rfl, ha⟩ | ⟨a, rfl, ha⟩
  · have hne : a ≠ [] := by
      rintro rfl
      exact hs (List.append_nil s')
    exact Or.inl ((prefix_of_append_eq hm hm hne ha).isInfix.trans (List.suffix_append _ _).isInfix)
  · cases a with
    | nil => exact absurd (List.append_nil s).symm hs
    | cons d a =>
        obtain ⟨name, rfl, hname⟩ := hm
        have htail : name ++ c = a ++ ((sep :: name) ++ t) := (List.cons_eq_cons.mp ha).2
        have hin : (sep :: name) <:+: name ++ c := ⟨a, t, by rw [htail, List.append_assoc]⟩
        exact Or.inr (infix_of_infix_tail ⟨name, rfl, hname⟩ hname hin)

/-- **Two sequences that are written alike** are equal, unless a marker of the one clashes. -/
theorem join_eq {sep : α} {ps qs : List (List α × List α)} (hms : ∀ e ∈ ps, IsMarker sep e.1)
    (hsame : ps.map Prod.fst = qs.map Prod.fst) {s s' : List α} (h : join s ps = join s' qs) :
    (s = s' ∧ ps = qs) ∨ Clash s ps := by
  induction ps generalizing qs s s' with
  | nil =>
      have hqs : qs = [] := List.map_eq_nil_iff.mp hsame.symm
      subst hqs
      exact Or.inl ⟨h, rfl⟩
  | cons e ps ih =>
      obtain ⟨marker, c⟩ := e
      obtain ⟨hm, hlater⟩ := List.forall_mem_cons.mp hms
      cases qs with
      | nil => exact absurd hsame (by simp)
      | cons e' qs =>
          obtain ⟨marker', c'⟩ := e'
          obtain ⟨rfl, hrest⟩ : marker = marker' ∧ ps.map Prod.fst = qs.map Prod.fst := by simpa using hsame
          rcases first_cases hm hlater hrest h with ⟨rfl, hjoin⟩ | ⟨hne, hin⟩ | hown
          · refine (ih hlater hrest hjoin).imp ?_ .later
            rintro ⟨rfl, rfl⟩
            exact ⟨rfl, rfl⟩
          · exact Or.inr ((inside_of_front hm hne hin).elim .before .own)
          · exact Or.inr (.later (.of_own hown))

end Markers
