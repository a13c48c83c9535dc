import Mathlib.Data.Nat.Log
import Mathlib.Tactic.IntervalCases

/-!
# Times and their ISO 8601 text

A moment is a number of microseconds since 1970-01-01T00:00:00 UTC.  What a program stores is
its text, and what it can rely on is little: the text of a moment is not empty, and reading it
gives the moment back.  `IsoFormat` is exactly that, so a statement about every `IsoFormat`
holds whatever other texts the reader accepts.

`IsoFormat.utc` is the instance `YYYY-MM-DDTHH:MM:SS[.ffffff]+00:00`.  A date is found by
counting off years and months, so its round trip (`joinYear_splitYear`, `joinMonth_splitMonth`)
follows the same recursion.
-/

/-- A way to write a moment and to read one. -/
structure IsoFormat where
  /-- the text of a moment -/
  isoformat : ℕ → String
  /-- the moment of a text, if it has one -/
  fromisoformat : String → Option ℕ
  /-- what was written can be read -/
  roundTrip : ∀ t, fromisoformat (isoformat t) = some t
  /-- no moment is written as the empty text -/
  nonempty : ∀ t, isoformat t ≠ ""

namespace IsoTime

/-! ## Digits -/

/-- The last `w` decimal digits of `n`, the most significant first. -/
def padDigits : ℕ → ℕ → List ℕ
  | 0, _ => []
  | w + 1, n => padDigits w (n / 10) ++ [n % 10]

/-- The number a list of decimal digits stands for. -/
def ofDigits (l : List ℕ) : ℕ := l.foldl (fun acc d => 10 * acc + d) 0

lemma length_padDigits : ∀ w n, (padDigits w n).length = w
  | 0, _ => rfl
  | w + 1, n => by simp [padDigits, length_padDigits w]

lemma padDigits_lt : ∀ w n, ∀ d ∈ padDigits w n, d < 10
  | 0, _, d, h => by simp [padDigits] at h
  | w + 1, n, d, h => by
      simp only [padDigits, List.mem_append, List.mem_singleton] at h
      rcases h with h | rfl
      · exact padDigits_lt w _ d h
      · omega

lemma ofDigits_padDigits : ∀ w n, n < 10 ^ w → ofDigits (padDigits w n) = n
  | 0, n, h => by
      have : n = 0 := by simpa using h
      simp [padDigits, ofDigits, this]
  | w + 1, n, h => by
      have hq : n / 10 < 10 ^ w := by
        rw [Nat.div_lt_iff_lt_mul (by omega), ← Nat.pow_succ]; exact h
      have ih := ofDigits_padDigits w (n / 10) hq
      simp only [ofDigits, padDigits, List.foldl_append, List.foldl_cons, List.foldl_nil] at ih ⊢
      rw [ih]
      omega

/-- The character of a digit. -/
def digitChar (d : ℕ) : Char := Char.ofNat (48 + d)

/-- The digit of a character. -/
def charDigit (c : Char) : ℕ := c.toNat - 48

lemma charDigit_digitChar (d : ℕ) (h : d < 10) : charDigit (digitChar d) = d := by
  interval_cases d <;> rfl

lemma isDigit_digitChar (d : ℕ) (h : d < 10) : (digitChar d).isDigit = true := by
  interval_cases d <;> decide

/-- The text of `n` in `w` digits. -/
def pad (w n : ℕ) : List Char := (padDigits w n).map digitChar

/-- The number a text of digits stands for. -/
def number (cs : List Char) : ℕ := ofDigits (cs.map charDigit)

lemma length_pad (w n : ℕ) : (pad w n).length = w := by
  rw [pad, List.length_map, length_padDigits]

lemma number_pad (w n : ℕ) (h : n < 10 ^ w) : number (pad w n) = n := by
  have hmap : (pad w n).map charDigit = padDigits w n := by
    rw [pad, List.map_map]
    conv_rhs => rw [← List.map_id (padDigits w n)]
    exact List.map_congr_left fun d hd => charDigit_digitChar d (padDigits_lt w n d hd)
  rw [number, hmap, ofDigits_padDigits w n h]

lemma isDigit_pad (w n : ℕ) : ∀ c ∈ pad w n, c.isDigit = true := by
  intro c hc
  obtain ⟨d, hd, rfl⟩ := List.mem_map.mp hc
  exact isDigit_digitChar d (padDigits_lt w n d hd)

/-- Read the digits in front of `sep`: their number, and what follows `sep`. -/
def field (sep : Char) (cs : List Char) : Option (ℕ × List Char) :=
  match cs.dropWhile Char.isDigit with
  | c :: rest => if c = sep then some (number (cs.takeWhile Char.isDigit), rest) else none
  | [] => none

lemma field_pad (sep : Char) (hsep : sep.isDigit = false) (w n : ℕ) (h : n < 10 ^ w)
    (rest : List Char) : field sep (pad w n ++ sep :: rest) = some (n, rest) := by
  have hd := isDigit_pad w n
  have hdrop : (pad w n ++ sep :: rest).dropWhile Char.isDigit = sep :: rest := by
    rw [List.dropWhile_append_of_pos hd, List.dropWhile_cons_of_neg (by simp [hsep])]
  have htake : (pad w n ++ sep :: rest).takeWhile Char.isDigit = pad w n := by
    rw [List.takeWhile_append_of_pos hd, List.takeWhile_cons_of_neg (by simp [hsep]),
      List.append_nil]
  rw [field, hdrop, htake]
  simp [number_pad w n h]

lemma field_pad_ne (sep other : Char) (hother : other.isDigit = false) (hne : other ≠ sep)
    (w n : ℕ) (rest : List Char) : field sep (pad w n ++ other :: rest) = none := by
  have hdrop : (pad w n ++ other :: rest).dropWhile Char.isDigit = other :: rest := by
    rw [List.dropWhile_append_of_pos (isDigit_pad w n),
      List.dropWhile_cons_of_neg (by simp [hother])]
  rw [field, hdrop]
  simp [hne]

/-! ## The calendar -/

/-- The number of days of a year. -/
def yearLen (y : ℕ) : ℕ :=
  if y % 4 = 0 ∧ (y % 100 ≠ 0 ∨ y % 400 = 0) then 366 else 365

/-- The number of days of each month of a year. -/
def monthLens (y : ℕ) : List ℕ :=
  [31, if yearLen y = 366 then 29 else 28, 31, 30, 31, 30, 31, 31, 30, 31, 30, 31]

/-- The year that holds the day `d` days after the first day of the year `y`, and the day in it.
    At most `fuel` years are counted off. -/
def splitYear : ℕ → ℕ → ℕ → ℕ × ℕ
  | 0, y, d => (y, d)
  | fuel + 1, y, d => if d < yearLen y then (y, d) else splitYear fuel (y + 1) (d - yearLen y)

/-- The number of days from the first day of the year `y` to the day `d` of the year `y'`. -/
def joinYear (y y' d : ℕ) : ℕ := (List.range' y (y' - y)).foldr (fun k acc => yearLen k + acc) d

lemma le_splitYear : ∀ fuel y d, y ≤ (splitYear fuel y d).1
  | 0, _, _ => le_refl _
  | fuel + 1, y, d => by
      rw [splitYear]
      split_ifs
      · exact le_refl _
      · exact Nat.le_of_succ_le (le_splitYear fuel (y + 1) _)

lemma joinYear_splitYear : ∀ fuel y d,
    joinYear y (splitYear fuel y d).1 (splitYear fuel y d).2 = d
  | 0, y, d => by simp [splitYear, joinYear]
  | fuel + 1, y, d => by
      rw [splitYear]
      split_ifs with h
      · simp [joinYear]
      · have ih := joinYear_splitYear fuel (y + 1) (d - yearLen y)
        have hle := le_splitYear fuel (y + 1) (d - yearLen y)
        have hlen : (splitYear fuel (y + 1) (d - yearLen y)).1 - y
            = (splitYear fuel (y + 1) (d - yearLen y)).1 - (y + 1) + 1 := by omega
        rw [joinYear, hlen, List.range'_succ, List.foldr_cons]
        rw [joinYear] at ih
        omega

/-- The month (counted from 1) that holds the day `d` of a year, and the day in it. -/
def splitMonth : List ℕ → ℕ → ℕ × ℕ
  | [], d => (1, d)
  | len :: lens, d =>
      if d < len then (1, d)
      else ((splitMonth lens (d - len)).1 + 1, (splitMonth lens (d - len)).2)

/-- The day of the year of the day `d` of the month `m`. -/
def joinMonth (lens : List ℕ) (m d : ℕ) : ℕ := (lens.take (m - 1)).foldr (· + ·) d

lemma one_le_splitMonth : ∀ lens d, 1 ≤ (splitMonth lens d).1
  | [], _ => le_refl _
  | _ :: _, _ => by rw [splitMonth]; split_ifs <;> simp

lemma joinMonth_splitMonth : ∀ lens d,
    joinMonth lens (splitMonth lens d).1 (splitMonth lens d).2 = d
  | [], d => by simp [splitMonth, joinMonth]
  | len :: lens, d => by
      rw [splitMonth]
      split_ifs with h
      · simp [joinMonth]
      · have ih := joinMonth_splitMonth lens (d - len)
        obtain ⟨k, hk⟩ : ∃ k, (splitMonth lens (d - len)).1 = k + 1 :=
          ⟨_, (Nat.sub_add_cancel (one_le_splitMonth lens (d - len))).symm⟩
        simp only [joinMonth, hk, Nat.add_sub_cancel, List.take_succ_cons, List.foldr_cons] at ih ⊢
        omega

lemma splitYear_lt : ∀ fuel y d, d < 365 * (fuel + 1) →
    (splitYear fuel y d).2 < yearLen (splitYear fuel y d).1
  | 0, y, d, h => by
      have : 365 ≤ yearLen y := by unfold yearLen; split_ifs <;> omega
      show d < yearLen y
      omega
  | fuel + 1, y, d, h => by
      have : 365 ≤ yearLen y := by unfold yearLen; split_ifs <;> omega
      rw [splitYear]
      split_ifs with hd
      · exact hd
      · exact splitYear_lt fuel (y + 1) (d - yearLen y) (by omega)

lemma splitMonth_fst_le : ∀ lens d, (splitMonth lens d).1 ≤ lens.length + 1
  | [], _ => by simp [splitMonth]
  | len :: lens, d => by
      have ih := splitMonth_fst_le lens (d - len)
      rw [splitMonth, List.length_cons]
      split_ifs <;> simp only <;> omega

lemma splitMonth_snd_lt : ∀ lens d, (∀ len ∈ lens, len ≤ 31) → d < lens.sum →
    (splitMonth lens d).2 < 31
  | [], d, _, h => by simp at h
  | len :: lens, d, hl, h => by
      have hlen : len ≤ 31 := hl len (by simp)
      rw [splitMonth]
      split_ifs with hd
      · exact lt_of_lt_of_le hd hlen
      · refine splitMonth_snd_lt lens (d - len) (fun l hl' => hl l (by simp [hl'])) ?_
        rw [List.sum_cons] at h
        omega

lemma monthLens_sum (y : ℕ) : (monthLens y).sum = yearLen y := by
  unfold monthLens
  by_cases h : yearLen y = 366
  · simp [h]
  · have h5 : yearLen y = 365 := by unfold yearLen at h ⊢; split_ifs at h ⊢ <;> omega
    simp [h5]

lemma monthLens_le (y : ℕ) : ∀ len ∈ monthLens y, len ≤ 31 := by
  intro len hlen
  unfold monthLens at hlen
  by_cases h : yearLen y = 366 <;>
    simp only [h, if_true, if_false, List.mem_cons, List.not_mem_nil, or_false] at hlen <;> omega

/-! ## The format -/

/-- The text of the last microsecond digits; nothing when they are zero. -/
def fraction (us : ℕ) : List Char := if us = 0 then ['+'] else '.' :: (pad 6 us ++ ['+'])

/-- `YYYY-MM-DDTHH:MM:SS[.ffffff]+00:00`. -/
def render (t : ℕ) : List Char :=
  let days := t / 86400000000
  let ymd := splitYear (days / 365) 1970 days
  let md := splitMonth (monthLens ymd.1) ymd.2
  let rest := t % 86400000000
  pad (max 4 (Nat.log 10 ymd.1 + 1)) ymd.1 ++ '-' :: (pad 2 md.1 ++ '-' :: (pad 2 (md.2 + 1) ++
    'T' :: (pad 2 (rest / 3600000000) ++ ':' :: (pad 2 (rest / 60000000 % 60) ++
      ':' :: (pad 2 (rest / 1000000 % 60) ++ (fraction (rest % 1000000) ++
        ['0', '0', ':', '0', '0']))))))

/-- The seconds field and the microseconds behind it. -/
def seconds (cs : List Char) : Option (ℕ × ℕ × List Char) :=
  match field '+' cs with
  | some (s, rest) => some (s, 0, rest)
  | none => do
      let (s, rest) ← field '.' cs
      let (us, rest) ← field '+' rest
      pure (s, us, rest)

/-- The moment of a text `render` wrote. -/
def scan (cs : List Char) : Option ℕ := do
  let (y, cs) ← field '-' cs
  let (m, cs) ← field '-' cs
  let (d, cs) ← field 'T' cs
  let (h, cs) ← field ':' cs
  let (mi, cs) ← field ':' cs
  let (s, us, cs) ← seconds cs
  if cs = ['0', '0', ':', '0', '0'] then
    pure (joinYear 1970 y (joinMonth (monthLens y) m (d - 1)) * 86400000000 + h * 3600000000 +
      mi * 60000000 + s * 1000000 + us)
  else none

lemma seconds_fraction (s us : ℕ) (hs : s < 10 ^ 2) (hus : us < 10 ^ 6) (rest : List Char) :
    seconds (pad 2 s ++ (fraction us ++ rest)) = some (s, us, rest) := by
  unfold fraction seconds
  split_ifs with h
  · rw [List.singleton_append, field_pad '+' (by decide) 2 s hs, h]
  · rw [List.cons_append, List.append_assoc, List.singleton_append,
      field_pad_ne '+' '.' (by decide) (by decide), field_pad '.' (by decide) 2 s hs]
    simp [field_pad '+' (by decide) 6 us hus]

lemma scan_render (t : ℕ) : scan (render t) = some t := by
  obtain ⟨days, rest, hlt, rfl⟩ : ∃ days rest, rest < 86400000000 ∧
      t = days * 86400000000 + rest :=
    ⟨t / 86400000000, t % 86400000000, Nat.mod_lt _ (by omega), by omega⟩
  have hq : (days * 86400000000 + rest) / 86400000000 = days := by omega
  have hr : (days * 86400000000 + rest) % 86400000000 = rest := by omega
  unfold render scan
  simp only [hq, hr]
  have hday : days < 365 * (days / 365 + 1) := by omega
  have hyear := joinYear_splitYear (days / 365) 1970 days
  have hdoy := splitYear_lt (days / 365) 1970 days hday
  generalize splitYear (days / 365) 1970 days = yd at *
  have hmonth := joinMonth_splitMonth (monthLens yd.1) yd.2
  have hm := splitMonth_fst_le (monthLens yd.1) yd.2
  have hd := splitMonth_snd_lt (monthLens yd.1) yd.2 (monthLens_le yd.1)
    (by rw [monthLens_sum]; exact hdoy)
  have hlen : (monthLens yd.1).length = 12 := rfl
  rw [hlen] at hm
  generalize splitMonth (monthLens yd.1) yd.2 = md at *
  have hy : yd.1 < 10 ^ max 4 (Nat.log 10 yd.1 + 1) :=
    lt_of_lt_of_le (Nat.lt_pow_succ_log_self (by omega) yd.1)
      (Nat.pow_le_pow_right (by omega) (le_max_right _ _))
  rw [field_pad '-' (by decide) _ _ hy]
  simp only [Option.bind_eq_bind, Option.bind_some]
  rw [field_pad '-' (by decide) 2 md.1 (by omega)]
  simp only [Option.bind_some]
  rw [field_pad 'T' (by decide) 2 (md.2 + 1) (by omega)]
  simp only [Option.bind_some]
  rw [field_pad ':' (by decide) 2 _ (by omega)]
  simp only [Option.bind_some]
  rw [field_pad ':' (by decide) 2 _ (by omega)]
  simp only [Option.bind_some]
  rw [seconds_fraction _ _ (by omega) (by omega)]
  simp only [Option.bind_some, if_true, Nat.add_sub_cancel, hmonth, hyear, Option.pure_def]
  refine congrArg some ?_
  omega

/-- The UTC instance. -/
def utc : IsoFormat where
  isoformat t := String.ofList (render t)
  fromisoformat s := scan s.toList
  roundTrip t := by rw [String.toList_ofList, scan_render]
  nonempty t h := by
    have hr := scan_render t
    have hnil : render t = [] := by
      have := congrArg String.toList h
      rwa [String.toList_ofList] at this
    rw [hnil] at hr
    exact absurd hr (by simp [scan, field])

end IsoTime

/-- Times written as UTC, the way the program writes them. -/
def IsoFormat.utc : IsoFormat := IsoTime.utc
