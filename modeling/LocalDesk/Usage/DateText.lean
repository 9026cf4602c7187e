import LocalDesk.Usage.DateOrder

/-!
# The texts of dates

A text of the calendar names its time: two minutes, days or weeks with one text are the same.
The texts of the years with four digits are in the order of time, and behind those of the years
before the first one.
-/

namespace LocalDesk
namespace Usage
namespace Gregorian

theorem toList_padded (width n : Nat) : (padded width n).toList =
    List.replicate (width - (Nat.toDigits 10 n).length) '0' ++ Nat.toDigits 10 n := by
  simp [padded, List.leftpad]

theorem ofDigitChars_padded (width n : Nat) : Nat.ofDigitChars 10 (padded width n).toList 0 = n := by
  rw [toList_padded, Nat.ofDigitChars_append]
  simp

theorem padded_injective {width n m : Nat} (h : (padded width n).toList = (padded width m).toList) :
    n = m := by
  rw [← ofDigitChars_padded width n, h, ofDigitChars_padded]

theorem isDigit_of_mem_padded {width n : Nat} {c : Char} (h : c ∈ (padded width n).toList) :
    c.isDigit = true := by
  rw [toList_padded, List.mem_append] at h
  cases h with
  | inl h =>
    rw [List.eq_of_mem_replicate h]
    decide
  | inr h => exact Nat.isDigit_of_mem_toDigits (by omega) (by omega) h

theorem length_padded {width n : Nat} (hwidth : 0 < width) (h : n < 10 ^ width) :
    (padded width n).toList.length = width := by
  have hle := (Nat.length_toDigits_le_iff (b := 10) (by omega) hwidth).mpr h
  rw [toList_padded, List.length_append, List.length_replicate]
  omega

theorem le_length_padded (width n : Nat) : width ≤ (padded width n).toList.length := by
  rw [toList_padded, List.length_append, List.length_replicate]
  omega

theorem ofDigitChars_lt (digits : List Char) (h : ∀ c ∈ digits, c.isDigit = true) :
    Nat.ofDigitChars 10 digits 0 < 10 ^ digits.length := by
  induction digits with
  | nil => simp
  | cons c digits ih =>
    rw [List.forall_mem_cons] at h
    have hc : 48 ≤ c.toNat ∧ c.toNat ≤ 57 := Char.isDigit_iff_toNat.mp h.1
    rw [Nat.ofDigitChars_cons, Nat.ofDigitChars_eq_ofDigitChars_zero, List.length_cons, Nat.pow_succ]
    have hrest := ih h.2
    show _ * (10 * 0 + (c.toNat - 48)) + _ < _
    have hscaled : 10 ^ digits.length * (10 * 0 + (c.toNat - 48)) ≤ 10 ^ digits.length * 9 :=
      Nat.mul_le_mul_left _ (by omega)
    omega

theorem digits_lt {a b : List Char} (ha : ∀ c ∈ a, c.isDigit = true)
    (hb : ∀ c ∈ b, c.isDigit = true) (hlength : a.length = b.length)
    (h : Nat.ofDigitChars 10 a 0 < Nat.ofDigitChars 10 b 0) : a < b := by
  induction a generalizing b with
  | nil =>
    rw [List.eq_nil_of_length_eq_zero hlength.symm] at h
    exact absurd h (lt_irrefl _)
  | cons c a ih =>
    cases b with
    | nil => cases hlength
    | cons d b =>
      rw [List.forall_mem_cons] at ha hb
      have hc : 48 ≤ c.toNat ∧ c.toNat ≤ 57 := Char.isDigit_iff_toNat.mp ha.1
      have hd : 48 ≤ d.toNat ∧ d.toNat ≤ 57 := Char.isDigit_iff_toNat.mp hb.1
      have hlength : a.length = b.length := Nat.succ.inj hlength
      have hrest := ofDigitChars_lt b hb.2
      rw [Nat.ofDigitChars_cons, Nat.ofDigitChars_cons, Nat.ofDigitChars_eq_ofDigitChars_zero,
        @Nat.ofDigitChars_eq_ofDigitChars_zero b, hlength] at h
      change _ * (10 * 0 + (c.toNat - 48)) + _ < _ * (10 * 0 + (d.toNat - 48)) + _ at h
      rw [List.cons_lt_cons_iff]
      by_cases hlt : c < d
      · exact .inl hlt
      · have hle : d.toNat ≤ c.toNat := not_lt.mp hlt
        by_cases heq : c.toNat = d.toNat
        · rw [heq, Nat.add_lt_add_iff_left] at h
          exact .inr ⟨Char.toNat_inj.mp heq, ih ha.2 hb.2 hlength h⟩
        · have hscaled : 10 ^ b.length * (10 * 0 + (d.toNat - 48)) + 10 ^ b.length ≤
              10 ^ b.length * (10 * 0 + (c.toNat - 48)) := by
            rw [← Nat.mul_succ]
            exact Nat.mul_le_mul_left _ (by omega)
          omega

theorem padded_lt {width n m : Nat} (hwidth : 0 < width) (h : n < m) (hm : m < 10 ^ width) :
    (padded width n).toList < (padded width m).toList := by
  apply digits_lt (fun c => isDigit_of_mem_padded) (fun c => isDigit_of_mem_padded)
  · rw [length_padded hwidth (h.trans hm), length_padded hwidth hm]
  · rw [ofDigitChars_padded, ofDigitChars_padded]
    exact h

theorem append_lt_append {a b : List Char} (h : a < b) (hlength : a.length = b.length)
    (c d : List Char) : a ++ c < b ++ d := by
  induction a generalizing b with
  | nil =>
    rw [List.eq_nil_of_length_eq_zero hlength.symm] at h
    cases h
  | cons x a ih =>
    cases b with
    | nil => cases hlength
    | cons y b =>
      rw [List.cons_append, List.cons_append, List.cons_lt_cons_iff]
      cases List.cons_lt_cons_iff.mp h with
      | inl hlt => exact .inl hlt
      | inr hrest => exact .inr ⟨hrest.1, ih hrest.2 (Nat.succ.inj hlength)⟩

theorem minus_lt {text rest : List Char} (h : text.head?.any Char.isDigit = true) :
    '-' :: rest < text := by
  cases text with
  | nil => cases h
  | cons c text =>
    have hc : 48 ≤ c.toNat ∧ c.toNat ≤ 57 := Char.isDigit_iff_toNat.mp h
    rw [List.cons_lt_cons_iff]
    left
    show (45 : Nat) < c.toNat
    omega

theorem head_padded {width n : Nat} (hwidth : 0 < width) (rest : List Char) :
    ((padded width n).toList ++ rest).head?.any Char.isDigit = true := by
  have hlength := le_length_padded width n
  cases hdigits : (padded width n).toList with
  | nil =>
    rw [hdigits] at hlength
    simp at hlength
    omega
  | cons c digits =>
    have hmem : c ∈ (padded width n).toList := by
      rw [hdigits]
      exact List.mem_cons_self
    exact isDigit_of_mem_padded hmem

theorem toList_dayText (day : Int) : (dayText day).toList =
    (yearText (dateOf day).1).toList ++ ('-' :: ((padded 2 (dateOf day).2.1).toList ++
      '-' :: (padded 2 (dateOf day).2.2).toList)) := by
  simp [dayText, String.toList_append]

theorem toList_weekText (day : Int) : (weekText day).toList =
    (isoYearText (isoWeek day).1).toList ++ ('-' :: 'W' :: (padded 2 (isoWeek day).2).toList) := by
  simp [weekText, String.toList_append]

theorem year_of_head {day : Int} (h : (dayText day).toList.head?.any Char.isDigit = true) :
    0 ≤ (dateOf day).1 ∧ (dateOf day).1 ≤ 9999 := by
  rw [toList_dayText, yearText] at h
  split_ifs at h with hneg hlarge
  · rw [String.toList_append] at h
    exact absurd (show Char.isDigit '-' = true from h) (by decide)
  · rw [String.toList_append] at h
    exact absurd (show Char.isDigit '+' = true from h) (by decide)
  · omega

theorem dayText_lt {a b : Int} (h : a < b) (hb : 0 ≤ (dateOf b).1 ∧ (dateOf b).1 ≤ 9999) :
    dayText a < dayText b := by
  rw [String.lt_iff, toList_dayText, toList_dayText]
  have hearlier := dateOf_earlier h
  have hbounds := dateOf_bounds b
  have hbounds' := dateOf_bounds a
  have hyear : (yearText (dateOf b).1).toList = (padded 4 (dateOf b).1.natAbs).toList := by
    rw [yearText, if_neg (by omega), if_neg (by omega)]
  rw [hyear]
  by_cases hneg : (dateOf a).1 < 0
  · rw [yearText, if_pos hneg, String.toList_append]
    exact minus_lt (head_padded (by omega) _)
  · have hle : (dateOf a).1 ≤ (dateOf b).1 := by
      unfold Earlier at hearlier
      omega
    have hyear' : (yearText (dateOf a).1).toList = (padded 4 (dateOf a).1.natAbs).toList := by
      rw [yearText, if_neg hneg, if_neg (by omega)]
    rw [hyear']
    cases hearlier with
    | inl hlt =>
      apply append_lt_append (padded_lt (by omega) (by omega) (by omega))
      rw [length_padded (by omega) (by omega), length_padded (by omega) (by omega)]
    | inr hrest =>
      obtain ⟨hsame, hrest⟩ := hrest
      rw [hsame]
      apply List.append_left_lt
      rw [List.cons_lt_cons_iff]
      right
      refine ⟨rfl, ?_⟩
      cases hrest with
      | inl hlt =>
        apply append_lt_append (padded_lt (by omega) hlt (by omega))
        rw [length_padded (by omega) (by omega), length_padded (by omega) (by omega)]
      | inr hrest =>
        rw [hrest.1]
        apply List.append_left_lt
        rw [List.cons_lt_cons_iff]
        exact .inr ⟨rfl, padded_lt (by omega) hrest.2 (by omega)⟩

theorem yearText_injective {a b : Int} (h : (yearText a).toList = (yearText b).toList) : a = b := by
  have hdigit : ∀ (n : Nat) (rest : List Char) (c : Char), c.isDigit = false →
      (padded 4 n).toList ≠ c :: rest := by
    intro n rest c hc heq
    have hhead := @head_padded 4 n (by omega) []
    rw [List.append_nil, heq] at hhead
    exact absurd (hc.symm.trans hhead) (by decide)
  have hcons : ∀ (c : Char) (n : Nat),
      (String.singleton c ++ padded 4 n).toList = c :: (padded 4 n).toList := by
    intro c n
    simp
  unfold yearText at h
  split_ifs at h with ha hb hb ha hb hb hb hb
  · rw [show "-" = String.singleton '-' from rfl, hcons, hcons] at h
    have hsame := padded_injective (List.cons.inj h).2
    omega
  · rw [show "-" = String.singleton '-' from rfl, show "+" = String.singleton '+' from rfl, hcons,
      hcons] at h
    exact absurd (List.cons.inj h).1 (by decide)
  · rw [show "-" = String.singleton '-' from rfl, hcons] at h
    exact absurd h.symm (hdigit _ _ _ (by decide))
  · rw [show "-" = String.singleton '-' from rfl, show "+" = String.singleton '+' from rfl, hcons,
      hcons] at h
    exact absurd (List.cons.inj h).1 (by decide)
  · rw [show "+" = String.singleton '+' from rfl, hcons, hcons] at h
    have hsame := padded_injective (List.cons.inj h).2
    omega
  · rw [show "+" = String.singleton '+' from rfl, hcons] at h
    exact absurd h.symm (hdigit _ _ _ (by decide))
  · rw [show "-" = String.singleton '-' from rfl, hcons] at h
    exact absurd h (hdigit _ _ _ (by decide))
  · rw [show "+" = String.singleton '+' from rfl, hcons] at h
    exact absurd h (hdigit _ _ _ (by decide))
  · have hsame := padded_injective h
    omega

theorem dayText_injective {a b : Int} (h : dayText a = dayText b) : a = b := by
  have hlist : (dayText a).toList = (dayText b).toList := by rw [h]
  have hboundsA := dateOf_bounds a
  have hboundsB := dateOf_bounds b
  rw [toList_dayText, toList_dayText] at hlist
  obtain ⟨hyear, hlist⟩ := List.append_inj' hlist (by
    simp only [List.length_cons, List.length_append]
    rw [length_padded (by omega) hboundsA.1, length_padded (by omega) hboundsA.2,
      length_padded (by omega) hboundsB.1, length_padded (by omega) hboundsB.2])
  have hlist := (List.cons.inj hlist).2
  obtain ⟨hmonth, hlist⟩ := List.append_inj hlist (by
    rw [length_padded (by omega) hboundsA.1, length_padded (by omega) hboundsB.1])
  have hday := padded_injective (List.cons.inj hlist).2
  have hmonth := padded_injective hmonth
  have hyear : (dateOf a).1 = (dateOf b).1 := yearText_injective hyear
  by_contra hne
  cases lt_or_gt_of_ne hne with
  | inl hlt =>
    have hearlier := dateOf_earlier hlt
    unfold Earlier at hearlier
    omega
  | inr hgt =>
    have hearlier := dateOf_earlier hgt
    unfold Earlier at hearlier
    omega

theorem isoYear_of_head {day : Int} (h : (weekText day).toList.head?.any Char.isDigit = true)
    (hlength : (weekText day).toList.length = 8) :
    0 ≤ (isoWeek day).1 ∧ (isoWeek day).1 ≤ 9999 := by
  rw [toList_weekText, isoYearText] at h hlength
  split_ifs at h hlength with hneg
  · rw [String.toList_append] at h
    exact absurd (show Char.isDigit '-' = true from h) (by decide)
  · have hweek := le_length_padded 2 (isoWeek day).2
    have hfour : (padded 4 (isoWeek day).1.natAbs).toList.length ≤ 4 := by
      rw [List.length_append, List.length_cons, List.length_cons] at hlength
      omega
    rw [toList_padded, List.length_append] at hfour
    have hyear := (Nat.length_toDigits_le_iff (b := 10) (k := 4) (by omega) (by omega)).mp
      (by omega : (Nat.toDigits 10 (isoWeek day).1.natAbs).length ≤ 4)
    omega

theorem isoWeek_bounds (day : Int) : (isoWeek day).2 < 100 := by
  have hyear := newYear_dateOf (day - weekday day + 3)
  show ((day - weekday day + 3 - newYear (dateOf (day - weekday day + 3)).1) / 7).toNat + 1 < 100
  omega

theorem weekText_lt {a b : Int} (h : a - weekday a < b - weekday b)
    (hb : 0 ≤ (isoWeek b).1 ∧ (isoWeek b).1 ≤ 9999) : weekText a < weekText b := by
  rw [String.lt_iff, toList_weekText, toList_weekText]
  have hearlier := dateOf_earlier (by omega : a - weekday a + 3 < b - weekday b + 3)
  have hbounds := isoWeek_bounds a
  have hbounds' := isoWeek_bounds b
  have hle : (isoWeek a).1 ≤ (isoWeek b).1 := by
    show (dateOf (a - weekday a + 3)).1 ≤ (dateOf (b - weekday b + 3)).1
    unfold Earlier at hearlier
    omega
  have hyear : (isoYearText (isoWeek b).1).toList = (padded 4 (isoWeek b).1.natAbs).toList := by
    rw [isoYearText, if_neg (by omega)]
  rw [hyear]
  by_cases hneg : (isoWeek a).1 < 0
  · rw [isoYearText, if_pos hneg, String.toList_append]
    exact minus_lt (head_padded (by omega) _)
  · have hyear' : (isoYearText (isoWeek a).1).toList = (padded 4 (isoWeek a).1.natAbs).toList := by
      rw [isoYearText, if_neg hneg]
    rw [hyear']
    by_cases hlt : (isoWeek a).1 < (isoWeek b).1
    · apply append_lt_append (padded_lt (by omega) (by omega) (by omega))
      rw [length_padded (by omega) (by omega), length_padded (by omega) (by omega)]
    · have hsame : (isoWeek a).1 = (isoWeek b).1 := le_antisymm hle (not_lt.mp hlt)
      have hnumber : (isoWeek a).2 < (isoWeek b).2 := by
        have hstart := (newYear_dateOf (a - weekday a + 3)).1
        have hdates : (dateOf (a - weekday a + 3)).1 = (dateOf (b - weekday b + 3)).1 := hsame
        show ((a - weekday a + 3 - newYear (dateOf (a - weekday a + 3)).1) / 7).toNat + 1 <
          ((b - weekday b + 3 - newYear (dateOf (b - weekday b + 3)).1) / 7).toNat + 1
        rw [← hdates]
        -- Two Thursdays are whole weeks apart.
        have hweeks : a - weekday a + 7 ≤ b - weekday b := by
          unfold weekday at h ⊢
          omega
        omega
      rw [hsame]
      apply List.append_left_lt
      rw [List.cons_lt_cons_iff, List.cons_lt_cons_iff]
      exact .inr ⟨rfl, .inr ⟨rfl, padded_lt (by omega) hnumber hbounds'⟩⟩

theorem toList_minuteOf (utcMs offset : Int) : (minuteOf utcMs offset).1.toList =
    (dayText ((utcMs + offset * 1000) / dayLengthMs)).toList ++ ('T' ::
      ((padded 2 ((utcMs + offset * 1000) % dayLengthMs / 3600000).toNat).toList ++ (':' ::
        ((padded 2 ((utcMs + offset * 1000) % dayLengthMs / minuteMs % 60).toNat).toList ++
          (offsetText offset).toList)))) := by
  simp [minuteOf, String.toList_append]

theorem minuteOf_injective {utcMs utcMs' offset : Int}
    (h : (minuteOf utcMs offset).1 = (minuteOf utcMs' offset).1) :
    (minuteOf utcMs offset).2 = (minuteOf utcMs' offset).2 := by
  have hlist : (minuteOf utcMs offset).1.toList = (minuteOf utcMs' offset).1.toList := by rw [h]
  rw [toList_minuteOf, toList_minuteOf] at hlist
  show (utcMs + offset * 1000) / minuteMs * minuteMs - offset * 1000 =
    (utcMs' + offset * 1000) / minuteMs * minuteMs - offset * 1000
  generalize utcMs + offset * 1000 = a at *
  generalize utcMs' + offset * 1000 = b at *
  have hlength : ∀ n : Int, (padded 2 (n % dayLengthMs / 3600000).toNat).toList.length = 2 := by
    intro n
    apply length_padded (by omega)
    unfold dayLengthMs
    omega
  have hlength' : ∀ n : Int,
      (padded 2 (n % dayLengthMs / minuteMs % 60).toNat).toList.length = 2 := by
    intro n
    apply length_padded (by omega)
    omega
  obtain ⟨hday, hlist⟩ := List.append_inj' hlist (by
    simp only [List.length_cons, List.length_append]
    rw [hlength, hlength, hlength', hlength'])
  have hday := dayText_injective (String.toList_inj.mp hday)
  have hlist := (List.cons.inj hlist).2
  obtain ⟨hhour, hlist⟩ := List.append_inj hlist ((hlength a).trans (hlength b).symm)
  obtain ⟨hminute, -⟩ := List.append_inj (List.cons.inj hlist).2
    ((hlength' a).trans (hlength' b).symm)
  have hhour := padded_injective hhour
  have hminute := padded_injective hminute
  unfold dayLengthMs minuteMs at *
  omega

end Gregorian
end Usage
end LocalDesk
