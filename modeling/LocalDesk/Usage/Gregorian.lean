import LocalDesk.Usage.Bucket

/-!
# The calendar of `chrono`

The proleptic Gregorian calendar with the weeks of ISO 8601, and the texts that `chrono`
writes for them.  Days are counted from the first of January 1970, a Thursday.
-/

namespace LocalDesk
namespace Usage

namespace Gregorian

def leapYears (year : Int) : Int := year / 4 - year / 100 + year / 400

def newYear (year : Int) : Int := 365 * (year - 1970) + leapYears (year - 1) - leapYears 1969

/-- The date of a day.  Years are counted from March here, so that a leap day is the last
day of its year. -/
def dateOf (day : Int) : Int × Nat × Nat :=
  let shifted := day + 719468
  let dayOfEra := shifted % 146097
  let yearOfEra := (dayOfEra - dayOfEra / 1460 + dayOfEra / 36524 - dayOfEra / 146096) / 365
  let dayOfYear := dayOfEra - (365 * yearOfEra + yearOfEra / 4 - yearOfEra / 100)
  let month := (5 * dayOfYear + 2) / 153
  let year := yearOfEra + shifted / 146097 * 400
  (if month < 10 then year else year + 1, (if month < 10 then month + 3 else month - 9).toNat,
    (dayOfYear - (153 * month + 2) / 5 + 1).toNat)

def weekday (day : Int) : Int := (day + 3) % 7

def isoWeek (day : Int) : Int × Nat :=
  let thursday := day - weekday day + 3
  let year := (dateOf thursday).1
  (year, ((thursday - newYear year) / 7).toNat + 1)

def padded (width n : Nat) : String := String.ofList ((Nat.toDigits 10 n).leftpad width '0')

/-- The year of `%Y`: a sign stands in front of a year that has not four digits. -/
def yearText (year : Int) : String :=
  if year < 0 then "-" ++ padded 4 year.natAbs
  else if 9999 < year then "+" ++ padded 4 year.natAbs
  else padded 4 year.natAbs

def isoYearText (year : Int) : String :=
  if year < 0 then "-" ++ padded 3 year.natAbs else padded 4 year.natAbs

def dayText (day : Int) : String :=
  yearText (dateOf day).1 ++ "-" ++ padded 2 (dateOf day).2.1 ++ "-" ++ padded 2 (dateOf day).2.2

def weekText (day : Int) : String :=
  isoYearText (isoWeek day).1 ++ "-W" ++ padded 2 (isoWeek day).2

def offsetText (offset : Int) : String :=
  (if offset < 0 then "-" else "+") ++ padded 2 (offset.natAbs / 3600) ++ ":" ++
    padded 2 (offset.natAbs / 60 % 60)

/-- The times that have a date: the years from -262143 to 262142, and an offset that is
less than a day. -/
def InRange (utcMs offset : Int) : Prop :=
  (-8334601228800000 ≤ utcMs ∧ utcMs ≤ 8210266876799999) ∧ -86400 < offset ∧ offset < 86400

instance (utcMs offset : Int) : Decidable (InRange utcMs offset) :=
  inferInstanceAs (Decidable ((_ ∧ _) ∧ _ ∧ _))

def dayLengthMs : Int := 86400000

def minuteOf (utcMs offset : Int) : String × Int :=
  let localMs := utcMs + offset * 1000
  let inDay := localMs % dayLengthMs
  (dayText (localMs / dayLengthMs) ++ "T" ++ padded 2 (inDay / 3600000).toNat ++ ":" ++
    padded 2 (inDay / minuteMs % 60).toNat ++ offsetText offset,
    localMs / minuteMs * minuteMs - offset * 1000)

def summaryOf (utcMs offset : Int) : SummaryIdentity :=
  let day := (utcMs + offset * 1000) / dayLengthMs
  ⟨dayText day, weekText day, day * dayLengthMs - offset * 1000,
    (day - weekday day) * dayLengthMs - offset * 1000⟩

end Gregorian

open Gregorian in
def gregorian : Calendar where
  minute utcMs offset := if InRange utcMs offset then some (minuteOf utcMs offset) else none
  summary utcMs offset := if InRange utcMs offset then some (summaryOf utcMs offset) else none

example : gregorian.summary 1767225599500 0 =
    some ⟨"2025-12-31", "2026-W01", 1767139200000, 1766966400000⟩ := by
  decide +kernel

theorem gregorian_represents {utcMs offset : Int} :
    gregorian.Represents utcMs offset ↔ Gregorian.InRange utcMs offset := by
  unfold Calendar.Represents gregorian
  by_cases h : Gregorian.InRange utcMs offset
  · simp [h]
  · simp [h]

theorem gregorian_lawful : gregorian.Lawful where
  minute := by
    intro utcMs offset h
    by_cases hrange : Gregorian.InRange utcMs offset
    · exact (gregorian_represents.mpr hrange).1
    · simp [gregorian, hrange] at h
  convex := by
    intro a b utcMs offset ha hb hlow hhigh
    rw [gregorian_represents] at ha hb ⊢
    unfold Gregorian.InRange at ha hb ⊢
    omega
  bounded := by
    intro utcMs offset h
    rw [gregorian_represents] at h
    unfold Gregorian.InRange at h
    rw [abs_le, abs_lt]
    omega

namespace Gregorian

theorem not_mem_padded (width n : Nat) : 'T' ∉ (padded width n).toList := by
  intro h
  rw [padded, String.toList_ofList, List.leftpad, List.mem_append] at h
  rcases h with h | h
  · exact absurd (List.eq_of_mem_replicate h) (by decide)
  · exact absurd (Nat.isDigit_of_mem_toDigits (by omega) (by omega) h) (by decide)

theorem not_mem_dayText (day : Int) : 'T' ∉ (dayText day).toList := by
  have hyear : 'T' ∉ (yearText (dateOf day).1).toList := by
    unfold yearText
    split_ifs
    · rw [String.toList_append, List.mem_append, not_or]
      exact ⟨by decide, not_mem_padded _ _⟩
    · rw [String.toList_append, List.mem_append, not_or]
      exact ⟨by decide, not_mem_padded _ _⟩
    · exact not_mem_padded _ _
  simp only [dayText, String.toList_append, List.mem_append, not_or]
  exact ⟨⟨⟨⟨hyear, by decide⟩, not_mem_padded _ _⟩, by decide⟩, not_mem_padded _ _⟩

end Gregorian

theorem gregorian_nests : gregorian.Nests := by
  intro utcMs offset minute identity hminute hidentity
  unfold gregorian at hminute hidentity
  simp only at hminute hidentity
  split at hminute
  · next hrange =>
    rw [if_pos hrange] at hidentity
    cases hminute
    cases hidentity
    have hdate : ∀ c ∈ (Gregorian.dayText ((utcMs + offset * 1000) / Gregorian.dayLengthMs)).toList,
        decide (c ≠ 'T') = true := by
      intro c hc
      exact decide_eq_true fun hT : c = 'T' => Gregorian.not_mem_dayText _ (hT ▸ hc)
    show Calendar.dateOfMinute (Gregorian.dayText _ ++ "T" ++ _ ++ _ ++ _ ++ _) = Gregorian.dayText _
    unfold Calendar.dateOfMinute
    simp only [String.toList_append, List.append_assoc]
    rw [List.takeWhile_append_of_pos hdate]
    show String.ofList (_ ++ []) = _
    rw [List.append_nil, String.ofList_toList]
  · cases hminute

end Usage
end LocalDesk
