import LocalDesk.Usage.Coverage

/-!
# The order of dates

Later days have later dates, and later weeks have later numbers.  The texts of years with
four digits keep this order.  A year is counted from March first: such a year has its leap
day at the end, and its days are those between two first days of March.
-/

namespace LocalDesk
namespace Usage
namespace Gregorian

def yearOfEra (dayOfEra : Int) : Int :=
  (dayOfEra - dayOfEra / 1460 + dayOfEra / 36524 - dayOfEra / 146096) / 365

def marchOfEra (year : Int) : Int := 365 * year + year / 4 - year / 100

theorem yearOfEra_mono {a b : Int} (h : a ≤ b) : yearOfEra a ≤ yearOfEra b := by
  have hcentury : ∀ n : Int, n / 146096 = n / 36524 / 4 := fun n => by omega
  unfold yearOfEra
  rw [hcentury a, hcentury b]
  refine Int.ediv_le_ediv (by omega) ?_
  have hfour : a - a / 1460 ≤ b - b / 1460 := by omega
  have hhundred : a / 36524 ≤ b / 36524 := Int.ediv_le_ediv (by omega) h
  have hlast : a / 36524 - a / 36524 / 4 ≤ b / 36524 - b / 36524 / 4 := by omega
  omega

theorem yearOfEra_bounds {dayOfEra : Int} (hlow : 0 ≤ dayOfEra) (hhigh : dayOfEra < 146097) :
    0 ≤ yearOfEra dayOfEra ∧ yearOfEra dayOfEra ≤ 399 := by
  unfold yearOfEra
  omega

theorem yearOfEra_march : ∀ year : Fin 400, yearOfEra (marchOfEra year) = year ∧
    (year.val ≠ 0 → yearOfEra (marchOfEra year - 1) = year - 1) := by
  decide +kernel

theorem marchOfEra_le {dayOfEra : Int} (hlow : 0 ≤ dayOfEra) (hhigh : dayOfEra < 146097) :
    marchOfEra (yearOfEra dayOfEra) ≤ dayOfEra ∧
      (yearOfEra dayOfEra < 399 → dayOfEra < marchOfEra (yearOfEra dayOfEra + 1)) := by
  obtain ⟨hyear, hlast⟩ := yearOfEra_bounds hlow hhigh
  have hmarch : ∀ n : Int, 0 ≤ n → n ≤ 399 → yearOfEra (marchOfEra n) = n ∧
      (n ≠ 0 → yearOfEra (marchOfEra n - 1) = n - 1) := by
    intro n hn hn'
    obtain ⟨k, rfl⟩ := Int.eq_ofNat_of_zero_le hn
    obtain ⟨hfirst, hbefore⟩ := yearOfEra_march ⟨k, by omega⟩
    exact ⟨hfirst, fun hne => hbefore (by simpa using hne)⟩
  constructor
  · by_contra hlt
    have hmono : yearOfEra dayOfEra ≤ yearOfEra (marchOfEra (yearOfEra dayOfEra) - 1) :=
      yearOfEra_mono (by omega)
    by_cases hzero : yearOfEra dayOfEra = 0
    · rw [hzero] at hlt
      exact hlt hlow
    · rw [(hmarch _ hyear hlast).2 hzero] at hmono
      omega
  · intro hnext
    by_contra hge
    have hmono : yearOfEra (marchOfEra (yearOfEra dayOfEra + 1)) ≤ yearOfEra dayOfEra :=
      yearOfEra_mono (by omega)
    rw [(hmarch _ (by omega) (by omega)).1] at hmono
    omega

/-- The first of March of a year, and the year of a day.  Days are counted from the first
of March of the year 0. -/
def march (year : Int) : Int := 365 * year + year / 4 - year / 100 + year / 400

def marchYear (day : Int) : Int := yearOfEra (day % 146097) + day / 146097 * 400

theorem march_add (year era : Int) :
    march (year + era * 400) = marchOfEra year + year / 400 + era * 146097 := by
  have hfour : (year + era * 400) / 4 = year / 4 + era * 100 := by omega
  have hhundred : (year + era * 400) / 100 = year / 100 + era * 4 := by omega
  have hera : (year + era * 400) / 400 = year / 400 + era := by omega
  unfold march marchOfEra
  rw [hfour, hhundred, hera]
  omega

theorem march_mono {a b : Int} (h : a ≤ b) : march a ≤ march b := by
  unfold march
  rcases h.eq_or_lt with rfl | hlt
  · exact le_rfl
  · omega

theorem march_marchYear (day : Int) :
    march (marchYear day) ≤ day ∧ day < march (marchYear day + 1) := by
  have hlow : 0 ≤ day % 146097 := by omega
  have hhigh : day % 146097 < 146097 := by omega
  have hbounds := yearOfEra_bounds hlow hhigh
  obtain ⟨hlow, hhigh⟩ := marchOfEra_le hlow hhigh
  have hnext : marchYear day + 1 = yearOfEra (day % 146097) + 1 + day / 146097 * 400 := by
    unfold marchYear
    omega
  rw [hnext, march_add, marchYear, march_add]
  generalize yearOfEra (day % 146097) = year at *
  rcases (show year < 399 ∨ year = 399 by omega) with hlt | rfl
  · have hhigh := hhigh hlt
    omega
  · unfold marchOfEra at *
    omega

theorem marchYear_mono {a b : Int} (h : a ≤ b) : marchYear a ≤ marchYear b := by
  by_contra hlt
  have hmono := march_mono (show marchYear b + 1 ≤ marchYear a by omega)
  have ha := (march_marchYear a).1
  have hb := (march_marchYear b).2
  omega

def marchDay (day : Int) : Int := day - march (marchYear day)

def marchMonth (day : Int) : Int := (5 * marchDay day + 2) / 153

theorem marchDay_bounds (day : Int) : 0 ≤ marchDay day ∧ marchDay day ≤ 365 := by
  obtain ⟨hlow, hhigh⟩ := march_marchYear day
  unfold marchDay
  unfold march at *
  omega

theorem dateOf_eq (day : Int) : dateOf day =
    (if marchMonth (day + 719468) < 10 then marchYear (day + 719468)
      else marchYear (day + 719468) + 1,
      (if marchMonth (day + 719468) < 10 then marchMonth (day + 719468) + 3
        else marchMonth (day + 719468) - 9).toNat,
      (marchDay (day + 719468) - (153 * marchMonth (day + 719468) + 2) / 5 + 1).toNat) := by
  generalize hshifted : day + 719468 = shifted
  have hday : shifted % 146097 - (365 * yearOfEra (shifted % 146097) +
      yearOfEra (shifted % 146097) / 4 - yearOfEra (shifted % 146097) / 100) = marchDay shifted := by
    have hlow : 0 ≤ shifted % 146097 := by omega
    have hbounds := yearOfEra_bounds hlow (by omega)
    unfold marchDay
    rw [marchYear, march_add]
    unfold marchOfEra
    omega
  unfold marchMonth marchYear
  rw [← hday]
  unfold dateOf
  rw [hshifted]
  rfl

def Earlier (a b : Int × Nat × Nat) : Prop :=
  a.1 < b.1 ∨ a.1 = b.1 ∧ (a.2.1 < b.2.1 ∨ a.2.1 = b.2.1 ∧ a.2.2 < b.2.2)

theorem dateOf_earlier {a b : Int} (h : a < b) : Earlier (dateOf a) (dateOf b) := by
  have hyear := marchYear_mono (show a + 719468 ≤ b + 719468 by omega)
  have ha := marchDay_bounds (a + 719468)
  have hb := marchDay_bounds (b + 719468)
  have hsame : marchYear (a + 719468) = marchYear (b + 719468) →
      marchDay (a + 719468) < marchDay (b + 719468) := by
    intro heq
    unfold marchDay
    rw [heq]
    omega
  unfold Earlier
  rw [dateOf_eq, dateOf_eq]
  unfold marchMonth
  generalize marchDay (a + 719468) = m at *
  generalize marchDay (b + 719468) = n at *
  generalize marchYear (a + 719468) = y at *
  generalize marchYear (b + 719468) = z at *
  dsimp only
  split_ifs
  · omega
  · omega
  · omega
  · omega

theorem dateOf_bounds (day : Int) : (dateOf day).2.1 < 100 ∧ (dateOf day).2.2 < 100 := by
  have hday := marchDay_bounds (day + 719468)
  rw [dateOf_eq]
  unfold marchMonth
  dsimp only
  split_ifs
  · omega
  · omega

theorem newYear_dateOf (day : Int) :
    newYear (dateOf day).1 ≤ day ∧ day ≤ newYear (dateOf day).1 + 365 := by
  have hday := marchDay_bounds (day + 719468)
  have hspec : day + 719468 = march (marchYear (day + 719468)) + marchDay (day + 719468) := by
    unfold marchDay
    omega
  rw [dateOf_eq]
  unfold marchMonth
  generalize marchDay (day + 719468) = m at *
  generalize marchYear (day + 719468) = y at *
  unfold newYear leapYears
  unfold march at hspec
  dsimp only
  split_ifs
  · omega
  · omega

end Gregorian
end Usage
end LocalDesk
