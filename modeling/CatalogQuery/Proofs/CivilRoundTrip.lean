import CatalogQuery.Proofs.TimestampText
/-!
# Days and dates, clocks and instants

Counting days gives every date of the calendar its number, and every number is that of one date.
With the clock it is the same: the fields of an instant, put together again, give its whole second.
-/
namespace CatalogQuery.Time

namespace Date

/-- The date exists. -/
structure IsOfCalendar (d : Date) : Prop where
  month_pos : 1 ≤ d.month
  month_le : d.month ≤ 12
  day_pos : 1 ≤ d.day
  day_le : d.day ≤ daysInMonth d.year d.month

theorem isValid_iff (d : Date) :
    d.isValid = true ↔ (minYear ≤ d.year ∧ d.year ≤ maxYear) ∧ d.IsOfCalendar := by
  simp only [isValid, Bool.and_eq_true, decide_eq_true_eq]
  constructor
  · rintro ⟨⟨⟨⟨⟨h1, h2⟩, h3⟩, h4⟩, h5⟩, h6⟩
    exact ⟨⟨h1, h2⟩, h3, h4, h5, h6⟩
  · rintro ⟨⟨h1, h2⟩, h3, h4, h5, h6⟩
    exact ⟨⟨⟨⟨⟨h1, h2⟩, h3⟩, h4⟩, h5⟩, h6⟩

/-- The year that the date is in where years begin with March. -/
def marchYear (d : Date) : Int := if d.month ≤ 2 then d.year - 1 else d.year

/-- The month of the date, counted from March, which is month 0. -/
def marchMonth (d : Date) : Int := ((d.month : Int) + 9) % 12

theorem toDays_eq (d : Date) :
    d.toDays + 719468 =
      daysBeforeYear d.marchYear + daysBeforeMonth d.marchMonth + ((d.day : Int) - 1) := by
  obtain ⟨era, hera⟩ : ∃ era, d.marchYear / 400 = era := ⟨_, rfl⟩
  obtain ⟨year, hyear⟩ : ∃ year, d.marchYear - era * 400 = year := ⟨_, rfl⟩
  have hdays : d.toDays = era * 146097 + (year * 365 + year / 4 - year / 100 +
      ((153 * d.marchMonth + 2) / 5 + (d.day : Int) - 1)) - 719468 := by
    subst hyear hera
    rfl
  have hsplit : d.marchYear = year + era * 400 := by omega
  rw [hdays, hsplit, daysBeforeYear_add_era, daysBeforeYear, daysBeforeMonth]
  omega

theorem months_eq {d : Date} (hpos : 1 ≤ d.month) (hle : d.month ≤ 12) :
    12 * d.year + d.month = 12 * d.marchYear + d.marchMonth + 3 := by
  rw [marchYear, marchMonth]
  split <;> omega

/-- The days of a year that ends with February. -/
theorem daysBeforeYear_eq (year : Int) :
    daysBeforeYear year =
      daysBeforeYear (year - 1) + 337 + daysInMonth year 2 := by
  have hleap : (isLeapYear year = true) ↔ year % 4 = 0 ∧ (year % 100 ≠ 0 ∨ year % 400 = 0) := by
    simp [isLeapYear]
  show _ = _ + ((if isLeapYear year then 29 else 28 : Nat) : Int)
  rw [daysBeforeYear, daysBeforeYear]
  split
  next h =>
    rw [hleap] at h
    omega
  next h =>
    rw [hleap] at h
    omega

/-- The days of all months but the last are the same in all years. -/
theorem daysInMonth_of_ne (year : Int) {month : Nat} (hpos : 1 ≤ month) (hle : month ≤ 12)
    (hne : month ≠ 2) :
    (daysInMonth year month : Int) = daysBeforeMonth (((month : Int) + 9) % 12 + 1) -
      daysBeforeMonth (((month : Int) + 9) % 12) := by
  have hcases : month = 1 ∨ month = 3 ∨ month = 4 ∨ month = 5 ∨ month = 6 ∨ month = 7 ∨
      month = 8 ∨ month = 9 ∨ month = 10 ∨ month = 11 ∨ month = 12 := by omega
  rcases hcases with rfl | rfl | rfl | rfl | rfl | rfl | rfl | rfl | rfl | rfl | rfl <;> rfl

theorem daysInMonth_eq (d : Date) (hpos : 1 ≤ d.month) (hle : d.month ≤ 12) :
    (daysInMonth d.year d.month : Int) =
      if d.marchMonth = 11 then daysBeforeYear (d.marchYear + 1) - daysBeforeYear d.marchYear - 337
      else daysBeforeMonth (d.marchMonth + 1) - daysBeforeMonth d.marchMonth := by
  by_cases hfebruary : d.month = 2
  · have hyear := daysBeforeYear_eq d.year
    rw [if_pos (by rw [marchMonth]; omega), marchYear, if_pos (by omega), hfebruary,
      Int.sub_add_cancel]
    omega
  · rw [if_neg (by rw [marchMonth]; omega)]
    exact daysInMonth_of_ne d.year hpos hle hfebruary

/-- A date of the calendar falls where it says. -/
theorem IsOfCalendar.fallsOn {d : Date} (h : d.IsOfCalendar) :
    FallsOn (d.toDays + 719468) d.marchYear d.marchMonth ((d.day : Int) - 1) := by
  have hpos := h.day_pos
  have hle := h.day_le
  have hdays := daysInMonth_eq d h.month_pos h.month_le
  have hmonth : 0 ≤ d.marchMonth ∧ d.marchMonth ≤ 11 := by
    rw [marchMonth]
    omega
  have hyear : daysBeforeYear d.marchYear + 365 ≤ daysBeforeYear (d.marchYear + 1) ∧
      daysBeforeYear (d.marchYear + 1) ≤ daysBeforeYear d.marchYear + 366 := by
    rw [daysBeforeYear, daysBeforeYear]
    omega
  have heq := d.toDays_eq
  obtain ⟨hmonth0, hmonth11⟩ := hmonth
  split at hdays
  next hlast =>
    refine ⟨hmonth0, hmonth11, by omega, ?_, heq, ?_⟩
    · rw [hlast, daysBeforeMonth, daysBeforeMonth]
      omega
    · rw [heq, hlast, daysBeforeMonth]
      omega
  next hearlier =>
    refine ⟨hmonth0, hmonth11, by omega, by omega, heq, ?_⟩
    have hmonths := daysBeforeMonth_mono (show d.marchMonth + 1 ≤ 11 by omega)
    have hfebruary : daysBeforeMonth 11 = 337 := rfl
    omega

theorem marchMonths_ofDays {n year month day : Int} (hfalls : FallsOn (n + 719468) year month day)
    (hmonths : 12 * (ofDays n).year + (ofDays n).month = 12 * year + month + 3)
    (hpos : 1 ≤ (ofDays n).month) (hle : (ofDays n).month ≤ 12) :
    (ofDays n).marchYear = year ∧ (ofDays n).marchMonth = month := by
  have hmarch := months_eq hpos hle
  have hlow := hfalls.month_nonneg
  have hhigh := hfalls.month_le
  have hmonth : 0 ≤ (ofDays n).marchMonth ∧ (ofDays n).marchMonth ≤ 11 := by
    rw [marchMonth]
    omega
  omega

theorem isOfCalendar_ofDays (n : Int) : (ofDays n).IsOfCalendar := by
  obtain ⟨year, month, day, hfalls, hmonths, hpos, hle, hday⟩ := exists_fallsOn n
  obtain ⟨hyear, hmonth⟩ := marchMonths_ofDays hfalls hmonths hpos hle
  have hnonneg := hfalls.day_nonneg
  have hdays := daysInMonth_eq (ofDays n) hpos hle
  refine ⟨hpos, hle, by omega, ?_⟩
  rw [hyear, hmonth] at hdays
  split at hdays
  next hlast =>
    have hnext := hfalls.lt_next
    rw [hfalls.eq_add, hlast, daysBeforeMonth] at hnext
    omega
  next =>
    have hlt := hfalls.day_lt
    omega

theorem toDays_ofDays (n : Int) : (ofDays n).toDays = n := by
  obtain ⟨year, month, day, hfalls, hmonths, hpos, hle, hday⟩ := exists_fallsOn n
  obtain ⟨hyear, hmonth⟩ := marchMonths_ofDays hfalls hmonths hpos hle
  have heq := (ofDays n).toDays_eq
  have hsum := hfalls.eq_add
  rw [hyear, hmonth, hday] at heq
  omega

theorem IsOfCalendar.ofDays_toDays {d : Date} (h : d.IsOfCalendar) : ofDays d.toDays = d := by
  obtain ⟨year, month, day, hfalls, hmonths, hpos, hle, hday⟩ := exists_fallsOn d.toDays
  have hmonths' := months_eq h.month_pos h.month_le
  have hsame : 12 * year + month = 12 * d.marchYear + d.marchMonth := by
    rcases Int.lt_trichotomy (12 * year + month) (12 * d.marchYear + d.marchMonth) with
      hlt | heq | hgt
    · exact absurd (hfalls.lt_of_months_lt h.fallsOn hlt) (Int.lt_irrefl _)
    · exact heq
    · exact absurd (h.fallsOn.lt_of_months_lt hfalls hgt) (Int.lt_irrefl _)
  have hdays := hfalls.sub_eq_of_months_eq h.fallsOn hsame
  have hdpos := h.month_pos
  have hdle := h.month_le
  obtain ⟨y, m, k⟩ := d
  have hfields (e : Date) (hy : e.year = y) (hm : e.month = m) (hk : e.day = k) :
      e = ⟨y, m, k⟩ := by
    cases e
    subst hy hm hk
    rfl
  dsimp only at hmonths' hdays hdpos hdle hmonths hpos hle hday
  exact hfields _ (by omega) (by omega) (by omega)

end Date

namespace Timestamp

variable {d : Date} {hour minute second nanos : Nat}

/-- A time of day is on its day. -/
theorem date_ofCivil (hd : d.IsOfCalendar) (hhour : hour ≤ 23) (hminute : minute ≤ 59)
    (hsecond : second ≤ 60) : (ofCivil d hour minute second nanos).date = d := by
  have hday : (ofCivil d hour minute second nanos).seconds / secondsPerDay = d.toDays := by
    rw [ofCivil, secondsPerDay]
    split <;> dsimp only <;> omega
  rw [date, hday, hd.ofDays_toDays]

/-- The fields of a whole second give it back, with what was added to it. -/
theorem ofCivil_fields {t : Timestamp} (hcivil : t.IsCivil) (hwhole : t.wholeSecond = t)
    (nanos : Nat) :
    ofCivil t.date (t.secondOfDay / 3600) (t.secondOfDay / 60 % 60) t.second nanos =
      { t with nanos := t.nanos + nanos } := by
  obtain ⟨seconds, own⟩ := t
  have hown : (if nanosPerSecond ≤ own then nanosPerSecond else 0) = own :=
    congrArg Timestamp.nanos hwhole
  have hsecond := second_eq ⟨seconds, own⟩
  rw [ofCivil, date, Date.toDays_ofDays, secondOfDay, secondsPerDay]
  dsimp only at hsecond ⊢
  by_cases hleap : nanosPerSecond ≤ own
  · have hlast : seconds % 60 = 59 := hcivil hleap
    rw [if_pos hleap] at hown hsecond
    rw [if_pos (by omega), Timestamp.mk.injEq]
    omega
  · rw [if_neg hleap] at hown hsecond
    rw [if_neg (by omega), Timestamp.mk.injEq]
    omega

end Timestamp

end CatalogQuery.Time
